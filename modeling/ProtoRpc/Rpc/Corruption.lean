import ProtoRpc.Foundation.Trailer
import ProtoRpc.Rpc.CodecEncoding
import ProtoRpc.Rpc.ParseBounds

/-!
Corrupted frames. The body that `fillEmptyBuffer` builds is tag and payload with their
checksum behind them, and `validateChecksum` divides what it gets in the same place, so
what corrupts the body a little is refused there: protobuf does not get to see it.
-/
namespace ProtoRpc.ProtoRpcCodec
open Trailer

variable {w : Wire} {mem : Int → UInt8}

/-- Tag, payload and checksum: the frame without its length. -/
def body (frame : List UInt8) : List UInt8 := frame.drop kHeaderLen.toNat

theorem body_frameBytes (hadler : w.Rfc1950) (m : RpcMessage) :
    body (frameBytes w m) = (tag ++ w.serialize m) ++ trailer (tag ++ w.serialize m) := by
  rw [body, frameBytes, trailer, hadler, List.append_assoc, List.append_assoc,
    ← List.append_assoc tag]
  exact List.drop_left' (BigEndian.length_encode 4 _)

/-- A checksum that is not the one of the bytes before it stops `parse`. -/
theorem parseAt_mismatch (hadler : w.Rfc1950) {bytes : List UInt8} (hmem : Holds mem bytes)
    (hhi : (bytes.length : Int) < 2 ^ 32) (h : Mismatch bytes) :
    parseAt w mem bytes.length = ⟨(.kCheckSumError, none), checksumReads bytes.length⟩ := by
  obtain ⟨data, stored, rfl, hlen, hne⟩ := h
  have hlo : kMinMessageLen ≤ ((data ++ stored).length : Int) := by
    rw [List.length_append, hlen, kMinMessageLen]
    omega
  have hvalidate := validateChecksum_at (w := w) hmem rfl hlo hhi
  rw [validateChecksum_eq w hlen, hadler, Except.ok.injEq] at hvalidate
  have hinvalid : (validateChecksumAt w mem (data ++ stored).length).value ≠ true := by
    rw [← hvalidate]
    exact fun hvalid => hne (of_decide_eq_true hvalid)
  rw [parseAt_eq, if_neg hinvalid]

/-- A frame with one octet of its body replaced, or two neighbours swapped, is refused,
and `parseFromBuffer` is not called. -/
theorem corruption_detected (hadler : w.Rfc1950) {m : RpcMessage} {buf out : Buffer} (hbuf : buf.WF)
    (hfill : fillEmptyBuffer w buf m = .ok out) {bytes : List UInt8}
    (hcorrupts : Corrupts (body out.content) bytes) (hmem : Holds mem bytes) :
    (parseAt w mem bytes.length).value = (.kCheckSumError, none) ∧
      (∀ data dataLen, .parseFromBuffer data dataLen ∉ (parseAt w mem bytes.length).accesses) ∧
      parse w bytes bytes.length = .ok (.kCheckSumError, none) := by
  obtain ⟨hfit, hcontent⟩ := fillEmptyBuffer_inv hbuf hfill
  rw [hcontent, body_frameBytes hadler] at hcorrupts
  have hhi : (bytes.length : Int) < 2 ^ 32 := by
    rw [hcorrupts.length, List.length_append, List.length_append, length_trailer]
    simp only [Encodable, kChecksumLen, intMax] at hfit
    simp only [tag, List.length_cons, List.length_nil]
    omega
  have hlo : kMinMessageLen ≤ (bytes.length : Int) := by
    rw [hcorrupts.length, List.length_append, length_trailer, kMinMessageLen]
    omega
  have hparse := parseAt_mismatch hadler hmem hhi (corrupts_trailer hcorrupts)
  refine ⟨by rw [hparse], ?_, ?_⟩
  · rw [hparse]
    intro data dataLen hcall
    simp [checksumReads] at hcall
  · rw [parse_at hadler hmem rfl hlo hhi, hparse]

/-- The last octet of the tag and the first of the checksum of a frame without payload
have changed places. -/
theorem corruption_detected_straddling : ∃ (buf out : Buffer) (bytes : List UInt8), buf.WF ∧
    fillEmptyBuffer protobufWire buf .new = .ok out ∧ Corrupts (body out.content) bytes ∧
    bytes = [0x52, 0x50, 0x43, 0x02, 0x30, 0xf2, 0x01, 0x16] ∧
    (parseAt protobufWire (fun i => bytes.getD i.toNat 0) bytes.length).value =
      (.kCheckSumError, none) := by
  obtain ⟨out, hout, -, hcontent⟩ :=
    fillEmptyBuffer_spec (w := protobufWire) (m := .new) (by decide) 0
  have hbody : body out.content = [0x52, 0x50, 0x43, 0x30, 0x02, 0xf2, 0x01, 0x16] := by
    rw [hcontent]
    decide
  have hcorrupts : Corrupts (body out.content)
      [0x52, 0x50, 0x43, 0x02, 0x30, 0xf2, 0x01, 0x16] := by
    rw [hbody]
    exact .swap [0x52, 0x50, 0x43] [0xf2, 0x01, 0x16] (by decide)
  have hmem : Holds (fun i => [0x52, 0x50, 0x43, 0x02, 0x30, 0xf2, 0x01, 0x16].getD i.toNat 0)
      [0x52, 0x50, 0x43, 0x02, 0x30, 0xf2, 0x01, 0x16] :=
    fun i hi => (List.getElem_eq_getD (h := hi) 0).symm
  exact ⟨.new 0, out, _, Buffer.new_wf 0, hout, hcorrupts, rfl,
    (corruption_detected protobufWire_rfc1950 (Buffer.new_wf 0) hout hcorrupts hmem).1⟩

end ProtoRpc.ProtoRpcCodec
