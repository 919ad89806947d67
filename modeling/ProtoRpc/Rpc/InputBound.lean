import Mathlib.Logic.Relation
import ProtoRpc.Rpc.Channel
import ProtoRpc.Rpc.CodecStream

/-!
The input buffer of a connection over whole runs. What is left unread is the
stream received so far without its longest prefix of well-formed frames. The
decoding loop breaks at a malformed head in the same way as at an incomplete
frame, and nothing closes the connection there, so every later read adds to the
buffer.
-/
namespace ProtoRpc

open ProtoRpcCodec

section
variable {σ : Type} (w : Wire)
  (onRpcMessage : σ × TcpConnection → RpcMessage → Except Fault (σ × TcpConnection))

/-- `RpcChannel::onMessage`. The codec holds the input buffer while it runs, and
what a callback does to the connection leaves that buffer alone. -/
def channelOnMessage (s : σ) (c : TcpConnection) : Except Fault (σ × TcpConnection) := do
  let ((s, c'), input) ← onMessage w onRpcMessage (s, c) c.inputBuffer
  return (s, { c' with inputBuffer := input })

/-- A connection, the state of what it calls, and the bytes it has received. -/
structure Receiver (σ : Type) where
  app : σ
  conn : TcpConnection
  received : List UInt8

/-- One read from the socket, or anything else that happens to the connection. -/
inductive Receives (v : Receiver σ) : Receiver σ → Prop where
  | read {bytes : List UInt8} (hroom : bytes.length ≤ v.conn.inputBuffer.readCapacity) {s : σ}
      {c : TcpConnection} (hread : TcpConnection.handleRead (channelOnMessage w onRpcMessage)
        v.app v.conn (.data bytes) = .ok (s, c)) :
      Receives v ⟨s, c, v.received ++ bytes⟩
  | readError {errno : Nat} {s : σ} {c : TcpConnection}
      (hread : TcpConnection.handleRead (channelOnMessage w onRpcMessage)
        v.app v.conn (.error errno) = .ok (s, c)) :
      Receives v ⟨s, c, v.received⟩
  | other (s : σ) {c : TcpConnection} (hinput : c.inputBuffer = v.conn.inputBuffer) :
      Receives v ⟨s, c, v.received⟩

end

/-- A frame head that the decoder refuses: the length is out of range, or the
frame is complete and is none. -/
def Malformed (w : Wire) (bytes : List UInt8) : Prop :=
  kMinMessageLen + kHeaderLen ≤ bytes.length ∧
    (kMaxMessageLen < sizeField bytes ∨ sizeField bytes < kMinMessageLen ∨
      (kHeaderLen + sizeField bytes ≤ bytes.length ∧
        ∀ m, ¬ IsFrame w (bytes.take (kHeaderLen + sizeField bytes).toNat) m))

theorem isFrame_sizeField {w : Wire} {f t : List UInt8} {m : RpcMessage} (h : IsFrame w f m) :
    ∃ L : Nat, sizeField (f ++ t) = L ∧ 8 ≤ L ∧ (L : Int) ≤ kMaxMessageLen ∧
      f.length = 4 + L := by
  obtain ⟨L, payload, hL, hmax, hpayload, -, rfl⟩ := h
  refine ⟨L, ?_, hL, hmax, ?_⟩
  · simp only [List.append_assoc]
    exact sizeField_encode hmax _
  · simp only [List.length_append, BigEndian.length_encode, hpayload, tag, List.length_cons,
      List.length_nil]
    omega

theorem stuck_of_malformed {w : Wire} {bytes : List UInt8} (h : Malformed w bytes) :
    (wireFraming w).Stuck bytes := by
  rintro f m t hf rfl
  obtain ⟨L, hsize, hL, hmax, hlen⟩ := isFrame_sizeField (t := t) hf
  obtain ⟨-, hbad⟩ := h
  rw [hsize] at hbad
  rcases hbad with hbad | hbad | ⟨-, hbad⟩
  · omega
  · simp only [kMinMessageLen] at hbad
    omega
  · refine hbad m ?_
    have htake : (kHeaderLen + (L : Int)).toNat = f.length := by
      simp only [kHeaderLen, hlen]
      omega
    rw [htake, List.take_left]
    exact hf

/-- A rest as long as the largest frame is not an incomplete one. -/
theorem malformed_of_stuck {w : Wire} {bytes : List UInt8} (h : (wireFraming w).Stuck bytes)
    (hlen : kHeaderLen + kMaxMessageLen ≤ (bytes.length : Int)) : Malformed w bytes := by
  refine ⟨?_, ?_⟩
  · simp only [kHeaderLen, kMaxMessageLen, kMinMessageLen] at hlen ⊢
    omega
  · by_cases hmax : kMaxMessageLen < sizeField bytes
    · exact Or.inl hmax
    · refine Or.inr (Or.inr ⟨by omega, ?_⟩)
      intro m hm
      exact h _ m _ hm (List.take_append_drop _ _).symm

section
variable {σ : Type} {w : Wire}
  {onRpcMessage : σ × TcpConnection → RpcMessage → Except Fault (σ × TcpConnection)}

/-- The unread bytes are what the received stream has after its frames. -/
structure InputInvariant (w : Wire) (v : Receiver σ) : Prop where
  wf : v.conn.inputBuffer.WF
  decoded : ∃ msgs, (wireFraming w).Decoding v.received msgs v.conn.inputBuffer.content

theorem channelOnMessage_spec (hadler : w.Rfc1950)
    (onRpcMessage : σ × TcpConnection → RpcMessage → Except Fault (σ × TcpConnection)) (s : σ)
    {c : TcpConnection} (h : c.inputBuffer.WF) :
    ∃ msgs input, (wireFraming w).Decoding c.inputBuffer.content msgs input.content ∧ input.WF ∧
      channelOnMessage w onRpcMessage s c = (msgs.foldlM onRpcMessage (s, c)).map
        (fun p => (p.1, { p.2 with inputBuffer := input })) := by
  obtain ⟨msgs, input, hd, hwf, hrun⟩ :=
    onMessage_spec w onRpcMessage c.inputBuffer h (Or.inl hadler)
  refine ⟨msgs, input, hd, hwf, ?_⟩
  rw [channelOnMessage, hrun]
  cases msgs.foldlM onRpcMessage (s, c) <;> rfl

theorem InputInvariant.step {v v' : Receiver σ} (hadler : w.Rfc1950) (h : InputInvariant w v)
    (hstep : Receives w onRpcMessage v v') : InputInvariant w v' := by
  obtain ⟨msgs, hd⟩ := h.decoded
  cases hstep with
  | @read bytes hroom s c hread =>
      by_cases hbytes : bytes = []
      · subst hbytes
        obtain ⟨hwf, hcontent⟩ := TcpConnection.handleRead_nothing h.wf
          (fun _ heq => (Buffer.ReadResult.data.inj heq).symm) hread
        exact ⟨hwf, msgs, by rw [List.append_nil, hcontent]; exact hd⟩
      · obtain ⟨input, hwf, hcontent, hrun⟩ := TcpConnection.handleRead_data
          (channelOnMessage w onRpcMessage) h.wf hbytes
        obtain ⟨more, rest, hmore, hrest, hcallback⟩ := channelOnMessage_spec hadler onRpcMessage
          v.app (c := { v.conn with inputBuffer := input }) hwf
        rw [hrun, hcallback] at hread
        rw [hcontent] at hmore
        cases hfold : more.foldlM onRpcMessage (v.app, { v.conn with inputBuffer := input }) with
        | error fault =>
            rw [hfold] at hread
            cases hread
        | ok p =>
            rw [hfold] at hread
            cases hread
            exact ⟨hrest, msgs ++ more, Framing.decoding_append hd hmore⟩
  | @readError errno s c hread =>
      obtain ⟨hwf, hcontent⟩ := TcpConnection.handleRead_nothing h.wf
        (fun _ heq => by cases heq) hread
      exact ⟨hwf, msgs, hcontent ▸ hd⟩
  | other s hinput =>
      refine ⟨?_, msgs, ?_⟩
      · exact hinput ▸ h.wf
      · exact hinput ▸ hd

theorem inputInvariant_of_reaches (hadler : w.Rfc1950) {s : σ} {c : TcpConnection}
    (hwf : c.inputBuffer.WF) (hempty : c.inputBuffer.content = []) {v : Receiver σ}
    (h : Relation.ReflTransGen (Receives w onRpcMessage) ⟨s, c, []⟩ v) : InputInvariant w v := by
  induction h with
  | refl =>
      refine ⟨hwf, [], ?_⟩
      rw [hempty]
      exact Framing.decoding_stuck Framing.stuck_nil
  | tail _ hstep ih => exact ih.step hadler hstep

end

/-- In every state of a run the bound holds, or the connection has left
`kConnected`, exactly when the bytes from a malformed head on are fewer than the
bound, or the connection has left `kConnected`. -/
theorem input_bounded_iff {σ : Type} (w : Wire) (hadler : w.Rfc1950)
    (onRpcMessage : σ × TcpConnection → RpcMessage → Except Fault (σ × TcpConnection))
    (s : σ) (c : TcpConnection) (hwf : c.inputBuffer.WF) (hempty : c.inputBuffer.content = [])
    (v : Receiver σ) (hreach : Relation.ReflTransGen (Receives w onRpcMessage) ⟨s, c, []⟩ v) :
    ((v.conn.inputBuffer.readableBytes : Int) < kHeaderLen + kMaxMessageLen ∨
        v.conn.state ≠ .kConnected) ↔
      ((∀ frames msgs bad, List.Forall₂ (IsFrame w) frames msgs →
          v.received = frames.flatten ++ bad → Malformed w bad →
          (bad.length : Int) < kHeaderLen + kMaxMessageLen) ∨
        v.conn.state ≠ .kConnected) := by
  obtain ⟨hbuf, msgs, hd⟩ := inputInvariant_of_reaches hadler hwf hempty hreach
  rw [← Buffer.length_content hbuf]
  refine or_congr_left ?_
  constructor
  · intro hbound frames ms bad hframes heq hbad
    have hd' : (wireFraming w).Decoding v.received ms bad :=
      ⟨frames, hframes, heq, stuck_of_malformed hbad⟩
    rw [(Framing.decoding_unique hd' hd).2]
    exact hbound
  · intro hbad
    obtain ⟨frames, hframes, heq, hstuck⟩ := hd
    by_contra hlong
    exact hlong (hbad frames msgs _ hframes heq (malformed_of_stuck hstuck (by omega)))

section
variable {σ : Type} {w : Wire}

theorem stuck_of_short {bytes : List UInt8} (h : bytes.length < 8) :
    (wireFraming w).Stuck bytes := by
  rintro f m t hf rfl
  obtain ⟨L, -, hL, -, hlen⟩ := isFrame_sizeField (t := t) hf
  rw [List.length_append] at h
  omega

/-- A stream without a frame is read octet by octet, and the callback is not
called. -/
theorem reads_stuck (hadler : w.Rfc1950)
    (onRpcMessage : σ × TcpConnection → RpcMessage → Except Fault (σ × TcpConnection)) (s : σ)
    {c : TcpConnection} (hwf : c.inputBuffer.WF) (hempty : c.inputBuffer.content = [])
    (stream : List UInt8) (hstuck : ∀ p, p <+: stream → (wireFraming w).Stuck p) :
    ∃ c', Relation.ReflTransGen (Receives w onRpcMessage) ⟨s, c, []⟩ ⟨s, c', stream⟩ ∧
      c'.state = c.state := by
  induction stream using List.reverseRecOn with
  | nil => exact ⟨c, .refl, rfl⟩
  | append_singleton p b ih =>
      obtain ⟨d, hreach, hstate⟩ := ih fun q hq => hstuck q (hq.trans (List.prefix_append _ _))
      obtain ⟨hd, msgs, hdecoded⟩ := inputInvariant_of_reaches hadler hwf hempty hreach
      have hp := Framing.decoding_stuck (hstuck p (List.prefix_append _ _))
      have hcontent : d.inputBuffer.content = p := (Framing.decoding_unique hdecoded hp).2
      obtain ⟨input, hinput, hbytes, hrun⟩ := TcpConnection.handleRead_data
        (channelOnMessage w onRpcMessage) hd (List.cons_ne_nil b [])
      obtain ⟨more, rest, hmore, hrest, hcallback⟩ := channelOnMessage_spec hadler onRpcMessage s
        (c := { d with inputBuffer := input }) hinput
      have hnone := Framing.decoding_stuck (hstuck (p ++ [b]) (List.prefix_refl _))
      rw [hbytes, hcontent] at hmore
      obtain ⟨rfl, -⟩ := Framing.decoding_unique hmore hnone
      have hroom : [b].length ≤ d.inputBuffer.readCapacity := by
        rw [Buffer.readCapacity, Buffer.extrabufSize, List.length_singleton]
        split <;> omega
      exact ⟨_, hreach.tail (.read hroom ((hrun s).trans hcallback)), hstate⟩

end

/-- The channel of a server on which no service is registered. -/
def refuseRequests (w : Wire) (s : Unit × TcpConnection) (m : RpcMessage) :
    Except Fault (Unit × TcpConnection) :=
  if m.type = .request then do
    let c ← send w (some s.2) true (.wrote 0) (RpcChannel.errorReply m.id .noService)
    return ((), c)
  else
    .ok s

/-- Five octets that start a frame. -/
theorem input_bounded_of_started_frame :
    ∃ v, Relation.ReflTransGen (Receives protobufWire (refuseRequests protobufWire))
        ⟨(), established, []⟩ v ∧ v.received = [0, 0, 0, 8, 82] ∧
      ((v.conn.inputBuffer.readableBytes : Int) < kHeaderLen + kMaxMessageLen ∨
        v.conn.state ≠ .kConnected) := by
  obtain ⟨c, hreach, -⟩ := reads_stuck protobufWire_rfc1950 (refuseRequests protobufWire) ()
    (c := established) (Buffer.new_wf _) (Buffer.new_content _) [0, 0, 0, 8, 82]
    (fun p hp => stuck_of_short (Nat.lt_of_le_of_lt hp.length_le (by decide)))
  refine ⟨_, hreach, rfl, ?_⟩
  refine (input_bounded_iff protobufWire protobufWire_rfc1950 (refuseRequests protobufWire) ()
    established (Buffer.new_wf _) (Buffer.new_content _) _ hreach).mpr (Or.inl ?_)
  intro frames msgs bad _ heq _
  have hlen := congrArg List.length heq
  simp only [List.length_append, List.length_cons, List.length_nil] at hlen
  simp only [kHeaderLen, kMaxMessageLen]
  omega

/-- A length out of range, and `n` octets behind it. -/
def hostile (n : Nat) : List UInt8 := [127, 255, 255, 255] ++ List.replicate n 0

theorem stuck_hostile {w : Wire} (n : Nat) (p : List UInt8) (hp : p <+: hostile n) :
    (wireFraming w).Stuck p := by
  by_cases hshort : p.length < 8
  · exact stuck_of_short hshort
  · have hfour : p.take 4 = [127, 255, 255, 255] := by
      obtain ⟨t, ht⟩ := hp
      have htake := congrArg (List.take 4) ht
      rw [List.take_append_of_le_length (by omega)] at htake
      exact htake
    have hsize : sizeField p = 2147483647 := by
      rw [sizeField, hfour]
      decide
    refine stuck_of_malformed ⟨?_, Or.inl ?_⟩
    · simp only [kMinMessageLen, kHeaderLen]
      omega
    · rw [hsize]
      decide

/-- The connection stays up with more unread bytes than any frame has. -/
theorem input_hoarded :
    ∃ v, Relation.ReflTransGen (Receives protobufWire (refuseRequests protobufWire))
        ⟨(), established, []⟩ v ∧ v.received = hostile (64 * 1024 * 1024) ∧
      ¬ ((v.conn.inputBuffer.readableBytes : Int) < kHeaderLen + kMaxMessageLen ∨
        v.conn.state ≠ .kConnected) := by
  obtain ⟨c, hreach, hstate⟩ := reads_stuck protobufWire_rfc1950 (refuseRequests protobufWire) ()
    (c := established) (Buffer.new_wf _) (Buffer.new_content _) (hostile (64 * 1024 * 1024))
    (stuck_hostile _)
  obtain ⟨hwf, msgs, hd⟩ := inputInvariant_of_reaches protobufWire_rfc1950 (c := established)
    (Buffer.new_wf _) (Buffer.new_content _) hreach
  have hwhole := Framing.decoding_stuck
    (stuck_hostile (w := protobufWire) (64 * 1024 * 1024) _ (List.prefix_refl _))
  have hlen := Buffer.length_content hwf
  rw [(Framing.decoding_unique hd hwhole).2, hostile, List.length_append,
    List.length_replicate] at hlen
  refine ⟨_, hreach, rfl, ?_⟩
  rw [not_or, not_not, ← hlen, hstate]
  refine ⟨?_, rfl⟩
  simp only [kHeaderLen, kMaxMessageLen, List.length_cons, List.length_nil]
  omega

end ProtoRpc
