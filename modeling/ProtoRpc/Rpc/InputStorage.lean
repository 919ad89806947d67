import ProtoRpc.Rpc.InputBound

/-!
How much storage the input buffer of an RPC connection takes. The vector of a `Buffer`
never shrinks. `readFd` makes it longer only for what spilled into `extrabuf`, and
`makeSpace` only where less room than that lies before the unread bytes; so its length is
bounded by the unread bytes that a read has found, and not by what was ever received.
-/
namespace ProtoRpc

namespace Buffer
variable {b b' : Buffer} {data : List UInt8}

def storage (b : Buffer) : Nat := b.buffer.length

theorem copyTo_length {dst src v : List UInt8} {pos : Nat} (h : copyTo dst pos src = .ok v) :
    v.length = dst.length := by
  obtain ⟨_, hfit, hv⟩ := bind_ok_inv h
  have hpos := require_inv hfit
  cases hv
  simp only [List.length_append, List.length_take, List.length_drop]
  omega

theorem store_storage (h : b.store data = .ok b') :
    b'.storage = b.storage ∧ b'.readerIndex = b.readerIndex ∧ b'.writerIndex = b.writerIndex := by
  obtain ⟨mem, hmem, hb'⟩ := bind_ok_inv h
  cases hb'
  exact ⟨copyTo_length hmem, rfl, rfl⟩

theorem hasWritten_storage {len : Nat} (h : b.hasWritten len = .ok b') :
    b'.storage = b.storage := by
  obtain ⟨_, -, hb'⟩ := bind_ok_inv h
  cases hb'
  rfl

theorem retrieve_storage {len : Nat} (h : b.retrieve len = .ok b') : b'.storage = b.storage := by
  obtain ⟨_, -, hb'⟩ := bind_ok_inv h
  split at hb' <;> cases hb' <;> rfl

/-- The vector grows only where the room before and behind the unread bytes is too small. -/
theorem makeSpace_storage {len : Nat} (h : b.makeSpace len = .ok b') :
    b'.storage = b.storage ∨
      (b.writableBytes + b.prependableBytes < len + kCheapPrepend ∧
        b'.storage ≤ max b.storage (b.writerIndex + len)) := by
  rw [makeSpace] at h
  split at h
  · rename_i hsmall
    cases h
    refine Or.inr ⟨hsmall, ?_⟩
    simp only [storage, resize, List.length_append, List.length_take, List.length_replicate]
    omega
  · obtain ⟨_, -, h⟩ := bind_ok_inv h
    obtain ⟨moved, hmoved, h⟩ := bind_ok_inv h
    obtain ⟨_, -, h⟩ := bind_ok_inv h
    cases h
    exact Or.inl (copyTo_length hmoved)

theorem ensureWritableBytes_storage {len : Nat} (h : b.ensureWritableBytes len = .ok b') :
    b'.storage = b.storage ∨
      (b.writableBytes + b.prependableBytes < len + kCheapPrepend ∧
        b'.storage ≤ max b.storage (b.writerIndex + len)) := by
  rw [ensureWritableBytes] at h
  split at h
  · obtain ⟨b₁, hmake, h⟩ := bind_ok_inv h
    obtain ⟨_, -, h⟩ := bind_ok_inv h
    cases h
    exact makeSpace_storage hmake
  · obtain ⟨b₁, hsame, h⟩ := bind_ok_inv h
    obtain ⟨_, -, h⟩ := bind_ok_inv h
    cases hsame
    cases h
    exact Or.inl rfl

theorem append_storage (h : b.append data = .ok b') :
    b'.storage = b.storage ∨
      (b.writableBytes + b.prependableBytes < data.length + kCheapPrepend ∧
        b'.storage ≤ max b.storage (b.writerIndex + data.length)) := by
  obtain ⟨b₁, hroom, h⟩ := bind_ok_inv h
  obtain ⟨b₂, hstore, h⟩ := bind_ok_inv h
  rw [hasWritten_storage h, (store_storage hstore).1]
  exact ensureWritableBytes_storage hroom

/-- A read that spills finds less than `extrabuf` behind the unread bytes; and it makes the
vector longer only with less than that before them. -/
theorem readFd_storage (h : b.WF) {bytes : List UInt8} (hroom : bytes.length ≤ b.readCapacity)
    {n : Int} (hread : b.readFd (.data bytes) = .ok (n, b')) :
    b'.storage ≤ max b.storage (b.readableBytes + 3 * extrabufSize + kCheapPrepend - 2) := by
  obtain ⟨b₁, hstore, hrest⟩ := bind_ok_inv hread
  obtain ⟨hstorage, hreader, hwriter⟩ := store_storage hstore
  dsimp only at hrest
  split at hrest
  · cases hrest
    change b₁.storage ≤ _
    omega
  · rename_i hspill
    obtain ⟨b₂, happend, hrest⟩ := bind_ok_inv hrest
    cases hrest
    have hsmall : b.writableBytes < extrabufSize := by
      rw [readCapacity] at hroom
      split at hroom
      · assumption
      · exact absurd hroom hspill
    rw [readCapacity, if_pos hsmall] at hroom
    have hlength : (bytes.drop b.writableBytes).length = bytes.length - b.writableBytes :=
      List.length_drop
    have hlayout : b.storage = b.readerIndex + b.readableBytes + b.writableBytes := by
      have hrw := h.reader_le
      have hws := h.writer_le
      simp only [storage, readableBytes, writableBytes]
      omega
    rcases append_storage happend with hsame | ⟨hgrow, hle⟩
    · have hkept : b'.storage = b₁.storage := hsame
      omega
    · have hfull : 0 + b₁.readerIndex < (bytes.drop b.writableBytes).length + kCheapPrepend := by
        simpa only [writableBytes, prependableBytes, Nat.sub_self] using hgrow
      have hgrown : b'.storage ≤ max b₁.storage (b₁.storage + (bytes.drop b.writableBytes).length) :=
        hle
      simp only [kCheapPrepend] at hfull ⊢
      omega

end Buffer
open ProtoRpcCodec

section
variable {σ : Type} {w : Wire} {messageCallback : σ → RpcMessage → Except Fault σ}

theorem onMessageLoop_storage {fuel : Nat} {s s' : σ} {b b' : Buffer}
    (h : onMessageLoop w messageCallback fuel s b = .ok (s', b')) : b'.storage = b.storage := by
  induction fuel generalizing s b with
  | zero =>
      cases h
      rfl
  | succ fuel ih =>
      rw [onMessageLoop] at h
      obtain ⟨next, -, h⟩ := bind_ok_inv h
      cases next with
      | none =>
          cases h
          rfl
      | some frame =>
          obtain ⟨message, n⟩ := frame
          obtain ⟨s₁, -, h⟩ := bind_ok_inv h
          obtain ⟨b₁, hretrieve, h⟩ := bind_ok_inv h
          rw [ih h, Buffer.retrieve_storage hretrieve]

end

section
variable {σ : Type} {w : Wire}
  {onRpcMessage : σ × TcpConnection → RpcMessage → Except Fault (σ × TcpConnection)}

theorem channelOnMessage_storage {s s' : σ} {c c' : TcpConnection}
    (h : channelOnMessage w onRpcMessage s c = .ok (s', c')) :
    c'.inputBuffer.storage = c.inputBuffer.storage := by
  obtain ⟨⟨⟨s₁, c₁⟩, input⟩, hloop, h⟩ := bind_ok_inv h
  cases h
  exact onMessageLoop_storage hloop

/-- The callback leaves the vector as the read has left it. -/
theorem handleRead_storage {s s' : σ} {c c' : TcpConnection} {r : Buffer.ReadResult}
    (h : c.handleRead (channelOnMessage w onRpcMessage) s r = .ok (s', c')) :
    ∃ n input, c.inputBuffer.readFd r = .ok (n, input) ∧
      c'.inputBuffer.storage = input.storage := by
  obtain ⟨⟨n, input⟩, hread, h⟩ := bind_ok_inv h
  refine ⟨n, input, hread, ?_⟩
  dsimp only at h
  split at h
  · exact channelOnMessage_storage h
  · split at h
    · obtain ⟨c₁, hclose, h⟩ := bind_ok_inv h
      cases h
      obtain ⟨-, rfl⟩ := TcpConnection.handleClose_inv hclose
      rfl
    · cases h
      rfl

end

/-- A head that is refused stays refused with what comes behind it. -/
theorem Malformed.append {w : Wire} {bytes : List UInt8} (h : Malformed w bytes)
    (more : List UInt8) : Malformed w (bytes ++ more) := by
  obtain ⟨hlen, hbad⟩ := h
  have hlonger : (bytes.length : Int) ≤ ((bytes ++ more).length : Int) := by
    rw [List.length_append]
    omega
  have hsize : sizeField (bytes ++ more) = sizeField bytes := by
    have hfour : 4 ≤ bytes.length := by
      simp only [kMinMessageLen, kHeaderLen] at hlen
      omega
    rw [sizeField, sizeField, List.take_append_of_le_length hfour]
  refine ⟨hlen.trans hlonger, ?_⟩
  rw [hsize]
  rcases hbad with hlarge | hsmall | ⟨hcomplete, hnone⟩
  · exact Or.inl hlarge
  · exact Or.inr (Or.inl hsmall)
  · refine Or.inr (Or.inr ⟨hcomplete.trans hlonger, ?_⟩)
    rw [List.take_append_of_le_length (Int.toNat_le.mpr hcomplete)]
    exact hnone

/-- From a malformed head on at least as many bytes have come as the largest frame has. -/
def Hoards (w : Wire) (received : List UInt8) : Prop :=
  ∃ frames msgs bad, List.Forall₂ (IsFrame w) frames msgs ∧ received = frames.flatten ++ bad ∧
    Malformed w bad ∧ kHeaderLen + kMaxMessageLen ≤ (bad.length : Int)

theorem Hoards.append {w : Wire} {received : List UInt8} (h : Hoards w received)
    (more : List UInt8) : Hoards w (received ++ more) := by
  obtain ⟨frames, msgs, bad, hframes, rfl, hbad, hlen⟩ := h
  refine ⟨frames, msgs, bad ++ more, hframes, List.append_assoc _ _ _, hbad.append more, ?_⟩
  rw [List.length_append]
  omega

section
variable {σ : Type} {w : Wire}
  {onRpcMessage : σ × TcpConnection → RpcMessage → Except Fault (σ × TcpConnection)}

/-- What a read can make of a vector in which the largest frame waits for its last octet. -/
def storageBound : Nat := (kHeaderLen + kMaxMessageLen).toNat + 3 * Buffer.extrabufSize + 5

/-- Unless the peer has had the connection hoard, the vector is within the bound. -/
structure Stored (w : Wire) (v : Receiver σ) : Prop where
  input : InputInvariant w v
  storage : Hoards w v.received ∨ v.conn.inputBuffer.storage ≤ storageBound

theorem Stored.unread_lt {v : Receiver σ} (h : Stored w v) (hshort : ¬ Hoards w v.received) :
    (v.conn.inputBuffer.readableBytes : Int) < kHeaderLen + kMaxMessageLen := by
  obtain ⟨msgs, frames, hframes, heq, hstuck⟩ := h.input.decoded
  rw [← Buffer.length_content h.input.wf]
  by_contra hlong
  have hlong : kHeaderLen + kMaxMessageLen ≤ (v.conn.inputBuffer.content.length : Int) := by omega
  exact hshort ⟨frames, msgs, _, hframes, heq, malformed_of_stuck hstuck hlong, hlong⟩

theorem Stored.step {v v' : Receiver σ} (hadler : w.Rfc1950) (h : Stored w v)
    (hstep : Receives w onRpcMessage v v') : Stored w v' := by
  refine ⟨h.input.step hadler hstep, ?_⟩
  cases hstep with
  | @read bytes hroom s c hread =>
      by_cases hhoards : Hoards w v.received
      · exact Or.inl (hhoards.append bytes)
      · have hunread := h.unread_lt hhoards
        obtain ⟨n, input, hfd, hkept⟩ := handleRead_storage hread
        have hgrown := Buffer.readFd_storage h.input.wf hroom hfd
        have hbound := h.storage.resolve_left hhoards
        refine Or.inr (Nat.le_trans (Nat.le_of_eq hkept) (hgrown.trans (Nat.max_le.mpr ⟨hbound, ?_⟩)))
        simp only [storageBound, Buffer.kCheapPrepend, kHeaderLen, kMaxMessageLen] at hunread ⊢
        omega
  | @readError errno s c hread =>
      obtain ⟨n, input, hfd, hkept⟩ := handleRead_storage hread
      cases hfd
      exact h.storage.imp_right (Nat.le_trans (Nat.le_of_eq hkept))
  | other s hinput =>
      refine h.storage.imp_right ?_
      rw [hinput]
      exact id

theorem storage_new : (Buffer.new Buffer.kInitialSize).storage ≤ storageBound := by
  have hinitial : Buffer.kInitialSize = 1024 * 4 := by unfold Buffer.kInitialSize; rfl
  simp only [Buffer.storage, Buffer.new, List.length_replicate, hinitial]
  decide

theorem stored_of_reaches (hadler : w.Rfc1950) {s : σ} {c : TcpConnection}
    (hc : c.inputBuffer = .new Buffer.kInitialSize) {v : Receiver σ}
    (hreach : Relation.ReflTransGen (Receives w onRpcMessage) ⟨s, c, []⟩ v) : Stored w v := by
  induction hreach with
  | refl =>
      have hreach : Relation.ReflTransGen (Receives w onRpcMessage) ⟨s, c, []⟩ ⟨s, c, []⟩ := .refl
      refine ⟨inputInvariant_of_reaches hadler ?_ ?_ hreach, Or.inr ?_⟩
      · rw [hc]
        exact Buffer.new_wf _
      · rw [hc]
        exact Buffer.new_content _
      · change c.inputBuffer.storage ≤ _
        rw [hc]
        exact storage_new
  | tail _ hstep ih => exact ih.step hadler hstep

end

/-- The input buffer of a connection never takes more than 67 MiB and 9 octets, whatever comes
in on it and however it is cut, unless the peer sends a malformed head and, from that head on,
as much as the largest frame. -/
theorem input_storage_bounded {σ : Type} (w : Wire) (hadler : w.Rfc1950)
    (onRpcMessage : σ × TcpConnection → RpcMessage → Except Fault (σ × TcpConnection))
    (s : σ) (c : TcpConnection) (hc : c.inputBuffer = .new Buffer.kInitialSize) (v : Receiver σ)
    (hreach : Relation.ReflTransGen (Receives w onRpcMessage) ⟨s, c, []⟩ v)
    (hwell : ∀ frames msgs bad, List.Forall₂ (IsFrame w) frames msgs →
      v.received = frames.flatten ++ bad → Malformed w bad →
      (bad.length : Int) < kHeaderLen + kMaxMessageLen) :
    v.conn.inputBuffer.buffer.length ≤ 67 * 1024 * 1024 + 9 := by
  have h := stored_of_reaches hadler hc hreach
  refine (h.storage.resolve_left ?_).trans (by decide)
  rintro ⟨frames, msgs, bad, hframes, heq, hbad, hlong⟩
  have hlen := hwell frames msgs bad hframes heq hbad
  omega

/-- The length of a frame of 8 KiB, and `n` octets of it. -/
def begun (n : Nat) : List UInt8 := [0, 0, 32, 0] ++ List.replicate n 0

theorem stuck_begun {w : Wire} {n : Nat} (hn : n < 8192) (p : List UInt8) (hp : p <+: begun n) :
    (wireFraming w).Stuck p := by
  have hlong : p.length ≤ 4 + n := by
    have hle := hp.length_le
    rw [begun, List.length_append, List.length_replicate] at hle
    exact hle
  by_cases hshort : p.length < 8
  · exact stuck_of_short hshort
  · have hfour : p.take 4 = [0, 0, 32, 0] := by
      obtain ⟨t, ht⟩ := hp
      have htake := congrArg (List.take 4) ht
      rw [List.take_append_of_le_length (by omega)] at htake
      exact htake
    have hsize : sizeField p = 8192 := by
      rw [sizeField, hfour]
      decide
    rintro f m t hf rfl
    obtain ⟨L, hL, -, -, hlength⟩ := isFrame_sizeField (t := t) hf
    rw [List.length_append] at hlong
    omega

/-- Most of a frame of 8 KiB is read octet by octet, and the vector has grown. -/
theorem input_storage_bounded_of_started_frame :
    ∃ v, Relation.ReflTransGen (Receives protobufWire (refuseRequests protobufWire))
        ⟨(), established, []⟩ v ∧ v.received = begun 8000 ∧
      established.inputBuffer.buffer.length < v.conn.inputBuffer.buffer.length ∧
      v.conn.inputBuffer.buffer.length ≤ 67 * 1024 * 1024 + 9 := by
  have hstuck := stuck_begun (w := protobufWire) (n := 8000) (by decide)
  obtain ⟨c, hreach, -⟩ := reads_stuck protobufWire_rfc1950 (refuseRequests protobufWire) ()
    (c := established) (Buffer.new_wf _) (Buffer.new_content _) (begun 8000) hstuck
  obtain ⟨hwf, msgs, hd⟩ := inputInvariant_of_reaches protobufWire_rfc1950 (c := established)
    (Buffer.new_wf _) (Buffer.new_content _) hreach
  have hwhole := Framing.decoding_stuck (hstuck _ (List.prefix_refl _))
  have hunread := Buffer.length_content hwf
  rw [(Framing.decoding_unique hd hwhole).2, begun, List.length_append,
    List.length_replicate] at hunread
  refine ⟨_, hreach, rfl, ?_, ?_⟩
  · have hfits : c.inputBuffer.writerIndex ≤ c.inputBuffer.buffer.length := hwf.writer_le
    have hinitial : established.inputBuffer.buffer.length = 4104 := by
      change (Buffer.new Buffer.kInitialSize).buffer.length = 4104
      rw [Buffer.new, List.length_replicate, Buffer.kInitialSize, Buffer.kCheapPrepend]
    rw [hinitial]
    change 4104 < c.inputBuffer.buffer.length
    simp only [Buffer.readableBytes, List.length_cons, List.length_nil] at hunread
    omega
  · refine input_storage_bounded protobufWire protobufWire_rfc1950 (refuseRequests protobufWire) ()
      established rfl _ hreach ?_
    intro frames msgs bad _ heq _
    have hlen := congrArg List.length heq
    simp only [begun, List.length_append, List.length_replicate, List.length_cons,
      List.length_nil] at hlen
    simp only [kHeaderLen, kMaxMessageLen]
    omega

end ProtoRpc
