import ProtoRpc.Rpc.CodecDecoding

/-!
The frame built by `fillEmptyBuffer`. The encoder does not look at
`kMaxMessageLen`: it builds the documented bytes for every serialisation that
its own `int` arithmetic can size, and the result is a frame of the wire format
exactly when the size is also one that the decoder admits.
-/
namespace ProtoRpc.ProtoRpcCodec

/-- Size, tag, payload and checksum, for a payload of any length. -/
def frameBytes (w : Wire) (message : RpcMessage) : List UInt8 :=
  BigEndian.encode 4 ((w.serialize message).length + 8) ++ tag ++ w.serialize message ++
    BigEndian.encode 4 (w.adler32 1#64 (tag ++ w.serialize message)).toNat

/-- `byte_size + kChecksumLen` fits an `int`. -/
def Encodable (w : Wire) (message : RpcMessage) : Prop :=
  (w.serialize message).length + kChecksumLen ≤ intMax

instance (w : Wire) (message : RpcMessage) : Decidable (Encodable w message) :=
  inferInstanceAs (Decidable (_ ≤ _))

/-- The serialisations whose frame the decoder admits. -/
def Deliverable (w : Wire) (message : RpcMessage) : Prop :=
  (w.serialize message).length ≤ kMaxMessageLen - 8

instance (w : Wire) (message : RpcMessage) : Decidable (Deliverable w message) :=
  inferInstanceAs (Decidable (_ ≤ _))

theorem Deliverable.encodable {w : Wire} {m : RpcMessage} (h : Deliverable w m) :
    Encodable w m := by
  simp only [Deliverable, kMaxMessageLen] at h
  simp only [Encodable, kChecksumLen, intMax]
  omega

theorem length_frameBytes (w : Wire) (m : RpcMessage) :
    (frameBytes w m).length = 12 + (w.serialize m).length := by
  simp only [frameBytes, List.length_append, BigEndian.length_encode, tag, List.length_cons,
    List.length_nil]
  omega

private theorem serializeToBuffer_spec {w : Wire} {m : RpcMessage} (hfit : Encodable w m)
    {buf : Buffer} (h : buf.WF) :
    ∃ buf', serializeToBuffer w m buf = .ok (((w.serialize m).length : Int), buf') ∧ buf'.WF ∧
      buf'.content = buf.content ++ w.serialize m ∧
      min buf.readerIndex Buffer.kCheapPrepend ≤ buf'.readerIndex := by
  have hint : ((w.serialize m).length : Int) ≤ intMax := by
    simp only [Encodable, kChecksumLen] at hfit
    omega
  have hroom : (((w.serialize m).length : Int) + kChecksumLen).toNat =
      (w.serialize m).length + 4 := by
    simp only [kChecksumLen]
    omega
  obtain ⟨b₁, h₁, hspace⟩ := Buffer.ensureWritableBytes_spec h ((w.serialize m).length + 4)
  obtain ⟨b₂, b₃, h₂, h₃, hwf, hcontent, hreader, -⟩ :=
    Buffer.store_hasWritten_spec hspace.wf (w.serialize m)
      (Nat.le_trans (Nat.le_add_right _ _) hspace.room)
  refine ⟨b₃, ?_, hwf, ?_, ?_⟩
  · simp only [serializeToBuffer, require_of_true hint, addInt_eq hfit, hroom, h₁, h₂, h₃,
      ok_bind, pure_eq_ok]
  · rw [hcontent, hspace.content]
  · rw [hreader]
    exact hspace.prependable

theorem encode_checksum (w : Wire) (bytes : List UInt8) :
    BigEndian.encode 4 (checksum w bytes).toNat =
      BigEndian.encode 4 (w.adler32 1#64 bytes).toNat := by
  rw [checksum, BitVec.toNat_setWidth]
  exact BigEndian.encode_mod 4 _

private theorem toNat_toInt32 {n : Nat} (h : n < 2 ^ 32) : (toInt32 n).toNat = n := by
  rw [toInt32, BitVec.toNat_ofNat, Nat.mod_eq_of_lt h]

/-- The buffer grows as it must while tag, payload and checksum are appended. What is
left to do is to put the length in front. -/
theorem fillEmptyBuffer_eq {w : Wire} {m : RpcMessage} (hfit : Encodable w m) {buf : Buffer}
    (h : buf.WF) (hempty : buf.readableBytes = 0) :
    ∃ body : Buffer, body.WF ∧ body.content = tag ++ w.serialize m ++
        BigEndian.encode 4 (w.adler32 1#64 (tag ++ w.serialize m)).toNat ∧
      min buf.readerIndex Buffer.kCheapPrepend ≤ body.readerIndex ∧
      fillEmptyBuffer w buf m =
        body.prepend (BigEndian.encode 4 ((w.serialize m).length + 8)) := by
  have hsize : (w.serialize m).length + 4 < 2 ^ 31 := by
    simp only [Encodable, kChecksumLen, intMax] at hfit
    omega
  have hnil : buf.content = [] := by
    rw [← List.length_eq_zero_iff, Buffer.length_content h, hempty]
  obtain ⟨b₁, h₁, hwf₁, hc₁, hr₁⟩ := Buffer.append_spec h tag
  obtain ⟨b₂, h₂, hwf₂, hc₂, hr₂⟩ := serializeToBuffer_spec hfit hwf₁
  rw [hc₁, hnil, List.nil_append] at hc₂
  have hlen₂ : b₂.readableBytes = 4 + (w.serialize m).length := by
    rw [← Buffer.length_content hwf₂, hc₂, List.length_append]
    rfl
  have hcovered : b₂.peek (toInt32 b₂.readableBytes).toNat = tag ++ w.serialize m := by
    rw [toNat_toInt32 (by omega), Buffer.peek_readableBytes hwf₂, hc₂]
  obtain ⟨b₃, h₃, hwf₃, hc₃, hr₃⟩ :=
    Buffer.appendInt32_spec hwf₂ (checksum w (tag ++ w.serialize m))
  rw [hc₂, encode_checksum] at hc₃
  have hlen₃ : b₃.readableBytes = (w.serialize m).length + 8 := by
    rw [← Buffer.length_content hwf₃, hc₃]
    simp only [List.length_append, BigEndian.length_encode, tag, List.length_cons,
      List.length_nil]
    omega
  have hassert : (b₃.readableBytes : Int) =
      tag.length + ((w.serialize m).length : Int) + kChecksumLen := by
    simp only [hlen₃, tag, List.length_cons, List.length_nil, kChecksumLen]
    omega
  have hbytes : objectBytes 4 (hostToNetwork32 (toInt32 b₃.readableBytes)) =
      BigEndian.encode 4 ((w.serialize m).length + 8) := by
    rw [hostToNetwork32, objectBytes_hostToNetwork 4, toNat_toInt32 (by omega), hlen₃]
  refine ⟨b₃, hwf₃, hc₃, by omega, ?_⟩
  simp only [fillEmptyBuffer, require_of_true hempty, h₁, h₂, hcovered, h₃, ok_bind,
    require_of_true hassert, hbytes]

theorem new_readableBytes (n : Nat) : (Buffer.new n).readableBytes = 0 := by
  simp [Buffer.new, Buffer.readableBytes]

/-- The length finds its four bytes in front of a new buffer. -/
theorem fillEmptyBuffer_spec {w : Wire} {m : RpcMessage} (hfit : Encodable w m) (n : Nat) :
    ∃ buf, fillEmptyBuffer w (Buffer.new n) m = .ok buf ∧ buf.WF ∧
      buf.content = frameBytes w m := by
  obtain ⟨body, hwf, hcontent, hreader, hfill⟩ :=
    fillEmptyBuffer_eq hfit (Buffer.new_wf n) (new_readableBytes n)
  have hcheap : (Buffer.new n).readerIndex = 8 := rfl
  have hfront : (BigEndian.encode 4 ((w.serialize m).length + 8)).length ≤
      body.prependableBytes := by
    simp only [hcheap, Buffer.kCheapPrepend] at hreader
    rw [BigEndian.length_encode, Buffer.prependableBytes]
    omega
  obtain ⟨buf, hbuf, hwf', hcontent'⟩ := Buffer.prepend_spec hwf hfront
  refine ⟨buf, hfill.trans hbuf, hwf', ?_⟩
  rw [hcontent', hcontent, frameBytes]
  simp only [List.append_assoc]

/-- Above that size the encoder overflows its own arithmetic before any byte of
the frame is handed on. -/
theorem fillEmptyBuffer_fault {w : Wire} {m : RpcMessage} (hfit : ¬ Encodable w m) {buf : Buffer}
    (h : buf.WF) (hempty : buf.readableBytes = 0) :
    ∃ fault, fillEmptyBuffer w buf m = .error fault := by
  obtain ⟨b₁, h₁, -⟩ := Buffer.append_spec h tag
  have hfault : ∃ fault, serializeToBuffer w m b₁ = .error fault := by
    by_cases hint : ((w.serialize m).length : Int) ≤ intMax
    · refine ⟨.signedOverflow, ?_⟩
      simp only [serializeToBuffer, require_of_true hint, ok_bind,
        addInt_error (Int.not_le.mp hfit), error_bind]
    · refine ⟨.messageTooLarge, ?_⟩
      simp only [serializeToBuffer, require_of_false hint, error_bind]
  obtain ⟨fault, h₂⟩ := hfault
  refine ⟨fault, ?_⟩
  simp only [fillEmptyBuffer, require_of_true hempty, h₁, h₂, ok_bind, error_bind]

/-- Whatever empty buffer it is given, a frame that is built is the documented one. -/
theorem fillEmptyBuffer_inv {w : Wire} {m : RpcMessage} {buf buf' : Buffer} (h : buf.WF)
    (hfill : fillEmptyBuffer w buf m = .ok buf') :
    Encodable w m ∧ buf'.content = frameBytes w m := by
  have hempty : buf.readableBytes = 0 := by
    obtain ⟨_, hrequired, -⟩ := bind_ok_inv hfill
    exact require_inv hrequired
  have hfit : Encodable w m := by
    by_contra hlarge
    obtain ⟨fault, hfault⟩ := fillEmptyBuffer_fault hlarge h hempty
    rw [hfault] at hfill
    cases hfill
  obtain ⟨body, hwf, hcontent, -, heq⟩ := fillEmptyBuffer_eq hfit h hempty
  rw [heq] at hfill
  obtain ⟨_, hrequired, -⟩ := bind_ok_inv hfill
  obtain ⟨out, hout, -, hcontent'⟩ := Buffer.prepend_spec hwf (require_inv hrequired)
  cases hout.symm.trans hfill
  refine ⟨hfit, ?_⟩
  rw [hcontent', hcontent, frameBytes]
  simp only [List.append_assoc]

/-- On a connection that is up, `send` hands over the whole frame. -/
theorem send_connected {w : Wire} {m : RpcMessage} (hfit : Encodable w m) {c : TcpConnection}
    (h : c.WF) (hup : c.state = .kConnected) (inLoopThread : Bool) (r : WriteResult) :
    ∃ c', send w (some c) inLoopThread r m = .ok c' ∧ c'.WF ∧ c.SameInput c' ∧
      c'.handed = c.handed ++ [frameBytes w m] ∧
      c.Accepted c' (frameBytes w m) r inLoopThread := by
  obtain ⟨buf, hbuf, hwf, hcontent⟩ := fillEmptyBuffer_spec hfit Buffer.kInitialSize
  obtain ⟨c', buf', hsend, hc'⟩ := TcpConnection.send_connected h hup hwf inLoopThread r
  rw [hcontent] at hc'
  refine ⟨c', ?_, hc'⟩
  simp only [send, hbuf, ok_bind, hsend, pure_eq_ok]

/-- On one that is not, it hands over nothing and reports nothing. -/
theorem send_notConnected {w : Wire} {m : RpcMessage} (hfit : Encodable w m) {c : TcpConnection}
    (hdown : c.state ≠ .kConnected) (inLoopThread : Bool) (r : WriteResult) :
    send w (some c) inLoopThread r m = .ok c := by
  obtain ⟨buf, hbuf, -, -⟩ := fillEmptyBuffer_spec hfit Buffer.kInitialSize
  simp only [send, hbuf, ok_bind, TcpConnection.send_notConnected hdown, pure_eq_ok]

theorem send_null {w : Wire} {m : RpcMessage} (hfit : Encodable w m) (inLoopThread : Bool)
    (r : WriteResult) : send w none inLoopThread r m = .error .nullPointer := by
  obtain ⟨buf, hbuf, -, -⟩ := fillEmptyBuffer_spec hfit Buffer.kInitialSize
  simp only [send, hbuf, ok_bind]

theorem send_fault {w : Wire} {m : RpcMessage} (hfit : ¬ Encodable w m)
    (conn : Option TcpConnection) (inLoopThread : Bool) (r : WriteResult) :
    ∃ fault, send w conn inLoopThread r m = .error fault := by
  obtain ⟨fault, hfault⟩ := fillEmptyBuffer_fault hfit (Buffer.new_wf Buffer.kInitialSize)
    (new_readableBytes _)
  refine ⟨fault, ?_⟩
  simp only [send, hfault, error_bind]

/-- Encoder and decoder agree on every size that the decoder admits. -/
theorem isFrame_frameBytes {w : Wire} (hparse : w.ParsesSerialized) {m : RpcMessage}
    (h : Deliverable w m) : IsFrame w (frameBytes w m) m := by
  refine ⟨(w.serialize m).length + 8, w.serialize m, ?_, ?_, ?_, hparse m ?_, rfl⟩
  · exact Nat.le_add_left _ _
  · simp only [Deliverable] at h
    omega
  · exact (Nat.add_sub_cancel _ _).symm
  · simp only [Deliverable, kMaxMessageLen] at h
    simp only [intMax]
    omega

theorem sizeField_frameBytes {w : Wire} {m : RpcMessage}
    (h : (w.serialize m).length + 8 < 2 ^ 31) :
    sizeField (frameBytes w m) = (w.serialize m).length + 8 := by
  simp only [frameBytes, List.append_assoc, sizeField]
  rw [List.take_left' (BigEndian.length_encode 4 _), BigEndian.decode_encode_of_lt (by omega)]
  exact toInt32_toInt h

theorem sizeField_frameBytes_neg {w : Wire} {m : RpcMessage} (hfit : Encodable w m)
    (h : 2 ^ 31 ≤ (w.serialize m).length + 8) : sizeField (frameBytes w m) < 0 := by
  simp only [Encodable, kChecksumLen, intMax] at hfit
  simp only [frameBytes, List.append_assoc, sizeField]
  rw [List.take_left' (BigEndian.length_encode 4 _), BigEndian.decode_encode_of_lt (by omega)]
  exact toInt32_toInt_neg h (by omega)

end ProtoRpc.ProtoRpcCodec
