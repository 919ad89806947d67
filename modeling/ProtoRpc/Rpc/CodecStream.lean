import ProtoRpc.Rpc.CodecEncoding
import ProtoRpc.Rpc.RpcProto

/-!
Whole streams through the codec: decoding does not depend on how the stream is
cut and accepts exactly the documented format, what the encoder builds is
decoded again, and the frames a sender hands over are the ones its peer can
accept exactly when no message is larger than the decoder allows.
-/
namespace ProtoRpc.ProtoRpcCodec

/-- Every chunking of a stream delivers the messages of its longest prefix of
well-formed frames and leaves the rest unread. -/
theorem onMessage_decodes_every_chunking (w : Wire) (hadler : w.Rfc1950) (initialSize : Nat)
    (chunks : List (List UInt8)) :
    ∃ msgs buf whole,
      feed w chunks ([], Buffer.new initialSize) = .ok (msgs, buf) ∧
      feed w [chunks.flatten] ([], Buffer.new initialSize) = .ok (msgs, whole) ∧
      whole.content = buf.content ∧
      ∀ ms rest, (wireFraming w).Decoding chunks.flatten ms rest ↔
        ms = msgs ∧ rest = buf.content := by
  have hstuck : (wireFraming w).Stuck (Buffer.new initialSize).content := by
    rw [Buffer.new_content]
    exact Framing.stuck_nil
  obtain ⟨msgs, buf, hfeed, -, hd⟩ :=
    feed_spec w chunks [] (Buffer.new initialSize) (Buffer.new_wf _) hstuck (Or.inl hadler)
  obtain ⟨msgs', whole, hfeed', -, hd'⟩ :=
    feed_spec w [chunks.flatten] [] (Buffer.new initialSize) (Buffer.new_wf _) hstuck
      (Or.inl hadler)
  rw [Buffer.new_content, List.nil_append] at hd hd'
  rw [List.flatten_cons, List.flatten_nil, List.append_nil] at hd'
  obtain ⟨rfl, hrest⟩ := Framing.decoding_unique hd' hd
  refine ⟨msgs', buf, whole, hfeed, hfeed', hrest, ?_⟩
  intro ms rest
  constructor
  · intro h
    exact Framing.decoding_unique h hd
  · rintro ⟨rfl, rfl⟩
    exact hd

theorem isFrame_empty :
    IsFrame protobufWire [0, 0, 0, 8, 82, 80, 67, 48, 2, 242, 1, 22] RpcMessage.new :=
  ⟨8, [], by decide, by decide, rfl, rfl, by decide⟩

/-- A frame with an empty payload, cut in two, and the first bytes of the next. -/
theorem onMessage_decodes_cut_stream :
    ∃ buf,
      feed protobufWire [[0, 0, 0, 8, 82], [80, 67, 48, 2, 242, 1, 22, 0, 0], [0, 8, 82]]
        ([], Buffer.new Buffer.kInitialSize) = .ok ([RpcMessage.new], buf) ∧
      buf.content = [0, 0, 0, 8, 82] := by
  obtain ⟨msgs, buf, whole, hfeed, -, -, hd⟩ :=
    onMessage_decodes_every_chunking protobufWire protobufWire_rfc1950 Buffer.kInitialSize
      [[0, 0, 0, 8, 82], [80, 67, 48, 2, 242, 1, 22, 0, 0], [0, 8, 82]]
  have hstuck : (wireFraming protobufWire).Stuck [0, 0, 0, 8, 82] :=
    Framing.stuck_of_properPrefix (F := wireFraming protobufWire)
      (s := [80, 67, 48, 2, 242, 1, 22]) isFrame_empty (by simp)
  obtain ⟨rfl, hrest⟩ := (hd [RpcMessage.new] [0, 0, 0, 8, 82]).mp
    ⟨[_], .cons isFrame_empty .nil, rfl, hstuck⟩
  exact ⟨buf, hfeed, hrest.symm⟩

/-- A stream that is frames and a rest that starts none, in any chunking. -/
theorem feed_frames {w : Wire} {frames : List (List UInt8)} {msgs : List RpcMessage}
    (hframes : List.Forall₂ (IsFrame w) frames msgs) (tail : List UInt8)
    (hstuck : (wireFraming w).Stuck tail) (hconforming : Conforming w (frames.flatten ++ tail))
    (initialSize : Nat) {chunks : List (List UInt8)}
    (hchunks : chunks.flatten = frames.flatten ++ tail) :
    ∃ buf, feed w chunks ([], Buffer.new initialSize) = .ok (msgs, buf) ∧ buf.content = tail := by
  have hd : (wireFraming w).Decoding (frames.flatten ++ tail) msgs tail :=
    Framing.decoding_frames hframes hstuck
  obtain ⟨got, buf, hfeed, -, hd'⟩ :=
    feed_spec w chunks [] (Buffer.new initialSize) (Buffer.new_wf _)
      (by rw [Buffer.new_content]; exact Framing.stuck_nil)
      (by rw [Buffer.new_content, List.nil_append, hchunks]; exact Or.inr hconforming)
  rw [Buffer.new_content, List.nil_append, hchunks] at hd'
  obtain ⟨rfl, hrest⟩ := Framing.decoding_unique hd' hd
  exact ⟨buf, hfeed, hrest⟩

theorem forall₂_isFrame {w : Wire} (hparse : w.ParsesSerialized) {msgs : List RpcMessage}
    (h : ∀ m ∈ msgs, Deliverable w m) :
    List.Forall₂ (IsFrame w) (msgs.map (frameBytes w)) msgs := by
  induction msgs with
  | nil => exact .nil
  | cons m msgs ih =>
      exact .cons (isFrame_frameBytes hparse (h m (by simp)))
        (ih fun k hk => h k (by simp [hk]))

/-- Any list of messages within the decoder's bound survives encoding, any
chunking and decoding; a started frame stays in the buffer. -/
theorem fillEmptyBuffer_stream_roundTrip (w : Wire) (hparse : w.ParsesSerialized)
    (initialSize : Nat) (msgs : List RpcMessage)
    (hmsgs : ∀ m ∈ msgs, (w.serialize m).length ≤ kMaxMessageLen - 8)
    (last : RpcMessage) (hlast : (w.serialize last).length ≤ kMaxMessageLen - 8) :
    ∃ bufs lastBuf,
      List.Forall₂ (fun m buf =>
        fillEmptyBuffer w (Buffer.new Buffer.kInitialSize) m = .ok buf) msgs bufs ∧
      fillEmptyBuffer w (Buffer.new Buffer.kInitialSize) last = .ok lastBuf ∧
      ∀ tail more, tail ++ more = lastBuf.content → more ≠ [] →
        ∀ chunks : List (List UInt8),
          chunks.flatten = (bufs.map Buffer.content).flatten ++ tail →
          ∃ buf, feed w chunks ([], Buffer.new initialSize) = .ok (msgs, buf) ∧
            buf.content = tail := by
  have hfill : ∃ bufs : List Buffer,
      List.Forall₂ (fun m buf =>
        fillEmptyBuffer w (Buffer.new Buffer.kInitialSize) m = .ok buf) msgs bufs ∧
      bufs.map Buffer.content = msgs.map (frameBytes w) := by
    clear hlast
    induction msgs with
    | nil => exact ⟨[], .nil, rfl⟩
    | cons m msgs ih =>
        obtain ⟨bufs, hbufs, hcontents⟩ := ih fun k hk => hmsgs k (by simp [hk])
        obtain ⟨buf, hbuf, -, hcontent⟩ :=
          fillEmptyBuffer_spec (Deliverable.encodable (hmsgs m (by simp))) Buffer.kInitialSize
        exact ⟨buf :: bufs, .cons hbuf hbufs, by simp [hcontent, hcontents]⟩
  obtain ⟨bufs, hbufs, hcontents⟩ := hfill
  obtain ⟨lastBuf, hlastBuf, -, hlastContent⟩ :=
    fillEmptyBuffer_spec (Deliverable.encodable hlast) Buffer.kInitialSize
  refine ⟨bufs, lastBuf, hbufs, hlastBuf, ?_⟩
  intro tail more hsplit hmore chunks hchunks
  rw [hcontents] at hchunks
  have hframes := forall₂_isFrame hparse hmsgs
  have hnext : IsFrame w (tail ++ more) last := by
    rw [hsplit, hlastContent]
    exact isFrame_frameBytes hparse hlast
  refine feed_frames hframes tail ?_ ?_ initialSize hchunks
  · exact Framing.stuck_of_properPrefix (F := wireFraming w) hnext hmore
  · refine ⟨_ ++ [tail ++ more], msgs ++ [last], more,
      List.rel_append hframes (.cons hnext .nil), ?_⟩
    simp [List.append_assoc]

/-- Two messages, the first with an empty serialisation, and the start of a
third frame. -/
theorem fillEmptyBuffer_stream_roundTrip_two :
    ∃ bufs lastBuf,
      List.Forall₂ (fun m buf =>
        fillEmptyBuffer protobufWire (Buffer.new Buffer.kInitialSize) m = .ok buf)
        [RpcMessage.new, { RpcMessage.new with id := 5 }] bufs ∧
      fillEmptyBuffer protobufWire (Buffer.new Buffer.kInitialSize) RpcMessage.new = .ok lastBuf ∧
      ∀ tail more, tail ++ more = lastBuf.content → more ≠ [] →
        ∀ chunks : List (List UInt8),
          chunks.flatten = (bufs.map Buffer.content).flatten ++ tail →
          ∃ buf, feed protobufWire chunks ([], Buffer.new 16) =
              .ok ([RpcMessage.new, { RpcMessage.new with id := 5 }], buf) ∧
            buf.content = tail :=
  fillEmptyBuffer_stream_roundTrip protobufWire protobufWire_parsesSerialized 16 _
    (by decide) RpcMessage.new (by decide)

/-- One call of `ProtoRpcCodec::send` on a connection. -/
structure Send where
  message : RpcMessage
  inLoopThread : Bool
  result : WriteResult

/-- A send that faults hands over nothing. -/
def sendOutcome (c : TcpConnection) (message : RpcMessage) :
    Except Fault TcpConnection → TcpConnection × List RpcMessage
  | .ok c' => (c', [message])
  | .error _ => (c, [])

/-- A sequence of sends and the messages whose frame was handed over. -/
def sendAll (w : Wire) : TcpConnection → List Send → TcpConnection × List RpcMessage
  | c, [] => (c, [])
  | c, s :: sends =>
      let (c', sent) :=
        sendOutcome c s.message (send w (some c) s.inLoopThread s.result s.message)
      let (c'', more) := sendAll w c' sends
      (c'', sent ++ more)

/-- The frames that the sends hand over state their length as the peer accepts
it, and the peer's `onMessage` delivers them all. -/
def PeerAccepts (w : Wire) (c : TcpConnection) (sends : List Send) (initialSize : Nat) : Prop :=
  ∃ frames, (sendAll w c sends).1.handed = c.handed ++ frames ∧
    (∀ f ∈ frames, 0 < sizeField f ∧ sizeField f = f.length - kHeaderLen ∧
      kMinMessageLen ≤ sizeField f ∧ sizeField f ≤ kMaxMessageLen) ∧
    ∀ chunks : List (List UInt8), chunks.flatten = frames.flatten →
      ∃ buf, feed w chunks ([], Buffer.new initialSize) = .ok ((sendAll w c sends).2, buf) ∧
        buf.content = []

theorem sendAll_spec {w : Wire} {c : TcpConnection} (h : c.WF) (hup : c.state = .kConnected)
    (sends : List Send) :
    (sendAll w c sends).2 = (sends.map Send.message).filter (fun m => Encodable w m) ∧
      (sendAll w c sends).1.handed =
        c.handed ++ (sendAll w c sends).2.map (frameBytes w) := by
  induction sends generalizing c with
  | nil => simp [sendAll]
  | cons s sends ih =>
      by_cases hfit : Encodable w s.message
      · obtain ⟨c', hc', hwf, hsame, hhanded, -⟩ :=
          send_connected hfit h hup s.inLoopThread s.result
        obtain ⟨hmsgs, hframes⟩ := ih hwf (hsame.state.trans hup)
        rw [sendAll, hc']
        simp only [sendOutcome]
        refine ⟨?_, ?_⟩
        · simp [hfit, hmsgs]
        · simp [hframes, hhanded]
      · obtain ⟨fault, hfault⟩ := send_fault hfit (some c) s.inLoopThread s.result
        obtain ⟨hmsgs, hframes⟩ := ih h hup
        rw [sendAll, hfault]
        simp only [sendOutcome, List.nil_append]
        exact ⟨by simpa [hfit] using hmsgs, hframes⟩

/-- A frame that states its length as a peer accepts it has a payload that the
decoder admits. -/
theorem deliverable_of_sizeField {w : Wire} {m : RpcMessage} (hfit : Encodable w m)
    (hpos : 0 < sizeField (frameBytes w m)) (hmax : sizeField (frameBytes w m) ≤ kMaxMessageLen) :
    Deliverable w m := by
  by_cases hsmall : (w.serialize m).length + 8 < 2 ^ 31
  · rw [sizeField_frameBytes hsmall] at hmax
    simp only [Deliverable]
    omega
  · have := sizeField_frameBytes_neg hfit (Nat.not_lt.mp hsmall)
    omega

theorem deliverable_of_peerAccepts {w : Wire} {c : TcpConnection} (h : c.WF)
    (hup : c.state = .kConnected) {sends : List Send} {initialSize : Nat}
    (haccepts : PeerAccepts w c sends initialSize) (s : Send) (hs : s ∈ sends)
    (hfit : Encodable w s.message) : Deliverable w s.message := by
  obtain ⟨frames, hhanded, hfields, -⟩ := haccepts
  obtain ⟨hmsgs, hframes⟩ := sendAll_spec h hup sends
  rw [hhanded] at hframes
  have hmem : frameBytes w s.message ∈ frames := by
    rw [List.append_cancel_left hframes, hmsgs]
    apply List.mem_map_of_mem
    simp only [List.mem_filter, List.mem_map, decide_eq_true_eq]
    exact ⟨⟨s, hs, rfl⟩, hfit⟩
  obtain ⟨hpos, -, -, hmax⟩ := hfields _ hmem
  exact deliverable_of_sizeField hfit hpos hmax

theorem peerAccepts_of_deliverable {w : Wire} (hparse : w.ParsesSerialized) {c : TcpConnection}
    (h : c.WF) (hup : c.state = .kConnected) {sends : List Send} (initialSize : Nat)
    (hsizes : ∀ s ∈ sends, Encodable w s.message → Deliverable w s.message) :
    PeerAccepts w c sends initialSize := by
  obtain ⟨hmsgs, hframes⟩ := sendAll_spec h hup sends
  have hall : ∀ m ∈ (sendAll w c sends).2, Deliverable w m := by
    intro m hm
    rw [hmsgs] at hm
    simp only [List.mem_filter, List.mem_map, decide_eq_true_eq] at hm
    obtain ⟨⟨s, hs, rfl⟩, hfit⟩ := hm
    exact hsizes s hs hfit
  refine ⟨(sendAll w c sends).2.map (frameBytes w), hframes, ?_, ?_⟩
  · intro f hf
    obtain ⟨m, hm, rfl⟩ := List.mem_map.mp hf
    have hsize := hall m hm
    simp only [Deliverable, kMaxMessageLen] at hsize
    rw [sizeField_frameBytes (by omega), length_frameBytes]
    simp only [kHeaderLen, kMinMessageLen, kMaxMessageLen]
    omega
  · intro chunks hchunks
    have hisFrame := forall₂_isFrame hparse hall
    refine feed_frames hisFrame [] Framing.stuck_nil ?_ initialSize
      (by rw [hchunks, List.append_nil])
    exact ⟨_, _, [], hisFrame, by simp⟩

/-- The peer accepts what a connection is handed exactly when no message lies
between the decoder's bound and the sizes at which the encoder itself gives up. -/
theorem send_peerAccepts_iff (w : Wire) (hparse : w.ParsesSerialized) (c : TcpConnection)
    (h : c.WF) (hup : c.state = .kConnected) (sends : List Send) (initialSize : Nat) :
    PeerAccepts w c sends initialSize ↔
      ∀ s ∈ sends, (w.serialize s.message).length ≤ kMaxMessageLen - 8 ∨
        intMax < (w.serialize s.message).length + kChecksumLen := by
  constructor
  · intro haccepts s hs
    by_cases hfit : Encodable w s.message
    · exact Or.inl (deliverable_of_peerAccepts h hup haccepts s hs hfit)
    · exact Or.inr (Int.not_le.mp hfit)
  · intro hsizes
    apply peerAccepts_of_deliverable hparse h hup initialSize
    intro s hs hfit
    exact (hsizes s hs).resolve_right (Int.not_lt.mpr hfit)

/-- A new connection that has been established. -/
def established : TcpConnection := { TcpConnection.new with state := .kConnected }

theorem send_peerAccepts_small :
    PeerAccepts protobufWire established
      [⟨RpcMessage.new, true, .wrote 3⟩, ⟨{ RpcMessage.new with id := 5 }, false, .wrote 0⟩] 16 :=
  (send_peerAccepts_iff protobufWire protobufWire_parsesSerialized established
    ⟨Buffer.new_wf _, Buffer.new_wf _⟩ rfl _ 16).mpr (by decide)

/-- A request of `n` zero bytes. -/
def zeros (n : Nat) : RpcMessage := { RpcMessage.new with request := List.replicate n 0 }

theorem length_serialize_zeros {n : Nat} (h : 0 < n) :
    (protobufWire.serialize (zeros n)).length = 1 + (Proto3.writeVarint 10 n).length + n := by
  have hne : List.replicate n (0 : UInt8) ≠ [] := by
    intro hnil
    have hlen := congrArg List.length hnil
    rw [List.length_replicate, List.length_nil] at hlen
    omega
  have hfields : (zeros n).toFields = [(5, .len (List.replicate n 0))] := by
    change Proto3.octets 5 (List.replicate n 0) ++ ([] ++ []) = _
    simp [Proto3.octets, hne]
  change ((zeros n).toFields.flatMap Proto3.writeField).length = _
  rw [hfields]
  simp only [List.flatMap_cons, List.flatMap_nil, Proto3.writeField, List.length_append,
    List.append_nil, List.length_replicate]
  rfl

/-- One byte more than the decoder admits. -/
def oversized : RpcMessage := zeros 67108852

theorem length_serialize_oversized :
    (protobufWire.serialize oversized).length = 64 * 1024 * 1024 - 7 := by
  have hvarint : (Proto3.writeVarint 10 67108852).length = 4 := by decide
  rw [oversized, length_serialize_zeros (by decide), hvarint]

/-- The frame is handed over, and the peer does not accept it. -/
theorem send_oversized_refused :
    (sendAll protobufWire established [⟨oversized, true, .wrote 0⟩]).1.handed =
        [frameBytes protobufWire oversized] ∧
      ¬ PeerAccepts protobufWire established [⟨oversized, true, .wrote 0⟩]
        Buffer.kInitialSize := by
  have hwf : established.WF := ⟨Buffer.new_wf _, Buffer.new_wf _⟩
  have hfit : Encodable protobufWire oversized := by
    simp only [Encodable, length_serialize_oversized, kChecksumLen, intMax]
    decide
  refine ⟨?_, ?_⟩
  · obtain ⟨hmsgs, hhanded⟩ := sendAll_spec (w := protobufWire) hwf rfl
      [⟨oversized, true, .wrote 0⟩]
    rw [hhanded, hmsgs]
    simp [hfit, established, TcpConnection.new]
  · intro haccepts
    have hsize := deliverable_of_peerAccepts hwf rfl haccepts _ (List.mem_singleton.mpr rfl) hfit
    simp only [Deliverable, length_serialize_oversized, kMaxMessageLen] at hsize
    omega

end ProtoRpc.ProtoRpcCodec
