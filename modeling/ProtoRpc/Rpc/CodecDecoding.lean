import ProtoRpc.Rpc.Codec

/-!
The documented wire format as a prefix-free framing, and the agreement of the
decoding loop with it: on any buffer `onMessage` finds no fault, passes on the
messages of the longest prefix of whole frames, and leaves the rest unread.

A body of 4 to 7 bytes passes the length test of the source although no frame
is that short. It is refused because no Adler-32 checksum of the beginning of
the tag agrees with the tag octets it would overlap, so that case needs
`Wire.Rfc1950`; a stream that only ever holds frames needs nothing of zlib.
-/
namespace ProtoRpc.ProtoRpcCodec

/-- The wire format of `RpcCodec.h`: the size, the tag, the payload and the
checksum of tag and payload. -/
def IsFrame (w : Wire) (frame : List UInt8) (message : RpcMessage) : Prop :=
  ∃ (L : Nat) (payload : List UInt8), 8 ≤ L ∧ (L : Int) ≤ kMaxMessageLen ∧
    payload.length = L - 8 ∧ w.parse payload = some message ∧
    frame = BigEndian.encode 4 L ++ tag ++ payload ++
      BigEndian.encode 4 (w.adler32 1#64 (tag ++ payload)).toNat

private theorem frame_length {L n : Nat} {payload : List UInt8} (hL : 8 ≤ L)
    (hpayload : payload.length = L - 8) :
    (BigEndian.encode 4 L ++ tag ++ payload ++ BigEndian.encode 4 n).length = 4 + L := by
  simp only [List.length_append, BigEndian.length_encode, hpayload, tag, List.length_cons,
    List.length_nil]
  omega

private theorem encode_four_inj {L K : Nat} (hL : (L : Int) ≤ kMaxMessageLen)
    (hK : (K : Int) ≤ kMaxMessageLen) (h : BigEndian.encode 4 L = BigEndian.encode 4 K) :
    L = K := by
  have hmod := BigEndian.encode_inj.mp h
  simp only [kMaxMessageLen] at hL hK
  omega

private theorem isFrame_prefixFree {w : Wire} {f g s t : List UInt8} {a b : RpcMessage}
    (hf : IsFrame w f a) (hg : IsFrame w g b) (h : f ++ s = g ++ t) : f = g ∧ a = b := by
  obtain ⟨L, p, hL, hmaxL, hp, hpa, rfl⟩ := hf
  obtain ⟨K, q, hK, hmaxK, hq, hqb, rfl⟩ := hg
  have hfour := congrArg (List.take 4) h
  simp only [List.append_assoc] at hfour
  rw [List.take_left' (BigEndian.length_encode 4 L),
    List.take_left' (BigEndian.length_encode 4 K)] at hfour
  obtain rfl := encode_four_inj hmaxL hmaxK hfour
  obtain ⟨hframe, -⟩ := List.append_inj h (by rw [frame_length hL hp, frame_length hK hq])
  simp only [List.append_assoc, List.append_cancel_left_eq] at hframe
  obtain ⟨rfl, -⟩ := List.append_inj hframe (by rw [hp, hq])
  exact ⟨rfl, Option.some.inj (hpa.symm.trans hqb)⟩

/-- The wire format as a framing of octets. -/
def wireFraming (w : Wire) : Framing UInt8 RpcMessage where
  Frame := IsFrame w
  ne_nil := by
    rintro f a ⟨L, p, hL, -, hp, -, rfl⟩ hnil
    have hlen := congrArg List.length hnil
    rw [frame_length hL hp, List.length_nil] at hlen
    omega
  prefixFree := isFrame_prefixFree

theorem isFrame_length {w : Wire} {f : List UInt8} {m : RpcMessage} (h : IsFrame w f m) :
    12 ≤ f.length := by
  obtain ⟨L, p, hL, -, hp, -, rfl⟩ := h
  rw [frame_length hL hp]
  omega

/-- A beginning of some sequence of whole frames. -/
def Conforming (w : Wire) (stream : List UInt8) : Prop :=
  ∃ frames msgs tail, List.Forall₂ (IsFrame w) frames msgs ∧ stream ++ tail = frames.flatten

theorem conforming_prefix {w : Wire} {s t : List UInt8} (h : Conforming w (s ++ t)) :
    Conforming w s := by
  obtain ⟨frames, msgs, tail, hframes, heq⟩ := h
  exact ⟨frames, msgs, t ++ tail, hframes, by rwa [← List.append_assoc]⟩

theorem conforming_drop_frame {w : Wire} {f s : List UInt8} {m : RpcMessage}
    (hf : IsFrame w f m) (h : Conforming w (f ++ s)) : Conforming w s := by
  obtain ⟨frames, msgs, tail, hframes, heq⟩ := h
  cases hframes with
  | nil =>
      have hnil := (List.append_eq_nil_iff.mp (List.append_eq_nil_iff.mp heq).1).1
      exact absurd hnil ((wireFraming w).ne_nil hf)
  | @cons g b gs bs hg hgs =>
      simp only [List.flatten_cons, List.append_assoc] at heq
      obtain ⟨rfl, -⟩ := isFrame_prefixFree hf hg heq
      exact ⟨gs, bs, tail, hgs, List.append_cancel_left heq⟩

theorem conforming_of_decoding {w : Wire} {stream rest more : List UInt8}
    {msgs : List RpcMessage} (hd : (wireFraming w).Decoding stream msgs rest)
    (h : Conforming w (stream ++ more)) : Conforming w (rest ++ more) := by
  obtain ⟨frames, hframes, rfl, -⟩ := hd
  induction hframes with
  | nil => simpa using h
  | @cons f m fs ms hf _ ih =>
      apply ih
      apply conforming_drop_frame hf
      simpa [List.append_assoc] using h

private theorem conforming_size {w : Wire} {stream : List UInt8} (h : Conforming w stream)
    (hlen : 4 ≤ stream.length) :
    ∃ L : Nat, 8 ≤ L ∧ (L : Int) ≤ kMaxMessageLen ∧ stream.take 4 = BigEndian.encode 4 L := by
  obtain ⟨frames, msgs, tail, hframes, heq⟩ := h
  have hfour := congrArg (List.take 4) heq
  rw [List.take_append_of_le_length hlen] at hfour
  cases hframes with
  | nil =>
      have hnil := (List.append_eq_nil_iff.mp heq).1
      simp [hnil] at hlen
  | cons hf _ =>
      obtain ⟨L, p, hL, hmax, -, -, rfl⟩ := hf
      refine ⟨L, hL, hmax, ?_⟩
      rw [hfour]
      simp only [List.flatten_cons, List.append_assoc]
      exact List.take_left' (BigEndian.length_encode 4 L)

/-- What the loop needs to know to refuse a short body: the checksum of zlib,
or that only frames were sent. -/
def Readable (w : Wire) (stream : List UInt8) : Prop :=
  w.Rfc1950 ∨ Conforming w stream

theorem readAt_eq (frame : List UInt8) (pos n : Int) (i k : Nat) (hi : pos = i)
    (hk : n = k) (h : i + k ≤ frame.length) :
    readAt frame pos n = .ok ((frame.drop i).take k) := by
  subst hi hk
  have hin : 0 ≤ (i : Int) ∧ 0 ≤ (k : Int) ∧ (i : Int) + k ≤ frame.length := by omega
  simp [readAt, hin]

private theorem checksum_eq_iff (w : Wire) (bytes : List UInt8) {stored : List UInt8}
    (h : stored.length = 4) :
    checksum w bytes = asInt32 stored ↔
      BigEndian.encode 4 (w.adler32 1#64 bytes).toNat = stored := by
  have hstored : asInt32 stored = BitVec.ofNat 32 (BigEndian.decode stored) :=
    networkToHost_ofObjectBytes h
  have hlt : BigEndian.decode stored < 2 ^ 32 := by
    have := BigEndian.decode_lt stored
    rwa [h] at this
  rw [hstored, checksum, ← BitVec.toNat_inj, BitVec.toNat_setWidth, BitVec.toNat_ofNat,
    Nat.mod_eq_of_lt hlt]
  constructor
  · intro heq
    rw [← BigEndian.encode_mod, show 256 ^ 4 = 2 ^ 32 from rfl, heq, BigEndian.encode_decode h]
  · intro heq
    rw [← heq, BigEndian.decode_encode]
    rfl

theorem split_checksum {body : List UInt8} (hlen : 4 ≤ body.length) :
    ∃ covered stored, body = covered ++ stored ∧ stored.length = 4 := by
  refine ⟨body.take (body.length - 4), body.drop (body.length - 4),
    (List.take_append_drop _ _).symm, ?_⟩
  rw [List.length_drop]
  omega

theorem validateChecksum_eq (w : Wire) {covered stored : List UInt8}
    (h : stored.length = 4) :
    validateChecksum w (covered ++ stored) (covered ++ stored).length =
      .ok (decide (BigEndian.encode 4 (w.adler32 1#64 covered).toNat = stored)) := by
  have hpos : ((covered ++ stored).length : Int) - kChecksumLen = (covered.length : Nat) := by
    simp only [List.length_append, h, kChecksumLen]
    omega
  have hstored := readAt_eq (covered ++ stored) _ 4 _ 4 hpos rfl (by simp [h])
  have hcovered := readAt_eq (covered ++ stored) 0 _ 0 _ rfl hpos (by simp)
  have htake : stored.take 4 = stored := List.take_of_length_le (by omega)
  simp only [List.drop_left, htake, List.drop_zero, List.take_left] at hstored hcovered
  simp only [validateChecksum, hstored, hcovered, ok_bind, pure_eq_ok, Except.ok.injEq]
  rw [Bool.beq_eq_decide_eq, decide_eq_decide, checksum_eq_iff w covered h]

/-- `parse` on a body that has room for tag, payload and checksum. -/
private theorem parse_eq (w : Wire) {head : List UInt8} (data : List UInt8) {stored : List UInt8}
    (hhead : head.length = 4) (hstored : stored.length = 4) :
    parse w (head ++ data ++ stored) (head ++ data ++ stored).length =
      .ok (if BigEndian.encode 4 (w.adler32 1#64 (head ++ data)).toNat = stored then
        if head = tag then
          match w.parse data with
          | some m => (.kNoError, some m)
          | none => (.kParseError, none)
        else (.kUnknownMessageType, none)
      else (.kCheckSumError, none)) := by
  have hfirst := readAt_eq (head ++ data ++ stored) 0 tag.length 0 4 rfl rfl
    (by simp only [List.length_append]; omega)
  have hmiddle := readAt_eq (head ++ data ++ stored) tag.length
    (((head ++ data ++ stored).length : Int) - kChecksumLen - tag.length) 4 data.length rfl
    (by simp only [List.length_append, kChecksumLen, tag, List.length_cons, List.length_nil]
        omega)
    (by simp only [List.length_append]; omega)
  rw [List.append_assoc] at hfirst hmiddle
  rw [List.drop_zero, List.take_left' hhead] at hfirst
  rw [List.drop_left' hhead, List.take_left] at hmiddle
  rw [parse, validateChecksum_eq w hstored, ok_bind, List.append_assoc]
  by_cases hsum : BigEndian.encode 4 (w.adler32 1#64 (head ++ data)).toNat = stored
  · rw [if_pos (decide_eq_true hsum), if_pos hsum, hfirst, ok_bind]
    by_cases htag : head = tag
    · rw [if_pos htag, if_pos htag]
      dsimp only
      rw [hmiddle, ok_bind]
      cases w.parse data <;> rfl
    · rw [if_neg htag, if_neg htag]
      rfl
  · rw [if_neg (by simpa using hsum), if_neg hsum]
    rfl

private theorem tag_take_checksum (k : Nat) (hk : k < 4) :
    (BigEndian.encode 4 (Adler32.adler32 1 (tag.take k)))[0]? ≠ tag[k]? := by
  decide +revert

/-- A body too short for a frame that begins with the tag has another checksum: were it
the one stored, the checksum of the first octets of the tag would begin with the next
octet of the tag. -/
theorem tag_ne_of_short {w : Wire} (hadler : w.Rfc1950) {covered stored : List UInt8}
    (hshort : covered.length < 4)
    (hsum : BigEndian.encode 4 (w.adler32 1#64 covered).toNat = stored) :
    (covered ++ stored).take 4 ≠ tag := by
  intro htag
  have hcovered : covered = tag.take covered.length := by
    rw [← htag, List.take_take, Nat.min_eq_left (by omega), List.take_left]
  refine tag_take_checksum covered.length hshort ?_
  rw [← hadler, ← hcovered, hsum, ← htag, List.getElem?_take_of_lt hshort,
    List.getElem?_append_right (Nat.le_refl _), Nat.sub_self]

/-- A body too short for a frame is refused. -/
private theorem parse_short {w : Wire} (hadler : w.Rfc1950) (body : List UInt8)
    (hlo : 4 ≤ body.length) (hhi : body.length < 8) :
    ∃ code, parse w body body.length = .ok (code, none) := by
  obtain ⟨covered, stored, rfl, hstored⟩ := split_checksum hlo
  have hfirst := readAt_eq (covered ++ stored) 0 tag.length 0 4 rfl rfl (by omega)
  rw [parse, validateChecksum_eq w hstored, ok_bind]
  by_cases hsum : BigEndian.encode 4 (w.adler32 1#64 covered).toNat = stored
  · have hshort : covered.length < 4 := by
      rw [List.length_append] at hhi
      omega
    rw [if_pos (decide_eq_true hsum), hfirst, ok_bind, List.drop_zero,
      if_neg (tag_ne_of_short hadler hshort hsum)]
    exact ⟨_, rfl⟩
  · rw [if_neg (by simpa using hsum)]
    exact ⟨_, rfl⟩

/-- The size field at the head of the unread bytes. -/
def sizeField (content : List UInt8) : Int :=
  (BitVec.ofNat 32 (BigEndian.decode (content.take 4))).toInt

theorem sizeField_encode {L : Nat} (hL : (L : Int) ≤ kMaxMessageLen) (rest : List UInt8) :
    sizeField (BigEndian.encode 4 L ++ rest) = L := by
  simp only [kMaxMessageLen] at hL
  rw [sizeField, List.take_left' (BigEndian.length_encode 4 L),
    BigEndian.decode_encode_of_lt (by omega)]
  exact toInt32_toInt (by omega)

private theorem encode_sizeField {content : List UInt8} (hlen : 4 ≤ content.length)
    {L : Nat} (h : sizeField content = L) : content.take 4 = BigEndian.encode 4 L := by
  have hfour : (content.take 4).length = 4 := by
    rw [List.length_take]
    omega
  have hlt : BigEndian.decode (content.take 4) < 2 ^ 32 := by
    have := BigEndian.decode_lt (content.take 4)
    rwa [hfour] at this
  have hL : BigEndian.decode (content.take 4) = L := by
    simp only [sizeField, BitVec.toInt_eq_toNat_cond, BitVec.toNat_ofNat,
      Nat.mod_eq_of_lt hlt] at h
    split at h <;> omega
  rw [← hL, BigEndian.encode_decode hfour]

private theorem nextFrame_stop (w : Wire) {buf : Buffer} (h : buf.WF)
    (hstop : buf.content.length < 8 ∨ kMaxMessageLen < sizeField buf.content ∨
      sizeField buf.content < kMinMessageLen ∨
      (buf.content.length : Int) < kHeaderLen + sizeField buf.content) :
    nextFrame w buf = .ok none := by
  have hlen := Buffer.length_content h
  rw [hlen] at hstop
  rw [nextFrame]
  split
  · next hguard =>
      simp only [kMinMessageLen, kHeaderLen] at hguard
      rw [Buffer.peekInt32_spec h (by omega), ok_bind]
      dsimp only
      split
      · rfl
      · next hrange =>
          rw [if_neg]
          · rfl
          · simp only [kHeaderLen, kMinMessageLen, sizeField] at hrange hstop ⊢
            omega
  · rfl

private theorem nextFrame_parse (w : Wire) {buf : Buffer} (h : buf.WF) {L : Nat}
    (hsize : sizeField buf.content = L) (hlo : 4 ≤ L) (hhi : (L : Int) ≤ kMaxMessageLen)
    (hlen : 4 + L ≤ buf.content.length) :
    nextFrame w buf = (do
      match ← parse w ((buf.content.drop 4).take L) L with
      | (.kNoError, some message) => return some (message, 4 + L)
      | _ => return none) := by
  have hreadable := Buffer.length_content h
  rw [hreadable] at hlen
  have hguard : kMinMessageLen + kHeaderLen ≤ (buf.readableBytes : Int) := by
    simp only [kMinMessageLen, kHeaderLen]
    omega
  have hrange : ¬ (kMaxMessageLen < (L : Int) ∨ (L : Int) < kMinMessageLen) := by
    simp only [kMinMessageLen]
    omega
  have htotal : (kHeaderLen + (L : Int)).toNat = 4 + L := by
    simp only [kHeaderLen]
    omega
  have hpeek : (buf.peek (4 + L)).drop kHeaderLen.toNat = (buf.content.drop 4).take L := by
    rw [Buffer.peek_eq hlen, List.drop_take]
    congr 1
    simp [kHeaderLen]
  rw [sizeField] at hsize
  rw [nextFrame, if_pos hguard, Buffer.peekInt32_spec h (by omega), ok_bind]
  simp only [hsize]
  rw [if_neg hrange, htotal, if_pos hlen]
  exact hpeek ▸ rfl

/-- A whole frame at the head is delivered. -/
theorem nextFrame_frame {w : Wire} {buf : Buffer} (h : buf.WF) {f t : List UInt8}
    {m : RpcMessage} (hf : IsFrame w f m) (hcontent : buf.content = f ++ t) :
    nextFrame w buf = .ok (some (m, f.length)) := by
  obtain ⟨L, payload, hL, hmax, hpayload, hparse, rfl⟩ := hf
  have hflen := frame_length (n := (w.adler32 1#64 (tag ++ payload)).toNat) hL hpayload
  let sum := BigEndian.encode 4 (w.adler32 1#64 (tag ++ payload)).toNat
  have hshape : buf.content = BigEndian.encode 4 L ++ ((tag ++ payload ++ sum) ++ t) := by
    rw [hcontent]
    simp only [List.append_assoc, sum]
  have hsize : sizeField buf.content = L := by
    rw [hshape]
    exact sizeField_encode hmax _
  have hroom : 4 + L ≤ buf.content.length := by
    rw [hcontent, List.length_append, hflen]
    omega
  have hlen : (tag ++ payload ++ sum).length = L := by
    have := hflen
    simp only [List.append_assoc, List.length_append, BigEndian.length_encode, sum] at this ⊢
    omega
  have hbody : (buf.content.drop 4).take L = tag ++ payload ++ sum := by
    rw [hshape, List.drop_left' (BigEndian.length_encode 4 L), List.take_left' hlen]
  rw [nextFrame_parse w h hsize (by omega) hmax hroom, hbody]
  nth_rewrite 1 [← hlen]
  rw [parse_eq w payload rfl (BigEndian.length_encode 4 _), if_pos rfl, if_pos rfl, hparse, hflen]
  rfl

/-- The tag, the serialisation and the checksum of a frame's body. -/
private theorem split_body {body : List UInt8} (hlen : 8 ≤ body.length) :
    ∃ head data stored, head ++ data ++ stored = body ∧ head.length = 4 ∧
      data.length = body.length - 8 ∧ stored.length = 4 := by
  refine ⟨body.take 4, (body.drop 4).take (body.length - 8), body.drop (body.length - 4),
    ?_, ?_, ?_, ?_⟩
  · have hdrop : (body.drop 4).drop (body.length - 8) = body.drop (body.length - 4) := by
      rw [List.drop_drop]
      congr 1
      omega
    rw [List.append_assoc, ← hdrop, List.take_append_drop, List.take_append_drop]
  · rw [List.length_take]
    omega
  · rw [List.length_take, List.length_drop]
    omega
  · rw [List.length_drop]
    omega

/-- Where no whole frame starts, the loop stops. -/
theorem nextFrame_stuck {w : Wire} {buf : Buffer} (h : buf.WF)
    (hread : Readable w buf.content) (hstuck : (wireFraming w).Stuck buf.content) :
    nextFrame w buf = .ok none := by
  by_cases hstop : buf.content.length < 8 ∨ kMaxMessageLen < sizeField buf.content ∨
      sizeField buf.content < kMinMessageLen ∨
      (buf.content.length : Int) < kHeaderLen + sizeField buf.content
  · exact nextFrame_stop w h hstop
  obtain ⟨L, hsize⟩ : ∃ L : Nat, sizeField buf.content = L := by
    refine ⟨(sizeField buf.content).toNat, ?_⟩
    simp only [kMinMessageLen] at hstop
    omega
  rw [hsize] at hstop
  simp only [kMinMessageLen, kHeaderLen] at hstop
  have hlo : 4 ≤ L := by omega
  have hhi : (L : Int) ≤ kMaxMessageLen := by omega
  have hroom : 4 + L ≤ buf.content.length := by omega
  have hfour : buf.content.take 4 = BigEndian.encode 4 L := encode_sizeField (by omega) hsize
  rw [nextFrame_parse w h hsize hlo hhi hroom]
  let body := (buf.content.drop 4).take L
  have hbody : body.length = L := by
    simp only [body, List.length_take, List.length_drop]
    omega
  change (parse w body L >>= _) = _
  by_cases hshort : L < 8
  · rcases hread with hadler | hconforming
    · obtain ⟨code, hparse⟩ := parse_short hadler body (by omega) (by omega)
      rw [hbody] at hparse
      rw [hparse, ok_bind]
      cases code <;> rfl
    · obtain ⟨K, hK, hKmax, hKfour⟩ := conforming_size hconforming (by omega)
      have := encode_four_inj hhi hKmax (hfour.symm.trans hKfour)
      omega
  · obtain ⟨head, data, stored, hsplit, hhead, hdata, hstored⟩ :=
      split_body (Nat.not_lt.mp (hbody ▸ hshort))
    rw [hbody] at hdata
    have hparse := parse_eq w data hhead hstored
    rw [hsplit, hbody] at hparse
    rw [hparse, ok_bind]
    by_cases hsum : BigEndian.encode 4 (w.adler32 1#64 (head ++ data)).toNat = stored
    · rw [if_pos hsum]
      by_cases htag : head = tag
      · rw [if_pos htag]
        cases hmsg : w.parse data with
        | none => rfl
        | some m =>
            refine absurd ?_ (hstuck (buf.content.take (4 + L)) m (buf.content.drop (4 + L)) ?_)
            · exact (List.take_append_drop _ _).symm
            · refine ⟨L, data, by omega, hhi, hdata, hmsg, ?_⟩
              rw [← htag, hsum, ← hfour, List.append_assoc, List.append_assoc,
                ← List.append_assoc head, hsplit, List.take_add]
      · rw [if_neg htag]
        rfl
    · rw [if_neg hsum]
      rfl

section Loop
variable {σ : Type} (w : Wire) (messageCallback : σ → RpcMessage → Except Fault σ)

/-- With one turn of fuel more than unread bytes the loop runs to its own end.
The callback sees the decoded messages in order, and a fault can only be one of
the callback. -/
theorem onMessageLoop_spec (fuel : Nat) (buf : Buffer) (h : buf.WF)
    (hread : Readable w buf.content) (hfuel : buf.content.length < fuel) :
    ∃ msgs buf', (wireFraming w).Decoding buf.content msgs buf'.content ∧ buf'.WF ∧
      ∀ s, onMessageLoop w messageCallback fuel s buf =
        (msgs.foldlM messageCallback s).map (fun s' => (s', buf')) := by
  induction fuel generalizing buf with
  | zero => exact absurd hfuel (Nat.not_lt_zero _)
  | succ fuel ih =>
      by_cases hstuck : (wireFraming w).Stuck buf.content
      · refine ⟨[], buf, Framing.decoding_stuck hstuck, h, ?_⟩
        intro s
        rw [onMessageLoop, nextFrame_stuck h hread hstuck]
        rfl
      · simp only [Framing.Stuck, not_forall, not_not] at hstuck
        obtain ⟨f, m, t, hf, hcontent⟩ := hstuck
        have hlen : f.length ≤ buf.readableBytes := by
          rw [← Buffer.length_content h, hcontent, List.length_append]
          omega
        obtain ⟨buf₁, hretrieve, hwf₁, hcontent₁⟩ := Buffer.retrieve_spec h hlen
        rw [hcontent, List.drop_left] at hcontent₁
        have hread₁ : Readable w buf₁.content := by
          rw [hcontent₁]
          exact hread.imp id (fun hc => conforming_drop_frame hf (hcontent ▸ hc))
        have hfuel₁ : buf₁.content.length < fuel := by
          have hpos := isFrame_length hf
          rw [hcontent, List.length_append] at hfuel
          rw [hcontent₁]
          omega
        obtain ⟨msgs, buf₂, hd, hwf₂, hloop⟩ := ih buf₁ hwf₁ hread₁ hfuel₁
        refine ⟨m :: msgs, buf₂, ?_, hwf₂, ?_⟩
        · rw [hcontent]
          exact Framing.decoding_cons hf (hcontent₁ ▸ hd)
        · intro s
          rw [onMessageLoop, nextFrame_frame h hf hcontent]
          simp only [ok_bind, hretrieve, hloop, List.foldlM_cons]
          cases messageCallback s m <;> rfl

theorem onMessage_spec (buf : Buffer) (h : buf.WF) (hread : Readable w buf.content) :
    ∃ msgs buf', (wireFraming w).Decoding buf.content msgs buf'.content ∧ buf'.WF ∧
      ∀ s, onMessage w messageCallback s buf =
        (msgs.foldlM messageCallback s).map (fun s' => (s', buf')) := by
  have hfuel : buf.content.length < buf.readableBytes + 1 := by
    rw [Buffer.length_content h]
    exact Nat.lt_succ_self _
  exact onMessageLoop_spec w messageCallback (buf.readableBytes + 1) buf h hread hfuel

end Loop

/-- A callback that records what it is passed. -/
def deliver (msgs : List RpcMessage) (m : RpcMessage) : Except Fault (List RpcMessage) :=
  .ok (msgs ++ [m])

theorem foldlM_deliver (msgs done : List RpcMessage) :
    msgs.foldlM deliver done = .ok (done ++ msgs) := by
  induction msgs generalizing done with
  | nil => simp
  | cons m msgs ih => simp [deliver, ih]

/-- Each chunk is appended to one input buffer and `onMessage` is called. -/
def feed (w : Wire) : List (List UInt8) → List RpcMessage × Buffer →
    Except Fault (List RpcMessage × Buffer)
  | [], s => .ok s
  | chunk :: chunks, (msgs, buf) => do
      let buf ← buf.append chunk
      let s ← onMessage w deliver msgs buf
      feed w chunks s

theorem feed_spec (w : Wire) (chunks : List (List UInt8)) (done : List RpcMessage)
    (buf : Buffer) (h : buf.WF) (hstuck : (wireFraming w).Stuck buf.content)
    (hread : Readable w (buf.content ++ chunks.flatten)) :
    ∃ msgs buf', feed w chunks (done, buf) = .ok (done ++ msgs, buf') ∧ buf'.WF ∧
      (wireFraming w).Decoding (buf.content ++ chunks.flatten) msgs buf'.content := by
  induction chunks generalizing done buf with
  | nil => exact ⟨[], buf, by simp [feed], h, by simpa using Framing.decoding_stuck hstuck⟩
  | cons chunk chunks ih =>
      rw [List.flatten_cons, ← List.append_assoc] at hread ⊢
      obtain ⟨buf₁, happend, hwf₁, hcontent₁, -⟩ := Buffer.append_spec h chunk
      rw [← hcontent₁] at hread ⊢
      obtain ⟨msgs₁, buf₂, hd₁, hwf₂, honMessage⟩ :=
        onMessage_spec w deliver buf₁ hwf₁ (hread.imp id conforming_prefix)
      have hstuck₂ : (wireFraming w).Stuck buf₂.content := by
        obtain ⟨-, -, -, hstuck₂⟩ := hd₁
        exact hstuck₂
      obtain ⟨msgs₂, buf₃, hfeed, hwf₃, hd₂⟩ := ih (done ++ msgs₁) buf₂ hwf₂ hstuck₂
        (hread.imp id (conforming_of_decoding hd₁))
      refine ⟨msgs₁ ++ msgs₂, buf₃, ?_, hwf₃, Framing.decoding_append hd₁ hd₂⟩
      rw [feed, happend, ok_bind, honMessage, foldlM_deliver, ← List.append_assoc]
      exact hfeed

end ProtoRpc.ProtoRpcCodec
