import ProtoRpc.Rpc.CodecDecoding
import ProtoRpc.Rpc.RpcProto

/-!
What `parse` touches. `parseAt` is `parse` over all of the memory behind its pointer,
with nothing to stop it at the ends of the frame, and it records what it reads and
how it calls `parseFromBuffer`. Where the length is one that `onMessage` admits, all of
it lies in the frame, and `parseAt` finds what `parse` finds.

The length test lets bodies of 4 to 7 bytes through, in which the checksum overlaps the
tag. `parseFromBuffer` would be called with a negative length for them, and is not,
because of what Adler-32 makes of the beginnings of the tag.
-/
namespace ProtoRpc.ProtoRpcCodec

/-- Offsets are from the pointer that `parse` is given. -/
inductive Access where
  | read (pos : Int) (n : Nat)
  | parseFromBuffer (data dataLen : Int)
  deriving DecidableEq, Repr

/-- A result, and what was touched on the way to it. -/
structure Traced (α : Type) where
  value : α
  accesses : List Access

instance : Monad Traced where
  pure a := ⟨a, []⟩
  bind x f := ⟨(f x.value).value, x.accesses ++ (f x.value).accesses⟩

/-- `int` to the `uInt` of zlib. -/
def uInt (n : Int) : Nat := (n % 2 ^ 32).toNat

section Traced
variable (w : Wire) (mem : Int → UInt8)

/-- The `n` bytes at `buf + pos`. -/
def bytesAt (pos : Int) (n : Nat) : List UInt8 := (List.range n).map fun i : Nat => mem (pos + i)

def load (pos : Int) (n : Nat) : Traced (List UInt8) := ⟨bytesAt mem pos n, [.read pos n]⟩

def parseFromBuffer (data dataLen : Int) : Traced (Option RpcMessage) :=
  ⟨w.parse (bytesAt mem data dataLen.toNat), [.parseFromBuffer data dataLen]⟩

def validateChecksumAt (len : Int) : Traced Bool := do
  let stored ← load mem (len - kChecksumLen) 4
  let expectedCheckSum := asInt32 stored
  let covered ← load mem 0 (uInt (len - kChecksumLen))
  return checksum w covered == expectedCheckSum

def parseAt (len : Int) : Traced (ErrorCode × Option RpcMessage) := do
  if ← validateChecksumAt w mem len then
    let head ← load mem 0 tag.length
    if head = tag then
      let dataLen := len - kChecksumLen - tag.length
      match ← parseFromBuffer w mem tag.length dataLen with
      | some message => return (.kNoError, some message)
      | none => return (.kParseError, none)
    else
      return (.kUnknownMessageType, none)
  else
    return (.kCheckSumError, none)

end Traced

/-- In the frame of `len` bytes; and what is handed to protobuf is the payload, which
ends where the checksum starts. -/
def Access.Within (len : Int) : Access → Prop
  | .read pos n => 0 ≤ pos ∧ pos + n ≤ len
  | .parseFromBuffer data dataLen =>
      data = tag.length ∧ dataLen = len - kChecksumLen - tag.length ∧ 0 ≤ dataLen ∧
        data + dataLen = len - kChecksumLen

/-- The tests that `onMessage` makes before it calls `parse` with `len`. -/
structure Admits (buf : Buffer) (len : Int) : Prop where
  header : kMinMessageLen + kHeaderLen ≤ buf.readableBytes
  size : ∃ x, buf.peekInt32 = .ok x ∧ x.toInt = len
  range : ¬ (kMaxMessageLen < len ∨ len < kMinMessageLen)
  whole : (kHeaderLen + len).toNat ≤ buf.readableBytes

/-- The memory at `buf->peek() + kHeaderLen`. -/
def frameMemory (buf : Buffer) (i : Int) : UInt8 :=
  buf.buffer.getD (buf.readerIndex + kHeaderLen + i).toNat 0

/-- The loop comes to a break of its own, after at most one turn for every 12 bytes. More
fuel than that is not used. -/
def Ends (w : Wire) (buf : Buffer) : Prop :=
  ∃ (msgs : List RpcMessage) (buf' : Buffer), nextFrame w buf' = .ok none ∧
    12 * msgs.length + buf'.readableBytes ≤ buf.readableBytes ∧
    ∀ (σ : Type) (messageCallback : σ → RpcMessage → Except Fault σ) (s : σ) (fuel : Nat),
      buf.readableBytes < 12 * fuel →
      onMessageLoop w messageCallback fuel s buf =
        (msgs.foldlM messageCallback s).map fun s' => (s', buf')

/-- The memory has the bytes of the frame. -/
def Holds (mem : Int → UInt8) (frame : List UInt8) : Prop :=
  ∀ i (h : i < frame.length), mem i = frame[i]

section Bounds
variable {w : Wire} {mem : Int → UInt8} {frame : List UInt8}

theorem readAt_bytesAt (hmem : Holds mem frame) {pos : Int} {n : Nat} (hpos : 0 ≤ pos)
    (hn : pos + n ≤ frame.length) : readAt frame pos n = .ok (bytesAt mem pos n) := by
  obtain ⟨i, rfl⟩ := Int.eq_ofNat_of_zero_le hpos
  rw [readAt_eq frame i n i n rfl rfl (by omega)]
  congr 1
  apply List.ext_getElem
  · simp only [bytesAt, List.length_take, List.length_drop, List.length_map, List.length_range]
    omega
  · intro j hj _
    have hlt : i + j < frame.length := by
      simp only [List.length_take, List.length_drop] at hj
      omega
    simp only [bytesAt, List.getElem_take, List.getElem_drop, List.getElem_map,
      List.getElem_range]
    exact (hmem (i + j) hlt).symm

/-- What `validateChecksum` reads. -/
def checksumReads (len : Int) : List Access :=
  [.read (len - kChecksumLen) 4, .read 0 (uInt (len - kChecksumLen))]

/-- `parseAt` by its three outcomes. -/
theorem parseAt_eq (w : Wire) (mem : Int → UInt8) (len : Int) :
    parseAt w mem len =
      if (validateChecksumAt w mem len).value = true then
        if bytesAt mem 0 tag.length = tag then
          { value :=
              match w.parse (bytesAt mem tag.length (len - kChecksumLen - tag.length).toNat) with
              | some message => (.kNoError, some message)
              | none => (.kParseError, none)
            accesses := checksumReads len ++ [.read 0 tag.length,
              .parseFromBuffer tag.length (len - kChecksumLen - tag.length)] }
        else
          { value := (.kUnknownMessageType, none)
            accesses := checksumReads len ++ [.read 0 tag.length] }
      else { value := (.kCheckSumError, none), accesses := checksumReads len } := by
  have hreads : (validateChecksumAt w mem len).accesses = checksumReads len := rfl
  have hload : (load mem 0 tag.length).value = bytesAt mem 0 tag.length := rfl
  simp only [parseAt, bind, hreads]
  cases (validateChecksumAt w mem len).value with
  | false => rfl
  | true =>
      by_cases htag : bytesAt mem 0 tag.length = tag
      · simp only [if_true, hload, if_pos htag, parseFromBuffer]
        cases w.parse (bytesAt mem tag.length (len - kChecksumLen - tag.length).toNat) <;> rfl
      · simp only [if_true, hload, if_neg htag]
        rfl

variable {len : Int}

theorem uInt_of_lt (hlo : kMinMessageLen ≤ len) (hhi : len < 2 ^ 32) :
    (uInt (len - kChecksumLen) : Int) = len - kChecksumLen := by
  simp only [uInt, kMinMessageLen, kChecksumLen] at *
  omega

theorem validateChecksum_at (hmem : Holds mem frame) (hlen : len = frame.length)
    (hlo : kMinMessageLen ≤ len) (hhi : len < 2 ^ 32) :
    validateChecksum w frame len = .ok (validateChecksumAt w mem len).value := by
  have huint := uInt_of_lt hlo hhi
  have hstored : readAt frame (len - kChecksumLen) 4 =
      .ok (bytesAt mem (len - kChecksumLen) 4) := by
    simp only [kMinMessageLen] at hlo
    apply readAt_bytesAt hmem
    · simp only [kChecksumLen]
      omega
    · simp only [kChecksumLen]
      omega
  have hcovered : readAt frame 0 (len - kChecksumLen) =
      .ok (bytesAt mem 0 (uInt (len - kChecksumLen))) := by
    nth_rewrite 1 [← huint]
    apply readAt_bytesAt hmem (Int.le_refl 0)
    rw [huint]
    simp only [kChecksumLen]
    omega
  rw [validateChecksum, hstored, ok_bind, hcovered, ok_bind]
  rfl

/-- The tag is not found in a body of 4 to 7 bytes whose checksum is right. -/
theorem tag_ne_at (hadler : w.Rfc1950) (hmem : Holds mem frame) (hlen : len = frame.length)
    (hlo : kMinMessageLen ≤ len) (hshort : len < 8)
    (hvalid : (validateChecksumAt w mem len).value = true) :
    bytesAt mem 0 tag.length ≠ tag := by
  have hvalidate := validateChecksum_at (w := w) hmem hlen hlo
    (Int.lt_trans hshort (by decide))
  simp only [kMinMessageLen] at hlo
  have hfour : 4 ≤ frame.length := by omega
  obtain ⟨covered, stored, rfl, hstored⟩ := split_checksum hfour
  rw [hlen, validateChecksum_eq w hstored, ← hlen, hvalid, Except.ok.injEq,
    decide_eq_true_eq] at hvalidate
  rw [List.length_append] at hlen
  have hhead := readAt_bytesAt hmem (n := tag.length) (Int.le_refl 0)
    (by simp only [List.length_append, tag, List.length_cons, List.length_nil]; omega)
  rw [readAt_eq (covered ++ stored) 0 tag.length 0 4 rfl rfl (by rw [List.length_append]; omega),
    List.drop_zero, Except.ok.injEq] at hhead
  rw [← hhead]
  exact tag_ne_of_short hadler (by omega) hvalidate

theorem checksumReads_within (hlo : kMinMessageLen ≤ len) (hhi : len < 2 ^ 32) :
    ∀ a ∈ checksumReads len, a.Within len := by
  have huint := uInt_of_lt hlo hhi
  simp only [kMinMessageLen] at hlo
  intro a ha
  rcases List.mem_pair.mp ha with rfl | rfl
  · simp only [Access.Within, kChecksumLen]
    omega
  · rw [Access.Within, huint]
    simp only [kChecksumLen]
    omega

/-- All that is touched lies in the frame. -/
theorem parseAt_within (hadler : w.Rfc1950) (hmem : Holds mem frame) (hlen : len = frame.length)
    (hlo : kMinMessageLen ≤ len) (hhi : len < 2 ^ 32) :
    ∀ a ∈ (parseAt w mem len).accesses, a.Within len := by
  have hreads := checksumReads_within hlo hhi
  have hhead : Access.Within len (.read 0 tag.length) := by
    simp only [kMinMessageLen] at hlo
    simp only [Access.Within, tag, List.length_cons, List.length_nil]
    omega
  rw [parseAt_eq]
  split
  · rename_i hvalid
    split
    · rename_i htag
      have hlong : 8 ≤ len := by
        by_contra hshort
        exact tag_ne_at hadler hmem hlen hlo (Int.not_le.mp hshort) hvalid htag
      have hpayload : Access.Within len
          (.parseFromBuffer tag.length (len - kChecksumLen - tag.length)) := by
        simp only [Access.Within, tag, List.length_cons, List.length_nil, kChecksumLen, true_and]
        omega
      intro a ha
      rcases List.mem_append.mp ha with hread | hmore
      · exact hreads a hread
      · rcases List.mem_pair.mp hmore with rfl | rfl
        · exact hhead
        · exact hpayload
    · intro a ha
      rcases List.mem_append.mp ha with hread | hmore
      · exact hreads a hread
      · rw [List.mem_singleton.mp hmore]
        exact hhead
  · exact hreads

/-- Inside the frame nothing is lost by stopping at its ends. -/
theorem parse_at (hadler : w.Rfc1950) (hmem : Holds mem frame) (hlen : len = frame.length)
    (hlo : kMinMessageLen ≤ len) (hhi : len < 2 ^ 32) :
    parse w frame len = .ok (parseAt w mem len).value := by
  have hhead : readAt frame 0 tag.length = .ok (bytesAt mem 0 tag.length) := by
    simp only [kMinMessageLen] at hlo
    apply readAt_bytesAt hmem (Int.le_refl 0)
    simp only [tag, List.length_cons, List.length_nil]
    omega
  rw [parse, validateChecksum_at hmem hlen hlo hhi, ok_bind, parseAt_eq]
  by_cases hvalid : (validateChecksumAt w mem len).value = true
  · rw [if_pos hvalid, if_pos hvalid, hhead, ok_bind]
    by_cases htag : bytesAt mem 0 tag.length = tag
    · have hlong : 8 ≤ len := by
        by_contra hshort
        exact tag_ne_at hadler hmem hlen hlo (Int.not_le.mp hshort) hvalid htag
      have hdata : readAt frame tag.length (len - kChecksumLen - tag.length) =
          .ok (bytesAt mem tag.length (len - kChecksumLen - tag.length).toNat) := by
        have hnat : ((len - kChecksumLen - tag.length).toNat : Int) =
            len - kChecksumLen - tag.length := by
          apply Int.toNat_of_nonneg
          simp only [tag, List.length_cons, List.length_nil, kChecksumLen]
          omega
        nth_rewrite 1 [← hnat]
        apply readAt_bytesAt hmem (by decide)
        rw [hnat]
        simp only [kChecksumLen]
        omega
      rw [if_pos htag, if_pos htag]
      dsimp only
      rw [hdata, ok_bind]
      cases w.parse (bytesAt mem tag.length (len - kChecksumLen - tag.length).toNat) <;> rfl
    · rw [if_neg htag, if_neg htag]
      rfl
  · rw [if_neg hvalid, if_neg hvalid]
    rfl

/-- Bodies of 4 to 7 bytes are refused before protobuf sees them. -/
theorem parseAt_short (hadler : w.Rfc1950) (hmem : Holds mem frame) (hlen : len = frame.length)
    (hlo : kMinMessageLen ≤ len) (hshort : len < 8) :
    (parseAt w mem len).value = (.kCheckSumError, none) ∨
      (parseAt w mem len).value = (.kUnknownMessageType, none) := by
  rw [parseAt_eq]
  split
  · rename_i hvalid
    rw [if_neg (tag_ne_at hadler hmem hlen hlo hshort hvalid)]
    exact Or.inr rfl
  · exact Or.inl rfl

end Bounds

section Loop
variable {w : Wire} {buf : Buffer} {len : Int}

theorem Admits.natLen (h : Admits buf len) :
    ∃ L : Nat, len = L ∧ 4 ≤ L ∧ (L : Int) ≤ kMaxMessageLen ∧ 4 + L ≤ buf.readableBytes := by
  obtain ⟨-, -, hrange, hwhole⟩ := h
  refine ⟨len.toNat, ?_⟩
  simp only [kMinMessageLen, kHeaderLen] at hrange hwhole
  omega

/-- The frame that `len` cuts out of the readable bytes. -/
theorem holds_frameMemory (hbuf : buf.WF) {L : Nat} (hroom : 4 + L ≤ buf.readableBytes) :
    Holds (frameMemory buf) ((buf.content.drop 4).take L) := by
  intro i hi
  have hlen := Buffer.length_content hbuf
  simp only [List.length_take, List.length_drop] at hi
  have hpos : (buf.readerIndex + kHeaderLen + (i : Int)).toNat = buf.readerIndex + (4 + i) := by
    simp only [kHeaderLen]
    omega
  have hlt : buf.readerIndex + (4 + i) < buf.buffer.length := by
    have hwriter := hbuf.writer_le
    simp only [Buffer.readableBytes] at hlen hroom
    omega
  rw [frameMemory, hpos, ← List.getElem_eq_getD (h := hlt)]
  simp only [Buffer.content, List.getElem_take, List.getElem_drop]

theorem nextFrame_admitted (hadler : w.Rfc1950) (hbuf : buf.WF) (h : Admits buf len) :
    nextFrame w buf = .ok (match (parseAt w (frameMemory buf) len).value with
      | (.kNoError, some message) => some (message, (kHeaderLen + len).toNat)
      | _ => none) := by
  have hrange := h.range
  obtain ⟨L, rfl, hlo, hhi, hroom⟩ := h.natLen
  have hbody : ((L : Nat) : Int) = ((buf.content.drop 4).take L).length := by
    rw [List.length_take, List.length_drop, Buffer.length_content hbuf]
    omega
  have hpeek : (buf.peek (kHeaderLen + L).toNat).drop kHeaderLen.toNat =
      (buf.content.drop 4).take L := by
    have htotal : (kHeaderLen + (L : Int)).toNat = 4 + L := by
      simp only [kHeaderLen]
      omega
    rw [htotal, Buffer.peek_eq hroom, List.drop_take]
    congr 1
    simp [kHeaderLen]
  obtain ⟨x, hx, hsize⟩ := h.size
  rw [nextFrame, if_pos h.header, hx, ok_bind]
  simp only [hsize]
  rw [if_neg hrange, if_pos h.whole, hpeek,
    parse_at hadler (holds_frameMemory hbuf hroom) hbody (Int.not_lt.mp fun hlt => hrange (.inr hlt))
      (Int.lt_of_le_of_lt hhi (by decide)), ok_bind]
  rcases (parseAt w (frameMemory buf) L).value with ⟨code, message⟩
  cases code <;> cases message <;> rfl

/-- A turn of the loop breaks, or it delivers a message and takes a whole frame. -/
theorem nextFrame_cases (hadler : w.Rfc1950) (hbuf : buf.WF) :
    nextFrame w buf = .ok none ∨ ∃ message n, nextFrame w buf = .ok (some (message, n)) ∧
      12 ≤ n ∧ n ≤ buf.readableBytes := by
  by_cases hstuck : (wireFraming w).Stuck buf.content
  · exact Or.inl (nextFrame_stuck hbuf (Or.inl hadler) hstuck)
  · simp only [Framing.Stuck, not_forall, not_not] at hstuck
    obtain ⟨f, message, rest, hf, hcontent⟩ := hstuck
    refine Or.inr ⟨message, f.length, nextFrame_frame hbuf hf hcontent, isFrame_length hf, ?_⟩
    rw [← Buffer.length_content hbuf, hcontent, List.length_append]
    omega

theorem retrieve_shrinks (hbuf : buf.WF) {n : Nat} (hlo : 12 ≤ n) (hhi : n ≤ buf.readableBytes) :
    ∃ buf', buf.retrieve n = .ok buf' ∧ buf'.WF ∧
      buf'.readableBytes + 12 ≤ buf.readableBytes := by
  obtain ⟨buf', hretrieve, hwf, hcontent⟩ := Buffer.retrieve_spec hbuf hhi
  refine ⟨buf', hretrieve, hwf, ?_⟩
  rw [← Buffer.length_content hwf, hcontent, List.length_drop, Buffer.length_content hbuf]
  omega

theorem onMessageLoop_ends (hadler : w.Rfc1950) (hbuf : buf.WF) : Ends w buf := by
  induction hn : buf.readableBytes using Nat.strong_induction_on generalizing buf with
  | h n ih =>
      subst hn
      rcases nextFrame_cases hadler hbuf with hnone | ⟨message, n, hnext, hlo, hhi⟩
      · refine ⟨[], buf, hnone, by simp, ?_⟩
        intro σ messageCallback s fuel hfuel
        obtain ⟨turns, rfl⟩ : ∃ turns, fuel = turns + 1 := ⟨fuel - 1, by omega⟩
        rw [onMessageLoop, hnone]
        rfl
      · obtain ⟨buf₁, hretrieve, hwf₁, hshrinks⟩ := retrieve_shrinks hbuf hlo hhi
        obtain ⟨msgs, buf', hnone, hbound, hloop⟩ := ih _ (by omega) hwf₁ rfl
        refine ⟨message :: msgs, buf', hnone, ?_, ?_⟩
        · rw [List.length_cons]
          omega
        · intro σ messageCallback s fuel hfuel
          obtain ⟨turns, rfl⟩ : ∃ turns, fuel = turns + 1 := ⟨fuel - 1, by omega⟩
          rw [onMessageLoop, hnext, ok_bind]
          simp only [hretrieve, ok_bind, List.foldlM_cons]
          cases messageCallback s message with
          | error fault => rfl
          | ok s₁ =>
              simp only [ok_bind]
              exact hloop σ messageCallback s₁ turns (by omega)

/-- `parse` and all that it calls keep to the frame, whatever the buffer holds and
whatever length passes the tests; protobuf gets the payload and never a negative
length; and a turn that delivers a message takes at least 12 bytes, so the loop ends. -/
theorem parsing_stays_in_frame (hadler : w.Rfc1950) (hbuf : buf.WF) :
    (∀ len, Admits buf len →
      (∀ a ∈ (parseAt w (frameMemory buf) len).accesses, a.Within len) ∧
      (len < 8 → (parseAt w (frameMemory buf) len).value = (.kCheckSumError, none) ∨
        (parseAt w (frameMemory buf) len).value = (.kUnknownMessageType, none)) ∧
      nextFrame w buf = .ok (match (parseAt w (frameMemory buf) len).value with
        | (.kNoError, some message) => some (message, (kHeaderLen + len).toNat)
        | _ => none)) ∧
    (∀ message n, nextFrame w buf = .ok (some (message, n)) →
      ∃ buf', buf.retrieve n = .ok buf' ∧ buf'.readableBytes + 12 ≤ buf.readableBytes) ∧
    Ends w buf := by
  refine ⟨?_, ?_, onMessageLoop_ends hadler hbuf⟩
  · intro len hadmits
    have hnext := nextFrame_admitted hadler hbuf hadmits
    obtain ⟨L, rfl, hlo, hhi, hroom⟩ := hadmits.natLen
    have hmem := holds_frameMemory hbuf hroom
    have hlen : (L : Int) = ((buf.content.drop 4).take L).length := by
      rw [List.length_take, List.length_drop, Buffer.length_content hbuf]
      omega
    have hmin : kMinMessageLen ≤ (L : Int) := by
      simp only [kMinMessageLen]
      omega
    have hmax : (L : Int) < 2 ^ 32 := Int.lt_of_le_of_lt hhi (by decide)
    exact ⟨parseAt_within hadler hmem hlen hmin hmax, parseAt_short hadler hmem hlen hmin, hnext⟩
  · intro message n hnext
    rcases nextFrame_cases hadler hbuf with hnone | ⟨message', n', hnext', hlo, hhi⟩
    · rw [hnone] at hnext
      cases hnext
    · rw [hnext'] at hnext
      cases hnext
      obtain ⟨buf', hretrieve, -, hshrinks⟩ := retrieve_shrinks hbuf hlo hhi
      exact ⟨buf', hretrieve, hshrinks⟩

/-- A body of 4 bytes, all of them the right checksum of nothing. -/
theorem parsing_stays_in_frame_short : ∃ buf : Buffer, buf.WF ∧
    buf.content = [0, 0, 0, 4, 0, 0, 0, 1] ∧ Admits buf 4 ∧
    (∀ a ∈ (parseAt protobufWire (frameMemory buf) 4).accesses, a.Within 4) ∧
    ((parseAt protobufWire (frameMemory buf) 4).value = (.kCheckSumError, none) ∨
      (parseAt protobufWire (frameMemory buf) 4).value = (.kUnknownMessageType, none)) ∧
    Ends protobufWire buf := by
  let buf : Buffer := ⟨List.replicate 8 0 ++ [0, 0, 0, 4, 0, 0, 0, 1], 8, 16⟩
  have hwf : buf.WF := ⟨by decide, by decide, by decide⟩
  have hadmits : Admits buf 4 := ⟨by decide, ⟨_, rfl, by decide⟩, by decide, by decide⟩
  obtain ⟨hparse, -, hends⟩ := parsing_stays_in_frame protobufWire_rfc1950 hwf
  obtain ⟨hwithin, hrefused, -⟩ := hparse 4 hadmits
  exact ⟨buf, hwf, rfl, hadmits, hwithin, hrefused (by decide), hends⟩

end Loop

end ProtoRpc.ProtoRpcCodec
