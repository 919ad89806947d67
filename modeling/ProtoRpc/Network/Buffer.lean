import ProtoRpc.Network.Machine

/-!
`network::Buffer`: one vector with a reader and a writer index, growth and
in-place compaction behind `ensureWritableBytes`, cheap prepends, and the
scatter read of `Buffer.cc`. Every operation runs its own assertions.

`Buffer.content` is the byte queue the representation stands for. Each
operation has one lemma that says that it finds no fault, keeps the
representation invariant, and what it does to the queue.
-/
namespace ProtoRpc

structure Buffer where
  buffer : List UInt8
  readerIndex : Nat
  writerIndex : Nat
  deriving DecidableEq, Repr

namespace Buffer

def kCheapPrepend : Nat := 8
/-- Irreducible, so that no comparison of terms unfolds a buffer of this size. -/
@[irreducible] def kInitialSize : Nat := 1024 * 4

/-- `sizeof extrabuf` in `readFd`. -/
def extrabufSize : Nat := 1024 * 1024

def new (initialSize : Nat) : Buffer :=
  { buffer := List.replicate (kCheapPrepend + initialSize) 0
    readerIndex := kCheapPrepend
    writerIndex := kCheapPrepend }

def readableBytes (b : Buffer) : Nat := b.writerIndex - b.readerIndex

def writableBytes (b : Buffer) : Nat := b.buffer.length - b.writerIndex

def prependableBytes (b : Buffer) : Nat := b.readerIndex

/-- The `len` bytes at `peek()`. -/
def peek (b : Buffer) (len : Nat) : List UInt8 := (b.buffer.drop b.readerIndex).take len

def retrieveAll (b : Buffer) : Buffer :=
  { b with readerIndex := kCheapPrepend, writerIndex := kCheapPrepend }

def retrieve (b : Buffer) (len : Nat) : Except Fault Buffer := do
  require .assertion (len ≤ b.readableBytes)
  if len < b.readableBytes then
    return { b with readerIndex := b.readerIndex + len }
  else
    return b.retrieveAll

def retrieveAsString (b : Buffer) (len : Nat) : Except Fault (List UInt8 × Buffer) := do
  require .assertion (len ≤ b.readableBytes)
  let result := b.peek len
  let b ← b.retrieve len
  return (result, b)

def retrieveAllAsString (b : Buffer) : Except Fault (List UInt8 × Buffer) :=
  b.retrieveAsString b.readableBytes

/-- `std::copy` of `src` to `dst + at`. -/
def copyTo (dst : List UInt8) (pos : Nat) (src : List UInt8) : Except Fault (List UInt8) := do
  require .outOfBounds (pos + src.length ≤ dst.length)
  return dst.take pos ++ src ++ dst.drop (pos + src.length)

/-- `std::vector<char>::resize`. -/
def resize (v : List UInt8) (n : Nat) : List UInt8 :=
  v.take n ++ List.replicate (n - v.length) 0

def makeSpace (b : Buffer) (len : Nat) : Except Fault Buffer := do
  if b.writableBytes + b.prependableBytes < len + kCheapPrepend then
    return { b with buffer := resize b.buffer (b.writerIndex + len) }
  else
    require .assertion (kCheapPrepend < b.readerIndex)
    let readable := b.readableBytes
    let moved ← copyTo b.buffer kCheapPrepend (b.peek readable)
    let b' : Buffer := ⟨moved, kCheapPrepend, kCheapPrepend + readable⟩
    require .assertion (readable = b'.readableBytes)
    return b'

def ensureWritableBytes (b : Buffer) (len : Nat) : Except Fault Buffer := do
  let b ← if b.writableBytes < len then b.makeSpace len else pure b
  require .assertion (len ≤ b.writableBytes)
  return b

/-- Bytes written through the pointer `beginWrite()`. -/
def store (b : Buffer) (data : List UInt8) : Except Fault Buffer := do
  let mem ← copyTo b.buffer b.writerIndex data
  return { b with buffer := mem }

def hasWritten (b : Buffer) (len : Nat) : Except Fault Buffer := do
  require .assertion (len ≤ b.writableBytes)
  return { b with writerIndex := b.writerIndex + len }

def unwrite (b : Buffer) (len : Nat) : Except Fault Buffer := do
  require .assertion (len ≤ b.readableBytes)
  return { b with writerIndex := b.writerIndex - len }

def append (b : Buffer) (data : List UInt8) : Except Fault Buffer := do
  let b ← b.ensureWritableBytes data.length
  let b ← b.store data
  b.hasWritten data.length

def prepend (b : Buffer) (data : List UInt8) : Except Fault Buffer := do
  require .assertion (data.length ≤ b.prependableBytes)
  let start := b.readerIndex - data.length
  let mem ← copyTo b.buffer start data
  return { b with buffer := mem, readerIndex := start }

def appendInt32 (b : Buffer) (x : BitVec 32) : Except Fault Buffer :=
  b.append (objectBytes 4 (hostToNetwork32 x))

def peekInt32 (b : Buffer) : Except Fault (BitVec 32) := do
  require .assertion (4 ≤ b.readableBytes)
  return networkToHost32 (ofObjectBytes 4 (b.peek 4))

/-- What `readv` gives: the bytes it stored, first into the writable space and
then into `extrabuf`, or an `errno`. -/
inductive ReadResult where
  | data (bytes : List UInt8)
  | error (errno : Nat)
  deriving DecidableEq, Repr

/-- The room the two `iovec`s offer: `extrabuf` is left out when the buffer
alone has enough. -/
def readCapacity (b : Buffer) : Nat :=
  if b.writableBytes < extrabufSize then b.writableBytes + extrabufSize else b.writableBytes

def readFd (b : Buffer) (r : ReadResult) : Except Fault (Int × Buffer) :=
  match r with
  | .error _ => .ok (-1, b)
  | .data bytes => do
      let writable := b.writableBytes
      let b ← b.store (bytes.take writable)
      if bytes.length ≤ writable then
        return (bytes.length, { b with writerIndex := b.writerIndex + bytes.length })
      else
        let b : Buffer := { b with writerIndex := b.buffer.length }
        let b ← b.append (bytes.drop writable)
        return (bytes.length, b)

/-- The readable bytes, the queue that the representation stands for. -/
def content (b : Buffer) : List UInt8 := (b.buffer.take b.writerIndex).drop b.readerIndex

/-- The layout drawn at the head of the class. -/
structure WF (b : Buffer) : Prop where
  reader_le : b.readerIndex ≤ b.writerIndex
  writer_le : b.writerIndex ≤ b.buffer.length
  cheap_le : kCheapPrepend ≤ b.buffer.length

theorem new_wf (n : Nat) : (new n).WF := by
  constructor <;> simp [new]

@[simp] theorem new_content (n : Nat) : (new n).content = [] := by
  simp [new, content]

theorem length_content {b : Buffer} (h : b.WF) : b.content.length = b.readableBytes := by
  have := h.writer_le
  simp only [content, List.length_drop, List.length_take, readableBytes]
  omega

theorem peek_eq {b : Buffer} {len : Nat} (hlen : len ≤ b.readableBytes) :
    b.peek len = b.content.take len := by
  have hcap : len ≤ b.writerIndex - b.readerIndex := hlen
  rw [peek, content, List.drop_take, List.take_take, Nat.min_eq_left hcap]

theorem peek_readableBytes {b : Buffer} (h : b.WF) : b.peek b.readableBytes = b.content := by
  rw [peek_eq (Nat.le_refl _), ← length_content h, List.take_length]

private theorem copyTo_eq {dst src : List UInt8} {pos : Nat}
    (h : pos + src.length ≤ dst.length) :
    copyTo dst pos src = .ok (dst.take pos ++ src ++ dst.drop (pos + src.length)) := by
  simp [copyTo, h]

@[simp] theorem retrieveAll_content (b : Buffer) : b.retrieveAll.content = [] := by
  simp [retrieveAll, content]

theorem retrieveAll_wf {b : Buffer} (h : b.WF) : b.retrieveAll.WF :=
  ⟨Nat.le_refl _, h.cheap_le, h.cheap_le⟩

theorem retrieve_spec {b : Buffer} (h : b.WF) {len : Nat} (hlen : len ≤ b.readableBytes) :
    ∃ b', b.retrieve len = .ok b' ∧ b'.WF ∧ b'.content = b.content.drop len := by
  have hall : len ≤ b.writerIndex - b.readerIndex := hlen
  by_cases hlt : len < b.readableBytes
  · have hlt' : len < b.writerIndex - b.readerIndex := hlt
    refine ⟨{ b with readerIndex := b.readerIndex + len }, ?_, ?_, ?_⟩
    · simp [retrieve, hlen, hlt]
    · exact ⟨show b.readerIndex + len ≤ b.writerIndex by omega, h.writer_le, h.cheap_le⟩
    · simp [content, List.drop_drop]
  · refine ⟨b.retrieveAll, ?_, retrieveAll_wf h, ?_⟩
    · simp [retrieve, hlen, hlt]
    · rw [retrieveAll_content, List.drop_eq_nil_of_le]
      rw [length_content h]
      omega

theorem retrieveAllAsString_spec {b : Buffer} (h : b.WF) :
    ∃ b', b.retrieveAllAsString = .ok (b.content, b') ∧ b'.WF ∧ b'.content = [] := by
  obtain ⟨b', hb', hwf, hcontent⟩ := retrieve_spec h (Nat.le_refl b.readableBytes)
  have hpeek := peek_readableBytes h
  refine ⟨b', ?_, hwf, ?_⟩
  · simp [retrieveAllAsString, retrieveAsString, hb', hpeek]
  · rw [hcontent, ← length_content h, List.drop_length]

/-- Space for `len` bytes, nothing added to the queue, and no prepend room
below `kCheapPrepend` lost. -/
structure HasRoom (b b' : Buffer) (len : Nat) : Prop where
  wf : b'.WF
  content : b'.content = b.content
  room : len ≤ b'.writableBytes
  prependable : min b.readerIndex kCheapPrepend ≤ b'.readerIndex

private theorem resize_hasRoom {b : Buffer} (h : b.WF) {len : Nat} (hfull : b.writableBytes < len) :
    HasRoom b { b with buffer := resize b.buffer (b.writerIndex + len) } len := by
  obtain ⟨hrw, hws, hcheap⟩ := h
  have hgrow : b.buffer.length < b.writerIndex + len := by
    simp only [writableBytes] at hfull
    omega
  have hlen : (resize b.buffer (b.writerIndex + len)).length = b.writerIndex + len := by
    simp only [resize, List.length_append, List.length_take, List.length_replicate]
    omega
  refine ⟨⟨hrw, ?_, ?_⟩, ?_, ?_, Nat.min_le_left _ _⟩
  · show b.writerIndex ≤ (resize b.buffer (b.writerIndex + len)).length
    omega
  · show kCheapPrepend ≤ (resize b.buffer (b.writerIndex + len)).length
    omega
  · simp only [Buffer.content, resize]
    rw [List.take_append_of_le_length (by simp only [List.length_take]; omega), List.take_take,
      Nat.min_eq_left (Nat.le_add_right _ _)]
  · simp only [writableBytes, hlen]
    omega

private theorem compact_hasRoom {b : Buffer} (h : b.WF) {len : Nat}
    (hfull : b.writableBytes < len)
    (hfit : len + kCheapPrepend ≤ b.writableBytes + b.prependableBytes) :
    ∃ b', b.makeSpace len = .ok b' ∧ HasRoom b b' len := by
  have hwf := h
  obtain ⟨hrw, hws, hcheap⟩ := h
  simp only [writableBytes, prependableBytes] at hfull hfit
  have hreader : kCheapPrepend < b.readerIndex := by omega
  have hpeek := peek_readableBytes hwf
  have hlen : b.content.length = b.writerIndex - b.readerIndex := length_content hwf
  have hcopy : kCheapPrepend + b.content.length ≤ b.buffer.length := by omega
  let moved := b.buffer.take kCheapPrepend ++ b.content ++
    b.buffer.drop (kCheapPrepend + b.content.length)
  have hmoved : moved.length = b.buffer.length := by
    simp only [moved, List.length_append, List.length_take, List.length_drop]
    omega
  refine ⟨⟨moved, kCheapPrepend, kCheapPrepend + b.readableBytes⟩, ?_, ?_⟩
  · have hbranch : ¬ b.writableBytes + b.prependableBytes < len + kCheapPrepend := by
      simp only [writableBytes, prependableBytes]
      omega
    have hagain : b.readableBytes =
        (⟨moved, kCheapPrepend, kCheapPrepend + b.readableBytes⟩ : Buffer).readableBytes := by
      simp [readableBytes]
    rw [makeSpace, if_neg hbranch]
    simp only [require_of_true hreader, hpeek, copyTo_eq hcopy, ok_bind, pure_eq_ok]
    rw [require_of_true hagain]
    rfl
  · refine ⟨⟨Nat.le_add_right _ _, ?_, ?_⟩, ?_, ?_, Nat.min_le_right _ _⟩
    · simp only [hmoved, readableBytes]
      omega
    · simpa only [hmoved] using hcheap
    · have htake : (b.buffer.take kCheapPrepend ++ b.content).length =
          kCheapPrepend + b.readableBytes := by
        simp only [List.length_append, List.length_take, hlen, readableBytes]
        omega
      have hhead : (b.buffer.take kCheapPrepend).length = kCheapPrepend := by
        simpa only [List.length_take] using Nat.min_eq_left hcheap
      show (moved.take (kCheapPrepend + b.readableBytes)).drop kCheapPrepend = b.content
      rw [List.take_append_of_le_length (Nat.le_of_eq htake.symm), ← htake, List.take_length]
      nth_rewrite 1 [← hhead]
      rw [List.drop_left]
    · simp only [writableBytes, hmoved, readableBytes]
      omega

theorem ensureWritableBytes_spec {b : Buffer} (h : b.WF) (len : Nat) :
    ∃ b', b.ensureWritableBytes len = .ok b' ∧ HasRoom b b' len := by
  by_cases hfull : b.writableBytes < len
  · have hmake : ∃ b', b.makeSpace len = .ok b' ∧ HasRoom b b' len := by
      by_cases hgrow : b.writableBytes + b.prependableBytes < len + kCheapPrepend
      · refine ⟨_, ?_, resize_hasRoom h hfull⟩
        simp [makeSpace, hgrow]
      · exact compact_hasRoom h hfull (by omega)
    obtain ⟨b', hb', hroom⟩ := hmake
    refine ⟨b', ?_, hroom⟩
    simp [ensureWritableBytes, hfull, hb', hroom.room]
  · refine ⟨b, ?_, h, rfl, by omega, Nat.min_le_left _ _⟩
    have hroom : len ≤ b.writableBytes := by omega
    simp [ensureWritableBytes, hfull, hroom]

private theorem store_eq {b : Buffer} {data : List UInt8} (h : b.WF)
    (hroom : data.length ≤ b.writableBytes) :
    b.store data = .ok { b with
      buffer := b.buffer.take b.writerIndex ++ data ++
        b.buffer.drop (b.writerIndex + data.length) } := by
  have hfit : b.writerIndex + data.length ≤ b.buffer.length := by
    have := h.writer_le
    simp only [writableBytes] at hroom
    omega
  simp [store, copyTo_eq hfit]

/-- Bytes written behind the queue are not in it yet. -/
theorem store_spec {b : Buffer} (h : b.WF) {data : List UInt8}
    (hroom : data.length ≤ b.writableBytes) :
    ∃ b', b.store data = .ok b' ∧ b'.WF ∧ b'.content = b.content := by
  have hhead : (b.buffer.take b.writerIndex).length = b.writerIndex := by
    simpa only [List.length_take] using Nat.min_eq_left h.writer_le
  have hlen : (b.buffer.take b.writerIndex ++ data ++
      b.buffer.drop (b.writerIndex + data.length)).length = b.buffer.length := by
    have hwriter := h.writer_le
    simp only [writableBytes] at hroom
    simp only [List.length_append, hhead, List.length_drop]
    omega
  refine ⟨_, store_eq h hroom, ⟨h.reader_le, ?_, ?_⟩, ?_⟩
  · rw [hlen]
    exact h.writer_le
  · rw [hlen]
    exact h.cheap_le
  · rw [content, content, List.append_assoc, List.take_left' hhead]

private theorem hasWritten_eq {b : Buffer} {len : Nat} (h : len ≤ b.writableBytes) :
    b.hasWritten len = .ok { b with writerIndex := b.writerIndex + len } := by
  simp [hasWritten, h]

/-- The bytes stored at `beginWrite()` join the back of the queue. -/
theorem store_hasWritten_spec {b : Buffer} (h : b.WF) (data : List UInt8)
    (hroom : data.length ≤ b.writableBytes) :
    ∃ b₁ b₂, b.store data = .ok b₁ ∧ b₁.hasWritten data.length = .ok b₂ ∧
      b₂.WF ∧ b₂.content = b.content ++ data ∧ b₂.readerIndex = b.readerIndex ∧
      b₂.writableBytes = b.writableBytes - data.length := by
  obtain ⟨hrw, hws, hcheap⟩ := h
  have hstore := store_eq ⟨hrw, hws, hcheap⟩ hroom
  simp only [writableBytes] at hroom
  have hhead : (b.buffer.take b.writerIndex).length = b.writerIndex := by
    simpa only [List.length_take] using Nat.min_eq_left hws
  let mem := b.buffer.take b.writerIndex ++ data ++ b.buffer.drop (b.writerIndex + data.length)
  have hmem : mem.length = b.buffer.length := by
    simp only [mem, List.length_append, hhead, List.length_drop]
    omega
  refine ⟨⟨mem, b.readerIndex, b.writerIndex⟩, ⟨mem, b.readerIndex, b.writerIndex + data.length⟩,
    hstore, ?_, ⟨?_, ?_, ?_⟩, ?_, rfl, ?_⟩
  · apply hasWritten_eq
    show data.length ≤ mem.length - b.writerIndex
    omega
  · show b.readerIndex ≤ b.writerIndex + data.length
    omega
  · show b.writerIndex + data.length ≤ mem.length
    omega
  · show kCheapPrepend ≤ mem.length
    omega
  · have htake : (b.buffer.take b.writerIndex ++ data).length = b.writerIndex + data.length := by
      simp only [List.length_append, hhead]
    simp only [content, mem]
    rw [List.take_append_of_le_length (Nat.le_of_eq htake.symm), ← htake, List.take_length,
      List.drop_append_of_le_length (by omega)]
  · simp only [writableBytes, hmem]
    omega

theorem append_spec {b : Buffer} (h : b.WF) (data : List UInt8) :
    ∃ b', b.append data = .ok b' ∧ b'.WF ∧ b'.content = b.content ++ data ∧
      min b.readerIndex kCheapPrepend ≤ b'.readerIndex := by
  obtain ⟨b₁, h₁, hroom⟩ := ensureWritableBytes_spec h data.length
  obtain ⟨b₂, b₃, h₂, h₃, hwf, hcontent, hreader, _⟩ :=
    store_hasWritten_spec hroom.wf _ hroom.room
  refine ⟨b₃, ?_, hwf, ?_, ?_⟩
  · simp [append, h₁, h₂, h₃]
  · rw [hcontent, hroom.content]
  · rw [hreader]
    exact hroom.prependable

theorem prepend_spec {b : Buffer} (h : b.WF) {data : List UInt8}
    (hroom : data.length ≤ b.prependableBytes) :
    ∃ b', b.prepend data = .ok b' ∧ b'.WF ∧ b'.content = data ++ b.content := by
  obtain ⟨hrw, hws, hcheap⟩ := h
  simp only [prependableBytes] at hroom
  have hstart : b.readerIndex - data.length + data.length = b.readerIndex := by omega
  have hfit : b.readerIndex - data.length + data.length ≤ b.buffer.length := by omega
  let start := b.readerIndex - data.length
  let mem := b.buffer.take start ++ data ++ b.buffer.drop b.readerIndex
  have hhead : (b.buffer.take start).length = start := by
    simp only [List.length_take, start]
    omega
  have hmem : mem.length = b.buffer.length := by
    simp only [mem, List.length_append, hhead, List.length_drop, start]
    omega
  refine ⟨⟨mem, start, b.writerIndex⟩, ?_, ⟨?_, ?_, ?_⟩, ?_⟩
  · simp [prepend, prependableBytes, hroom, copyTo_eq hfit, hstart, mem, start]
  · show start ≤ b.writerIndex
    omega
  · show b.writerIndex ≤ mem.length
    omega
  · show kCheapPrepend ≤ mem.length
    omega
  · have hfront : (b.buffer.take start ++ data).length = b.readerIndex := by
      simp only [List.length_append, hhead, start]
      omega
    have hsplit : b.writerIndex = (b.buffer.take start ++ data).length +
        (b.writerIndex - b.readerIndex) := by omega
    simp only [content, mem]
    rw [hsplit, List.take_length_add_append, List.append_assoc]
    nth_rewrite 1 [← hhead]
    rw [List.drop_left, ← hsplit, List.drop_take]

theorem appendInt32_spec {b : Buffer} (h : b.WF) (x : BitVec 32) :
    ∃ b', b.appendInt32 x = .ok b' ∧ b'.WF ∧
      b'.content = b.content ++ BigEndian.encode 4 x.toNat ∧
      min b.readerIndex kCheapPrepend ≤ b'.readerIndex := by
  have hbytes : objectBytes 4 (hostToNetwork32 x) = BigEndian.encode 4 x.toNat :=
    objectBytes_hostToNetwork 4 x
  rw [appendInt32, hbytes]
  exact append_spec h _

theorem peekInt32_spec {b : Buffer} (h : b.WF) (hlen : 4 ≤ b.readableBytes) :
    b.peekInt32 = .ok (BitVec.ofNat 32 (BigEndian.decode (b.content.take 4))) := by
  have hpeek : b.peek 4 = b.content.take 4 := peek_eq hlen
  have hfour : (b.content.take 4).length = 4 := by
    rw [List.length_take, length_content h]
    omega
  have hread : networkToHost32 (ofObjectBytes 4 (b.peek 4)) =
      BitVec.ofNat 32 (BigEndian.decode (b.content.take 4)) := by
    rw [hpeek]
    exact networkToHost_ofObjectBytes hfour
  simp [peekInt32, hlen, hread]

/-- A scatter read adds exactly the bytes read, in order, whether or not they
spill into `extrabuf`. -/
theorem readFd_spec {b : Buffer} (h : b.WF) (bytes : List UInt8) :
    ∃ b', b.readFd (.data bytes) = .ok (bytes.length, b') ∧ b'.WF ∧
      b'.content = b.content ++ bytes := by
  have hroom : (bytes.take b.writableBytes).length ≤ b.writableBytes := by
    simp only [List.length_take]
    omega
  obtain ⟨b₁, b₂, h₁, h₂, hwf₂, hcontent₂, _, _⟩ := store_hasWritten_spec h _ hroom
  have hstored : b₁.writerIndex = b.writerIndex ∧ b₁.buffer.length = b.buffer.length := by
    rw [store_eq h hroom] at h₁
    cases h₁
    refine ⟨rfl, ?_⟩
    have := h.writer_le
    simp only [List.length_append, List.length_take, List.length_drop, writableBytes]
    omega
  have hfit : (bytes.take b.writableBytes).length ≤ b₁.writableBytes := by
    simpa only [writableBytes, hstored.1, hstored.2] using hroom
  have hb₂ : b₂ = { b₁ with
      writerIndex := b₁.writerIndex + (bytes.take b.writableBytes).length } := by
    rw [hasWritten_eq hfit] at h₂
    exact (Except.ok.inj h₂).symm
  by_cases hle : bytes.length ≤ b.writableBytes
  · have htake : bytes.take b.writableBytes = bytes := List.take_of_length_le hle
    rw [htake] at h₁ hb₂ hcontent₂
    refine ⟨b₂, ?_, hwf₂, hcontent₂⟩
    simp [readFd, htake, h₁, hle, hb₂]
  · have hspill : b₂ = { b₁ with writerIndex := b₁.buffer.length } := by
      have hws := h.writer_le
      rw [hb₂]
      congr 1
      simp only [List.length_take, writableBytes, hstored.1, hstored.2] at hle ⊢
      omega
    obtain ⟨b₃, h₃, hwf₃, hcontent₃, _⟩ := append_spec hwf₂ (bytes.drop b.writableBytes)
    refine ⟨b₃, ?_, hwf₃, ?_⟩
    · rw [hspill] at h₃
      simp [readFd, h₁, hle, h₃]
    · rw [hcontent₃, hcontent₂, List.append_assoc, List.take_append_drop]

end Buffer
end ProtoRpc
