import ProtoRpc.Network.Buffer

/-!
The integers in a `Buffer`: `appendIntN`, `peekIntN`, `retrieveIntN`, `readIntN` and
`prependIntN` for 8, 16, 32 and 64 bits. Those of more than one octet are members of
one family, with the conversion to network order of their width; those of one octet
convert nothing, and a conversion of one octet would change nothing.

A signed integer is kept as its bits, and `IntField.bytes` says what they are on the
wire: two's complement, most significant octet first.
-/
namespace ProtoRpc.Buffer

section Family
variable (k : Nat)

def appendInt (b : Buffer) (x : BitVec (8 * k)) : Except Fault Buffer :=
  b.append (objectBytes k (hostToNetwork k x))

def peekInt (b : Buffer) : Except Fault (BitVec (8 * k)) := do
  require .assertion (k ≤ b.readableBytes)
  return networkToHost k (ofObjectBytes k (b.peek k))

/-- `retrieve(sizeof(intN_t))` follows the peek. -/
def readInt (b : Buffer) : Except Fault (BitVec (8 * k) × Buffer) := do
  let result ← b.peekInt k
  let b ← b.retrieve k
  return (result, b)

def prependInt (b : Buffer) (x : BitVec (8 * k)) : Except Fault Buffer :=
  b.prepend (objectBytes k (hostToNetwork k x))

end Family

def appendInt64 (b : Buffer) (x : BitVec 64) : Except Fault Buffer := b.appendInt 8 x
def appendInt16 (b : Buffer) (x : BitVec 16) : Except Fault Buffer := b.appendInt 2 x

def appendInt8 (b : Buffer) (x : BitVec 8) : Except Fault Buffer :=
  b.append (objectBytes 1 x)

def readInt64 (b : Buffer) : Except Fault (BitVec 64 × Buffer) := b.readInt 8
def readInt32 (b : Buffer) : Except Fault (BitVec 32 × Buffer) := b.readInt 4
def readInt16 (b : Buffer) : Except Fault (BitVec 16 × Buffer) := b.readInt 2

def peekInt8 (b : Buffer) : Except Fault (BitVec 8) := do
  require .assertion (1 ≤ b.readableBytes)
  return ofObjectBytes 1 (b.peek 1)

def readInt8 (b : Buffer) : Except Fault (BitVec 8 × Buffer) := do
  let result ← b.peekInt8
  let b ← b.retrieve 1
  return (result, b)

def prependInt64 (b : Buffer) (x : BitVec 64) : Except Fault Buffer := b.prependInt 8 x
def prependInt32 (b : Buffer) (x : BitVec 32) : Except Fault Buffer := b.prependInt 4 x
def prependInt16 (b : Buffer) (x : BitVec 16) : Except Fault Buffer := b.prependInt 2 x

def prependInt8 (b : Buffer) (x : BitVec 8) : Except Fault Buffer :=
  b.prepend (objectBytes 1 x)

end ProtoRpc.Buffer

namespace ProtoRpc

inductive IntWidth where
  | int8
  | int16
  | int32
  | int64
  deriving DecidableEq, Repr

/-- A signed integer of one of the four widths. -/
inductive IntField where
  | int8 (x : BitVec 8)
  | int16 (x : BitVec 16)
  | int32 (x : BitVec 32)
  | int64 (x : BitVec 64)
  deriving DecidableEq, Repr

/-- `sizeof(intN_t)` -/
def IntWidth.octets : IntWidth → Nat
  | .int8 => 1
  | .int16 => 2
  | .int32 => 4
  | .int64 => 8

namespace IntField

def width : IntField → IntWidth
  | .int8 _ => .int8
  | .int16 _ => .int16
  | .int32 _ => .int32
  | .int64 _ => .int64

def value : IntField → Int
  | .int8 x => x.toInt
  | .int16 x => x.toInt
  | .int32 x => x.toInt
  | .int64 x => x.toInt

def bits : (f : IntField) → BitVec (8 * f.width.octets)
  | .int8 x => x
  | .int16 x => x
  | .int32 x => x
  | .int64 x => x

/-- Two's complement, most significant octet first. -/
def bytes (f : IntField) : List UInt8 :=
  BigEndian.encode f.width.octets (f.value % 256 ^ f.width.octets).toNat

theorem value_eq (f : IntField) : f.value = f.bits.toInt := by
  cases f <;> rfl

theorem bytes_eq (f : IntField) : f.bytes = BigEndian.encode f.width.octets f.bits.toNat := by
  have hmod : (f.value % 256 ^ f.width.octets).toNat =
      (BitVec.ofInt (8 * f.width.octets) f.bits.toInt).toNat := by
    rw [BitVec.toNat_ofInt, Nat.pow_mul, f.value_eq]
    rfl
  rw [bytes, hmod, BitVec.ofInt_toInt]

end IntField

namespace Buffer

def appendField (b : Buffer) : IntField → Except Fault Buffer
  | .int8 x => b.appendInt8 x
  | .int16 x => b.appendInt16 x
  | .int32 x => b.appendInt32 x
  | .int64 x => b.appendInt64 x

def prependField (b : Buffer) : IntField → Except Fault Buffer
  | .int8 x => b.prependInt8 x
  | .int16 x => b.prependInt16 x
  | .int32 x => b.prependInt32 x
  | .int64 x => b.prependInt64 x

def readField (b : Buffer) : IntWidth → Except Fault (IntField × Buffer)
  | .int8 => do
      let (x, b) ← b.readInt8
      return (.int8 x, b)
  | .int16 => do
      let (x, b) ← b.readInt16
      return (.int16 x, b)
  | .int32 => do
      let (x, b) ← b.readInt32
      return (.int32 x, b)
  | .int64 => do
      let (x, b) ← b.readInt64
      return (.int64 x, b)

def readFields (b : Buffer) : List IntWidth → Except Fault (List IntField × Buffer)
  | [] => .ok ([], b)
  | width :: widths => do
      let (f, b) ← b.readField width
      let (fs, b) ← b.readFields widths
      return (f :: fs, b)

theorem hostToNetwork_one (x : BitVec 8) : hostToNetwork 1 x = x := by
  have hone : BigEndian.encode 1 x.toNat = [UInt8.ofNat x.toNat] := by
    simp [BigEndian.encode]
  apply BitVec.eq_of_toNat_eq
  have hlt : x.toNat < 2 ^ 8 := x.isLt
  simp only [hostToNetwork, objectBytes, hone, List.reverse_singleton, BigEndian.decode]
  simp

theorem appendInt8_eq (b : Buffer) (x : BitVec 8) : b.appendInt8 x = b.appendInt 1 x := by
  rw [appendInt, hostToNetwork_one]
  rfl

theorem prependInt8_eq (b : Buffer) (x : BitVec 8) : b.prependInt8 x = b.prependInt 1 x := by
  rw [prependInt, hostToNetwork_one]
  rfl

theorem readInt8_eq (b : Buffer) : b.readInt8 = b.readInt 1 := by
  simp only [readInt8, readInt, peekInt8, peekInt, networkToHost, hostToNetwork_one]

section Family
variable {k : Nat} {b : Buffer}

theorem appendInt_spec (h : b.WF) (x : BitVec (8 * k)) :
    ∃ b', b.appendInt k x = .ok b' ∧ b'.WF ∧
      b'.content = b.content ++ BigEndian.encode k x.toNat := by
  obtain ⟨b', hb', hwf, hcontent, -⟩ := append_spec h (BigEndian.encode k x.toNat)
  refine ⟨b', ?_, hwf, hcontent⟩
  rw [appendInt, objectBytes_hostToNetwork]
  exact hb'

theorem prependInt_spec (h : b.WF) {x : BitVec (8 * k)} (hroom : k ≤ b.prependableBytes) :
    ∃ b', b.prependInt k x = .ok b' ∧ b'.WF ∧
      b'.content = BigEndian.encode k x.toNat ++ b.content := by
  have hlen : (BigEndian.encode k x.toNat).length ≤ b.prependableBytes := by
    rw [BigEndian.length_encode]
    exact hroom
  obtain ⟨b', hb', hwf, hcontent⟩ := prepend_spec h hlen
  refine ⟨b', ?_, hwf, hcontent⟩
  rw [prependInt, objectBytes_hostToNetwork]
  exact hb'

/-- The integer whose octets lie at the head is read, and what follows it is left. -/
theorem readInt_spec (h : b.WF) {x : BitVec (8 * k)} {rest : List UInt8}
    (hcontent : b.content = BigEndian.encode k x.toNat ++ rest) :
    ∃ b', b.readInt k = .ok (x, b') ∧ b'.WF ∧ b'.content = rest := by
  have hlen : k ≤ b.readableBytes := by
    rw [← length_content h, hcontent, List.length_append, BigEndian.length_encode]
    omega
  have hpeek : b.peek k = BigEndian.encode k x.toNat := by
    rw [peek_eq hlen, hcontent]
    exact List.take_left' (BigEndian.length_encode k _)
  have hfits : x.toNat < 256 ^ k := by
    have hlt := x.isLt
    rwa [Nat.pow_mul] at hlt
  have hvalue : networkToHost k (ofObjectBytes k (b.peek k)) = x := by
    rw [hpeek, networkToHost_ofObjectBytes (BigEndian.length_encode k _),
      BigEndian.decode_encode_of_lt hfits, BitVec.ofNat_toNat, BitVec.setWidth_eq]
  obtain ⟨b', hb', hwf, hrest⟩ := retrieve_spec h hlen
  refine ⟨b', ?_, hwf, ?_⟩
  · rw [readInt, peekInt, require_of_true hlen, hvalue]
    simp only [ok_bind, pure_eq_ok, hb']
  · rw [hrest, hcontent]
    exact List.drop_left' (BigEndian.length_encode k _)

end Family

theorem appendField_eq (b : Buffer) (f : IntField) :
    b.appendField f = b.appendInt f.width.octets f.bits := by
  cases f with
  | int8 x => exact appendInt8_eq b x
  | _ => rfl

theorem prependField_eq (b : Buffer) (f : IntField) :
    b.prependField f = b.prependInt f.width.octets f.bits := by
  cases f with
  | int8 x => exact prependInt8_eq b x
  | _ => rfl

theorem readField_of_readInt {b b' : Buffer} {f : IntField}
    (h : b.readInt f.width.octets = .ok (f.bits, b')) : b.readField f.width = .ok (f, b') := by
  cases f with
  | int8 x =>
      change (b.readInt8 >>= _) = _
      rw [readInt8_eq]
      exact congrArg (· >>= _) h
  | _ => exact congrArg (· >>= _) h

section Fields
variable {b : Buffer}

theorem appendField_spec (h : b.WF) (f : IntField) :
    ∃ b', b.appendField f = .ok b' ∧ b'.WF ∧ b'.content = b.content ++ f.bytes := by
  rw [appendField_eq, f.bytes_eq]
  exact appendInt_spec h f.bits

theorem prependField_spec (h : b.WF) {f : IntField} (hroom : f.width.octets ≤ b.prependableBytes) :
    ∃ b', b.prependField f = .ok b' ∧ b'.WF ∧ b'.content = f.bytes ++ b.content := by
  rw [prependField_eq, f.bytes_eq]
  exact prependInt_spec h hroom

theorem readField_spec (h : b.WF) {f : IntField} {rest : List UInt8}
    (hcontent : b.content = f.bytes ++ rest) :
    ∃ b', b.readField f.width = .ok (f, b') ∧ b'.WF ∧ b'.content = rest := by
  rw [f.bytes_eq] at hcontent
  obtain ⟨b', hread, hwf, hrest⟩ := readInt_spec h hcontent
  exact ⟨b', readField_of_readInt hread, hwf, hrest⟩

theorem appendFields_spec (h : b.WF) (fs : List IntField) :
    ∃ b', fs.foldlM appendField b = .ok b' ∧ b'.WF ∧
      b'.content = b.content ++ fs.flatMap IntField.bytes := by
  induction fs generalizing b with
  | nil => exact ⟨b, rfl, h, by simp⟩
  | cons f fs ih =>
      obtain ⟨b₁, happend, hwf₁, hcontent₁⟩ := appendField_spec h f
      obtain ⟨b₂, hfold, hwf₂, hcontent₂⟩ := ih hwf₁
      refine ⟨b₂, ?_, hwf₂, ?_⟩
      · rw [List.foldlM_cons, happend, ok_bind, hfold]
      · rw [hcontent₂, hcontent₁, List.flatMap_cons, List.append_assoc]

theorem readFields_spec (h : b.WF) {fs : List IntField}
    (hcontent : b.content = fs.flatMap IntField.bytes) :
    ∃ b', b.readFields (fs.map IntField.width) = .ok (fs, b') ∧ b'.WF ∧ b'.content = [] := by
  induction fs generalizing b with
  | nil => exact ⟨b, rfl, h, hcontent⟩
  | cons f fs ih =>
      rw [List.flatMap_cons] at hcontent
      obtain ⟨b₁, hread, hwf₁, hcontent₁⟩ := readField_spec h hcontent
      obtain ⟨b₂, hreads, hwf₂, hcontent₂⟩ := ih hwf₁ hcontent₁
      refine ⟨b₂, ?_, hwf₂, hcontent₂⟩
      simp only [List.map_cons, readFields, hread, hreads, ok_bind, pure_eq_ok]

/-- Retrieving piece by piece takes the pieces from the front. -/
theorem retrieves_spec (h : b.WF) {ns : List Nat} (hsum : ns.sum ≤ b.readableBytes) :
    ∃ b', ns.foldlM retrieve b = .ok b' ∧ b'.WF ∧ b'.content = b.content.drop ns.sum := by
  induction ns generalizing b with
  | nil => exact ⟨b, rfl, h, rfl⟩
  | cons n ns ih =>
      rw [List.sum_cons] at hsum
      have hn : n ≤ b.readableBytes := by omega
      obtain ⟨b₁, hretrieve, hwf₁, hcontent₁⟩ := retrieve_spec h hn
      have hsum₁ : ns.sum ≤ b₁.readableBytes := by
        rw [← length_content hwf₁, hcontent₁, List.length_drop, length_content h]
        omega
      obtain ⟨b₂, hfold, hwf₂, hcontent₂⟩ := ih hwf₁ hsum₁
      refine ⟨b₂, ?_, hwf₂, ?_⟩
      · rw [List.foldlM_cons, hretrieve, ok_bind, hfold]
      · rw [hcontent₂, hcontent₁, List.drop_drop, List.sum_cons]

end Fields

/-- Integers of any widths are appended behind what the buffer holds, are read back
when that has been retrieved, in whatever pieces, and leave the buffer empty. One that
is prepended is read back with the buffer as it was behind it. -/
theorem int_fields_round_trip {b : Buffer} (h : b.WF) :
    (∀ fs : List IntField, ∃ b₁, fs.foldlM appendField b = .ok b₁ ∧
      b₁.content = b.content ++ fs.flatMap IntField.bytes ∧
      ∀ ns : List Nat, ns.sum = b.readableBytes → ∃ b₂ b₃, ns.foldlM retrieve b₁ = .ok b₂ ∧
        b₂.readFields (fs.map IntField.width) = .ok (fs, b₃) ∧ b₃.readableBytes = 0) ∧
    ∀ f : IntField, f.width.octets ≤ b.prependableBytes →
      ∃ b₁ b₂, b.prependField f = .ok b₁ ∧ b₁.content = f.bytes ++ b.content ∧
        b₁.readField f.width = .ok (f, b₂) ∧ b₂.content = b.content := by
  constructor
  · intro fs
    obtain ⟨b₁, happend, hwf₁, hcontent₁⟩ := appendFields_spec h fs
    refine ⟨b₁, happend, hcontent₁, ?_⟩
    intro ns hsum
    rw [← length_content h] at hsum
    have hfits : ns.sum ≤ b₁.readableBytes := by
      rw [← length_content hwf₁, hcontent₁, List.length_append]
      omega
    obtain ⟨b₂, hretrieve, hwf₂, hcontent₂⟩ := retrieves_spec hwf₁ hfits
    rw [hcontent₁, hsum, List.drop_left] at hcontent₂
    obtain ⟨b₃, hread, hwf₃, hcontent₃⟩ := readFields_spec hwf₂ hcontent₂
    refine ⟨b₂, b₃, hretrieve, hread, ?_⟩
    rw [← length_content hwf₃, hcontent₃, List.length_nil]
  · intro f hroom
    obtain ⟨b₁, hprepend, hwf₁, hcontent₁⟩ := prependField_spec h hroom
    obtain ⟨b₂, hread, -, hcontent₂⟩ := readField_spec hwf₁ hcontent₁
    exact ⟨b₁, b₂, hprepend, hcontent₁, hread, hcontent₂⟩

/-- Two minima and a -2, in a buffer that has no room for them, and a prepended minimum. -/
theorem int_fields_round_trip_minima :
    (∃ b₁ b₂ b₃, [.int8 (.intMin 8), .int16 (-2#16), .int32 (.intMin 32)].foldlM appendField
        (new 0) = .ok b₁ ∧ b₁.content = [0x80, 0xff, 0xfe, 0x80, 0, 0, 0] ∧
      [0].foldlM retrieve b₁ = .ok b₂ ∧
      b₂.readFields [.int8, .int16, .int32] =
        .ok ([.int8 (.intMin 8), .int16 (-2#16), .int32 (.intMin 32)], b₃) ∧
      b₃.readableBytes = 0) ∧
    8 ≤ (new 0).prependableBytes ∧ ∃ b₁ b₂, (new 0).prependField (.int64 (.intMin 64)) = .ok b₁ ∧
      b₁.readField .int64 = .ok (.int64 (.intMin 64), b₂) ∧ b₂.content = [] := by
  obtain ⟨happend, hprepend⟩ := int_fields_round_trip (new_wf 0)
  obtain ⟨b₁, hb₁, hcontent, hread⟩ :=
    happend [.int8 (.intMin 8), .int16 (-2#16), .int32 (.intMin 32)]
  obtain ⟨b₂, b₃, hb₂, hb₃, hempty⟩ := hread [0] (by decide)
  obtain ⟨c₁, c₂, hc₁, -, hc₂, hrest⟩ := hprepend (.int64 (.intMin 64)) (by decide)
  have hbytes : b₁.content = [0x80, 0xff, 0xfe, 0x80, 0, 0, 0] := by
    rw [hcontent]
    decide
  exact ⟨⟨b₁, b₂, b₃, hb₁, hbytes, hb₂, hb₃, hempty⟩, by decide, c₁, c₂, hc₁, hc₂, hrest⟩

end Buffer
end ProtoRpc
