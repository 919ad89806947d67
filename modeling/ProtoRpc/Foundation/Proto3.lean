import Mathlib.Data.List.Basic
import Mathlib.Tactic.Ring

/-!
The proto3 wire format as far as messages of scalar, string and bytes fields
need it: base-128 varints of at most ten octets, keys, the four wire types
without groups, and the sequence of fields that a message is. Fields that a
message writes are read back as they were written, whatever follows them. This
is a format for canonical encodings: nothing is said of groups, of varints with
octets to spare, or of a parse that fails half way.
-/
namespace Proto3

def writeVarint : Nat → Nat → List UInt8
  | 0, _ => []
  | k + 1, n =>
      if n < 128 then [UInt8.ofNat n]
      else UInt8.ofNat (n % 128 + 128) :: writeVarint k (n / 128)

def readVarint : Nat → List UInt8 → Option (Nat × List UInt8)
  | 0, _ => none
  | _ + 1, [] => none
  | k + 1, b :: bs =>
      if b.toNat < 128 then some (b.toNat, bs)
      else (readVarint k bs).map (fun r => (b.toNat - 128 + 128 * r.1, r.2))

theorem readVarint_writeVarint (k n : Nat) (rest : List UInt8) (h : n < 128 ^ (k + 1)) :
    readVarint (k + 1) (writeVarint (k + 1) n ++ rest) = some (n, rest) := by
  induction k generalizing n with
  | zero =>
      have hn : n < 128 := by simpa using h
      have hbyte : (UInt8.ofNat n).toNat = n := by
        rw [UInt8.toNat_ofNat']
        omega
      simp [writeVarint, readVarint, hn, hbyte]
  | succ k ih =>
      by_cases hn : n < 128
      · have hbyte : (UInt8.ofNat n).toNat = n := by
          rw [UInt8.toNat_ofNat']
          omega
        simp [writeVarint, readVarint, hn, hbyte]
      · have hbyte : (UInt8.ofNat (n % 128 + 128)).toNat = n % 128 + 128 := by
          rw [UInt8.toNat_ofNat']
          omega
        have hdiv : n / 128 < 128 ^ (k + 1) := by
          rw [Nat.div_lt_iff_lt_mul (by decide)]
          rwa [Nat.pow_succ] at h
        have hjoin : n % 128 + 128 * (n / 128) = n := by omega
        have hrest := ih (n / 128) hdiv
        rw [writeVarint, if_neg hn, List.cons_append, readVarint, hbyte, if_neg (by omega), hrest]
        simp [hjoin]

theorem writeVarint_ne_nil (k n : Nat) : writeVarint (k + 1) n ≠ [] := by
  rw [writeVarint]
  split <;> simp

inductive Value where
  | varint (n : Nat)
  | fixed64 (octets : List UInt8)
  | len (octets : List UInt8)
  | fixed32 (octets : List UInt8)
  deriving DecidableEq

abbrev Field := Nat × Value

def writeField : Field → List UInt8
  | (num, .varint n) => writeVarint 10 (num * 8) ++ writeVarint 10 n
  | (num, .fixed64 bs) => writeVarint 10 (num * 8 + 1) ++ bs
  | (num, .len bs) => writeVarint 10 (num * 8 + 2) ++ writeVarint 10 bs.length ++ bs
  | (num, .fixed32 bs) => writeVarint 10 (num * 8 + 5) ++ bs

/-- `n` octets, if there are that many. -/
def readOctets (n : Nat) (bs : List UInt8) : Option (List UInt8 × List UInt8) :=
  if n ≤ bs.length then some (bs.take n, bs.drop n) else none

def readField (bs : List UInt8) : Option (Field × List UInt8) := do
  let (key, bs) ← readVarint 10 bs
  if key / 8 = 0 then none
  else if key % 8 = 0 then do
    let (n, bs) ← readVarint 10 bs
    some ((key / 8, .varint (n % 2 ^ 64)), bs)
  else if key % 8 = 1 then do
    let (octets, bs) ← readOctets 8 bs
    some ((key / 8, .fixed64 octets), bs)
  else if key % 8 = 2 then do
    let (n, bs) ← readVarint 10 bs
    let (octets, bs) ← readOctets n bs
    some ((key / 8, .len octets), bs)
  else if key % 8 = 5 then do
    let (octets, bs) ← readOctets 4 bs
    some ((key / 8, .fixed32 octets), bs)
  else none

def readFields : Nat → List UInt8 → Option (List Field)
  | _, [] => some []
  | 0, _ :: _ => none
  | fuel + 1, b :: bs => do
      let (f, rest) ← readField (b :: bs)
      let fs ← readFields fuel rest
      some (f :: fs)

/-- The fields that messages write: a field number of the language, and a value
that its wire type can carry. -/
def Field.Valid : Field → Prop
  | (num, .varint n) => 0 < num ∧ num < 2 ^ 29 ∧ n < 2 ^ 64
  | (num, .len bs) => 0 < num ∧ num < 2 ^ 29 ∧ bs.length < 2 ^ 64
  | _ => False

theorem readField_writeField (f : Field) (h : f.Valid) (rest : List UInt8) :
    readField (writeField f ++ rest) = some (f, rest) := by
  obtain ⟨num, value⟩ := f
  cases value with
  | fixed64 _ | fixed32 _ => exact absurd h id
  | varint n =>
      obtain ⟨hpos, hnum, hn⟩ := h
      have hkey := readVarint_writeVarint 9 (num * 8) (writeVarint 10 n ++ rest) (by omega)
      have hvalue := readVarint_writeVarint 9 n rest (by omega)
      have hdiv : num * 8 / 8 = num := by omega
      have hmod : num * 8 % 8 = 0 := by omega
      have hne : num ≠ 0 := by omega
      simp [readField, writeField, List.append_assoc, hkey, hvalue, hdiv, hmod, hne]
      omega
  | len bs =>
      obtain ⟨hpos, hnum, hlen⟩ := h
      have hkey := readVarint_writeVarint 9 (num * 8 + 2)
        (writeVarint 10 bs.length ++ (bs ++ rest)) (by omega)
      have hvalue := readVarint_writeVarint 9 bs.length (bs ++ rest) (by omega)
      have hdiv : (num * 8 + 2) / 8 = num := by omega
      have hmod : (num * 8 + 2) % 8 = 2 := by omega
      simp [readField, writeField, List.append_assoc, hkey, hvalue, hdiv, hmod, readOctets]
      omega

theorem writeField_ne_nil (f : Field) : writeField f ≠ [] := by
  obtain ⟨num, value⟩ := f
  cases value <;> simp [writeField, writeVarint_ne_nil 9]

theorem readFields_writeField (fs : List Field) (h : ∀ f ∈ fs, f.Valid) (fuel : Nat)
    (hfuel : (fs.flatMap writeField).length ≤ fuel) :
    readFields fuel (fs.flatMap writeField) = some fs := by
  induction fs generalizing fuel with
  | nil => cases fuel <;> rfl
  | cons f fs ih =>
      obtain ⟨b, bs, hcons⟩ := List.exists_cons_of_ne_nil (writeField_ne_nil f)
      have hread := readField_writeField f (h f (by simp)) (fs.flatMap writeField)
      rw [List.flatMap_cons, hcons] at hfuel ⊢
      rw [hcons] at hread
      simp only [List.cons_append, List.length_cons, List.length_append] at hfuel hread ⊢
      cases fuel with
      | zero => omega
      | succ fuel =>
          have htail := ih (fun g hg => h g (by simp [hg])) fuel (by omega)
          simp [readFields, hread, htail]

/-- Implicit presence: a field that holds its default is not written. -/
def scalar (num n : Nat) : List Field := if n = 0 then [] else [(num, .varint n)]

def octets (num : Nat) (bs : List UInt8) : List Field := if bs = [] then [] else [(num, .len bs)]

theorem scalar_valid {num n : Nat} (hpos : 0 < num) (hnum : num < 2 ^ 29) (hn : n < 2 ^ 64) :
    ∀ f ∈ scalar num n, f.Valid := by
  intro f hf
  simp only [scalar] at hf
  split at hf
  · simp at hf
  · simp only [List.mem_singleton] at hf
    subst hf
    exact ⟨hpos, hnum, hn⟩

theorem octets_valid {num : Nat} {bs : List UInt8} (hpos : 0 < num) (hnum : num < 2 ^ 29)
    (hn : bs.length < 2 ^ 64) : ∀ f ∈ octets num bs, f.Valid := by
  intro f hf
  simp only [octets] at hf
  split at hf
  · simp at hf
  · simp only [List.mem_singleton] at hf
    subst hf
    exact ⟨hpos, hnum, hn⟩

section Message
variable {α : Type} (apply : α → Field → Option α)

/-- Reading one optional field moves the object as reading its value does, and
leaves it alone where the field holds its default. -/
theorem foldlM_scalar {num n : Nat} {a b : α} (hset : apply a (num, .varint n) = some b)
    (hdefault : n = 0 → b = a) : (scalar num n).foldlM apply a = some b := by
  by_cases hn : n = 0
  · simp [scalar, hn, hdefault hn]
  · simp [scalar, hn, hset]

theorem foldlM_octets {num : Nat} {bs : List UInt8} {a b : α}
    (hset : apply a (num, .len bs) = some b) (hdefault : bs = [] → b = a) :
    (octets num bs).foldlM apply a = some b := by
  by_cases hbs : bs = []
  · simp [octets, hbs, hdefault hbs]
  · simp [octets, hbs, hset]

/-- Merge the fields of an encoding into an object. A malformed encoding leaves
the object with the fields that were read before the fault. -/
def mergeFields : Nat → α → List UInt8 → Bool × α
  | _, a, [] => (true, a)
  | 0, a, _ :: _ => (false, a)
  | fuel + 1, a, b :: bs =>
      match readField (b :: bs) with
      | none => (false, a)
      | some (f, rest) =>
          match apply a f with
          | none => (false, a)
          | some a' => mergeFields fuel a' rest

theorem mergeFields_writeField (fs : List Field) (h : ∀ f ∈ fs, f.Valid) (fuel : Nat) (a b : α)
    (hfuel : (fs.flatMap writeField).length ≤ fuel) (hfold : fs.foldlM apply a = some b) :
    mergeFields apply fuel a (fs.flatMap writeField) = (true, b) := by
  induction fs generalizing fuel a with
  | nil =>
      simp only [List.foldlM_nil, pure, Option.some.injEq] at hfold
      subst hfold
      cases fuel <;> rfl
  | cons f fs ih =>
      obtain ⟨c, bs, hcons⟩ := List.exists_cons_of_ne_nil (writeField_ne_nil f)
      have hread := readField_writeField f (h f (by simp)) (fs.flatMap writeField)
      rw [List.flatMap_cons, hcons] at hfuel ⊢
      rw [hcons] at hread
      simp only [List.cons_append, List.length_cons, List.length_append] at hfuel hread ⊢
      rw [List.foldlM_cons] at hfold
      cases fuel with
      | zero => omega
      | succ fuel =>
          cases happly : apply a f with
          | none => simp [happly] at hfold
          | some a' =>
              rw [happly] at hfold
              rw [mergeFields, hread]
              simp only [happly]
              exact ih (fun g hg => h g (by simp [hg])) fuel a' (by omega) hfold

end Message

theorem length_le_flatMap_octets (num : Nat) (bs : List UInt8) :
    bs.length ≤ ((octets num bs).flatMap writeField).length := by
  by_cases hbs : bs = []
  · simp [hbs]
  · simp only [octets, hbs, if_false, writeField, List.flatMap_cons, List.flatMap_nil,
      List.length_append]
    omega

/-- A string field is UTF-8 on the wire. -/
def ofString (s : String) : List UInt8 := s.toByteArray.data.toList

def toString? (bs : List UInt8) : Option String := String.fromUTF8? ⟨bs.toArray⟩

theorem toString?_ofString (s : String) : toString? (ofString s) = some s := by
  have hbytes : (⟨(ofString s).toArray⟩ : ByteArray) = s.toByteArray := by
    simp [ofString]
  rw [toString?, hbytes, String.fromUTF8?, dif_pos s.isValidUTF8]
  rfl

theorem ofString_eq_nil {s : String} (h : ofString s = []) : s = "" := by
  have hread := toString?_ofString s
  rw [h] at hread
  exact (Option.some.inj (hread.symm.trans (toString?_ofString ""))).symm ▸ rfl

end Proto3
