import ProtoRpc.Foundation.Adler32
import ProtoRpc.Foundation.BigEndian

/-!
Data with its Adler-32 checksum behind it, as four octets. A small corruption of
the whole leaves a trailer that is not the checksum of what stands before it,
wherever the corruption lies: in the data, in the trailer, or across the boundary.
-/
namespace Trailer

/-- One octet is replaced by another, or two neighbours that differ are swapped. -/
inductive Corrupts : List UInt8 → List UInt8 → Prop where
  | replace (xs ys : List UInt8) {a b : UInt8} (h : a ≠ b) :
      Corrupts (xs ++ a :: ys) (xs ++ b :: ys)
  | swap (xs ys : List UInt8) {a b : UInt8} (h : a ≠ b) :
      Corrupts (xs ++ a :: b :: ys) (xs ++ b :: a :: ys)

def trailer (data : List UInt8) : List UInt8 :=
  BigEndian.encode 4 (Adler32.adler32 1 data)

/-- The last four octets are not the checksum of the others. -/
def Mismatch (bytes : List UInt8) : Prop :=
  ∃ data stored, bytes = data ++ stored ∧ stored.length = 4 ∧ trailer data ≠ stored

theorem length_trailer (data : List UInt8) : (trailer data).length = 4 :=
  BigEndian.length_encode _ _

theorem Corrupts.length {xs ys : List UInt8} (h : Corrupts xs ys) : ys.length = xs.length := by
  cases h <;> simp

theorem trailer_inj {xs ys : List UInt8} :
    trailer xs = trailer ys ↔ Adler32.adler32 1 xs = Adler32.adler32 1 ys := by
  have hx := Adler32.adler32_lt 1 xs
  have hy := Adler32.adler32_lt 1 ys
  rw [trailer, trailer, BigEndian.encode_inj]
  omega

theorem mismatch_of_data {data data' : List UInt8}
    (h : Adler32.adler32 1 data' ≠ Adler32.adler32 1 data) : Mismatch (data' ++ trailer data) :=
  ⟨data', trailer data, rfl, length_trailer data, fun heq => h (trailer_inj.mp heq)⟩

theorem mismatch_of_trailer {data pre tail tail' : List UInt8}
    (hstored : trailer data = pre ++ tail) (hlen : tail'.length = tail.length)
    (hne : tail ≠ tail') : Mismatch (data ++ (pre ++ tail')) := by
  refine ⟨data, pre ++ tail', rfl, ?_, ?_⟩
  · rw [← length_trailer data, hstored, List.length_append, List.length_append, hlen]
  · rw [hstored]
    exact fun heq => hne (List.append_cancel_left heq)

/-- The last octet of the data and the first of the trailer have changed places. The
low half of the checksum is still the old one, and the data has another. -/
theorem mismatch_straddling {xs ys : List UInt8} {a b : UInt8} (h : a ≠ b)
    (htrailer : trailer (xs ++ [a]) = b :: ys) : Mismatch (xs ++ b :: a :: ys) := by
  have hlen := congrArg List.length htrailer
  rw [length_trailer, List.length_cons] at hlen
  refine ⟨xs ++ [b], a :: ys, by simp, hlen.symm, ?_⟩
  intro hnew
  have hold : BigEndian.encode 3 (Adler32.adler32 1 (xs ++ [a])) = ys := (List.cons.inj htrailer).2
  have hsame : BigEndian.encode 3 (Adler32.adler32 1 (xs ++ [b])) = ys := (List.cons.inj hnew).2
  have hmod := BigEndian.encode_inj.mp (hold.trans hsame.symm)
  have hlow := Adler32.adler32_replace_ne xs [] h
  omega

theorem mismatch_of_replace {data xs ys : List UInt8} {a b : UInt8} (h : a ≠ b)
    (hwhole : data ++ trailer data = xs ++ a :: ys) : Mismatch (xs ++ b :: ys) := by
  have htail : a :: ys ≠ b :: ys := fun heq => h (List.cons.inj heq).1
  rcases List.append_eq_append_iff.mp hwhole with ⟨pre, rfl, hstored⟩ | ⟨post, hdata, hrest⟩
  · rw [List.append_assoc]
    exact mismatch_of_trailer hstored rfl htail
  · cases post with
    | nil =>
        obtain rfl : data = xs := hdata.trans (List.append_nil xs)
        rw [← List.nil_append (a :: ys)] at hrest
        exact mismatch_of_trailer hrest.symm rfl htail
    | cons c post =>
        obtain ⟨rfl, rfl⟩ := List.cons.inj hrest
        have hsum : Adler32.adler32 1 (xs ++ b :: post) ≠ Adler32.adler32 1 data := by
          rw [hdata]
          intro heq
          exact Adler32.adler32_replace_ne xs post h (congrArg (· % 65536) heq.symm)
        have hmismatch := mismatch_of_data hsum
        rwa [List.append_assoc] at hmismatch

theorem mismatch_of_swap {data xs ys : List UInt8} {a b : UInt8} (h : a ≠ b)
    (hwhole : data ++ trailer data = xs ++ a :: b :: ys) : Mismatch (xs ++ b :: a :: ys) := by
  have htail : a :: b :: ys ≠ b :: a :: ys := fun heq => h (List.cons.inj heq).1
  rcases List.append_eq_append_iff.mp hwhole with ⟨pre, rfl, hstored⟩ | ⟨post, hdata, hrest⟩
  · rw [List.append_assoc]
    exact mismatch_of_trailer hstored rfl htail
  · cases post with
    | nil =>
        obtain rfl : data = xs := hdata.trans (List.append_nil xs)
        rw [← List.nil_append (a :: b :: ys)] at hrest
        exact mismatch_of_trailer hrest.symm rfl htail
    | cons c post =>
        obtain ⟨rfl, hmore⟩ := List.cons.inj hrest
        cases post with
        | nil =>
            rw [hdata] at hmore
            exact mismatch_straddling h hmore.symm
        | cons d post =>
            obtain ⟨rfl, rfl⟩ := List.cons.inj hmore
            have hsum : Adler32.adler32 1 (xs ++ b :: a :: post) ≠ Adler32.adler32 1 data := by
              rw [hdata]
              exact (Adler32.adler32_swap_ne xs post h).symm
            have hmismatch := mismatch_of_data hsum
            rwa [List.append_assoc] at hmismatch

/-- A small corruption shows. -/
theorem corrupts_trailer {data bytes : List UInt8} (h : Corrupts (data ++ trailer data) bytes) :
    Mismatch bytes := by
  generalize hwhole : data ++ trailer data = whole at h
  cases h with
  | replace xs ys hne => exact mismatch_of_replace hne hwhole
  | swap xs ys hne => exact mismatch_of_swap hne hwhole

end Trailer
