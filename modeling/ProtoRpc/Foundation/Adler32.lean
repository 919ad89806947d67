import Mathlib.Algebra.Group.Nat.Defs

/-!
The Adler-32 checksum of RFC 1950: two running sums modulo the largest prime
below 65536, packed into one 32-bit word. The running word is the argument and
the result, so a checksum is continued by passing the previous one.

Another octet in one place makes another first sum, and two neighbours in the
other order make another second sum, because two octets differ by less than the
modulus and what follows is added to both sides alike.
-/
namespace Adler32

def base : Nat := 65521

/-- One octet added to the pair of sums. -/
def update (s : Nat × Nat) (b : UInt8) : Nat × Nat :=
  ((s.1 + b.toNat) % base, (s.2 + (s.1 + b.toNat) % base) % base)

def sums (s : Nat × Nat) (bs : List UInt8) : Nat × Nat :=
  bs.foldl update s

def adler32 (adler : Nat) (bs : List UInt8) : Nat :=
  let s := sums (adler % 65536, adler / 65536 % 65536) bs
  s.2 * 65536 + s.1

theorem sums_lt {s : Nat × Nat} (h : s.1 < 65536 ∧ s.2 < 65536) (bs : List UInt8) :
    (sums s bs).1 < 65536 ∧ (sums s bs).2 < 65536 := by
  induction bs generalizing s with
  | nil => exact h
  | cons b bs ih =>
      apply ih
      have hone : (s.1 + b.toNat) % base < base := Nat.mod_lt _ (by decide)
      have htwo : (s.2 + (s.1 + b.toNat) % base) % base < base := Nat.mod_lt _ (by decide)
      exact ⟨Nat.lt_trans hone (by decide), Nat.lt_trans htwo (by decide)⟩

theorem adler32_lt (adler : Nat) (bs : List UInt8) : adler32 adler bs < 2 ^ 32 := by
  have hsums := sums_lt (s := (adler % 65536, adler / 65536 % 65536))
    ⟨Nat.mod_lt _ (by decide), Nat.mod_lt _ (by decide)⟩ bs
  simp only [adler32]
  omega

/-- Both sums are residues, as they are after any octet. -/
def Reduced (s : Nat × Nat) : Prop := s.1 < base ∧ s.2 < base

theorem update_reduced (s : Nat × Nat) (b : UInt8) : Reduced (update s b) :=
  ⟨Nat.mod_lt _ (by decide), Nat.mod_lt _ (by decide)⟩

theorem sums_append (s : Nat × Nat) (xs ys : List UInt8) :
    sums s (xs ++ ys) = sums (sums s xs) ys :=
  List.foldl_append

theorem add_mod_ne {a b : Nat} (ha : a < base) (hb : b < base) (h : a ≠ b) (c : Nat) :
    (a + c) % base ≠ (b + c) % base := by
  simp only [base] at *
  omega

theorem sums_fst_ne {s t : Nat × Nat} (hs : Reduced s) (ht : Reduced t) (h : s.1 ≠ t.1)
    (bs : List UInt8) : (sums s bs).1 ≠ (sums t bs).1 := by
  induction bs generalizing s t with
  | nil => exact h
  | cons b bs ih =>
      apply ih (update_reduced s b) (update_reduced t b)
      exact add_mod_ne hs.1 ht.1 h b.toNat

theorem sums_snd_ne {s t : Nat × Nat} (hs : Reduced s) (ht : Reduced t) (hfst : s.1 = t.1)
    (h : s.2 ≠ t.2) (bs : List UInt8) : (sums s bs).2 ≠ (sums t bs).2 := by
  induction bs generalizing s t with
  | nil => exact h
  | cons b bs ih =>
      apply ih (update_reduced s b) (update_reduced t b)
      · rw [update, update, hfst]
      · rw [update, update, hfst]
        exact add_mod_ne hs.2 ht.2 h _

theorem update_fst_ne (s : Nat × Nat) {a b : UInt8} (h : a ≠ b) :
    (update s a).1 ≠ (update s b).1 := by
  have hne : a.toNat ≠ b.toNat := fun heq => h (UInt8.toNat_inj.mp heq)
  have ha := a.toNat_lt
  have hb := b.toNat_lt
  rw [update, update, Nat.add_comm s.1, Nat.add_comm s.1]
  exact add_mod_ne (Nat.lt_trans ha (by decide)) (Nat.lt_trans hb (by decide)) hne s.1

theorem update_swap (s : Nat × Nat) {a b : UInt8} (h : a ≠ b) :
    (update (update s a) b).1 = (update (update s b) a).1 ∧
      (update (update s a) b).2 ≠ (update (update s b) a).2 := by
  have hne : a.toNat ≠ b.toNat := fun heq => h (UInt8.toNat_inj.mp heq)
  have ha := a.toNat_lt
  have hb := b.toNat_lt
  simp only [update, base]
  omega

/-- The sums that `adler32` starts from 1. -/
def start : Nat × Nat := (1, 0)

theorem adler32_one (bs : List UInt8) :
    adler32 1 bs = (sums start bs).2 * 65536 + (sums start bs).1 := rfl

theorem adler32_one_mod (bs : List UInt8) : adler32 1 bs % 65536 = (sums start bs).1 := by
  have hsums := sums_lt (s := start) (by decide) bs
  rw [adler32_one]
  omega

/-- Another octet in one place changes the low half of the checksum. -/
theorem adler32_replace_ne (xs ys : List UInt8) {a b : UInt8} (h : a ≠ b) :
    adler32 1 (xs ++ a :: ys) % 65536 ≠ adler32 1 (xs ++ b :: ys) % 65536 := by
  rw [adler32_one_mod, adler32_one_mod, sums_append, sums_append]
  exact sums_fst_ne (update_reduced _ a) (update_reduced _ b) (update_fst_ne _ h) ys

/-- Two neighbours in the other order change the checksum. -/
theorem adler32_swap_ne (xs ys : List UInt8) {a b : UInt8} (h : a ≠ b) :
    adler32 1 (xs ++ a :: b :: ys) ≠ adler32 1 (xs ++ b :: a :: ys) := by
  obtain ⟨hfst, hsnd⟩ := update_swap (sums start xs) h
  have hsum := sums_snd_ne (update_reduced _ b) (update_reduced _ a) hfst hsnd ys
  have hone := sums_lt (s := start) (by decide) (xs ++ a :: b :: ys)
  have htwo := sums_lt (s := start) (by decide) (xs ++ b :: a :: ys)
  rw [adler32_one, adler32_one]
  rw [sums_append] at hone htwo
  rw [sums_append, sums_append]
  change (sums (sums start xs) (a :: b :: ys)).2 ≠ (sums (sums start xs) (b :: a :: ys)).2 at hsum
  omega

end Adler32
