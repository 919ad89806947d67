import Mathlib.Data.Nat.Init
import Mathlib.Tactic.Ring

/-!
Fixed-width big-endian numerals over octets. Encoding truncates to the width,
so the round trip is stated modulo the width and the two-sided inverse holds
for values and octet strings of matching size.
-/
namespace BigEndian

/-- The `k` low-order octets of `n`, most significant first. -/
def encode : Nat → Nat → List UInt8
  | 0, _ => []
  | k + 1, n => UInt8.ofNat (n / 256 ^ k) :: encode k n

def decode : List UInt8 → Nat
  | [] => 0
  | b :: bs => b.toNat * 256 ^ bs.length + decode bs

@[simp] theorem length_encode (k n : Nat) : (encode k n).length = k := by
  induction k with
  | zero => rfl
  | succ k ih => simp [encode, ih]

theorem decode_lt (bs : List UInt8) : decode bs < 256 ^ bs.length := by
  induction bs with
  | nil => simp [decode]
  | cons b bs ih =>
      have hb : b.toNat + 1 ≤ 256 := b.toNat_lt
      have hmul : (b.toNat + 1) * 256 ^ bs.length ≤ 256 * 256 ^ bs.length :=
        Nat.mul_le_mul_right _ hb
      rw [decode, List.length_cons, Nat.pow_succ, Nat.mul_comm (256 ^ bs.length)]
      calc b.toNat * 256 ^ bs.length + decode bs
          < b.toNat * 256 ^ bs.length + 256 ^ bs.length := by omega
        _ = (b.toNat + 1) * 256 ^ bs.length := by ring
        _ ≤ 256 * 256 ^ bs.length := hmul

theorem decode_encode (k n : Nat) : decode (encode k n) = n % 256 ^ k := by
  induction k with
  | zero => simp [encode, decode, Nat.mod_one]
  | succ k ih =>
      have hsplit : n % 256 ^ (k + 1) = n % 256 ^ k + 256 ^ k * (n / 256 ^ k % 256) := by
        rw [Nat.pow_succ, Nat.mod_mul]
      simp only [encode, decode, length_encode, ih, UInt8.toNat_ofNat', Nat.reducePow, hsplit]
      ring

theorem decode_encode_of_lt {k n : Nat} (h : n < 256 ^ k) : decode (encode k n) = n := by
  rw [decode_encode, Nat.mod_eq_of_lt h]

theorem encode_add_mul (k n c : Nat) : encode k (c * 256 ^ k + n) = encode k n := by
  induction k generalizing c with
  | zero => rfl
  | succ k ih =>
      have hfac : c * 256 ^ (k + 1) + n = (c * 256) * 256 ^ k + n := by ring
      have hdiv : ((c * 256) * 256 ^ k + n) / 256 ^ k = n / 256 ^ k + c * 256 := by
        rw [Nat.add_comm, Nat.add_mul_div_right _ _ (Nat.pow_pos (by decide))]
      rw [encode, encode, hfac, ih, hdiv]
      congr 1
      apply UInt8.toNat_inj.mp
      simp only [UInt8.toNat_ofNat', Nat.reducePow]
      omega

theorem encode_mod (k n : Nat) : encode k (n % 256 ^ k) = encode k n := by
  have hsplit := Nat.div_add_mod n (256 ^ k)
  rw [Nat.mul_comm] at hsplit
  rw [← encode_add_mul k (n % 256 ^ k) (n / 256 ^ k), hsplit]

theorem encode_inj {k n m : Nat} : encode k n = encode k m ↔ n % 256 ^ k = m % 256 ^ k := by
  constructor
  · intro h
    rw [← decode_encode, ← decode_encode, h]
  · intro h
    rw [← encode_mod, h, encode_mod]

theorem encode_decode {k : Nat} {bs : List UInt8} (h : bs.length = k) :
    encode k (decode bs) = bs := by
  subst h
  induction bs with
  | nil => rfl
  | cons b bs ih =>
      have hdiv : decode (b :: bs) / 256 ^ bs.length = b.toNat := by
        rw [decode, Nat.add_comm, Nat.add_mul_div_right _ _ (Nat.pow_pos (by decide)),
          Nat.div_eq_of_lt (decode_lt bs), Nat.zero_add]
      rw [List.length_cons, encode, hdiv, decode, encode_add_mul, ih]
      simp

end BigEndian
