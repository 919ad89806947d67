import ProtoRpc.Foundation.BigEndian

/-!
The machine below the library: the ways an operation of the source can stop
without a result, the conversions between `int`, `int32_t` and `size_t` that
the source relies on, and the byte order helpers of `Endian.h` over the object
representation of a little-endian host.

The project is built in Debug mode, so a failed `assert` is a fault and not a
silent no-op. Signed overflow has no defined result and is a fault as well;
conversions to a signed type wrap.
-/
namespace ProtoRpc

/-- Why an operation of the source has no result. -/
inductive Fault where
  | assertion
  | outOfBounds
  | signedOverflow
  | messageTooLarge
  | nullPointer
  deriving DecidableEq, Repr

@[simp] theorem ok_bind {ε α β : Type} (a : α) (f : α → Except ε β) :
    (Except.ok a >>= f) = f a := rfl

@[simp] theorem error_bind {ε α β : Type} (e : ε) (f : α → Except ε β) :
    (Except.error e >>= f) = Except.error e := rfl

@[simp] theorem pure_eq_ok {ε α : Type} (a : α) : (pure a : Except ε α) = Except.ok a := rfl

theorem bind_ok_inv {ε α β : Type} {x : Except ε α} {f : α → Except ε β} {b : β}
    (h : x >>= f = .ok b) : ∃ a, x = .ok a ∧ f a = .ok b := by
  cases x with
  | error e => cases h
  | ok a => exact ⟨a, rfl, h⟩

theorem bind_error_inv {ε α β : Type} {x : Except ε α} {f : α → Except ε β} {e : ε}
    (h : x >>= f = .error e) : x = .error e ∨ ∃ a, x = .ok a ∧ f a = .error e := by
  cases x with
  | error e' =>
      cases h
      exact Or.inl rfl
  | ok a => exact Or.inr ⟨a, rfl, h⟩

theorem mapError_ok_inv {ε ε' α : Type} {x : Except ε α} {f : ε → ε'} {a : α}
    (h : x.mapError f = .ok a) : x = .ok a := by
  cases x with
  | error e => cases h
  | ok b =>
      cases h
      rfl

theorem mapError_error_inv {ε ε' α : Type} {x : Except ε α} {f : ε → ε'} {e' : ε'}
    (h : x.mapError f = .error e') : ∃ e, e' = f e := by
  cases x with
  | error e =>
      cases h
      exact ⟨e, rfl⟩
  | ok b => cases h

def require (fault : Fault) (p : Prop) [Decidable p] : Except Fault Unit :=
  if p then .ok () else .error fault

@[simp] theorem require_of_true {fault : Fault} {p : Prop} [Decidable p] (h : p) :
    require fault p = .ok () := if_pos h

@[simp] theorem require_of_false {fault : Fault} {p : Prop} [Decidable p] (h : ¬ p) :
    require fault p = .error fault := if_neg h

theorem require_inv {fault : Fault} {p : Prop} [Decidable p] {u : Unit}
    (h : require fault p = .ok u) : p := by
  by_contra hp
  rw [require_of_false hp] at h
  cases h

def intMax : Int := 2 ^ 31 - 1

/-- `a + b` on `int` operands that are not negative. -/
def addInt (a b : Int) : Except Fault Int := do
  require .signedOverflow (a + b ≤ intMax)
  return a + b

theorem addInt_eq {a b : Int} (h : a + b ≤ intMax) : addInt a b = .ok (a + b) := by
  simp [addInt, h]

theorem addInt_error {a b : Int} (h : intMax < a + b) :
    addInt a b = .error .signedOverflow := by
  simp [addInt, require_of_false (Int.not_le.mpr h)]

/-- `static_cast<int32_t>` of a `size_t`. -/
def toInt32 (n : Nat) : BitVec 32 := BitVec.ofNat 32 n

theorem toInt32_toInt {n : Nat} (h : n < 2 ^ 31) : (toInt32 n).toInt = n := by
  have hn : n % 2 ^ 32 = n := Nat.mod_eq_of_lt (by omega)
  simp only [toInt32, BitVec.toInt_eq_toNat_cond, BitVec.toNat_ofNat, hn]
  split <;> omega

theorem toInt32_toInt_neg {n : Nat} (hlo : 2 ^ 31 ≤ n) (hhi : n < 2 ^ 32) :
    (toInt32 n).toInt < 0 := by
  have hn : n % 2 ^ 32 = n := Nat.mod_eq_of_lt hhi
  simp only [toInt32, BitVec.toInt_eq_toNat_cond, BitVec.toNat_ofNat, hn]
  split <;> omega

/-- The octets of a `k`-octet integer in the memory of the host. -/
def objectBytes (k : Nat) (x : BitVec (8 * k)) : List UInt8 :=
  (BigEndian.encode k x.toNat).reverse

/-- The `k`-octet integer that `memcpy` leaves in a variable. -/
def ofObjectBytes (k : Nat) (bs : List UInt8) : BitVec (8 * k) :=
  BitVec.ofNat (8 * k) (BigEndian.decode bs.reverse)

/-- `htobe16`, `htobe32` and `htobe64`: the octets in the opposite order. -/
def hostToNetwork (k : Nat) (x : BitVec (8 * k)) : BitVec (8 * k) :=
  BitVec.ofNat (8 * k) (BigEndian.decode (objectBytes k x))

/-- `be16toh`, `be32toh` and `be64toh`. -/
def networkToHost (k : Nat) (x : BitVec (8 * k)) : BitVec (8 * k) :=
  hostToNetwork k x

def hostToNetwork32 : BitVec 32 → BitVec 32 := hostToNetwork 4
def networkToHost32 : BitVec 32 → BitVec 32 := networkToHost 4

private theorem decode_toNat {k : Nat} {bs : List UInt8} (h : bs.length = k) :
    (BitVec.ofNat (8 * k) (BigEndian.decode bs)).toNat = BigEndian.decode bs := by
  have hlt := BigEndian.decode_lt bs
  rw [h, show 256 = 2 ^ 8 from rfl, ← Nat.pow_mul] at hlt
  rw [BitVec.toNat_ofNat, Nat.mod_eq_of_lt hlt]

/-- A value converted to network order lies in memory most significant octet
first, whatever the byte order of the host. -/
theorem objectBytes_hostToNetwork (k : Nat) (x : BitVec (8 * k)) :
    objectBytes k (hostToNetwork k x) = BigEndian.encode k x.toNat := by
  have hlen : (objectBytes k x).length = k := by simp [objectBytes]
  rw [objectBytes, hostToNetwork, decode_toNat hlen, BigEndian.encode_decode hlen,
    objectBytes, List.reverse_reverse]

theorem networkToHost_ofObjectBytes {k : Nat} {bs : List UInt8} (h : bs.length = k) :
    networkToHost k (ofObjectBytes k bs) = BitVec.ofNat (8 * k) (BigEndian.decode bs) := by
  have hlen : bs.reverse.length = k := by simpa using h
  rw [networkToHost, hostToNetwork, objectBytes, ofObjectBytes, decode_toNat hlen,
    BigEndian.encode_decode hlen, List.reverse_reverse]

end ProtoRpc
