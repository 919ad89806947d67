import Mathlib.Logic.Function.Basic

/-!
The open descriptors of a process, and who holds each. A number is handed out only
while it is free, and the table has a limit. Closing asks nobody: it frees the number
that it is given, whoever holds it.
-/
namespace Descriptors

universe u

/-- `held` records the holder of each open descriptor. -/
structure Table (H : Type u) where
  limit : Nat
  held : Nat → Option H
  below : ∀ fd h, held fd = some h → fd < limit

namespace Table
variable {H : Type u} {t : Table H} {fd : Nat} {h : H}

def Free (t : Table H) (fd : Nat) : Prop := fd < t.limit ∧ t.held fd = none

/-- No number is left. -/
def Full (t : Table H) : Prop := ∀ fd, ¬ t.Free fd

def take (t : Table H) (fd : Nat) (h : H) (hfree : t.Free fd) : Table H where
  limit := t.limit
  held := Function.update t.held fd (some h)
  below := by
    intro e k hk
    by_cases he : e = fd
    · rw [he]
      exact hfree.1
    · rw [Function.update_of_ne he] at hk
      exact t.below e k hk

/-- `close(2)`; a negative number is refused. -/
def close (t : Table H) (fd : Int) : Table H where
  limit := t.limit
  held := if 0 ≤ fd then Function.update t.held fd.toNat none else t.held
  below := by
    intro e k hk
    split at hk
    · by_cases he : e = fd.toNat
      · rw [he, Function.update_self] at hk
        cases hk
      · rw [Function.update_of_ne he] at hk
        exact t.below e k hk
    · exact t.below e k hk

@[simp] theorem take_held_self (hfree : t.Free fd) : (t.take fd h hfree).held fd = some h :=
  Function.update_self ..

theorem take_held_of_ne (hfree : t.Free fd) {e : Nat} (he : e ≠ fd) :
    (t.take fd h hfree).held e = t.held e :=
  Function.update_of_ne he _ _

@[simp] theorem close_held_self (t : Table H) (fd : Nat) : (t.close fd).held fd = none := by
  simp [close]

theorem close_held_of_ne {fd : Int} {e : Nat} (he : (e : Int) ≠ fd) :
    (t.close fd).held e = t.held e := by
  simp only [close]
  split
  · exact Function.update_of_ne (by omega) _ _
  · rfl

theorem close_of_neg {fd : Int} (hneg : fd < 0) : (t.close fd).held = t.held :=
  if_neg (by omega)

/-- What is taken is someone's that had not been held. -/
theorem held_of_take (hfree : t.Free fd) {e : Nat} {k : H} (hk : (t.take fd h hfree).held e = some k) :
    (e = fd ∧ k = h) ∨ (e ≠ fd ∧ t.held e = some k) := by
  by_cases he : e = fd
  · subst he
    rw [take_held_self] at hk
    exact Or.inl ⟨rfl, (Option.some.inj hk).symm⟩
  · rw [take_held_of_ne hfree he] at hk
    exact Or.inr ⟨he, hk⟩

theorem held_of_close {fd : Int} {e : Nat} {k : H} (hk : (t.close fd).held e = some k) :
    (e : Int) ≠ fd ∧ t.held e = some k := by
  by_cases he : (e : Int) = fd
  · subst he
    rw [close_held_self] at hk
    cases hk
  · rw [close_held_of_ne he] at hk
    exact ⟨he, hk⟩

/-- A descriptor that is held leaves room when it is closed. -/
theorem free_close (hheld : t.held fd = some h) : (t.close fd).Free fd :=
  ⟨t.below fd h hheld, close_held_self t fd⟩

theorem Free.close {e : Int} (hfree : t.Free fd) : (t.close e).Free fd := by
  refine ⟨hfree.1, ?_⟩
  by_cases he : (fd : Int) = e
  · subst he
    exact close_held_self t fd
  · rw [close_held_of_ne he]
    exact hfree.2

theorem not_full_close {x : Int} (h : ¬ t.Full) : ¬ (t.close x).Full :=
  fun hfull => h fun fd hfree => hfull fd hfree.close

theorem not_full_of_held (hheld : t.held fd = some h) : ¬ (t.close fd).Full :=
  fun hfull => hfull fd (free_close hheld)

end Table
end Descriptors
