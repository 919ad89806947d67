import Mathlib.Data.List.GetD

/-!
A queue that is emptied in batches. Items are pushed at any time; a batch takes
everything that waits, and its items run one after the other while pushes go on.
An entry remembers its position among the pushes and how many batches had been
taken before it, so that the order of the whole history can be stated.
-/
namespace Batches

universe u

structure Entry (α : Type u) where
  item : α
  number : Nat
  batches : Nat
  deriving DecidableEq, Repr

/-- `pushed`, `ran` (with the number of the batch) and `sizes` (one for each
batch that was taken) only record. -/
structure Queue (α : Type u) where
  waiting : List (Entry α)
  batch : List (Entry α)
  pushed : List (Entry α)
  ran : List (Entry α × Nat)
  sizes : List Nat
  deriving DecidableEq, Repr

namespace Queue

variable {α : Type u}

def empty : Queue α := ⟨[], [], [], [], []⟩

/-- The entry that a push makes now. -/
def entry (q : Queue α) (a : α) : Entry α := ⟨a, q.pushed.length, q.sizes.length⟩

def push (q : Queue α) (a : α) : Queue α :=
  { q with
    waiting := q.waiting ++ [q.entry a]
    pushed := q.pushed ++ [q.entry a] }

def take (q : Queue α) : Queue α :=
  { q with
    waiting := []
    batch := q.waiting
    sizes := q.sizes ++ [q.waiting.length] }

/-- The first entry of the batch runs. -/
def run (q : Queue α) : Queue α :=
  { q with
    batch := q.batch.tail
    ran := q.ran ++ q.batch.head?.toList.map fun e => (e, q.sizes.length) }

def ranIn (q : Queue α) (k : Nat) : Nat := q.ran.countP fun x => x.2 == k

structure Ordered (q : Queue α) : Prop where
  order : q.ran.map Prod.fst ++ q.batch ++ q.waiting = q.pushed
  waiting : ∀ e ∈ q.waiting, e.batches = q.sizes.length
  batch : ∀ e ∈ q.batch, e.batches + 1 = q.sizes.length
  ran : ∀ x ∈ q.ran, x.2 = x.1.batches + 1
  counted : ∀ i, q.ranIn (i + 1) + (if i + 1 = q.sizes.length then q.batch.length else 0) =
    q.sizes.getD i 0

theorem ordered_empty : (empty : Queue α).Ordered where
  order := rfl
  waiting := nofun
  batch := nofun
  ran := nofun
  counted := fun i => by simp [ranIn, empty]

variable {q : Queue α}

theorem Ordered.push (h : q.Ordered) (a : α) : (q.push a).Ordered where
  order := by
    change q.ran.map Prod.fst ++ q.batch ++ (q.waiting ++ [q.entry a]) = q.pushed ++ [q.entry a]
    rw [← h.order, List.append_assoc, List.append_assoc]
    simp
  waiting := by
    intro e he
    cases List.mem_append.mp he with
    | inl hold => exact h.waiting e hold
    | inr hnew =>
        obtain rfl := List.mem_singleton.mp hnew
        rfl
  batch := h.batch
  ran := h.ran
  counted := h.counted

theorem Ordered.take (h : q.Ordered) (hbatch : q.batch = []) : q.take.Ordered where
  order := by
    have horder := h.order
    rw [hbatch, List.append_nil] at horder
    change q.ran.map Prod.fst ++ q.waiting ++ [] = q.pushed
    rw [List.append_nil, horder]
  waiting := nofun
  batch := by
    intro e he
    change e.batches + 1 = (q.sizes ++ [q.waiting.length]).length
    rw [h.waiting e he, List.length_append, List.length_singleton]
  ran := h.ran
  counted := by
    intro i
    have hi := h.counted i
    simp only [hbatch, List.length_nil, ite_self, Nat.add_zero] at hi
    change q.ranIn (i + 1) + (if i + 1 = (q.sizes ++ [q.waiting.length]).length then
      q.waiting.length else 0) = (q.sizes ++ [q.waiting.length]).getD i 0
    rw [hi, List.length_append, List.length_singleton]
    rcases Nat.lt_trichotomy i q.sizes.length with hlt | heq | hgt
    · rw [if_neg (by omega), Nat.add_zero, List.getD_append _ _ _ _ hlt]
    · subst heq
      rw [if_pos rfl, List.getD_eq_default _ _ (Nat.le_refl _),
        List.getD_append_right _ _ _ _ (Nat.le_refl _)]
      simp
    · rw [if_neg (by omega), Nat.add_zero, List.getD_eq_default _ _ (by omega),
        List.getD_eq_default _ _ (by rw [List.length_append, List.length_singleton]; omega)]

theorem Ordered.run (h : q.Ordered) {e : Entry α} {rest : List (Entry α)}
    (hbatch : q.batch = e :: rest) : q.run.Ordered where
  order := by
    change (q.ran ++ _).map Prod.fst ++ q.batch.tail ++ q.waiting = q.pushed
    rw [← h.order, hbatch]
    simp
  waiting := h.waiting
  batch := fun e' he' => h.batch e' (List.mem_of_mem_tail he')
  ran := by
    intro x hx
    change x ∈ q.ran ++ _ at hx
    rw [hbatch] at hx
    cases List.mem_append.mp hx with
    | inl hold => exact h.ran x hold
    | inr hnew =>
        obtain rfl : x = (e, q.sizes.length) := by simpa using hnew
        exact (h.batch e (hbatch ▸ List.mem_cons_self)).symm
  counted := by
    intro i
    change List.countP _ (q.ran ++ _) +
      (if i + 1 = q.sizes.length then q.batch.tail.length else 0) = q.sizes.getD i 0
    rw [← h.counted i, hbatch, List.countP_append, ranIn]
    by_cases hk : i + 1 = q.sizes.length
    · simp [hk]
      omega
    · simp [hk, Ne.symm hk]

/-- What ran is a prefix of what was pushed, each entry in the batch after its
push, and no batch runs more than it took. -/
theorem Ordered.history (h : q.Ordered) :
    q.ran.map Prod.fst <+: q.pushed ∧ (∀ x ∈ q.ran, x.2 = x.1.batches + 1) ∧
      ∀ i, q.ranIn (i + 1) ≤ q.sizes.getD i 0 := by
  refine ⟨⟨q.batch ++ q.waiting, ?_⟩, h.ran, ?_⟩
  · rw [← List.append_assoc, h.order]
  · intro i
    have hi := h.counted i
    omega

end Queue
end Batches
