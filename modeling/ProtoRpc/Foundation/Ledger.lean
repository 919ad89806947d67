import Mathlib.Data.Finmap

/-!
Accounts that are opened under a key and closed by naming that key. A ledger
lists the entries, the latest first. Closing a key that is not open is allowed
and does nothing, and opening a key again replaces its value. Where no key is
opened twice, a table that agrees with the ledger holds exactly the openings
that have not been settled.
-/
namespace Ledger

universe u v

inductive Entry (K : Type u) (V : Type v) where
  | opened (k : K) (v : V)
  | closed (k : K)

variable {K : Type u} {V : Type v}

/-- The openings, the latest first. -/
def opened : List (Entry K V) → List (K × V)
  | [] => []
  | .opened k v :: es => (k, v) :: opened es
  | .closed _ :: es => opened es

/-- The keys of the closings, the latest first. -/
def closed : List (Entry K V) → List K
  | [] => []
  | .opened _ _ :: es => closed es
  | .closed k :: es => k :: closed es

theorem opened_append (newer older : List (Entry K V)) :
    opened (newer ++ older) = opened newer ++ opened older := by
  induction newer with
  | nil => rfl
  | cons e newer ih => cases e <;> simp [opened, ih]

variable [DecidableEq K]

/-- The value under which a key is open. -/
def current : List (Entry K V) → K → Option V
  | [], _ => none
  | .opened k' v :: es, k => if k = k' then some v else current es k
  | .closed k' :: es, k => if k = k' then none else current es k

/-- The openings that a later entry closed, in the order of their closing. -/
def settled : List (Entry K V) → List (K × V)
  | [] => []
  | .opened _ _ :: es => settled es
  | .closed k :: es => ((current es k).map fun v => (k, v)).toList ++ settled es

/-- An open key was opened and has not been closed since. -/
theorem exists_opened_of_current {es : List (Entry K V)} {k : K} {v : V}
    (h : current es k = some v) :
    ∃ newer older, es = newer ++ .opened k v :: older ∧ .closed k ∉ newer := by
  induction es with
  | nil => exact absurd h (by simp [current])
  | cons e es ih =>
      cases e with
      | opened k' v' =>
          by_cases hk : k = k'
          · subst hk
            simp only [current, if_true, Option.some.injEq] at h
            exact ⟨[], es, by simp [h], by simp⟩
          · simp only [current, hk, if_false] at h
            obtain ⟨newer, older, rfl, hclosed⟩ := ih h
            exact ⟨.opened k' v' :: newer, older, rfl, by simpa using hclosed⟩
      | closed k' =>
          by_cases hk : k = k'
          · simp [current, hk] at h
          · simp only [current, hk, if_false] at h
            obtain ⟨newer, older, rfl, hclosed⟩ := ih h
            exact ⟨.closed k' :: newer, older, rfl, by simp [hk, hclosed]⟩

theorem current_of_opened {newer older : List (Entry K V)} {k : K} {v : V}
    (hclosed : .closed k ∉ newer) (hopened : k ∉ (opened newer).map Prod.fst) :
    current (newer ++ .opened k v :: older) k = some v := by
  induction newer with
  | nil => simp [current]
  | cons e newer ih =>
      cases e with
      | opened k' v' =>
          simp only [opened, List.map_cons, List.mem_cons, not_or] at hopened
          simp only [List.mem_cons, reduceCtorEq, false_or] at hclosed
          rw [List.cons_append, current, if_neg hopened.1]
          exact ih hclosed hopened.2
      | closed k' =>
          simp only [List.mem_cons, Entry.closed.injEq, not_or] at hclosed
          rw [List.cons_append, current, if_neg hclosed.1]
          exact ih hclosed.2 hopened

theorem current_eq_some_iff {es : List (Entry K V)} (hkeys : ((opened es).map Prod.fst).Nodup)
    {k : K} {v : V} :
    current es k = some v ↔
      ∃ newer older, es = newer ++ .opened k v :: older ∧ .closed k ∉ newer := by
  constructor
  · exact exists_opened_of_current
  · rintro ⟨newer, older, rfl, hclosed⟩
    refine current_of_opened hclosed ?_
    rw [opened_append, List.map_append] at hkeys
    intro hmem
    exact (List.disjoint_of_nodup_append hkeys) hmem (by simp [opened])

theorem mem_opened_of_current {es : List (Entry K V)} {k : K} {v : V}
    (h : current es k = some v) : (k, v) ∈ opened es := by
  obtain ⟨newer, older, rfl, -⟩ := exists_opened_of_current h
  rw [opened_append]
  exact List.mem_append_right _ List.mem_cons_self

/-- A key that has not been opened is not open. -/
theorem current_eq_none {es : List (Entry K V)} {k : K}
    (h : k ∉ (opened es).map Prod.fst) : current es k = none := by
  cases hv : current es k with
  | none => rfl
  | some v => exact absurd (List.mem_map_of_mem (mem_opened_of_current hv)) h

/-- A key that was opened stays open until it is closed. -/
theorem exists_current {es : List (Entry K V)} {k : K} (hopened : k ∈ (opened es).map Prod.fst)
    (hclosed : k ∉ closed es) : ∃ v, current es k = some v := by
  induction es with
  | nil => exact absurd hopened (by simp [opened])
  | cons e es ih =>
      cases e with
      | opened k' v =>
          by_cases hk : k = k'
          · exact ⟨v, if_pos hk⟩
          · rw [current, if_neg hk]
            refine ih ?_ hclosed
            simpa [opened, hk] using hopened
      | closed k' =>
          simp only [closed, List.mem_cons, not_or] at hclosed
          rw [current, if_neg hclosed.1]
          exact ih hopened hclosed.2

/-- No closing was in vain. -/
def Balanced (es : List (Entry K V)) : Prop := (settled es).map Prod.fst = closed es

theorem Balanced.close {es : List (Entry K V)} (h : Balanced es) {k : K}
    (hopened : k ∈ (opened es).map Prod.fst) (hclosed : k ∉ closed es) :
    Balanced (.closed k :: es) := by
  obtain ⟨v, hv⟩ := exists_current hopened hclosed
  rw [Balanced, settled, hv, closed]
  exact congrArg (List.cons k) h

theorem mem_opened_of_settled {es : List (Entry K V)} {p : K × V} (h : p ∈ settled es) :
    p ∈ opened es := by
  induction es with
  | nil => exact absurd h (by simp [settled])
  | cons e es ih =>
      cases e with
      | opened k v => exact List.mem_cons_of_mem _ (ih h)
      | closed k =>
          rw [opened]
          cases hv : current es k with
          | none => exact ih (by simpa [settled, hv] using h)
          | some v =>
              simp only [settled, hv, Option.map_some, Option.toList_some, List.mem_append,
                List.mem_singleton] at h
              cases h with
              | inl hp => exact hp ▸ mem_opened_of_current hv
              | inr hp => exact ih hp

/-- The entries of a table as pairs. -/
def pairs (table : Finmap (fun _ : K => V)) : Multiset (K × V) :=
  table.entries.map fun e => (e.1, e.2)

theorem pairs_insert {table : Finmap (fun _ : K => V)} {k : K} {v : V}
    (h : table.lookup k = none) : pairs (table.insert k v) = (k, v) ::ₘ pairs table := by
  rw [pairs, Finmap.entries_insert_of_notMem (Finmap.lookup_eq_none.mp h), Multiset.map_cons]
  rfl

theorem insert_erase {table : Finmap (fun _ : K => V)} {k : K} {v : V}
    (h : table.lookup k = some v) : (table.erase k).insert k v = table := by
  apply Finmap.ext_lookup
  intro k'
  by_cases hk : k' = k
  · subst hk
    rw [Finmap.lookup_insert, h]
  · rw [Finmap.lookup_insert_of_ne _ hk, Finmap.lookup_erase_ne hk]

/-- Every opening is in the table or has been settled, and not both. -/
theorem opened_eq_pairs_add_settled {es : List (Entry K V)}
    (hkeys : ((opened es).map Prod.fst).Nodup) (table : Finmap (fun _ : K => V))
    (htable : ∀ k, table.lookup k = current es k) :
    (opened es : Multiset (K × V)) = pairs table + (settled es : Multiset (K × V)) := by
  induction es generalizing table with
  | nil =>
      have hempty : table = ∅ := Finmap.ext_lookup fun k => by
        rw [htable, Finmap.lookup_empty, current]
      subst hempty
      rfl
  | cons e es ih =>
      cases e with
      | opened k v =>
          simp only [opened, List.map_cons, List.nodup_cons] at hkeys
          have hlookup : table.lookup k = some v := by simp [htable, current]
          have hrest := ih hkeys.2 (table.erase k) fun k' => by
            by_cases hk : k' = k
            · subst hk
              rw [Finmap.lookup_erase, current_eq_none hkeys.1]
            · rw [Finmap.lookup_erase_ne hk, htable, current, if_neg hk]
          rw [opened, settled, ← Multiset.cons_coe, hrest, ← Multiset.cons_add,
            ← pairs_insert (Finmap.lookup_erase k table), insert_erase hlookup]
      | closed k =>
          simp only [opened] at hkeys
          have hlookup : table.lookup k = none := by simp [htable, current]
          have hother : ∀ k', k' ≠ k → table.lookup k' = current es k' := by
            intro k' hk
            rw [htable, current, if_neg hk]
          cases hv : current es k with
          | none =>
              rw [opened, settled, hv]
              refine ih hkeys table fun k' => ?_
              by_cases hk : k' = k
              · rw [hk, hlookup, hv]
              · exact hother k' hk
          | some v =>
              have hrest := ih hkeys (table.insert k v) fun k' => by
                by_cases hk : k' = k
                · subst hk
                  rw [Finmap.lookup_insert, hv]
                · rw [Finmap.lookup_insert_of_ne _ hk, hother k' hk]
              rw [opened, settled, hv, hrest, pairs_insert hlookup]
              simp [← Multiset.cons_coe]

/-- In a balanced ledger, the keys of the table are the ones not closed. -/
theorem opened_eq_keys_add_closed {es : List (Entry K V)}
    (hkeys : ((opened es).map Prod.fst).Nodup) (table : Finmap (fun _ : K => V))
    (htable : ∀ k, table.lookup k = current es k) (h : Balanced es) :
    ((opened es).map Prod.fst : Multiset K) = table.keys.val + (closed es : Multiset K) := by
  have hpairs := congrArg (Multiset.map Prod.fst) (opened_eq_pairs_add_settled hkeys table htable)
  rw [Multiset.map_add, Multiset.map_coe, Multiset.map_coe, h, pairs, Multiset.map_map] at hpairs
  exact hpairs

end Ledger
