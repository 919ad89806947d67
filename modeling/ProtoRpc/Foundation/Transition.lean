import Mathlib.Init

/-!
Runs of a labelled transition system. A run is built at its end, so that an
induction on it adds one step to a state that is reached already. The rules
are the invariant rule, forward refinement under an abstraction function, by
steps or by runs, and the exchange of a property of every state for a condition
on every step.
-/
namespace Transition

universe u v w

variable {S : Type u} {L : Type v}

/-- The runs of a step relation, with their labels in order. -/
inductive Run (step : S → L → S → Prop) (s : S) : List L → S → Prop where
  | nil : Run step s [] s
  | snoc {ls : List L} {l : L} {s' s'' : S} (hrun : Run step s ls s') (hstep : step s' l s'') :
      Run step s (ls ++ [l]) s''

/-- The steps that meet a condition on the state before them. -/
def Guarded (step : S → L → S → Prop) (cond : S → L → Prop) (s : S) (l : L) (s' : S) : Prop :=
  cond s l ∧ step s l s'

/-- The steps that lead to a state with a property. -/
def Through (step : S → L → S → Prop) (P : S → Prop) (s : S) (l : L) (s' : S) : Prop :=
  step s l s' ∧ P s'

/-- The steps with a record that each of them continues. -/
def Recorded {R : Type w} (step : S → L → S → Prop) (note : S → L → R → R) (p : S × R) (l : L)
    (q : S × R) : Prop :=
  step p.1 l q.1 ∧ q.2 = note p.1 l p.2

/-- Under the condition every run keeps to good states; a step without it can
be continued to a bad one. -/
structure SafeExactly (step : S → L → S → Prop) (init : S) (P : S → Prop)
    (cond : S → L → Prop) : Prop where
  safe : ∀ ls s, Run (Guarded step cond) init ls s → P s
  breach : ∀ ls s l s', Run step init ls s → step s l s' → ¬ cond s l →
    ∃ ls' s'', Run step s' ls' s'' ∧ ¬ P s''

variable {step : S → L → S → Prop} {s s' : S} {ls : List L}

/-- The step that an event makes at the end of a run, where it has a result. -/
theorem step_then {E : Type w} {exec : S → L → Except E S → Prop} {s'' : S} {r : Except E S}
    (_hrun : Run (fun s l s' => exec s l (.ok s')) s ls s') (l : L) (hexec : exec s' l r)
    (hr : r = .ok s'') : exec s' l (.ok s'') := by
  rw [hr] at hexec
  exact hexec

theorem run_then {E : Type w} {exec : S → L → Except E S → Prop} {s'' : S} {r : Except E S}
    (hrun : Run (fun s l s' => exec s l (.ok s')) s ls s') (l : L) (hexec : exec s' l r)
    (hr : r = .ok s'') : Run (fun s l s' => exec s l (.ok s')) s (ls ++ [l]) s'' :=
  hrun.snoc (step_then hrun l hexec hr)

/-- The same for a run whose steps meet a condition. -/
theorem guarded_then {E : Type w} {exec : S → L → Except E S → Prop} {cond : S → L → Prop}
    {s'' : S} {r : Except E S}
    (hrun : Run (Guarded (fun s l s' => exec s l (.ok s')) cond) s ls s') (l : L)
    (hcond : cond s' l) (hexec : exec s' l r) (hr : r = .ok s'') :
    Run (Guarded (fun s l s' => exec s l (.ok s')) cond) s (ls ++ [l]) s'' := by
  rw [hr] at hexec
  exact hrun.snoc ⟨hcond, hexec⟩

theorem Run.invariant {I : S → Prop} (hrun : Run step s ls s') (hinit : I s)
    (hkeep : ∀ s l s', I s → step s l s' → I s') : I s' := by
  induction hrun with
  | nil => exact hinit
  | snoc _ hstep ih => exact hkeep _ _ _ ih hstep

/-- The invariant rule for what is said of a state and of the labels that led to it. -/
theorem Run.trace_invariant {I : List L → S → Prop} (hrun : Run step s ls s') (hinit : I [] s)
    (hkeep : ∀ ls s l s', I ls s → step s l s' → I (ls ++ [l]) s') : I ls s' := by
  induction hrun with
  | nil => exact hinit
  | snoc _ hstep ih => exact hkeep _ _ _ _ ih hstep

/-- A run under a condition is a run. -/
theorem Run.unguarded {cond : S → L → Prop} (hrun : Run (Guarded step cond) s ls s') :
    Run step s ls s' := by
  induction hrun with
  | nil => exact .nil
  | snoc _ hstep ih => exact ih.snoc hstep.2

/-- Steps that keep an invariant and are steps of the abstract system make runs
that are runs of it. -/
theorem Run.refines {T : Type w} {step' : T → L → T → Prop} {I : S → Prop}
    (hrun : Run step s ls s') (abs : S → T) (hinit : I s)
    (hstep : ∀ s l s', I s → step s l s' → I s' ∧ step' (abs s) l (abs s')) :
    I s' ∧ Run step' (abs s) ls (abs s') := by
  induction hrun with
  | nil => exact ⟨hinit, .nil⟩
  | snoc _ hs ih =>
      obtain ⟨hI, habs⟩ := hstep _ _ _ ih.1 hs
      exact ⟨hI, .snoc ih.2 habs⟩

/-- A record hinders no run. -/
theorem Run.recorded {R : Type w} (hrun : Run step s ls s') (note : S → L → R → R) (r : R) :
    ∃ r', Run (Recorded step note) (s, r) ls (s', r') := by
  induction hrun with
  | nil => exact ⟨r, .nil⟩
  | snoc _ hs ih =>
      obtain ⟨r', hrun'⟩ := ih
      exact ⟨_, hrun'.snoc ⟨hs, rfl⟩⟩

theorem Run.append {ls' : List L} {s'' : S} (hrun : Run step s ls s') (hrun' : Run step s' ls' s'') :
    Run step s (ls ++ ls') s'' := by
  induction hrun' with
  | nil =>
      rw [List.append_nil]
      exact hrun
  | snoc _ hs ih =>
      rw [← List.append_assoc]
      exact ih.snoc hs

theorem filterMap_single {O : Type w} (f : L → Option O) (l : L) :
    [l].filterMap f = (f l).toList := by
  cases h : f l <;> simp [h]

/-- Steps that keep an invariant and are runs of another system, with the same labels to
be seen, make runs of it with the same labels to be seen. -/
theorem Run.simulates {T : Type w} {K : Type u} {O : Type v} {step' : T → K → T → Prop}
    {I : S → Prop} {seen : L → Option O} {seen' : K → Option O}
    (hrun : Run step s ls s') (abs : S → T) (hinit : I s)
    (hstep : ∀ s l s', I s → step s l s' → I s' ∧
      ∃ ks, Run step' (abs s) ks (abs s') ∧ ks.filterMap seen' = (seen l).toList) :
    I s' ∧ ∃ ks, Run step' (abs s) ks (abs s') ∧ ks.filterMap seen' = ls.filterMap seen := by
  induction hrun with
  | nil => exact ⟨hinit, [], .nil, rfl⟩
  | snoc _ hs ih =>
      obtain ⟨hI, ks, hks, hseen⟩ := ih
      obtain ⟨hI', ks', hks', hseen'⟩ := hstep _ _ _ hI hs
      refine ⟨hI', ks ++ ks', hks.append hks', ?_⟩
      rw [List.filterMap_append, List.filterMap_append, hseen, hseen', filterMap_single]

/-- Where a step from a good state leads to a good state exactly under a
condition, the runs through good states are those whose steps all meet it. -/
theorem Run.through_iff_guarded {I P : S → Prop} {cond : S → L → Prop} (hI : I s) (hP : P s)
    (hstep : ∀ s l s', I s → P s → step s l s' → I s' ∧ (P s' ↔ cond s l)) :
    Run (Through step P) s ls s' ↔ Run (Guarded step cond) s ls s' := by
  constructor
  · intro hrun
    suffices h : (I s' ∧ P s') ∧ Run (Guarded step cond) s ls s' from h.2
    induction hrun with
    | nil => exact ⟨⟨hI, hP⟩, .nil⟩
    | snoc _ hs ih =>
        obtain ⟨⟨hI', hP'⟩, hguarded⟩ := ih
        obtain ⟨hkeep, hiff⟩ := hstep _ _ _ hI' hP' hs.1
        exact ⟨⟨hkeep, hs.2⟩, .snoc hguarded ⟨hiff.mp hs.2, hs.1⟩⟩
  · intro hrun
    suffices h : (I s' ∧ P s') ∧ Run (Through step P) s ls s' from h.2
    induction hrun with
    | nil => exact ⟨⟨hI, hP⟩, .nil⟩
    | snoc _ hs ih =>
        obtain ⟨⟨hI', hP'⟩, hthrough⟩ := ih
        obtain ⟨hkeep, hiff⟩ := hstep _ _ _ hI' hP' hs.2
        exact ⟨⟨hkeep, hiff.mpr hs.1⟩, .snoc hthrough ⟨hs.2, hiff.mpr hs.1⟩⟩

end Transition
