import Mathlib.Data.List.Forall2

/-!
Prefix-free framings of a symbol stream. A framing says which strings are one
whole frame and what the frame means; the decoding of a stream is its longest
prefix of consecutive frames together with the symbols left over. Decodings
are unique and compose over concatenation, so a decoder that is right on each
input it is shown is right on the whole stream however that stream is cut.
-/
universe u v

/-- No whole frame is a proper beginning of another, and none is empty. -/
structure Framing (σ : Type u) (α : Type v) where
  Frame : List σ → α → Prop
  ne_nil : ∀ {f a}, Frame f a → f ≠ []
  prefixFree : ∀ {f g a b s t}, Frame f a → Frame g b → f ++ s = g ++ t → f = g ∧ a = b

namespace Framing
variable {σ : Type u} {α : Type v} (F : Framing σ α)

/-- No whole frame starts the string. -/
def Stuck (rest : List σ) : Prop :=
  ∀ f a t, F.Frame f a → rest ≠ f ++ t

/-- The longest prefix of `stream` made of whole frames carries `msgs`, and
`rest` is what follows it. -/
def Decoding (stream : List σ) (msgs : List α) (rest : List σ) : Prop :=
  ∃ frames, List.Forall₂ F.Frame frames msgs ∧ stream = frames.flatten ++ rest ∧ F.Stuck rest

variable {F}

theorem decoding_stuck {rest : List σ} (h : F.Stuck rest) : F.Decoding rest [] rest :=
  ⟨[], .nil, rfl, h⟩

theorem decoding_cons {f stream rest : List σ} {a : α} {msgs : List α}
    (hf : F.Frame f a) (h : F.Decoding stream msgs rest) :
    F.Decoding (f ++ stream) (a :: msgs) rest := by
  obtain ⟨frames, hframes, rfl, hstuck⟩ := h
  exact ⟨f :: frames, .cons hf hframes, by simp, hstuck⟩

theorem decoding_frames {frames : List (List σ)} {msgs : List α} {rest : List σ}
    (hframes : List.Forall₂ F.Frame frames msgs) (h : F.Stuck rest) :
    F.Decoding (frames.flatten ++ rest) msgs rest :=
  ⟨frames, hframes, rfl, h⟩

private theorem frames_unique {fs gs : List (List σ)} {as bs : List α} {r s : List σ}
    (hf : List.Forall₂ F.Frame fs as) (hg : List.Forall₂ F.Frame gs bs)
    (hr : F.Stuck r) (hs : F.Stuck s) (h : fs.flatten ++ r = gs.flatten ++ s) :
    as = bs ∧ r = s := by
  induction hf generalizing gs bs with
  | nil =>
      cases hg with
      | nil => exact ⟨rfl, by simpa using h⟩
      | @cons g b gs bs hgb _ =>
          refine absurd ?_ (hr g b (gs.flatten ++ s) hgb)
          simpa using h
  | @cons f a fs as hfa _ ih =>
      cases hg with
      | nil =>
          refine absurd ?_ (hs f a (fs.flatten ++ r) hfa)
          simpa using h.symm
      | @cons g b gs bs hgb hgs =>
          simp only [List.flatten_cons, List.append_assoc] at h
          obtain ⟨rfl, rfl⟩ := F.prefixFree hfa hgb h
          obtain ⟨rfl, rfl⟩ := ih hgs (List.append_cancel_left h)
          exact ⟨rfl, rfl⟩

/-- A stream has at most one decoding. -/
theorem decoding_unique {stream r s : List σ} {as bs : List α}
    (ha : F.Decoding stream as r) (hb : F.Decoding stream bs s) : as = bs ∧ r = s := by
  obtain ⟨fs, hfs, rfl, hr⟩ := ha
  obtain ⟨gs, hgs, h, hs⟩ := hb
  exact frames_unique hfs hgs hr hs h

/-- What one decoding left over is decoded again in front of the symbols that
arrive later. -/
theorem decoding_append {stream more r s : List σ} {as bs : List α}
    (ha : F.Decoding stream as r) (hb : F.Decoding (r ++ more) bs s) :
    F.Decoding (stream ++ more) (as ++ bs) s := by
  obtain ⟨fs, hfs, rfl, _⟩ := ha
  obtain ⟨gs, hgs, h, hs⟩ := hb
  refine ⟨fs ++ gs, List.rel_append hfs hgs, ?_, hs⟩
  rw [List.append_assoc, h, List.flatten_append, List.append_assoc]

/-- A proper beginning of a frame holds no whole frame. -/
theorem stuck_of_properPrefix {p s : List σ} {a : α} (hf : F.Frame (p ++ s) a) (hs : s ≠ []) :
    F.Stuck p := by
  rintro f b t hb rfl
  have heq : (f ++ t ++ s) ++ [] = f ++ (t ++ s) := by simp
  have hcut := congrArg List.length (F.prefixFree hf hb heq).1
  simp only [List.length_append] at hcut
  exact hs (List.length_eq_zero_iff.mp (by omega))

theorem stuck_nil : F.Stuck [] := by
  intro f a t hf h
  exact F.ne_nil hf (List.append_eq_nil_iff.mp h.symm).1

end Framing
