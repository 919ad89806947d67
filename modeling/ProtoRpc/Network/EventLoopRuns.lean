import ProtoRpc.Network.EventLoop

/-!
Whole runs of an `EventLoop`: the order in which functors run, and whether the
loop can block in `epoll_wait` while one waits. A functor of another thread is
always announced by a write to the eventfd that no read comes after before the
next swap. The loop's own thread announces a functor only while
`callingPendingFunctors_` is set, which is too little for one that is queued
before `loop` or by a destructor at the end of `doPendingFunctors`.
-/
namespace ProtoRpc.EventLoop
open Transition

variable {F : Type} {s s' : EventLoop F} {a : Act F}

/-- The flag and the batch follow the phase. -/
structure InPhase (s : EventLoop F) : Prop where
  batch : s.phase.inBatch = false → s.functors.batch = []
  calling : s.callingPendingFunctors = (s.phase.inBatch || s.phase == .swapping)

theorem inPhase_new : (new : EventLoop F).InPhase := ⟨fun _ => rfl, rfl⟩

theorem InPhase.step (h : s.InPhase) (hstep : Step s a s') : s'.InPhase := by
  cases hstep with
  | queueInLoop hphase =>
      refine ⟨?_, ?_⟩
      · simpa [Batches.Queue.push] using h.batch
      · simpa using h.calling
  | quit hphase => exact ⟨h.batch, h.calling⟩
  | functor hphase hbatch =>
      refine ⟨nofun, ?_⟩
      rw [h.calling, hphase]
      rfl
  | swap hphase =>
      refine ⟨nofun, ?_⟩
      rw [h.calling, hphase]
      rfl
  | endBatch hphase hbatch => exact ⟨fun _ => hbatch, rfl⟩
  | finished hphase =>
      refine ⟨nofun, ?_⟩
      rw [h.calling, hphase]
      rfl
  | foreignPush => exact ⟨h.batch, h.calling⟩
  | foreignWake hw => exact ⟨h.batch, h.calling⟩
  | foreignQuit => exact ⟨h.batch, h.calling⟩
  | loop hphase | leave hphase hquit | stay hphase hquit | poll hphase hactive
  | handleRead hphase | handleEvent hphase | handled hphase | doPendingFunctors hphase
  | destroyed hphase =>
      have hbatch : s.functors.batch = [] := h.batch (by rw [hphase]; rfl)
      have hcalling := h.calling
      rw [hphase] at hcalling
      exact ⟨fun _ => hbatch, by first | exact hcalling | rfl⟩

theorem Step.ordered (h : s.InPhase) (hordered : s.functors.Ordered) (hstep : Step s a s') :
    s'.functors.Ordered := by
  cases hstep with
  | queueInLoop hphase =>
      rw [queueInLoop_functors]
      exact hordered.push _
  | foreignPush => exact hordered.push _
  | swap hphase => exact hordered.take (h.batch (by rw [hphase]; rfl))
  | functor hphase hbatch => exact hordered.run hbatch
  | _ => exact hordered

theorem inPhase_of_run {acts : List (Act F)} (hrun : Run Step new acts s) : s.InPhase :=
  hrun.invariant inPhase_new fun _ _ _ h hstep => h.step hstep

/-- The functors that have run are a prefix of those that were pushed under
`mutex_`, and none is lost. One that was pushed after the swap of a batch runs
in the call of `doPendingFunctors` after it, and a call runs no more than it
swapped out. -/
theorem functors_run_once_in_order {acts : List (Act F)} (hrun : Run Step new acts s) :
    s.functors.ran.map Prod.fst <+: s.functors.pushed ∧
      s.functors.ran.map Prod.fst ++ s.functors.batch ++ s.functors.waiting = s.functors.pushed ∧
      (∀ x ∈ s.functors.ran, x.2 = x.1.batches + 1) ∧
      ∀ i, s.functors.ranIn (i + 1) ≤ s.functors.sizes.getD i 0 := by
  have h : s.InPhase ∧ s.functors.Ordered := by
    refine hrun.invariant (I := fun s => s.InPhase ∧ s.functors.Ordered)
      ⟨inPhase_new, Batches.Queue.ordered_empty⟩ ?_
    intro s a s' h hstep
    exact ⟨h.1.step hstep, hstep.ordered h.1 h.2⟩
  obtain ⟨hinitial, hlater, hfinite⟩ := h.2.history
  exact ⟨hinitial, h.2.order, hlater, hfinite⟩

/-- A push of another thread, one of a handler, and one from inside the first
functor, which is left for the next batch. -/
theorem pushed_while_running : ∃ s : EventLoop Nat, Run Step new
    [.foreignPush 1, .loop, .test, .poll [.other], .handleEvent, .queueInLoop 2, .handled,
      .doPendingFunctors, .swap, .functor, .queueInLoop 3, .finished, .functor, .finished] s ∧
    s.functors.pushed.map (fun e => e.item.functor) = [1, 2, 3] ∧ s.functors.sizes = [2] := by
  refine ⟨_, (((((((((((((Run.nil.snoc .foreignPush).snoc (.loop rfl)).snoc
    (.stay rfl rfl)).snoc (.poll rfl (by decide))).snoc (.handleEvent rfl)).snoc
    (.queueInLoop rfl)).snoc (.handled rfl)).snoc (.doPendingFunctors rfl)).snoc
    (.swap rfl)).snoc (.functor rfl rfl)).snoc (.queueInLoop rfl)).snoc (.finished rfl)).snoc
    (.functor rfl rfl)).snoc (.finished rfl), rfl, rfl⟩

theorem functors_run_once_in_order_while_pushed : ∃ s : EventLoop Nat,
    s.functors.pushed.map (fun e => e.item.functor) = [1, 2, 3] ∧
    s.functors.ran.map Prod.fst <+: s.functors.pushed ∧ s.functors.ranIn 1 ≤ 2 := by
  obtain ⟨s, hrun, hpushed, hsizes⟩ := pushed_while_running
  obtain ⟨hinitial, -, -, hfinite⟩ := functors_run_once_in_order hrun
  have hfirst := hfinite 0
  rw [hsizes] at hfirst
  exact ⟨s, hpushed, hinitial, hfirst⟩

/-- The eventfd is readable when a functor waits that `P` is about, unless the
swap comes before the next poll. -/
def Rouses (P : Batches.Entry (Task F) → Prop) (s : EventLoop F) : Prop :=
  s.phase.beforeSwap = false → ∀ e ∈ s.functors.waiting, P e → 0 < s.wakeups

theorem Rouses.of_wakeups {P : Batches.Entry (Task F) → Prop} (h : 0 < s.wakeups) : s.Rouses P :=
  fun _ _ _ _ => h

/-- Only a push can break it: the eventfd is read where the swap is still to come. -/
theorem Rouses.step {P : Batches.Entry (Task F) → Prop} (h : s.Rouses P) (hstep : Step s a s')
    (hown : ∀ f, a = .queueInLoop f → s.phase.beforeSwap = false →
      P (s.functors.entry ⟨f, true⟩) → 0 < s'.wakeups)
    (hforeign : ∀ f, a = .foreignPush f → ¬ P (s.functors.entry ⟨f, false⟩)) : s'.Rouses P := by
  cases hstep with
  | queueInLoop hphase =>
      rename_i f
      intro hbefore e he hP
      rw [queueInLoop_phase] at hbefore
      rw [queueInLoop_functors] at he
      cases List.mem_append.mp he with
      | inl hold =>
          rw [queueInLoop_wakeups]
          exact Nat.lt_of_lt_of_le (h hbefore e hold hP) (Nat.le_add_right _ _)
      | inr hnew =>
          obtain rfl := List.mem_singleton.mp hnew
          exact hown f rfl hbefore hP
  | foreignPush =>
      rename_i f
      intro hbefore e he hP
      cases List.mem_append.mp he with
      | inl hold => exact h hbefore e hold hP
      | inr hnew =>
          obtain rfl := List.mem_singleton.mp hnew
          exact absurd hP (hforeign f rfl)
  | foreignWake hw => exact .of_wakeups (Nat.succ_pos _)
  | swap hphase => exact fun _ e he => absurd he List.not_mem_nil
  | quit hphase => exact h
  | foreignQuit => exact h
  | poll hphase hactive => exact nofun
  | handleRead hphase => exact nofun
  | handleEvent hphase => exact nofun
  | handled hphase => exact nofun
  | doPendingFunctors hphase => exact nofun
  | loop hphase | leave hphase hquit | stay hphase hquit | functor hphase hbatch
  | finished hphase | endBatch hphase hbatch | destroyed hphase =>
      exact fun _ => h (by rw [hphase]; rfl)

/-- Every functor of another thread whose `queueInLoop` has returned is announced. -/
structure Announced (s : EventLoop F) : Prop where
  numbers : ∀ n, .queueInLoop n ∈ s.waking ∨ n ∈ s.returned → n < s.functors.pushed.length
  rouses : s.Rouses fun e => e.number ∈ s.returned

theorem announced_new : (new : EventLoop F).Announced where
  numbers := fun n hn => by simp [new] at hn
  rouses := fun _ e he => absurd he List.not_mem_nil

theorem Announced.step (h : s.Announced) (hstep : Step s a s') : s'.Announced := by
  have hfresh : ∀ t, (s.functors.entry t).number ∉ s.returned :=
    fun t ht => Nat.lt_irrefl _ (h.numbers _ (Or.inr ht))
  have hrouses := h.rouses.step hstep (fun f _ _ hP => absurd hP (hfresh _)) (fun f _ => hfresh _)
  have hgrow : s.functors.pushed.length ≤ s'.functors.pushed.length := by
    cases hstep with
    | queueInLoop hphase => simp [Batches.Queue.push]
    | foreignPush => simp [push, Batches.Queue.push]
    | _ => exact Nat.le_refl _
  cases hstep with
  | queueInLoop hphase =>
      refine ⟨fun n hn => Nat.lt_of_lt_of_le (h.numbers n (by simpa using hn)) hgrow, ?_⟩
      rw [queueInLoop_returned]
      exact hrouses
  | foreignPush =>
      refine ⟨?_, hrouses⟩
      intro n hn
      rcases hn with hwaking | hreturned
      · cases List.mem_cons.mp hwaking with
        | inl hnew =>
            cases hnew
            simp [push, Batches.Queue.push]
        | inr hold => exact Nat.lt_of_lt_of_le (h.numbers n (Or.inl hold)) hgrow
      · exact Nat.lt_of_lt_of_le (h.numbers n (Or.inr hreturned)) hgrow
  | foreignWake hw =>
      rename_i w
      refine ⟨?_, .of_wakeups (Nat.succ_pos _)⟩
      intro n hn
      rcases hn with hwaking | hreturned
      · exact h.numbers n (Or.inl (List.mem_of_mem_erase hwaking))
      · cases w with
        | quit => exact h.numbers n (Or.inr hreturned)
        | queueInLoop m =>
            cases List.mem_cons.mp hreturned with
            | inl hnew => exact hnew ▸ h.numbers m (Or.inl hw)
            | inr hold => exact h.numbers n (Or.inr hold)
  | foreignQuit => exact ⟨fun n hn => h.numbers n (by simpa using hn), hrouses⟩
  | _ => exact ⟨h.numbers, hrouses⟩

/-- When the loop thread is about to block in `epoll_wait` and a functor waits
whose `queueInLoop` has returned in another thread, the eventfd is readable, so
that the poll can return with it at once. -/
theorem no_lost_wakeup {acts : List (Act F)} (hrun : Run Step new acts s)
    (hpolling : s.phase = .polling)
    (hpending : ∃ e ∈ s.functors.waiting, e.number ∈ s.returned) :
    0 < s.wakeups ∧ ∃ s', Step s (.poll [.wakeupChannel]) s' := by
  obtain ⟨e, he, hreturned⟩ := hpending
  have h : s.Announced := hrun.invariant announced_new fun _ _ _ h hstep => h.step hstep
  have hwakeups := h.rouses (by rw [hpolling]; rfl) e he hreturned
  exact ⟨hwakeups, _, .poll hpolling fun _ => hwakeups⟩

/-- One functor is pushed before the swap and one after it; only the call that
pushed the second has returned. -/
theorem pushed_after_swap : ∃ s : EventLoop Nat, Run Step new
    [.loop, .test, .poll [], .doPendingFunctors, .foreignPush 1, .swap, .foreignPush 2,
      .foreignWake (.queueInLoop 1), .functor, .finished, .endBatch, .destroyed, .test] s ∧
    s.phase = .polling ∧ ∃ e ∈ s.functors.waiting, e.number ∈ s.returned := by
  refine ⟨_, ((((((((((((Run.nil.snoc (.loop rfl)).snoc (.stay rfl rfl)).snoc
    (.poll rfl (by decide))).snoc (.doPendingFunctors rfl)).snoc .foreignPush).snoc
    (.swap rfl)).snoc .foreignPush).snoc (.foreignWake (by decide))).snoc (.functor rfl rfl)).snoc
    (.finished rfl)).snoc (.endBatch rfl rfl)).snoc (.destroyed rfl)).snoc (.stay rfl rfl), rfl,
    ⟨⟨2, false⟩, 1, 1⟩, by decide, by decide⟩

theorem no_lost_wakeup_after_swap : ∃ s : EventLoop Nat, s.phase = .polling ∧
    (∃ e ∈ s.functors.waiting, e.number ∈ s.returned) ∧ 0 < s.wakeups := by
  obtain ⟨s, hrun, hpolling, hpending⟩ := pushed_after_swap
  exact ⟨s, hpolling, hpending, (no_lost_wakeup hrun hpolling hpending).1⟩

/-- The loop blocks although its own thread has queued a functor. -/
def Stranded (s : EventLoop F) : Prop :=
  s.phase = .polling ∧ s.wakeups = 0 ∧ ∃ e ∈ s.functors.waiting, e.item.own = true

/-- The loop's own thread queues only from an event handler or a functor, or
while the eventfd is readable. -/
def Heard (s : EventLoop F) : Act F → Prop
  | .queueInLoop _ => (∃ active, s.phase = .handler active) ∨ s.phase = .functor ∨ 0 < s.wakeups
  | _ => True

theorem Rouses.guarded (h : s.InPhase) (hrouses : s.Rouses fun e => e.item.own = true)
    (hstep : Guarded Step Heard s a s') : s'.Rouses fun e => e.item.own = true := by
  refine hrouses.step hstep.2 ?_ ?_
  · rintro f rfl hbefore -
    cases hstep.2 with
    | queueInLoop hphase =>
        rw [queueInLoop_wakeups]
        rcases hstep.1 with ⟨active, hhandler⟩ | hfunctor | hwakeups
        · rw [hhandler] at hbefore
          cases hbefore
        · have hcalling := h.calling
          rw [hfunctor] at hcalling
          simp [hcalling, LoopPhase.inBatch]
        · omega
  · intro f _ hown
    cases hown

/-- From outside of `loop` the loop thread reaches its next poll without a swap. -/
theorem polls_from_outside (hphase : s.phase = .outside) :
    Run Step s [.loop, .test] { s with phase := .polling, quit := false } :=
  (Run.nil.snoc (.loop hphase)).snoc (.stay rfl rfl)

/-- So it does from the destructors at the end of `doPendingFunctors`. -/
theorem polls_from_destroying (hphase : s.phase = .destroying) :
    ∃ acts, Run Step s acts { s with phase := .polling, quit := false } := by
  have htesting : Run Step s [.destroyed] { s with phase := .testing } :=
    Run.nil.snoc (.destroyed hphase)
  cases hquit : s.quit with
  | false =>
      have hstay := htesting.snoc (.stay rfl hquit)
      rw [← hquit]
      exact ⟨_, hstay⟩
  | true =>
      have houtside := htesting.snoc (.leave rfl hquit)
      exact ⟨_, (houtside.snoc (.loop rfl)).snoc (.stay rfl rfl)⟩

/-- A functor that the loop's own thread queues is never stranded, as long as it
is queued from a handler or a functor, or while the eventfd is readable; queued
at any other point it can be. -/
theorem own_functor_stranded_exactly :
    SafeExactly Step (new : EventLoop F) (fun s => ¬ Stranded s) Heard where
  safe := by
    rintro acts s hrun ⟨hpolling, hzero, e, he, hown⟩
    have h : s.InPhase ∧ s.Rouses fun e => e.item.own = true := by
      refine hrun.invariant (I := fun s => s.InPhase ∧ s.Rouses fun e => e.item.own = true)
        ⟨inPhase_new, fun _ e he => absurd he List.not_mem_nil⟩ ?_
      intro s a s' h hstep
      exact ⟨h.1.step hstep.2, h.2.guarded h.1 hstep⟩
    have hwakeups := h.2 (by rw [hpolling]; rfl) e he hown
    omega
  breach := by
    intro acts s a s' hrun hstep hunheard
    have h := inPhase_of_run hrun
    cases hstep with
    | queueInLoop hphase =>
        rename_i f
        simp only [Heard, not_or, not_exists] at hunheard
        obtain ⟨hhandler, hfunctor, hwakeups⟩ := hunheard
        have hpolls : ∃ acts, Run Step (s.queueInLoop f) acts
            { s.queueInLoop f with phase := .polling, quit := false } := by
          cases hold : s.phase with
          | outside => exact ⟨_, polls_from_outside (by rw [queueInLoop_phase, hold])⟩
          | destroying => exact polls_from_destroying (by rw [queueInLoop_phase, hold])
          | handler active => exact absurd hold (hhandler active)
          | functor => exact absurd hold hfunctor
          | _ =>
              rw [hold] at hphase
              cases hphase
        have hcalling : s.callingPendingFunctors = false := by
          rw [h.calling]
          cases hold : s.phase with
          | functor => exact absurd hold hfunctor
          | running | swapping =>
              rw [hold] at hphase
              cases hphase
          | _ => rfl
        obtain ⟨acts', hpolls⟩ := hpolls
        refine ⟨acts', _, hpolls, fun hsafe => hsafe ⟨rfl, ?_, s.functors.entry ⟨f, true⟩, ?_, rfl⟩⟩
        · change (s.queueInLoop f).wakeups = 0
          rw [queueInLoop_wakeups, hcalling]
          simpa using hwakeups
        · change _ ∈ (s.queueInLoop f).functors.waiting
          simp [Batches.Queue.push]
    | _ => exact absurd trivial hunheard

/-- A functor queued before `loop`, and one queued by the destructor of what an
executed functor held. -/
theorem stranded_outside_of_flag :
    (∃ s : EventLoop Nat, Run Step new [.queueInLoop 1, .loop, .test] s ∧ Stranded s) ∧
    ∃ s : EventLoop Nat, Run Step new [.loop, .test, .foreignPush 1,
      .foreignWake (.queueInLoop 0), .poll [.wakeupChannel], .handleEvent, .doPendingFunctors,
      .swap, .functor, .finished, .endBatch, .queueInLoop 2, .destroyed, .test] s ∧
      Stranded s := by
  refine ⟨⟨_, ((Run.nil.snoc (.queueInLoop rfl)).snoc (.loop rfl)).snoc (.stay rfl rfl), rfl, rfl,
    ⟨⟨1, true⟩, 0, 0⟩, by decide, rfl⟩, ?_⟩
  refine ⟨_, (((((((((((((Run.nil.snoc (.loop rfl)).snoc (.stay rfl rfl)).snoc
    .foreignPush).snoc (.foreignWake (by decide))).snoc (.poll rfl (by decide))).snoc
    (.handleRead rfl)).snoc (.doPendingFunctors rfl)).snoc (.swap rfl)).snoc
    (.functor rfl rfl)).snoc (.finished rfl)).snoc (.endBatch rfl rfl)).snoc
    (.queueInLoop rfl)).snoc (.destroyed rfl)).snoc (.stay rfl rfl), rfl, rfl,
    ⟨⟨2, true⟩, 1, 1⟩, by decide, rfl⟩

end ProtoRpc.EventLoop
