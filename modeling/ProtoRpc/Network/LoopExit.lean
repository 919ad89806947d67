import ProtoRpc.Network.EventLoopRuns
import ProtoRpc.Network.EventLoopThreadPool

/-!
How the loop of a thread ends. Once `quit_` is set the loop leaves at its next test, and
what has not been swapped out of `pendingFunctors_` by then is never run: the destructor
loses what is queued before its `quit` unless the loop has a swap before that test. A
thread of the pool has to last until the destructor quits it, since nobody else takes its
loop out of `loops_`.
-/
namespace ProtoRpc
open Transition

variable {F : Type}

/-- A swap comes before the next test of `quit_`. -/
def LoopPhase.swapsFirst : LoopPhase → Bool
  | .polling | .handling _ | .handler _ | .swapping => true
  | _ => false

namespace EventLoop

variable {l l' : EventLoop F} {a : Act F}

/-- What has been taken out of `pendingFunctors_`. -/
def swapped (l : EventLoop F) : List (Batches.Entry (Task F)) :=
  l.functors.ran.map Prod.fst ++ l.functors.batch

/-- What will have been run when the loop leaves at its next test. -/
def due (l : EventLoop F) : List (Batches.Entry (Task F)) :=
  if l.phase.swapsFirst then l.functors.pushed else l.swapped

theorem due_pushed (hphase : l.phase.swapsFirst = true) : l.due = l.functors.pushed :=
  if_pos hphase

theorem due_swapped (hphase : l.phase.swapsFirst = false) : l.due = l.swapped := by
  rw [due, hphase]
  rfl

theorem swapped_run {e : Batches.Entry (Task F)} {rest : List (Batches.Entry (Task F))}
    (hbatch : l.functors.batch = e :: rest) :
    l.functors.run.ran.map Prod.fst ++ l.functors.run.batch = l.swapped := by
  simp [Batches.Queue.run, swapped, hbatch]

/-- Nothing that is due is lost, where `quit_` is set. -/
theorem due_step (h : l.InPhase) (hordered : l.functors.Ordered) (hquit : l.quit = true)
    (hstep : Step l a l') : l.due <+: l'.due := by
  cases hstep with
  | @queueInLoop f hphase =>
      rw [due, due, queueInLoop_phase, swapped, swapped, queueInLoop_functors]
      split
      · exact List.prefix_append ..
      · exact List.prefix_rfl
  | foreignPush =>
      rw [due, due]
      change (if l.phase.swapsFirst then _ else _) <+: if l.phase.swapsFirst then _ else _
      split
      · exact List.prefix_append ..
      · exact List.prefix_rfl
  | stay hphase hnot => cases hquit.symm.trans hnot
  | swap hphase =>
      rw [due_pushed (by rw [hphase]; rfl), due_swapped rfl, ← hordered.order,
        h.batch (by rw [hphase]; rfl), List.append_nil]
      exact List.prefix_rfl
  | functor hphase hbatch =>
      rw [due_swapped (by rw [hphase]; rfl), due_swapped rfl, ← swapped_run hbatch]
      exact List.prefix_rfl
  | quit hphase | foreignWake hw | foreignQuit => exact List.prefix_rfl
  | loop hphase | leave hphase hquit | finished hphase | endBatch hphase hbatch
  | destroyed hphase =>
      rw [due_swapped (by rw [hphase]; rfl), due_swapped rfl]
      exact List.prefix_rfl
  | handleRead hphase =>
      rw [due_pushed (by rw [hphase]; rfl), due_pushed rfl]
      exact List.prefix_rfl
  | poll hphase hactive | handleEvent hphase | handled hphase | doPendingFunctors hphase =>
      rw [due_pushed (by rw [hphase]; rfl), due_pushed rfl]

/-- No swap comes before the next test, and nothing else is taken out. -/
structure Closed (l₀ l : EventLoop F) : Prop where
  phase : l.phase.swapsFirst = false
  swapped : l.swapped = l₀.swapped
  waiting : l₀.functors.waiting <+: l.functors.waiting

theorem Closed.step {l₀ : EventLoop F} (h : Closed l₀ l) (hquit : l.quit = true)
    (hstep : Step l a l') : Closed l₀ l' := by
  have hphase := h.phase
  cases hstep with
  | @queueInLoop f =>
      refine ⟨?_, ?_, ?_⟩
      · rw [queueInLoop_phase, hphase]
      · rw [EventLoop.swapped, queueInLoop_functors]
        exact h.swapped
      · rw [queueInLoop_functors]
        exact h.waiting.trans (List.prefix_append ..)
  | foreignPush => exact ⟨hphase, h.swapped, h.waiting.trans (List.prefix_append ..)⟩
  | stay hp hnot => cases hquit.symm.trans hnot
  | functor hp hbatch => exact ⟨rfl, (swapped_run hbatch).trans h.swapped, h.waiting⟩
  | quit hp | foreignWake hw | foreignQuit => exact { h with }
  | loop hp | leave hp hquit | finished hp | endBatch hp hbatch | destroyed hp =>
      exact ⟨rfl, h.swapped, h.waiting⟩
  | swap hp | poll hp hactive | handleRead hp | handleEvent hp | handled hp
  | doPendingFunctors hp =>
      rw [hp] at hphase
      cases hphase

end EventLoop

namespace EventLoopThread

variable {s t t' : EventLoopThread F} {a : Act F} {acts : List (Act F)}

/-- Where the loop is while its thread is in `loop` and after it. -/
structure Placed (t : EventLoopThread F) : Prop where
  looping : t.thread = .looping → t.eventLoop.phase ≠ .outside
  left : t.thread.hasLeft = true → t.eventLoop.phase = .outside
  quitting : t.owner = .quitting → .quit ∈ t.eventLoop.waking

theorem placed_new : (new : EventLoopThread F).Placed := ⟨nofun, nofun, nofun⟩

/-- The wakeup of the destructor's `quit` is only made by the destructor. -/
theorem quit_waking {l l' : EventLoop F} {b : EventLoop.Act F} (hb : b ≠ .foreignWake .quit)
    (hstep : EventLoop.Step l b l') (hquit : .quit ∈ l.waking) : .quit ∈ l'.waking := by
  cases hstep with
  | queueInLoop hphase =>
      rw [EventLoop.queueInLoop_waking]
      exact hquit
  | foreignPush => exact List.mem_cons_of_mem _ hquit
  | @foreignWake w hw =>
      have hne : w ≠ .quit := by
        rintro rfl
        exact hb rfl
      exact (List.mem_erase_of_ne hne.symm).mpr hquit
  | foreignQuit => exact List.mem_cons_self
  | _ => exact hquit

theorem Placed.step (h : t.Placed) (hstep : Step t a t') : t'.Placed := by
  cases hstep with
  | startLoop howner => exact ⟨nofun, nofun, nofun⟩
  | started howner hset => exact ⟨h.looping, h.left, nofun⟩
  | destroy howner =>
      refine ⟨h.looping, h.left, ?_⟩
      simp only
      split <;> exact nofun
  | quit howner hloop =>
      cases hloop
      exact ⟨h.looping, h.left, fun _ => List.mem_cons_self⟩
  | wakeup howner hloop =>
      cases hloop
      exact ⟨h.looping, h.left, nofun⟩
  | join howner hthread => exact ⟨h.looping, h.left, nofun⟩
  | @callback b l hthread ha hloop =>
      refine ⟨?_, ?_, ?_⟩
      · rw [hthread]
        exact nofun
      · rw [hthread]
        exact nofun
      · refine fun howner => quit_waking ?_ hloop (h.quitting howner)
        rintro rfl
        cases ha
  | publish hthread => exact ⟨nofun, nofun, h.quitting⟩
  | loop hthread hloop =>
      cases hloop
      exact ⟨fun _ => nofun, nofun, h.quitting⟩
  | @run b l hthread ha hloop =>
      refine ⟨?_, ?_, ?_⟩
      · simp only
        split
        · exact nofun
        · exact fun _ => ‹_›
      · simp only
        split
        · exact fun _ => ‹_›
        · exact nofun
      · refine fun howner => quit_waking ?_ hloop (h.quitting howner)
        rintro rfl
        cases ha
  | clear hthread =>
      exact ⟨nofun, fun _ => h.left (by rw [hthread]; rfl), h.quitting⟩
  | @other b l ha hwake hloop =>
      have hphase := otherAct_phase ha hloop
      refine ⟨?_, ?_, ?_⟩
      · rw [hphase]
        exact h.looping
      · rw [hphase]
        exact h.left
      · intro howner
        by_cases hb : b = .foreignWake .quit
        · have hmore := hwake hb howner
          subst hb
          cases hloop
          refine List.count_pos_iff.mp ?_
          change 0 < (t.eventLoop.waking.erase .quit).count .quit
          rw [List.count_erase_self]
          omega
        · exact quit_waking hb hloop (h.quitting howner)

theorem placed_of_run (hrun : Run Step new acts t) : t.Placed :=
  hrun.invariant placed_new fun _ _ _ h hstep => h.step hstep

/-- A step of the threads is a step of the loop, or leaves it as it is. -/
theorem Step.eventLoop (hstep : Step t a t') :
    t'.eventLoop = t.eventLoop ∨ ∃ b, EventLoop.Step t.eventLoop b t'.eventLoop ∧
      (b = .loop → a = .loop) := by
  cases hstep with
  | quit howner hloop | wakeup howner hloop => exact Or.inr ⟨_, hloop, nofun⟩
  | loop hthread hloop => exact Or.inr ⟨_, hloop, fun _ => rfl⟩
  | @callback b l hthread ha hloop | @run b l hthread ha hloop | @other b l ha hwake hloop =>
      refine Or.inr ⟨_, hloop, ?_⟩
      rintro rfl
      cases ha
  | _ => exact Or.inl rfl

/-- The loop of a thread goes through a run of its own. -/
theorem loop_run (hrun : Run Step new acts t) :
    ∃ acts', Run EventLoop.Step .new acts' t.eventLoop := by
  refine hrun.invariant (I := fun t => ∃ acts', Run EventLoop.Step .new acts' t.eventLoop)
    ⟨[], .nil⟩ ?_
  rintro t a t' ⟨acts', hacts'⟩ hstep
  rcases hstep.eventLoop with hsame | ⟨b, hb, -⟩
  · rw [hsame]
    exact ⟨acts', hacts'⟩
  · exact ⟨_, hacts'.snoc hb⟩

theorem inStep_of_run (hrun : Run Step new acts t) : t.InStep :=
  hrun.invariant inStep_new fun _ _ _ h hstep => h.step hstep

theorem ordered_of_run {l : EventLoop F} {acts : List (EventLoop.Act F)}
    (hrun : Run EventLoop.Step .new acts l) : l.InPhase ∧ l.functors.Ordered := by
  refine hrun.invariant (I := fun l => l.InPhase ∧ l.functors.Ordered)
    ⟨EventLoop.inPhase_new, Batches.Queue.ordered_empty⟩ ?_
  intro l a l' h hstep
  exact ⟨h.1.step hstep, hstep.ordered h.1 h.2⟩

theorem hasReset_step (h : t.InStep) (hreset : t.thread.hasReset = true) (hstep : Step t a t') :
    t'.thread.hasReset = true ∧ a ≠ .loop := by
  cases hstep with
  | startLoop howner =>
      rw [h.idle.mp howner] at hreset
      cases hreset
  | callback hthread _ _ | publish hthread | loop hthread _ =>
      rw [hthread] at hreset
      cases hreset
  | run hthread ha hloop =>
      refine ⟨?_, nofun⟩
      simp only
      split <;> rfl
  | clear hthread => exact ⟨rfl, nofun⟩
  | _ => exact ⟨hreset, nofun⟩

theorem hasQuit_step (hquit : t.owner.hasQuit = true) (hstep : Step t a t') :
    t'.owner.hasQuit = true := by
  cases hstep with
  | startLoop howner | started howner _ | destroy howner | quit howner _ =>
      rw [howner] at hquit
      cases hquit
  | wakeup howner _ | join howner _ => rfl
  | _ => exact hquit

/-- After the `quit` of the destructor, which found the loop as `l₀`. -/
structure Draining (l₀ : EventLoop F) (t : EventLoopThread F) : Prop where
  reset : t.thread.hasReset = true
  owner : t.owner.hasQuit = true
  quit : t.eventLoop.quit = true
  due : l₀.due <+: t.eventLoop.due
  closed : l₀.phase.swapsFirst = false → EventLoop.Closed l₀ t.eventLoop

theorem draining_of_quit {l₀ : EventLoop F} (hloop : t.eventLoop = l₀)
    (hreset : t.thread.hasReset = true) (hstep : Step t .quit t') : Draining l₀ t' := by
  subst hloop
  cases hstep with
  | quit howner hloop =>
      cases hloop
      exact ⟨hreset, rfl, rfl, List.prefix_rfl, fun hphase => ⟨hphase, rfl, List.prefix_rfl⟩⟩

theorem Draining.step {l₀ : EventLoop F} (h : Draining l₀ t) (hrun : Run Step new acts t)
    (hstep : Step t a t') : Draining l₀ t' := by
  obtain ⟨hreset, hnot⟩ := hasReset_step (inStep_of_run hrun) h.reset hstep
  have howner := hasQuit_step h.owner hstep
  rcases hstep.eventLoop with hsame | ⟨b, hb, hloop⟩
  · refine ⟨hreset, howner, ?_, ?_, ?_⟩ <;> rw [hsame]
    · exact h.quit
    · exact h.due
    · exact h.closed
  · obtain ⟨acts', hacts'⟩ := loop_run hrun
    obtain ⟨hphase, hordered⟩ := ordered_of_run hacts'
    have hb' : b ≠ .loop := fun heq => hnot (hloop heq)
    exact ⟨hreset, howner, step_quit hb' hb h.quit,
      h.due.trans (EventLoop.due_step hphase hordered h.quit hb),
      fun hclosed => (h.closed hclosed).step h.quit hb⟩

/-- The thread can get to its end by steps of its own. -/
def Leaves (t : EventLoopThread F) : Prop :=
  ∃ acts u, Run Step t acts u ∧ u.thread = .exited ∧ u.owner = t.owner ∧
    ∀ a ∈ acts, EventLoopThreadPool.ownerAct a = false

theorem Leaves.of_step {u : EventLoopThread F} (hstep : Step t a u) (howner : u.owner = t.owner)
    (ha : EventLoopThreadPool.ownerAct a = false) (h : u.Leaves) : t.Leaves := by
  obtain ⟨acts, v, hrun, hexited, hkept, hacts⟩ := h
  refine ⟨a :: acts, v, (Run.nil.snoc hstep).append hrun, hexited, hkept.trans howner, ?_⟩
  intro b hb
  rcases List.mem_cons.mp hb with rfl | hb
  · exact ha
  · exact hacts b hb

theorem leaves_left (hthread : t.thread = .left) : t.Leaves :=
  Leaves.of_step (.clear hthread) rfl rfl ⟨[], _, .nil, rfl, rfl, nofun⟩

section
variable {l l' : EventLoop F} {b : EventLoop.Act F}

/-- A step of the loop that does not end it. -/
theorem Leaves.of_run (hb : loopAct b = true) (hloop : EventLoop.Step l b l')
    (hphase : l'.phase ≠ .outside)
    (h : Leaves { t with thread := .looping, eventLoop := l' }) :
    Leaves { t with thread := .looping, eventLoop := l } := by
  refine Leaves.of_step (a := .run b) (.run rfl hb hloop) rfl rfl ?_
  rw [if_neg hphase]
  exact h

theorem leaves_testing (hquit : l.quit = true) (hphase : l.phase = .testing) :
    Leaves { t with thread := .looping, eventLoop := l } :=
  Leaves.of_step (a := .run .test) (.run rfl rfl (.leave hphase hquit)) rfl rfl
    (leaves_left rfl)

theorem leaves_destroying (hquit : l.quit = true) (hphase : l.phase = .destroying) :
    Leaves { t with thread := .looping, eventLoop := l } :=
  .of_run (b := .destroyed) rfl (.destroyed hphase) nofun (leaves_testing hquit rfl)

/-- The batch is run to its end. -/
theorem leaves_running (hquit : l.quit = true) (hphase : l.phase = .running) :
    Leaves { t with thread := .looping, eventLoop := l } := by
  induction hbatch : l.functors.batch generalizing l with
  | nil => exact .of_run (b := .endBatch) rfl (.endBatch hphase hbatch) nofun (leaves_destroying hquit rfl)
  | cons e rest ih =>
      refine .of_run (b := .functor) rfl (.functor hphase hbatch) nofun ?_
      refine .of_run (b := .finished) rfl (.finished rfl) nofun ?_
      refine ih hquit rfl ?_
      simp [Batches.Queue.run, hbatch]

theorem leaves_functor (hquit : l.quit = true) (hphase : l.phase = .functor) :
    Leaves { t with thread := .looping, eventLoop := l } :=
  .of_run (b := .finished) rfl (.finished hphase) nofun (leaves_running hquit rfl)

theorem leaves_swapping (hquit : l.quit = true) (hphase : l.phase = .swapping) :
    Leaves { t with thread := .looping, eventLoop := l } :=
  .of_run (b := .swap) rfl (.swap hphase) nofun (leaves_running hquit rfl)

/-- The active channels are handled to the last. -/
theorem leaves_handling {active : List ActiveChannel} (hquit : l.quit = true)
    (hphase : l.phase = .handling active) :
    Leaves { t with thread := .looping, eventLoop := l } := by
  induction active generalizing l with
  | nil =>
      exact .of_run (b := .doPendingFunctors) rfl (.doPendingFunctors hphase) nofun
        (leaves_swapping hquit rfl)
  | cons c rest ih =>
      cases c with
      | wakeupChannel => exact .of_run (b := .handleEvent) rfl (.handleRead hphase) nofun (ih hquit rfl)
      | other =>
          refine .of_run (b := .handleEvent) rfl (.handleEvent hphase) nofun ?_
          exact .of_run (b := .handled) rfl (.handled rfl) nofun (ih hquit rfl)

theorem leaves_handler {active : List ActiveChannel} (hquit : l.quit = true)
    (hphase : l.phase = .handler active) :
    Leaves { t with thread := .looping, eventLoop := l } :=
  .of_run (b := .handled) rfl (.handled hphase) nofun (leaves_handling hquit rfl)

theorem leaves_polling (hquit : l.quit = true) (hphase : l.phase = .polling) :
    Leaves { t with thread := .looping, eventLoop := l } :=
  .of_run (b := .poll []) rfl (.poll hphase nofun) nofun (leaves_handling hquit rfl)

end

/-- From every point of `loop` at which `quit_` is set. -/
theorem leaves_of_quit (hthread : t.thread = .looping) (hquit : t.eventLoop.quit = true)
    (hphase : t.eventLoop.phase ≠ .outside) : t.Leaves := by
  have h : Leaves { t with thread := .looping, eventLoop := t.eventLoop } := by
    cases hp : t.eventLoop.phase with
    | outside => exact absurd hp hphase
    | testing => exact leaves_testing hquit hp
    | polling => exact leaves_polling hquit hp
    | handling active => exact leaves_handling hquit hp
    | handler active => exact leaves_handler hquit hp
    | swapping => exact leaves_swapping hquit hp
    | running => exact leaves_running hquit hp
    | functor => exact leaves_functor hquit hp
    | destroying => exact leaves_destroying hquit hp
  rwa [← hthread] at h

/-- A `quit` of the loop's own code, or of a thread other than the owner. -/
def Act.quits : Act F → Bool
  | .run .quit | .other .foreignQuit => true
  | _ => false

/-- A loop that is in `loop` is quit. -/
theorem looping_quit (hplaced : t.Placed) (hquits : a.quits = true) (hthread : t.thread = .looping)
    (hstep : Step t a t') :
    t'.owner = t.owner ∧ t'.thread = .looping ∧ t'.loopSet = t.loopSet ∧ t'.eventLoop.quit = true ∧
      t'.eventLoop.phase ≠ .outside := by
  have hinside := hplaced.looping hthread
  cases hstep with
  | run _ ha hloop =>
      cases hloop with
      | quit hphase => exact ⟨rfl, if_neg hinside, rfl, rfl, hinside⟩
      | _ => cases hquits
  | other ha hwake hloop =>
      cases hloop with
      | foreignQuit => exact ⟨rfl, hthread, rfl, rfl, hinside⟩
      | _ => cases hquits
  | _ => cases hquits

/-- `loop_` is set from `threadFunc`'s first look at the lock to its second. -/
theorem loopSet_step (h : t.thread.initialized = true → t.thread ≠ .exited → t.loopSet = true)
    (hstep : Step t a t') (hinit : t'.thread.initialized = true) (hnot : t'.thread ≠ .exited) :
    t'.loopSet = true := by
  cases hstep with
  | startLoop howner => cases hinit
  | publish hthread => rfl
  | clear hthread => exact absurd rfl hnot
  | loop hthread hloop | run hthread ha hloop =>
      exact h (by rw [hthread]; rfl) (by rw [hthread]; exact nofun)
  | _ => exact h hinit hnot

theorem loopSet_of_run (hrun : Run Step new acts t) (hinit : t.thread.initialized = true)
    (hnot : t.thread ≠ .exited) : t.loopSet = true :=
  hrun.invariant (I := fun t => t.thread.initialized = true → t.thread ≠ .exited → t.loopSet = true)
    nofun (fun _ _ _ h hstep => loopSet_step h hstep) hinit hnot

theorem joins_of_joining (hplaced : t.Placed) (howner : t.owner = .joining)
    (hreset : t.thread.hasReset = true) (hquit : t.eventLoop.quit = true) :
    ∃ acts' v, Run Step t acts' v ∧ v.owner = .joined := by
  have hleaves : t.Leaves := by
    cases hthread : t.thread with
    | looping => exact leaves_of_quit hthread hquit (hplaced.looping hthread)
    | left => exact leaves_left hthread
    | exited => exact ⟨[], t, .nil, hthread, rfl, nofun⟩
    | notStarted | initializing | published =>
        rw [hthread] at hreset
        cases hreset
  obtain ⟨acts', u, hrun, hexited, hkept, -⟩ := hleaves
  exact ⟨_, _, hrun.snoc (.join (hkept.trans howner) hexited), rfl⟩

theorem Draining.joins {l₀ : EventLoop F} (h : Draining l₀ t) (hplaced : t.Placed) :
    ∃ acts' v, Run Step t acts' v ∧ v.owner = .joined := by
  cases howner : t.owner with
  | quitting =>
      have hwakeup := Step.wakeup howner (.foreignWake (hplaced.quitting howner))
      obtain ⟨acts', v, hrun, hv⟩ :=
        joins_of_joining (hplaced.step hwakeup) rfl h.reset h.quit
      exact ⟨_, v, (Run.nil.snoc hwakeup).append hrun, hv⟩
  | joining => exact joins_of_joining hplaced howner h.reset h.quit
  | joined => exact ⟨[], t, .nil, howner⟩
  | _ =>
      have hquit := h.owner
      rw [howner] at hquit
      cases hquit

/-- The destructor of a thread whose loop has reset `quit_`: it can always come to its end.
When the loop has left, what was queued before the `quit` has been run if the loop had a
swap to come at that time; if not, only what had been swapped out by then has been run, and
the rest stays in `pendingFunctors_`. The thread may have exited since the destructor found
its loop, which is then gone when `quit` is called: of that call nothing is said. -/
theorem quit_drains {u : EventLoopThread F} {acts' : List (Act F)} (hrun : Run Step new acts s)
    (hreset : s.thread.hasReset = true) (hquit : Step s .quit t) (hrun' : Run Step t acts' u) :
    (∃ acts'' v, Run Step u acts'' v ∧ v.owner = .joined) ∧
    (u.thread.hasLeft = true →
      (s.eventLoop.phase.swapsFirst = true →
        s.eventLoop.functors.pushed <+: u.eventLoop.functors.ran.map Prod.fst) ∧
      (s.eventLoop.phase.swapsFirst = false →
        u.eventLoop.functors.ran.map Prod.fst = s.eventLoop.swapped ∧
        s.eventLoop.functors.waiting <+: u.eventLoop.functors.waiting)) := by
  have h : (∃ acts, Run Step new acts u) ∧ Draining s.eventLoop u := by
    refine hrun'.invariant (I := fun u => (∃ acts, Run Step new acts u) ∧ Draining s.eventLoop u)
      ⟨⟨_, hrun.snoc hquit⟩, draining_of_quit rfl hreset hquit⟩ ?_
    rintro u a u' ⟨⟨acts, hacts⟩, hdraining⟩ hstep
    exact ⟨⟨_, hacts.snoc hstep⟩, hdraining.step hacts hstep⟩
  obtain ⟨⟨acts, hacts⟩, hdraining⟩ := h
  have hplaced := placed_of_run hacts
  refine ⟨hdraining.joins hplaced, fun hleft => ?_⟩
  have houtside := hplaced.left hleft
  obtain ⟨acts₁, hloop⟩ := loop_run hacts
  have hran : u.eventLoop.functors.ran.map Prod.fst = u.eventLoop.swapped := by
    rw [EventLoop.swapped, (ordered_of_run hloop).1.batch (by rw [houtside]; rfl), List.append_nil]
  refine ⟨fun hswaps => ?_, fun hclosed => ?_⟩
  · have hdue := hdraining.due
    rwa [EventLoop.due_pushed hswaps, EventLoop.due_swapped (by rw [houtside]; rfl), ← hran] at hdue
  · have h := hdraining.closed hclosed
    exact ⟨hran.trans h.swapped, h.waiting⟩

/-- A functor is queued while the loop polls, and another after it has swapped. -/
theorem queued_around_swap : ∃ s t u : EventLoopThread Nat, ∃ acts acts',
    Run Step new acts s ∧ Step s .quit t ∧ Run Step t acts' u ∧
    s.thread.hasReset = true ∧ s.eventLoop.phase.swapsFirst = false ∧ u.thread.hasLeft = true ∧
    s.eventLoop.swapped.map (fun e => e.item.functor) = [1] ∧
    s.eventLoop.functors.waiting.map (fun e => e.item.functor) = [2] :=
  ⟨_, _, _, _, _, (((((((((((Run.nil.snoc (.startLoop rfl)).snoc (.publish rfl)).snoc
    (.started rfl rfl)).snoc (.loop rfl (.loop rfl))).snoc (.run rfl rfl (.stay rfl rfl))).snoc
    (.other (a := .foreignPush 1) rfl nofun .foreignPush)).snoc (.run (a := .poll []) rfl rfl (.poll rfl nofun))).snoc
    (.run rfl rfl (.doPendingFunctors rfl))).snoc (.run rfl rfl (.swap rfl))).snoc
    (.other (a := .foreignPush 2) rfl nofun .foreignPush)).snoc (.destroy rfl)), .quit rfl .foreignQuit,
    (((((Run.nil.snoc (.wakeup rfl (.foreignWake (by decide)))).snoc
    (.run rfl rfl (.functor rfl rfl))).snoc (.run rfl rfl (.finished rfl))).snoc
    (.run rfl rfl (.endBatch rfl rfl))).snoc (.run rfl rfl (.destroyed rfl))).snoc
    (.run rfl rfl (.leave rfl rfl)), rfl, rfl, rfl, rfl, rfl⟩

theorem quit_drains_around_swap : ∃ s u : EventLoopThread Nat,
    s.eventLoop.swapped.map (fun e => e.item.functor) = [1] ∧
    s.eventLoop.functors.waiting.map (fun e => e.item.functor) = [2] ∧
    u.eventLoop.functors.ran.map Prod.fst = s.eventLoop.swapped ∧
    s.eventLoop.functors.waiting <+: u.eventLoop.functors.waiting := by
  obtain ⟨s, t, u, acts, acts', hrun, hquit, hrun', hreset, hphase, hleft, hswapped, hwaiting⟩ :=
    queued_around_swap
  obtain ⟨-, hdrained⟩ := quit_drains hrun hreset hquit hrun'
  exact ⟨s, u, hswapped, hwaiting, (hdrained hleft).2 hphase⟩

/-- The loop goes on until the destructor quits it, which then finds it. -/
structure Lasting (t : EventLoopThread F) : Prop where
  started : t.owner = .started → t.thread.initialized = true
  stays : t.owner.hasQuit = false → t.thread.hasLeft = false
  kept : t.owner.hasQuit = false → t.thread.initialized = true → t.loopSet = true
  quit : t.owner.hasQuit = false → t.thread = .looping → t.eventLoop.quit = false
  joins : t.owner ≠ .skipped

theorem lasting_started (hstep : Step new .startLoop t) : t.Lasting := by
  cases hstep with
  | startLoop howner => exact ⟨nofun, fun _ => rfl, nofun, nofun, nofun⟩

/-- The loop stays in its `while` as long as nobody quits it. -/
theorem stays_step {l l' : EventLoop F} {b : EventLoop.Act F} (hb : loopAct b = true)
    (hnot : b ≠ .quit) (hquit : l.quit = false) (hphase : l.phase ≠ .outside)
    (hstep : EventLoop.Step l b l') : l'.quit = false ∧ l'.phase ≠ .outside := by
  cases hstep with
  | @queueInLoop f =>
      refine ⟨?_, by rwa [EventLoop.queueInLoop_phase]⟩
      rw [EventLoop.queueInLoop]
      split <;> exact hquit
  | quit hp => exact absurd rfl hnot
  | leave hp hq => cases hquit.symm.trans hq
  | loop hp | foreignPush | foreignWake hw | foreignQuit => cases hb
  | _ => exact ⟨hquit, by simp⟩

theorem otherAct_quit {l l' : EventLoop F} {b : EventLoop.Act F} (hb : otherAct b = true)
    (hnot : b ≠ .foreignQuit) (hstep : EventLoop.Step l b l') : l'.quit = l.quit := by
  cases hstep with
  | foreignPush => rfl
  | foreignWake hw => rfl
  | foreignQuit => exact absurd rfl hnot
  | _ => cases hb

/-- Nobody quits the loop, while it is in `loop`, before the destructor does. -/
def QuitByOwner (t : EventLoopThread F) (a : Act F) : Prop :=
  a.quits = true → t.thread = .looping → t.owner.hasQuit = true

theorem Lasting.step (h : t.Lasting) (hin : t.InStep) (hplaced : t.Placed)
    (hstep : Guarded Step QuitByOwner t a t') : t'.Lasting := by
  obtain ⟨hcond, hstep⟩ := hstep
  cases hstep with
  | startLoop howner => exact ⟨nofun, fun _ => rfl, nofun, nofun, nofun⟩
  | started howner hset =>
      have hquit : t.owner.hasQuit = false := by
        rw [howner]
        rfl
      exact ⟨fun _ => hin.initialized hset, fun _ => h.stays hquit, fun _ => h.kept hquit,
        fun _ => h.quit hquit, nofun⟩
  | destroy howner =>
      have hquit : t.owner.hasQuit = false := by
        rw [howner]
        rfl
      have hset := h.kept hquit (h.started howner)
      rw [if_pos hset]
      exact ⟨nofun, fun _ => h.stays hquit, fun _ => h.kept hquit, fun _ => h.quit hquit, nofun⟩
  | quit howner hloop | wakeup howner hloop | join howner hthread =>
      exact ⟨nofun, nofun, nofun, nofun, nofun⟩
  | callback hthread ha hloop =>
      refine ⟨h.started, h.stays, h.kept, fun _ hlooping => ?_, h.joins⟩
      cases hthread.symm.trans hlooping
  | publish hthread =>
      exact ⟨fun _ => rfl, fun _ => rfl, fun _ _ => rfl, fun _ => nofun, h.joins⟩
  | loop hthread hloop =>
      cases hloop
      exact ⟨fun _ => rfl, fun _ => rfl, fun hq _ => h.kept hq (by rw [hthread]; rfl),
        fun _ _ => rfl, h.joins⟩
  | @run b l hthread ha hloop =>
      have hinit : t.thread.initialized = true := by
        rw [hthread]
        rfl
      have hgo : t.owner.hasQuit = false → l.quit = false ∧ l.phase ≠ .outside := by
        intro hq
        have hnot : b ≠ .quit := by
          rintro rfl
          cases hq.symm.trans (hcond rfl hthread)
        exact stays_step ha hnot (h.quit hq hthread) (hplaced.looping hthread) hloop
      refine ⟨fun _ => ?_, fun hq => ?_, fun hq _ => h.kept hq hinit, fun hq _ => (hgo hq).1,
        h.joins⟩
      · simp only
        split <;> rfl
      · rw [if_neg (hgo hq).2]
        rfl
  | clear hthread =>
      have hnot : t.owner.hasQuit ≠ false := by
        intro hq
        have hstays := h.stays hq
        rw [hthread] at hstays
        cases hstays
      exact ⟨fun _ => rfl, fun hq => absurd hq hnot, fun hq => absurd hq hnot,
        fun hq => absurd hq hnot, h.joins⟩
  | @other b l ha hwake hloop =>
      refine ⟨h.started, h.stays, h.kept, fun hq hthread => ?_, h.joins⟩
      have hnot : b ≠ .foreignQuit := by
        rintro rfl
        cases hq.symm.trans (hcond rfl hthread)
      exact (otherAct_quit ha hnot hloop).trans (h.quit hq hthread)

end EventLoopThread

namespace EventLoopThreadPool

variable {s s' : EventLoopThreadPool F} {e : Event F} {ls : List (Event F)}

/-- The loop of thread `i` is no more, and the destructor has not quit it. -/
def Gone (s : EventLoopThreadPool F) (i : Nat) : Prop :=
  ∃ t, s.threads[i]? = some t ∧ t.thread = .exited ∧ t.owner.hasQuit = false

/-- Each loop is alive until the destructor quits it, and each thread is joined before it
is destroyed. -/
def LoopsLast (s : EventLoopThreadPool F) : Prop :=
  (∀ i, ¬ s.Gone i) ∧ ∀ (i : Nat) (t : EventLoopThread F), s.threads[i]? = some t → t.owner ≠ .skipped

/-- Nobody quits a loop, while it is in `loop`, before the destructor does. -/
def QuitByDestructor (s : EventLoopThreadPool F) (e : Event F) : Prop :=
  ∀ i a t, e = .thread i a → a.quits = true → s.threads[i]? = some t → t.thread = .looping →
    t.owner.hasQuit = true

/-- Steps of a thread that do not come from the pool. -/
theorem thread_steps {i : Nat} {t u : EventLoopThread F} {acts : List (EventLoopThread.Act F)}
    (ht : s.threads[i]? = some t) (hrun : Run EventLoopThread.Step t acts u)
    (hacts : ∀ a ∈ acts, ownerAct a = false) :
    ∃ ls s', Run Step s ls s' ∧ s'.threads[i]? = some u ∧ s'.loops = s.loops := by
  induction hrun with
  | nil => exact ⟨[], s, .nil, ht, rfl⟩
  | @snoc acts a u u' hrun hstep ih =>
      obtain ⟨ls, s', hls, hu, hloops⟩ := ih fun b hb => hacts b (List.mem_append_left _ hb)
      have ha := hacts a (List.mem_append_right _ List.mem_cons_self)
      refine ⟨_, _, hls.snoc (Exec.thread hu ha hstep), ?_, hloops⟩
      exact List.getElem?_set_self (List.getElem?_eq_some_iff.mp hu).1

/-- A loop that has been quit can be gone. -/
theorem gone_of_quit {i : Nat} {t : EventLoopThread F} (ht : s.threads[i]? = some t)
    (hlisted : i ∈ s.loops) (hthread : t.thread = .looping) (hquit : t.eventLoop.quit = true)
    (hphase : t.eventLoop.phase ≠ .outside) (howner : t.owner.hasQuit = false) :
    ∃ ls s', Run Step s ls s' ∧ ∃ i ∈ s'.loops, s'.Gone i := by
  obtain ⟨acts, u, hacts, hexited, hkept, howners⟩ :=
    EventLoopThread.leaves_of_quit hthread hquit hphase
  obtain ⟨ls, s', hls, hu, hloops⟩ := thread_steps ht hacts howners
  exact ⟨ls, s', hls, i, hloops ▸ hlisted, u, hu, hexited, hkept ▸ howner⟩

theorem owner_of_step {t t' : EventLoopThread F} {a : EventLoopThread.Act F}
    (ha : ownerAct a = false) (hstep : EventLoopThread.Step t a t') : t'.owner = t.owner := by
  cases hstep with
  | startLoop | started | destroy | quit | wakeup | join => cases ha
  | _ => rfl

/-- The thread whose loop the pool has yet to get is in `startLoop`. -/
theorem waiting_of_run (hrun : Run Step new ls s) {i : Nat} {t : EventLoopThread F}
    (hi : s.loops.length ≤ i) (ht : s.threads[i]? = some t) : t.owner = .waiting := by
  have h : (∃ ls, Run Step new ls s) ∧ ∀ (i : Nat) (t : EventLoopThread F), s.loops.length ≤ i →
      s.threads[i]? = some t → t.owner = .waiting := by
    refine hrun.invariant (I := fun s => (∃ ls, Run Step new ls s) ∧
      ∀ (i : Nat) (t : EventLoopThread F), s.loops.length ≤ i → s.threads[i]? = some t →
        t.owner = .waiting) ⟨⟨[], .nil⟩, fun i t _ ht => by cases ht⟩ ?_
    rintro s e s' ⟨⟨ls, hls⟩, h⟩ hstep
    refine ⟨⟨_, hls.snoc hstep⟩, ?_⟩
    intro i t' hi ht'
    have hstage := (rotation_of_run hls).stage
    rw [Step] at hstep
    generalize hr : (Except.ok s' : Except Fault (EventLoopThreadPool F)) = r at hstep
    cases hstep with
    | spawn hphase hmore hthread =>
        cases hr
        rw [List.getElem?_append] at ht'
        split at ht'
        · exact h i t' hi ht'
        · rename_i hlast
          obtain ⟨hlt, -⟩ := List.getElem?_eq_some_iff.mp ht'
          rw [List.length_singleton] at hlt
          have hi' : i = s.threads.length := by omega
          subst hi'
          rw [Nat.sub_self] at ht'
          cases ht'
          cases hthread
          rfl
    | @startLoop cb j u u' hphase hu hthread =>
        cases hr
        rw [Stage, hphase] at hstage
        have hloops := hstage.loops
        change (s.loops ++ [j]).length ≤ i at hi
        rw [List.length_append, List.length_singleton] at hi
        change (s.threads.set j u')[i]? = some t' at ht'
        rw [List.getElem?_set_ne (by omega)] at ht'
        exact h i t' (by omega) ht'
    | @thread j a u u' hu ha hthread =>
        cases hr
        change (s.threads.set j u')[i]? = some t' at ht'
        rw [List.getElem?_set] at ht'
        split at ht'
        · rename_i hj
          subst hj
          split at ht'
          · cases ht'
            exact (owner_of_step ha hthread).trans (h j u hi hu)
          · cases ht'
        · exact h i t' hi ht'
    | @destroyThread j a u u' hphase hu ha hthread =>
        cases hr
        rw [Stage, hphase] at hstage
        have hlength := hstage.threads
        obtain ⟨hlt, -⟩ := List.getElem?_eq_some_iff.mp ht'
        change i < (s.threads.set j u').length at hlt
        rw [List.length_set] at hlt
        change s.loops.length ≤ i at hi
        omega
    | start hphase =>
        obtain ⟨-, rfl⟩ := start_eq hr.symm
        exact h i t' hi ht'
    | getNextLoop hphase =>
        obtain ⟨⟨loop, s₁⟩, hnext, hrest⟩ := bind_ok_inv hr.symm
        obtain ⟨-, n, rfl⟩ := getNextLoop_inv hnext
        cases hrest
        exact h i t' hi ht'
    | getLoopForHash hphase | getAllLoops hphase =>
        obtain ⟨u, -, hrest⟩ := bind_ok_inv hr.symm
        cases hrest
        exact h i t' hi ht'
    | _ =>
        cases hr
        exact h i t' hi ht'
  exact h.2 i t hi ht

theorem listed_or_waiting (h : s.Rotation) {i : Nat} {t : EventLoopThread F}
    (ht : s.threads[i]? = some t) :
    i ∈ s.loops ∨ s.loops.length ≤ i ∧ ∃ cb, s.phase = .waiting cb i := by
  obtain ⟨hlt, -⟩ := List.getElem?_eq_some_iff.mp ht
  rcases Nat.lt_or_ge i s.loops.length with hlisted | hge
  · refine Or.inl ?_
    rw [h.loops]
    exact List.mem_range.mpr hlisted
  · refine Or.inr ⟨hge, ?_⟩
    have hstage := h.stage
    rw [Stage] at hstage
    cases hphase : s.phase with
    | waiting cb j =>
        rw [hphase] at hstage
        have hloops := hstage.loops
        have hthreads := hstage.threads
        exact ⟨cb, by rw [show j = i by omega]⟩
    | starting cb j =>
        rw [hphase] at hstage
        have hloops := hstage.loops
        have hthreads := hstage.threads
        omega
    | outside | callback | destroying j =>
        rw [hphase] at hstage
        have hthreads := hstage.threads
        omega

/-- The loops that `getNextLoop` gives out last until the pool is destroyed, and its
destructor joins every thread, as long as nobody else quits one that is in `loop`; one that
is quit can be gone while the pool has its address. -/
theorem loops_last_exactly :
    (∀ ls (s : EventLoopThreadPool F), Run (Guarded Step QuitByDestructor) new ls s → s.LoopsLast) ∧
    ∀ ls (s : EventLoopThreadPool F) e s', Run Step new ls s → Step s e s' →
      ¬ s.QuitByDestructor e → ∃ ls' s'', Run Step s' ls' s'' ∧ ∃ i ∈ s''.loops, s''.Gone i := by
  constructor
  · intro ls s hrun
    have h : (∃ ls, Run Step new ls s) ∧
        ∀ (i : Nat) (t : EventLoopThread F), s.threads[i]? = some t → t.Lasting := by
      refine hrun.invariant (I := fun s => (∃ ls, Run Step new ls s) ∧
        ∀ (i : Nat) (t : EventLoopThread F), s.threads[i]? = some t → t.Lasting)
        ⟨⟨[], .nil⟩, fun i t ht => by cases ht⟩ ?_
      rintro s e s' ⟨⟨ls, hls⟩, hlasting⟩ ⟨hcond, hstep⟩
      refine ⟨⟨_, hls.snoc hstep⟩, fun i t' ht' => ?_⟩
      rcases hstep.thread_cases ht' with hkept | ⟨-, hnew⟩ | ⟨t, a, ht, hthread, ha⟩
      · exact hlasting i t' hkept
      · exact EventLoopThread.lasting_started hnew
      · have hquit : EventLoopThread.QuitByOwner t a := by
          intro hquits hlooping
          rcases ha with howner | rfl
          · cases a with
            | run b | other b => cases howner
            | _ => cases hquits
          · exact hcond i a t rfl hquits ht hlooping
        obtain ⟨acts, hacts⟩ := thread_run hls ht
        exact (hlasting i t ht).step (EventLoopThread.inStep_of_run hacts)
          (EventLoopThread.placed_of_run hacts) ⟨hquit, hthread⟩
    refine ⟨?_, fun i t ht => (h.2 i t ht).joins⟩
    rintro i ⟨t, ht, hexited, hquit⟩
    have hstays := (h.2 i t ht).stays hquit
    rw [hexited] at hstays
    cases hstays
  · intro ls s e s' hrun hstep hbad
    simp only [QuitByDestructor, not_forall, Bool.not_eq_true] at hbad
    obtain ⟨i, a, t, rfl, hquits, ht, hlooping, howner⟩ := hbad
    have hrotation := rotation_of_run (hrun.snoc hstep)
    have hwaiting := fun hi t ht => waiting_of_run (hrun.snoc hstep) (i := i) (t := t) hi ht
    cases hstep with
    | @thread _ _ t₀ t' hold ha hthread =>
        cases ht.symm.trans hold
        obtain ⟨acts, hacts⟩ := thread_run hrun ht
        obtain ⟨hkept, hlooping', hset, hquit, hphase⟩ := EventLoopThread.looping_quit
          (EventLoopThread.placed_of_run hacts) hquits hlooping hthread
        have ht' : (s.adopt i t').threads[i]? = some t' :=
          List.getElem?_set_self (List.getElem?_eq_some_iff.mp ht).1
        rcases listed_or_waiting hrotation ht' with hlisted | ⟨hi, cb, hp⟩
        · exact gone_of_quit ht' hlisted hlooping' hquit hphase (hkept ▸ howner)
        · have hset' : t'.loopSet = true := EventLoopThread.loopSet_of_run (hacts.snoc hthread)
            (by rw [hlooping']; rfl) (by rw [hlooping']; exact fun hexited => by cases hexited)
          have hstarted : Step (s.adopt i t') .startLoop _ :=
            .startLoop hp ht' (.started (hwaiting hi t' ht') hset')
          obtain ⟨ls', s'', hls', hgone⟩ := gone_of_quit
            (s := { (s.adopt i t').adopt i { t' with owner := .started } with
              phase := .starting cb (i + 1), loops := (s.adopt i t').loops ++ [i] })
            (t := { t' with owner := .started })
            (List.getElem?_set_self (List.getElem?_eq_some_iff.mp ht').1)
            (List.mem_append_right _ List.mem_cons_self) hlooping' hquit hphase rfl
          exact ⟨_, s'', (Run.nil.snoc hstarted).append hls', hgone⟩

end EventLoopThreadPool
end ProtoRpc
