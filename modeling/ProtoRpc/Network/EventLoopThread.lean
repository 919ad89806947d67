import ProtoRpc.Network.EventLoop

/-!
`EventLoopThread`: one thread calls `startLoop` and later runs the destructor,
the other runs `threadFunc` with the loop on its stack. `threadFunc` publishes
`loop_` before it calls `loop`, and `loop` begins with `quit_ = false`, so that a
`quit` in between is forgotten. Once the reset has been made a `quit` holds.
-/
namespace ProtoRpc

/-- Where the loop thread is in `threadFunc`. -/
inductive ThreadPhase where
  | notStarted
  /-- the loop is constructed, and `callback_` runs -/
  | initializing
  /-- `loop_` is set, and `loop` has yet to begin -/
  | published
  | looping
  /-- `loop` has returned -/
  | left
  | exited
  deriving DecidableEq, Repr

/-- Where the owner is in `startLoop` and in the destructor. -/
inductive OwnerPhase where
  | idle
  | waiting
  | started
  /-- the destructor has found `loop_ != NULL` -/
  | found
  /-- in `quit`, before the wakeup -/
  | quitting
  | joining
  | joined
  /-- the destructor has found `loop_ == NULL` -/
  | skipped
  deriving DecidableEq, Repr

namespace ThreadPhase

/-- `loop` has made `quit_ = false`. -/
def hasReset : ThreadPhase → Bool
  | .looping | .left | .exited => true
  | _ => false

def hasLeft : ThreadPhase → Bool
  | .left | .exited => true
  | _ => false

end ThreadPhase

namespace OwnerPhase

/-- `quit` has stored its flag. -/
def hasQuit : OwnerPhase → Bool
  | .quitting | .joining | .joined => true
  | _ => false

def quitReturned : OwnerPhase → Bool
  | .joining | .joined => true
  | _ => false

/-- The destructor has seen the pointer. -/
def hasFound : OwnerPhase → Bool
  | .found | .quitting | .joining | .joined => true
  | _ => false

end OwnerPhase

structure EventLoopThread (F : Type) where
  eventLoop : EventLoop F
  thread : ThreadPhase
  owner : OwnerPhase
  /-- `loop_ != NULL` -/
  loopSet : Bool
  deriving DecidableEq, Repr

namespace EventLoopThread
open Transition

variable {F : Type}

def new : EventLoopThread F :=
  { eventLoop := .new
    thread := .notStarted
    owner := .idle
    loopSet := false }

inductive Act (F : Type) where
  | startLoop
  | started
  | destroy
  | quit
  | wakeup
  | join
  | callback (a : EventLoop.Act F)
  | publish
  | loop
  | run (a : EventLoop.Act F)
  | clear
  | other (a : EventLoop.Act F)

/-- What `callback_` may do with the loop. -/
def callbackAct : EventLoop.Act F → Bool
  | .queueInLoop _ | .quit => true
  | _ => false

/-- What other threads may do with the loop that `startLoop` returned: `queueInLoop` and
`quit`. -/
def otherAct : EventLoop.Act F → Bool
  | .foreignPush _ | .foreignWake _ | .foreignQuit => true
  | _ => false

/-- The steps of the loop thread inside of `loop`. -/
def loopAct : EventLoop.Act F → Bool
  | .foreignPush _ | .foreignWake _ | .foreignQuit | .loop => false
  | _ => true

inductive Step (s : EventLoopThread F) : Act F → EventLoopThread F → Prop where
  | startLoop (howner : s.owner = .idle) :
      Step s .startLoop { s with owner := .waiting, thread := .initializing }
  | started (howner : s.owner = .waiting) (hset : s.loopSet = true) :
      Step s .started { s with owner := .started }
  | destroy (howner : s.owner = .started) :
      Step s .destroy { s with owner := if s.loopSet then .found else .skipped }
  | quit {l : EventLoop F} (howner : s.owner = .found)
      (hloop : EventLoop.Step s.eventLoop .foreignQuit l) :
      Step s .quit { s with owner := .quitting, eventLoop := l }
  | wakeup {l : EventLoop F} (howner : s.owner = .quitting)
      (hloop : EventLoop.Step s.eventLoop (.foreignWake .quit) l) :
      Step s .wakeup { s with owner := .joining, eventLoop := l }
  | join (howner : s.owner = .joining) (hthread : s.thread = .exited) :
      Step s .join { s with owner := .joined }
  | callback {a : EventLoop.Act F} {l : EventLoop F} (hthread : s.thread = .initializing)
      (ha : callbackAct a = true) (hloop : EventLoop.Step s.eventLoop a l) :
      Step s (.callback a) { s with eventLoop := l }
  | publish (hthread : s.thread = .initializing) :
      Step s .publish { s with thread := .published, loopSet := true }
  | loop {l : EventLoop F} (hthread : s.thread = .published)
      (hloop : EventLoop.Step s.eventLoop .loop l) :
      Step s .loop { s with thread := .looping, eventLoop := l }
  | run {a : EventLoop.Act F} {l : EventLoop F} (hthread : s.thread = .looping)
      (ha : loopAct a = true) (hloop : EventLoop.Step s.eventLoop a l) :
      Step s (.run a)
        { s with
          eventLoop := l
          thread := if l.phase = .outside then .left else .looping }
  | clear (hthread : s.thread = .left) :
      Step s .clear { s with thread := .exited, loopSet := false }
  -- the wakeup of the destructor's own `quit` is left to the destructor
  | other {a : EventLoop.Act F} {l : EventLoop F} (ha : otherAct a = true)
      (hwake : a = .foreignWake .quit → s.owner = .quitting →
        1 < s.eventLoop.waking.count .quit)
      (hloop : EventLoop.Step s.eventLoop a l) : Step s (.other a) { s with eventLoop := l }

/-- After the `quit` of the destructor has returned, `quit_` is true until the
loop leaves its `while`, and no step starts a poll. -/
def Honoured (s : EventLoopThread F) : Prop :=
  s.owner.quitReturned = true →
    (s.eventLoop.quit = true ∨ s.thread.hasLeft = true) ∧
    ∀ a s', Step s a s' → s'.eventLoop.phase = .polling → s.eventLoop.phase = .polling

/-- The destructor calls `quit` after `loop` has made `quit_ = false`. -/
def QuitsAfterReset (s : EventLoopThread F) : Act F → Prop
  | .quit => s.thread.hasReset = true
  | _ => True

section
variable {l l' : EventLoop F} {b : EventLoop.Act F}

theorem step_quit (hb : b ≠ .loop) (hstep : EventLoop.Step l b l') (hquit : l.quit = true) :
    l'.quit = true := by
  cases hstep with
  | loop hphase => exact absurd rfl hb
  | queueInLoop hphase =>
      rw [EventLoop.queueInLoop]
      split <;> exact hquit
  | quit hphase => rfl
  | foreignQuit => rfl
  | _ => exact hquit

theorem polling_of_quit (hstep : EventLoop.Step l b l') (hquit : l.quit = true)
    (hpolling : l'.phase = .polling) : l.phase = .polling := by
  cases hstep with
  | queueInLoop hphase => rwa [EventLoop.queueInLoop_phase] at hpolling
  | stay hphase hnot =>
      rw [hquit] at hnot
      cases hnot
  | quit hphase => exact hpolling
  | foreignPush => exact hpolling
  | foreignWake hw => exact hpolling
  | foreignQuit => exact hpolling
  | _ => cases hpolling

theorem otherAct_phase (hb : otherAct b = true) (hstep : EventLoop.Step l b l') :
    l'.phase = l.phase := by
  cases hstep with
  | foreignPush => rfl
  | foreignWake hw => rfl
  | foreignQuit => rfl
  | _ => cases hb

theorem callbackAct_phase (hb : callbackAct b = true) (hstep : EventLoop.Step l b l') :
    l'.phase = l.phase := by
  cases hstep with
  | queueInLoop hphase => exact EventLoop.queueInLoop_phase _
  | quit hphase => rfl
  | _ => cases hb

end

variable {s s' : EventLoopThread F} {a : Act F}

/-- Where the two threads can be relative to each other. -/
structure InStep (s : EventLoopThread F) : Prop where
  outside : s.thread.hasReset = false → s.eventLoop.phase = .outside
  unset : s.thread = .notStarted ∨ s.thread = .initializing → s.loopSet = false
  found : s.owner.hasFound = true → s.thread ≠ .notStarted ∧ s.thread ≠ .initializing
  idle : s.owner = .idle ↔ s.thread = .notStarted

theorem inStep_new : (new : EventLoopThread F).InStep :=
  ⟨fun _ => rfl, fun _ => rfl, nofun, by simp [new]⟩

theorem InStep.step (h : s.InStep) (hstep : Step s a s') : s'.InStep := by
  cases hstep with
  | startLoop howner =>
      have hthread := h.idle.mp howner
      refine ⟨fun _ => h.outside (by rw [hthread]; rfl), fun _ => h.unset (Or.inl hthread), nofun, ?_⟩
      simp
  | started howner hset =>
      refine ⟨h.outside, h.unset, nofun, ?_⟩
      have hidle := h.idle
      rw [howner] at hidle
      simpa using hidle
  | destroy howner =>
      have hidle := h.idle
      rw [howner] at hidle
      refine ⟨h.outside, h.unset, ?_, ?_⟩
      · intro hfound
        cases hset : s.loopSet with
        | false =>
            simp [hset, OwnerPhase.hasFound] at hfound
        | true =>
            refine ⟨fun hthread => ?_, fun hthread => ?_⟩
            · rw [h.unset (Or.inl hthread)] at hset
              cases hset
            · rw [h.unset (Or.inr hthread)] at hset
              cases hset
      · simp only at hidle ⊢
        split <;> simpa using hidle
  | quit howner hloop | wakeup howner hloop =>
      have hfound := h.found (by rw [howner]; rfl)
      have hidle := h.idle
      rw [howner] at hidle
      cases hloop
      exact ⟨h.outside, h.unset, fun _ => hfound, by simpa using hidle⟩
  | join howner hthread =>
      have hfound := h.found (by rw [howner]; rfl)
      refine ⟨h.outside, h.unset, fun _ => hfound, ?_⟩
      simp [hthread]
  | callback hthread ha hloop =>
      refine ⟨?_, h.unset, h.found, h.idle⟩
      intro hreset
      exact (callbackAct_phase ha hloop).trans (h.outside hreset)
  | publish hthread =>
      refine ⟨fun _ => h.outside (by rw [hthread]; rfl), by simp, by simp, ?_⟩
      have hidle := h.idle
      rw [hthread] at hidle
      simpa using hidle
  | loop hthread hloop =>
      refine ⟨nofun, by simp, by simp, ?_⟩
      have hidle := h.idle
      rw [hthread] at hidle
      simpa using hidle
  | run hthread ha hloop =>
      have hidle := h.idle
      rw [hthread] at hidle
      refine ⟨?_, ?_, ?_, ?_⟩
      · simp only
        split <;> exact nofun
      · simp only
        split <;> simp
      · simp only
        split <;> simp
      · simp only
        split <;> simpa using hidle
  | clear hthread =>
      refine ⟨nofun, by simp, by simp, ?_⟩
      have hidle := h.idle
      rw [hthread] at hidle
      simpa using hidle
  | other ha hwake hloop =>
      refine ⟨?_, h.unset, h.found, h.idle⟩
      intro hreset
      exact (otherAct_phase ha hloop).trans (h.outside hreset)

/-- Once the flag is stored it stays, until the loop has left. -/
def Kept (s : EventLoopThread F) : Prop :=
  s.owner.hasQuit = true →
    s.thread.hasReset = true ∧ (s.eventLoop.quit = true ∨ s.thread.hasLeft = true)

theorem Kept.step (h : s.Kept) (hstep : Guarded Step QuitsAfterReset s a s') : s'.Kept := by
  obtain ⟨hcond, hstep⟩ := hstep
  cases hstep with
  | startLoop howner => exact nofun
  | started howner hset => exact nofun
  | destroy howner =>
      intro hquit
      simp only at hquit
      split at hquit <;> cases hquit
  | quit howner hloop =>
      cases hloop
      exact fun _ => ⟨hcond, Or.inl rfl⟩
  | wakeup howner hloop =>
      cases hloop
      exact fun _ => h (by rw [howner]; rfl)
  | join howner hthread => exact fun _ => h (by rw [howner]; rfl)
  | callback hthread _ _ | publish hthread | loop hthread _ =>
      intro hquit
      have hreset := (h hquit).1
      rw [hthread] at hreset
      cases hreset
  | run hthread ha hloop =>
      rename_i b l
      intro hquit
      have hold : s.eventLoop.quit = true := by
        have hkept := (h hquit).2
        rw [hthread] at hkept
        simpa [ThreadPhase.hasLeft] using hkept
      have hb : b ≠ .loop := by
        rintro rfl
        cases ha
      have hnew := step_quit hb hloop hold
      simp only
      split
      · exact ⟨rfl, Or.inl hnew⟩
      · exact ⟨rfl, Or.inl hnew⟩
  | clear hthread => exact fun _ => ⟨rfl, Or.inr rfl⟩
  | other ha hwake hloop =>
      rename_i b l
      intro hquit
      obtain ⟨hreset, hkept⟩ := h hquit
      have hb : b ≠ .loop := by
        rintro rfl
        cases ha
      exact ⟨hreset, hkept.imp_left (step_quit hb hloop)⟩

theorem Kept.honoured (h : s.Kept) : s.Honoured := by
  intro hreturned
  have hquit : s.owner.hasQuit = true := by
    cases howner : s.owner with
    | joining | joined => rfl
    | _ =>
        rw [howner] at hreturned
        cases hreturned
  obtain ⟨hreset, hkept⟩ := h hquit
  refine ⟨hkept, ?_⟩
  intro a s' hstep hpolling
  cases hstep with
  | callback hthread _ _ | loop hthread _ =>
      rw [hthread] at hreset
      cases hreset
  | run hthread ha hloop =>
      have hflag : s.eventLoop.quit = true := by
        rw [hthread] at hkept
        simpa [ThreadPhase.hasLeft] using hkept
      exact polling_of_quit hloop hflag hpolling
  | other ha hwake hloop => exact (otherAct_phase ha hloop).symm.trans hpolling
  | quit howner hloop | wakeup howner hloop =>
      cases hloop
      exact hpolling
  | _ => exact hpolling

/-- A quit request is kept in every run in which the destructor makes it after
`loop` has reset the flag, and a request before that can always be forgotten. -/
theorem quit_honoured_exactly :
    SafeExactly Step (new : EventLoopThread F) Honoured QuitsAfterReset where
  safe := by
    intro acts s hrun
    have h : s.Kept := hrun.invariant nofun fun _ _ _ h hstep => h.step hstep
    exact h.honoured
  breach := by
    intro acts s a s' hrun hstep hearly
    have h : s.InStep := hrun.invariant inStep_new fun _ _ _ h hstep => h.step hstep
    cases hstep with
    | quit howner hloop =>
        cases hloop
        have hthread : s.thread = .published := by
          obtain ⟨hstarted, hinit⟩ := h.found (by rw [howner]; rfl)
          cases hthread : s.thread with
          | notStarted => exact absurd hthread hstarted
          | initializing => exact absurd hthread hinit
          | published => rfl
          | looping | left | exited =>
              change ¬ s.thread.hasReset = true at hearly
              rw [hthread] at hearly
              exact absurd rfl hearly
        have hphase := h.outside (by rw [hthread]; rfl)
        refine ⟨_, _, (Run.nil.snoc (.wakeup rfl (.foreignWake List.mem_cons_self))).snoc
          (.loop ?_ (.loop ?_)), ?_⟩
        · exact hthread
        · exact hphase
        intro hhonoured
        obtain ⟨hflag | hleft, -⟩ := hhonoured rfl
        · cases hflag
        · cases hleft
    | _ => exact absurd trivial hearly

/-- The destructor right after `startLoop`: `quit` returns before the loop
thread has entered `loop`, which then resets the flag and polls. -/
theorem quit_forgotten : ∃ s : EventLoopThread Nat, Run Step new
    [.startLoop, .publish, .started, .destroy, .quit, .wakeup, .loop, .run .test] s ∧
    s.owner = .joining ∧ s.eventLoop.quit = false ∧ s.eventLoop.phase = .polling ∧
    ¬ Honoured s := by
  refine ⟨_, (((((((Run.nil.snoc (.startLoop rfl)).snoc (.publish rfl)).snoc
    (.started rfl rfl)).snoc (.destroy rfl)).snoc (.quit rfl .foreignQuit)).snoc
    (.wakeup rfl (.foreignWake (by decide)))).snoc (.loop rfl (.loop rfl))).snoc
    (.run rfl rfl (.stay rfl rfl)), rfl, rfl, rfl, ?_⟩
  intro hhonoured
  obtain ⟨hflag | hleft, -⟩ := hhonoured rfl
  · cases hflag
  · cases hleft

end EventLoopThread
end ProtoRpc
