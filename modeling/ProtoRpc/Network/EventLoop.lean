import ProtoRpc.Foundation.Batches
import ProtoRpc.Foundation.Transition

/-!
`EventLoop`: the loop thread goes through `loop` and `doPendingFunctors` one
program point after the other, and any number of other threads push functors,
set `quit_` and write to the eventfd between any two of its steps. `F` is the
type of functors. `looping_` and `eventHandling_` are read off the phase. The
eventfd adds up what is written to it and a read resets it.

The loop's own thread runs code of its user at four points: outside of `loop`,
in an event handler, in a functor, and in the destructors of a batch that has
run. It cannot reach the next poll between its push and its wakeup, so that its
`queueInLoop` is one step; that of another thread is two.
-/
namespace ProtoRpc

/-- What `epoll_wait` reports: the eventfd of the loop, or another channel. -/
inductive ActiveChannel where
  | wakeupChannel
  | other
  deriving DecidableEq, Repr

/-- Where the loop thread is. -/
inductive LoopPhase where
  | outside
  /-- at `while (!quit_)` -/
  | testing
  /-- about to block in `epoll_wait` -/
  | polling
  /-- between two handlers -/
  | handling (active : List ActiveChannel)
  | handler (active : List ActiveChannel)
  /-- in `doPendingFunctors`, before the swap -/
  | swapping
  /-- between two functors -/
  | running
  | functor
  /-- `callingPendingFunctors_` is reset, and `functors` is destroyed -/
  | destroying
  deriving DecidableEq, Repr

namespace LoopPhase

/-- The points at which the loop thread runs code that may call the loop. -/
def userCode : LoopPhase → Bool
  | .outside | .handler _ | .functor | .destroying => true
  | _ => false

/-- The swap comes before the next poll. -/
def beforeSwap : LoopPhase → Bool
  | .handling _ | .handler _ | .swapping => true
  | _ => false

/-- A batch has been swapped out and may have functors left. -/
def inBatch : LoopPhase → Bool
  | .running | .functor => true
  | _ => false

end LoopPhase

structure Task (F : Type) where
  functor : F
  /-- queued by the loop's own thread -/
  own : Bool
  deriving DecidableEq, Repr

/-- A call of another thread that has yet to write to the eventfd. -/
inductive Waking where
  | queueInLoop (number : Nat)
  | quit
  deriving DecidableEq, Repr

/-- `functors` holds `pendingFunctors_` and the batch that runs, `wakeups` is the
counter of the eventfd, and `returned` records the pushes of other threads whose
`queueInLoop` has returned. -/
structure EventLoop (F : Type) where
  phase : LoopPhase
  quit : Bool
  callingPendingFunctors : Bool
  functors : Batches.Queue (Task F)
  wakeups : Nat
  waking : List Waking
  returned : List Nat
  deriving DecidableEq, Repr

namespace EventLoop

variable {F : Type}

def new : EventLoop F :=
  { phase := .outside
    quit := false
    callingPendingFunctors := false
    functors := .empty
    wakeups := 0
    waking := []
    returned := [] }

def wakeup (s : EventLoop F) : EventLoop F := { s with wakeups := s.wakeups + 1 }

def handleRead (s : EventLoop F) : EventLoop F := { s with wakeups := 0 }

/-- `queueInLoop` in the loop's own thread. -/
def queueInLoop (s : EventLoop F) (f : F) : EventLoop F :=
  let s := { s with functors := s.functors.push ⟨f, true⟩ }
  if s.callingPendingFunctors then s.wakeup else s

/-- `queueInLoop` in another thread, up to the wakeup. -/
def push (s : EventLoop F) (f : F) : EventLoop F :=
  { s with
    functors := s.functors.push ⟨f, false⟩
    waking := .queueInLoop s.functors.pushed.length :: s.waking }

/-- The wakeup with which a call of another thread ends. -/
def wake (s : EventLoop F) (w : Waking) : EventLoop F :=
  { s.wakeup with
    waking := s.waking.erase w
    returned := match w with
      | .queueInLoop n => n :: s.returned
      | .quit => s.returned }

inductive Act (F : Type) where
  | queueInLoop (f : F)
  | quit
  | loop
  | test
  | poll (active : List ActiveChannel)
  | handleEvent
  | handled
  | doPendingFunctors
  | swap
  | functor
  | finished
  | endBatch
  | destroyed
  /-- `queueInLoop` of another thread, its wakeup, and `quit` of another thread -/
  | foreignPush (f : F)
  | foreignWake (w : Waking)
  | foreignQuit

inductive Step (s : EventLoop F) : Act F → EventLoop F → Prop where
  | queueInLoop {f : F} (hphase : s.phase.userCode = true) :
      Step s (.queueInLoop f) (s.queueInLoop f)
  | quit (hphase : s.phase.userCode = true) : Step s .quit { s with quit := true }
  | loop (hphase : s.phase = .outside) :
      Step s .loop { s with phase := .testing, quit := false }
  | leave (hphase : s.phase = .testing) (hquit : s.quit = true) :
      Step s .test { s with phase := .outside }
  | stay (hphase : s.phase = .testing) (hquit : s.quit = false) :
      Step s .test { s with phase := .polling }
  | poll {active : List ActiveChannel} (hphase : s.phase = .polling)
      (hactive : .wakeupChannel ∈ active → 0 < s.wakeups) :
      Step s (.poll active) { s with phase := .handling active }
  | handleRead {active : List ActiveChannel}
      (hphase : s.phase = .handling (.wakeupChannel :: active)) :
      Step s .handleEvent { s.handleRead with phase := .handling active }
  | handleEvent {active : List ActiveChannel} (hphase : s.phase = .handling (.other :: active)) :
      Step s .handleEvent { s with phase := .handler active }
  | handled {active : List ActiveChannel} (hphase : s.phase = .handler active) :
      Step s .handled { s with phase := .handling active }
  | doPendingFunctors (hphase : s.phase = .handling []) :
      Step s .doPendingFunctors { s with phase := .swapping, callingPendingFunctors := true }
  | swap (hphase : s.phase = .swapping) :
      Step s .swap { s with phase := .running, functors := s.functors.take }
  | functor {e : Batches.Entry (Task F)} {rest : List (Batches.Entry (Task F))}
      (hphase : s.phase = .running) (hbatch : s.functors.batch = e :: rest) :
      Step s .functor { s with phase := .functor, functors := s.functors.run }
  | finished (hphase : s.phase = .functor) : Step s .finished { s with phase := .running }
  | endBatch (hphase : s.phase = .running) (hbatch : s.functors.batch = []) :
      Step s .endBatch { s with phase := .destroying, callingPendingFunctors := false }
  | destroyed (hphase : s.phase = .destroying) : Step s .destroyed { s with phase := .testing }
  | foreignPush {f : F} : Step s (.foreignPush f) (s.push f)
  | foreignWake {w : Waking} (hw : w ∈ s.waking) : Step s (.foreignWake w) (s.wake w)
  | foreignQuit : Step s .foreignQuit { s with quit := true, waking := .quit :: s.waking }

variable {s s' : EventLoop F} {a : Act F}

@[simp] theorem queueInLoop_phase (f : F) : (s.queueInLoop f).phase = s.phase := by
  rw [queueInLoop]
  split <;> rfl

@[simp] theorem queueInLoop_functors (f : F) :
    (s.queueInLoop f).functors = s.functors.push ⟨f, true⟩ := by
  rw [queueInLoop]
  split <;> rfl

@[simp] theorem queueInLoop_waking (f : F) : (s.queueInLoop f).waking = s.waking := by
  rw [queueInLoop]
  split <;> rfl

@[simp] theorem queueInLoop_returned (f : F) : (s.queueInLoop f).returned = s.returned := by
  rw [queueInLoop]
  split <;> rfl

@[simp] theorem queueInLoop_calling (f : F) :
    (s.queueInLoop f).callingPendingFunctors = s.callingPendingFunctors := by
  rw [queueInLoop]
  split <;> rfl

theorem queueInLoop_wakeups (f : F) :
    (s.queueInLoop f).wakeups = s.wakeups + if s.callingPendingFunctors then 1 else 0 := by
  rw [queueInLoop]
  split <;> simp_all [wakeup]

end EventLoop
end ProtoRpc
