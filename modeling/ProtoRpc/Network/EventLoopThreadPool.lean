import Mathlib.Data.Int.CardIntervalMod
import ProtoRpc.Network.EventLoopThread
import ProtoRpc.Network.Machine

/-!
`EventLoopThreadPool`: the thread of the base loop starts the threads one after the
other and waits for the loop of each, hands the loops out in turn, and has each thread
quit and joins it in the destructor. The threads run all the while. They are numbered
in the order in which they are started, and a loop goes by the number of its thread;
`none` is the base loop. `threads_` is destroyed from its front.

A thread that the destructor does not join, since it has found no loop there, is one
that `~thread` calls `std::terminate` for: the run ends with it.
-/
namespace ProtoRpc
open Transition

namespace ThreadPhase

/-- `callback_` has returned, if there is one. -/
def initialized : ThreadPhase → Bool
  | .notStarted | .initializing => false
  | _ => true

end ThreadPhase

namespace EventLoopThread

variable {F : Type} {t t' : EventLoopThread F} {a : Act F}

theorem InStep.initialized (h : t.InStep) (hset : t.loopSet = true) :
    t.thread.initialized = true := by
  cases hthread : t.thread with
  | notStarted =>
      rw [h.unset (Or.inl hthread)] at hset
      cases hset
  | initializing =>
      rw [h.unset (Or.inr hthread)] at hset
      cases hset
  | _ => rfl

/-- The callback runs once, before anything else. -/
theorem initialized_step (h : t.InStep) (hstep : Step t a t')
    (hinit : t.thread.initialized = true) : t'.thread.initialized = true := by
  cases hstep with
  | startLoop howner =>
      rw [h.idle.mp howner] at hinit
      cases hinit
  | run hthread ha hloop =>
      simp only
      split <;> rfl
  | publish hthread | loop hthread _ | clear hthread => rfl
  | _ => exact hinit

end EventLoopThread

/-- Where the thread of the base loop is. -/
inductive PoolPhase where
  | outside
  /-- in `start`, before the test `i < numThreads_` -/
  | starting (cb : Bool) (i : Nat)
  /-- in the `startLoop` of thread `i` -/
  | waiting (cb : Bool) (i : Nat)
  /-- `start` runs `cb(baseLoop_)` -/
  | callback
  /-- in the destructor, which has yet to be done with thread `i` -/
  | destroying (i : Nat)
  deriving DecidableEq, Repr

namespace PoolPhase

/-- Code of the user runs, which may call the pool. -/
def userCode : PoolPhase → Bool
  | .outside | .callback => true
  | _ => false

/-- In the `for` of `start`. -/
def spawning : PoolPhase → Bool
  | .starting _ _ | .waiting _ _ => true
  | _ => false

theorem spawning_of_userCode {p : PoolPhase} (h : p.userCode = true) : p.spawning = false := by
  cases p with
  | outside | callback => rfl
  | _ => cases h

end PoolPhase

/-- `static_cast<size_t>` of an `int` -/
def toSizeT (n : Int) : Nat := (n % 2 ^ 64).toNat

theorem toSizeT_natCast {n : Nat} (h : (n : Int) ≤ intMax) : toSizeT n = n := by
  rw [intMax] at h
  rw [toSizeT, Int.emod_eq_of_lt (by omega) (by omega), Int.toNat_natCast]

/-- `asked`, what `numThreads_` was when `start` was called, and `given`, what
`getNextLoop` has returned, only record. -/
structure EventLoopThreadPool (F : Type) where
  phase : PoolPhase
  started : Bool
  numThreads : Int
  next : Int
  threads : List (EventLoopThread F)
  loops : List Nat
  asked : Int
  given : List (Option Nat)
  deriving DecidableEq, Repr

namespace EventLoopThreadPool

variable {F : Type}

def new : EventLoopThreadPool F :=
  { phase := .outside
    started := false
    numThreads := 0
    next := 0
    threads := []
    loops := []
    asked := 0
    given := [] }

def start (s : EventLoopThreadPool F) (cb : Bool) : Except Fault (EventLoopThreadPool F) := do
  require .assertion (s.started = false)
  return { s with started := true, asked := s.numThreads, phase := .starting cb 0 }

/-- `loops_[n]` -/
def loopAt (s : EventLoopThreadPool F) (n : Nat) : Except Fault Nat :=
  match s.loops[n]? with
  | some i => .ok i
  | none => .error .outOfBounds

def getNextLoop (s : EventLoopThreadPool F) :
    Except Fault (Option Nat × EventLoopThreadPool F) := do
  require .assertion (s.started = true)
  if s.loops = [] then
    return (none, s)
  else
    let loop ← s.loopAt (toSizeT s.next)
    let next ← addInt s.next 1
    let next := if s.loops.length ≤ toSizeT next then 0 else next
    return (some loop, { s with next := next })

def getLoopForHash (s : EventLoopThreadPool F) (hashCode : Nat) : Except Fault (Option Nat) :=
  if s.loops = [] then
    .ok none
  else do
    let loop ← s.loopAt (hashCode % s.loops.length)
    return some loop

def getAllLoops (s : EventLoopThreadPool F) : Except Fault (List (Option Nat)) := do
  require .assertion (s.started = true)
  return if s.loops = [] then [none] else s.loops.map some

inductive Event (F : Type) where
  | setThreadNum (numThreads : Int)
  | start (cb : Bool)
  /-- a thread is made, and its `startLoop` called -/
  | spawn
  /-- `startLoop` returns -/
  | startLoop
  /-- the `for` of `start` ends -/
  | spawned
  /-- `cb(baseLoop_)` returns -/
  | called
  | getNextLoop
  | getLoopForHash (hashCode : Nat)
  | getAllLoops
  /-- thread `i` or one that is not the thread of the base loop -/
  | thread (i : Nat) (a : EventLoopThread.Act F)
  | destroy
  /-- a step of the destructor of thread `i` -/
  | destroyThread (i : Nat) (a : EventLoopThread.Act F)
  /-- the destructor of thread `i` has returned -/
  | destroyed (i : Nat)

/-- What the thread that owns the pool does with a thread. -/
def ownerAct : EventLoopThread.Act F → Bool
  | .startLoop | .started | .destroy | .quit | .wakeup | .join => true
  | _ => false

/-- The steps of `~EventLoopThread`. -/
def destructorAct : EventLoopThread.Act F → Bool
  | .destroy | .quit | .wakeup | .join => true
  | _ => false

/-- Thread `i` is left as `t`. -/
def adopt (s : EventLoopThreadPool F) (i : Nat) (t : EventLoopThread F) : EventLoopThreadPool F :=
  { s with threads := s.threads.set i t }

/-- What can happen next, and what comes of it. -/
inductive Exec (s : EventLoopThreadPool F) :
    Event F → Except Fault (EventLoopThreadPool F) → Prop where
  | setThreadNum {n : Int} (hphase : s.phase.userCode = true) (hn : n ≤ intMax) :
      Exec s (.setThreadNum n) (.ok { s with numThreads := n })
  | start {cb : Bool} (hphase : s.phase.userCode = true) : Exec s (.start cb) (s.start cb)
  | spawn {cb : Bool} {i : Nat} {t : EventLoopThread F} (hphase : s.phase = .starting cb i)
      (hmore : i < s.numThreads) (hthread : EventLoopThread.Step .new .startLoop t) :
      Exec s .spawn (.ok { s with phase := .waiting cb i, threads := s.threads ++ [t] })
  | startLoop {cb : Bool} {i : Nat} {t t' : EventLoopThread F} (hphase : s.phase = .waiting cb i)
      (ht : s.threads[i]? = some t) (hthread : EventLoopThread.Step t .started t') :
      Exec s .startLoop
        (.ok { s.adopt i t' with phase := .starting cb (i + 1), loops := s.loops ++ [i] })
  | spawned {cb : Bool} {i : Nat} (hphase : s.phase = .starting cb i) (hdone : s.numThreads ≤ i) :
      Exec s .spawned
        (.ok { s with phase := if s.numThreads = 0 ∧ cb = true then .callback else .outside })
  | called (hphase : s.phase = .callback) : Exec s .called (.ok { s with phase := .outside })
  | getNextLoop (hphase : s.phase.userCode = true) :
      Exec s .getNextLoop (do
        let (loop, s) ← s.getNextLoop
        return { s with given := s.given ++ [loop] })
  | getLoopForHash {hashCode : Nat} (hphase : s.phase.userCode = true) :
      Exec s (.getLoopForHash hashCode) (do
        let _ ← s.getLoopForHash hashCode
        return s)
  | getAllLoops (hphase : s.phase.userCode = true) :
      Exec s .getAllLoops (do
        let _ ← s.getAllLoops
        return s)
  | thread {i : Nat} {a : EventLoopThread.Act F} {t t' : EventLoopThread F}
      (ht : s.threads[i]? = some t) (ha : ownerAct a = false)
      (hthread : EventLoopThread.Step t a t') : Exec s (.thread i a) (.ok (s.adopt i t'))
  | destroy (hphase : s.phase = .outside) : Exec s .destroy (.ok { s with phase := .destroying 0 })
  | destroyThread {i : Nat} {a : EventLoopThread.Act F} {t t' : EventLoopThread F}
      (hphase : s.phase = .destroying i) (ht : s.threads[i]? = some t)
      (ha : destructorAct a = true) (hthread : EventLoopThread.Step t a t') :
      Exec s (.destroyThread i a) (.ok (s.adopt i t'))
  | destroyed {i : Nat} {t : EventLoopThread F} (hphase : s.phase = .destroying i)
      (ht : s.threads[i]? = some t) (hjoined : t.owner = .joined) :
      Exec s (.destroyed i) (.ok { s with phase := .destroying (i + 1) })

def Step (s : EventLoopThreadPool F) (e : Event F) (s' : EventLoopThreadPool F) : Prop :=
  Exec s e (.ok s')

/-- The loop that the `k`th call is given where there are `n` of them. -/
def turn (n k : Nat) : Option Nat := if n = 0 then none else some (k % n)

@[simp] theorem turn_zero (k : Nat) : turn 0 k = none := rfl

theorem turn_pos {n : Nat} (hn : 0 < n) (k : Nat) : turn n k = some (k % n) :=
  if_neg (Nat.ne_of_gt hn)

theorem succ_mod {n : Nat} (hn : 0 < n) (k : Nat) :
    (k + 1) % n = if n ≤ k % n + 1 then 0 else k % n + 1 := by
  have hlt := Nat.mod_lt k hn
  rw [Nat.add_mod, Nat.add_mod_mod]
  split
  · rw [show k % n + 1 = n by omega, Nat.mod_self]
  · exact Nat.mod_eq_of_lt (by omega)

variable {s s' : EventLoopThreadPool F} {e : Event F} {ls : List (Event F)}

/-- `start` has made every thread that was asked for, or has not been called. -/
structure Settled (s : EventLoopThreadPool F) : Prop where
  threads : s.threads.length = s.loops.length
  loops : s.loops.length = if s.started then s.asked.toNat else 0
  given : s.started = false → s.given = []

/-- In the `for` of `start`, with `i` loops and `n` threads. -/
structure Spawning (s : EventLoopThreadPool F) (i n : Nat) : Prop where
  started : s.started = true
  given : s.given = []
  asked : s.asked = s.numThreads
  loops : s.loops.length = i
  threads : s.threads.length = n
  more : n ≤ s.asked.toNat

def Stage (s : EventLoopThreadPool F) : Prop :=
  match s.phase with
  | .starting _ i => s.Spawning i i
  | .waiting _ i => s.Spawning i (i + 1)
  | .outside | .callback | .destroying _ => s.Settled

theorem stage_iff (hphase : s.phase.spawning = false) : s.Stage ↔ s.Settled := by
  rw [Stage]
  cases hp : s.phase with
  | outside | callback | destroying i => exact Iff.rfl
  | _ =>
      rw [hp] at hphase
      cases hphase

/-- The loops are handed out in turn. -/
structure Rotation (s : EventLoopThreadPool F) : Prop where
  loops : s.loops = List.range s.loops.length
  asked : s.asked ≤ intMax
  numThreads : s.numThreads ≤ intMax
  next : s.next = ((turn s.loops.length s.given.length).getD 0 : Nat)
  given : s.given = (List.range s.given.length).map (turn s.loops.length)
  stage : s.Stage

theorem rotation_new : (new : EventLoopThreadPool F).Rotation where
  loops := rfl
  asked := (by decide : (0 : Int) ≤ intMax)
  numThreads := (by decide : (0 : Int) ≤ intMax)
  next := rfl
  given := rfl
  stage := ⟨rfl, rfl, fun _ => rfl⟩

theorem Rotation.length_le (h : s.Rotation) : (s.loops.length : Int) ≤ intMax := by
  have hasked := h.asked
  have hstage := h.stage
  have hpos : (0 : Int) ≤ intMax := by decide
  rw [Stage] at hstage
  split at hstage
  · have := hstage.loops
    have := hstage.more
    omega
  · have := hstage.loops
    have := hstage.more
    omega
  all_goals
    have hloops := hstage.loops
    split at hloops <;> omega

theorem Rotation.loopAt (h : s.Rotation) {n : Nat} (hn : n < s.loops.length) :
    s.loopAt n = .ok n := by
  rw [EventLoopThreadPool.loopAt, h.loops, List.getElem?_range hn]

/-- `getNextLoop` gives the loop whose turn it is, and neither leaves `loops_` nor
overflows `next_`. -/
theorem Rotation.getNextLoop (h : s.Rotation) (hstarted : s.started = true) :
    s.getNextLoop = .ok (turn s.loops.length s.given.length,
      { s with next := ((turn s.loops.length (s.given.length + 1)).getD 0 : Nat) }) := by
  have hnext := h.next
  rw [EventLoopThreadPool.getNextLoop, require_of_true hstarted, ok_bind]
  rcases Nat.eq_zero_or_pos s.loops.length with hzero | hpos
  · rw [if_pos (List.length_eq_zero_iff.mp hzero), hzero]
    rw [hzero] at hnext
    simp only [turn_zero, Option.getD_none] at hnext ⊢
    rw [← hnext]
    rfl
  · have hbound := h.length_le
    have hlt := Nat.mod_lt s.given.length hpos
    rw [turn_pos hpos, Option.getD_some] at hnext
    rw [if_neg (List.length_pos_iff.mp hpos), hnext, toSizeT_natCast (by omega), h.loopAt hlt,
      ok_bind, addInt_eq (by omega), ok_bind]
    have hsize : toSizeT (((s.given.length % s.loops.length : Nat) : Int) + 1) =
        s.given.length % s.loops.length + 1 := by
      exact_mod_cast toSizeT_natCast (n := s.given.length % s.loops.length + 1) (by omega)
    simp only [hsize, turn_pos hpos, Option.getD_some, succ_mod hpos, pure_eq_ok]
    split <;> rfl

theorem getNextLoop_inv {loop : Option Nat} (h : s.getNextLoop = .ok (loop, s')) :
    s.started = true ∧ ∃ n, s' = { s with next := n } := by
  rw [EventLoopThreadPool.getNextLoop] at h
  obtain ⟨u, hstarted, hrest⟩ := bind_ok_inv h
  refine ⟨require_inv hstarted, ?_⟩
  split at hrest
  · cases hrest
    exact ⟨s.next, rfl⟩
  · obtain ⟨i, -, hrest⟩ := bind_ok_inv hrest
    obtain ⟨n, -, hrest⟩ := bind_ok_inv hrest
    cases hrest
    exact ⟨_, rfl⟩

theorem start_eq {cb : Bool} (h : s.start cb = .ok s') : s.started = false ∧
    s' = { s with started := true, asked := s.numThreads, phase := .starting cb 0 } := by
  obtain ⟨u, hstarted, hrest⟩ := bind_ok_inv h
  cases hrest
  exact ⟨require_inv hstarted, rfl⟩

theorem Stage.adopt (h : s.Stage) (i : Nat) (t : EventLoopThread F) : (s.adopt i t).Stage := by
  have hlength : (s.adopt i t).threads.length = s.threads.length := List.length_set ..
  have hphase : (s.adopt i t).phase = s.phase := rfl
  rw [Stage] at h ⊢
  cases hp : s.phase with
  | starting cb j | waiting cb j =>
      rw [hp] at h hphase
      rw [hphase]
      exact { h with threads := hlength.trans h.threads }
  | outside | callback | destroying j =>
      rw [hp] at h hphase
      rw [hphase]
      exact { h with threads := hlength.trans h.threads }

/-- A step of a thread leaves the pool as it is. -/
theorem Rotation.adopt (h : s.Rotation) (i : Nat) (t : EventLoopThread F) :
    (s.adopt i t).Rotation :=
  { h with stage := h.stage.adopt i t }

theorem Rotation.step (h : s.Rotation) (hstep : Step s e s') : s'.Rotation := by
  have hstage := h.stage
  rw [Step] at hstep
  generalize hr : (Except.ok s' : Except Fault (EventLoopThreadPool F)) = r at hstep
  cases hstep with
  | setThreadNum hphase hn =>
      cases hr
      have hspawning := PoolPhase.spawning_of_userCode hphase
      have hsettled := (stage_iff hspawning).mp hstage
      refine { h with numThreads := hn, stage := (stage_iff ?_).mpr { hsettled with } }
      exact hspawning
  | start hphase =>
      obtain ⟨hstarted, rfl⟩ := start_eq hr.symm
      obtain ⟨hthreads, hloops, hgiven⟩ :=
        (stage_iff (PoolPhase.spawning_of_userCode hphase)).mp hstage
      rw [hstarted] at hloops
      exact { h with
        asked := h.numThreads
        stage := ⟨rfl, hgiven hstarted, rfl, hloops, hthreads.trans hloops, Nat.zero_le _⟩ }
  | @spawn cb i t hphase hmore hthread =>
      cases hr
      rw [Stage, hphase] at hstage
      have hasked := hstage.asked
      have hle : i + 1 ≤ s.asked.toNat := by omega
      refine { h with stage := { hstage with threads := ?_, more := hle } }
      rw [List.length_append, hstage.threads, List.length_singleton]
  | @startLoop cb i t t' hphase ht hthread =>
      cases hr
      rw [Stage, hphase] at hstage
      have hloops := hstage.loops
      have hgiven := hstage.given
      have hlength : (s.loops ++ [i]).length = i + 1 := by
        rw [List.length_append, hloops, List.length_singleton]
      have hnext := h.next
      rw [hgiven, List.length_nil] at hnext
      refine ⟨?_, h.asked, h.numThreads, ?_, ?_, ?_⟩
      · change s.loops ++ [i] = List.range (s.loops ++ [i]).length
        rw [hlength, List.range_succ, ← hloops, ← h.loops]
      · change s.next = ((turn (s.loops ++ [i]).length s.given.length).getD 0 : Nat)
        rw [hnext, hlength, hgiven, turn_pos (Nat.succ_pos i)]
        cases hzero : s.loops.length with
        | zero => rfl
        | succ n => rw [turn_pos (Nat.succ_pos n)]; simp
      · change s.given = (List.range s.given.length).map _
        rw [hgiven]
        rfl
      · exact { hstage with
          loops := hlength
          threads := (List.length_set ..).trans hstage.threads }
  | @spawned cb i hphase hdone =>
      cases hr
      rw [Stage, hphase] at hstage
      have hmore := hstage.more
      have hasked := hstage.asked
      have hlast : i = s.asked.toNat := by omega
      refine { h with stage := (stage_iff ?_).mpr ⟨?_, ?_, fun _ => hstage.given⟩ }
      · simp only
        split <;> rfl
      · exact hstage.threads.trans hstage.loops.symm
      · rw [if_pos hstage.started, hstage.loops, hlast]
  | called hphase | destroy hphase | destroyed hphase _ _ =>
      cases hr
      rw [Stage, hphase] at hstage
      exact { h with stage := { hstage with } }
  | getNextLoop hphase =>
      obtain ⟨⟨loop, s₁⟩, hnext, hrest⟩ := bind_ok_inv hr.symm
      have hstarted := (getNextLoop_inv hnext).1
      rw [h.getNextLoop hstarted] at hnext
      cases hnext
      cases hrest
      have hspawning := PoolPhase.spawning_of_userCode hphase
      have hsettled := (stage_iff hspawning).mp hstage
      have hlength : (s.given ++ [turn s.loops.length s.given.length]).length =
          s.given.length + 1 := by
        rw [List.length_append, List.length_singleton]
      refine ⟨h.loops, h.asked, h.numThreads, ?_, ?_, (stage_iff ?_).mpr ?_⟩
      · rw [hlength]
      · rw [hlength, List.range_succ, List.map_append, ← h.given]
        rfl
      · exact hspawning
      · refine { hsettled with given := fun hnot => ?_ }
        cases hstarted.symm.trans hnot
  | getLoopForHash hphase | getAllLoops hphase =>
      obtain ⟨u, -, hrest⟩ := bind_ok_inv hr.symm
      cases hrest
      exact h
  | thread ht ha hthread =>
      cases hr
      exact h.adopt _ _
  | destroyThread hphase ht ha hthread =>
      cases hr
      exact h.adopt _ _

theorem rotation_of_run (hrun : Run Step new ls s) : s.Rotation :=
  hrun.invariant rotation_new fun _ _ _ h hstep => h.step hstep

/-- What a step of the pool does to a thread. -/
theorem Step.thread_cases (hstep : Step s e s') {i : Nat} {t' : EventLoopThread F}
    (ht' : s'.threads[i]? = some t') :
    s.threads[i]? = some t' ∨
      (i = s.threads.length ∧ EventLoopThread.Step .new .startLoop t') ∨
      ∃ t a, s.threads[i]? = some t ∧ EventLoopThread.Step t a t' ∧
        (ownerAct a = true ∨ e = .thread i a) := by
  rw [Step] at hstep
  generalize hr : (Except.ok s' : Except Fault (EventLoopThreadPool F)) = r at hstep
  have hadopt : ∀ {j a t u}, s.threads[j]? = some t → EventLoopThread.Step t a u →
      (ownerAct a = true ∨ e = .thread j a) → (s.adopt j u).threads[i]? = some t' →
      s.threads[i]? = some t' ∨ (i = s.threads.length ∧ EventLoopThread.Step .new .startLoop t') ∨
        ∃ t a, s.threads[i]? = some t ∧ EventLoopThread.Step t a t' ∧
          (ownerAct a = true ∨ e = .thread i a) := by
    intro j a t u ht hthread ha hu
    rw [EventLoopThreadPool.adopt, List.getElem?_set] at hu
    split at hu
    · rename_i hj
      subst hj
      split at hu
      · cases hu
        exact Or.inr (Or.inr ⟨t, a, ht, hthread, ha⟩)
      · cases hu
    · exact Or.inl hu
  cases hstep with
  | start hphase =>
      obtain ⟨-, rfl⟩ := start_eq hr.symm
      exact Or.inl ht'
  | spawn hphase hmore hthread =>
      cases hr
      rw [List.getElem?_append] at ht'
      split at ht'
      · exact Or.inl ht'
      · have hi : i = s.threads.length := by
          obtain ⟨hlt, -⟩ := List.getElem?_eq_some_iff.mp ht'
          rw [List.length_singleton] at hlt
          omega
        subst hi
        rw [Nat.sub_self] at ht'
        cases ht'
        exact Or.inr (Or.inl ⟨rfl, hthread⟩)
  | startLoop hphase ht hthread =>
      cases hr
      exact hadopt ht hthread (Or.inl rfl) ht'
  | getNextLoop hphase =>
      obtain ⟨⟨loop, s₁⟩, hnext, hrest⟩ := bind_ok_inv hr.symm
      cases hrest
      obtain ⟨-, n, rfl⟩ := getNextLoop_inv hnext
      exact Or.inl ht'
  | getLoopForHash hphase | getAllLoops hphase =>
      obtain ⟨u, -, hrest⟩ := bind_ok_inv hr.symm
      cases hrest
      exact Or.inl ht'
  | thread ht ha hthread =>
      cases hr
      exact hadopt ht hthread (Or.inr rfl) ht'
  | @destroyThread j a t u hphase ht ha hthread =>
      cases hr
      have howner : ownerAct a = true := by
        cases a <;> first | rfl | cases ha
      exact hadopt ht hthread (Or.inl howner) ht'
  | _ =>
      cases hr
      exact Or.inl ht'

/-- A loop is only added where `startLoop` returns it. -/
theorem Step.loops_cases (hstep : Step s e s') : s'.loops = s.loops ∨
    ∃ cb i t t', s.phase = .waiting cb i ∧ s.threads[i]? = some t ∧
      EventLoopThread.Step t .started t' ∧ s'.loops = s.loops ++ [i] ∧
      s'.threads = s.threads.set i t' := by
  rw [Step] at hstep
  generalize hr : (Except.ok s' : Except Fault (EventLoopThreadPool F)) = r at hstep
  cases hstep with
  | start hphase =>
      obtain ⟨-, rfl⟩ := start_eq hr.symm
      exact Or.inl rfl
  | startLoop hphase ht hthread =>
      cases hr
      exact Or.inr ⟨_, _, _, _, hphase, ht, hthread, rfl, rfl⟩
  | getNextLoop hphase =>
      obtain ⟨⟨loop, s₁⟩, hnext, hrest⟩ := bind_ok_inv hr.symm
      cases hrest
      obtain ⟨-, n, rfl⟩ := getNextLoop_inv hnext
      exact Or.inl rfl
  | getLoopForHash hphase | getAllLoops hphase =>
      obtain ⟨u, -, hrest⟩ := bind_ok_inv hr.symm
      cases hrest
      exact Or.inl rfl
  | _ =>
      cases hr
      exact Or.inl rfl

/-- Each thread of the pool goes through a run of its own. -/
theorem thread_run (hrun : Run Step new ls s) {i : Nat} {t : EventLoopThread F}
    (ht : s.threads[i]? = some t) : ∃ acts, Run EventLoopThread.Step .new acts t := by
  have h : ∀ (i : Nat) (t : EventLoopThread F), s.threads[i]? = some t →
      ∃ acts, Run EventLoopThread.Step .new acts t := by
    refine hrun.invariant (I := fun s => ∀ (i : Nat) (t : EventLoopThread F),
      s.threads[i]? = some t → ∃ acts, Run EventLoopThread.Step .new acts t) nofun ?_
    intro s e s' h hstep i t' ht'
    rcases hstep.thread_cases ht' with hkept | ⟨-, hnew⟩ | ⟨t, a, hold, hthread, -⟩
    · exact h i t' hkept
    · exact ⟨_, Run.nil.snoc hnew⟩
    · obtain ⟨acts, hacts⟩ := h i t hold
      exact ⟨_, hacts.snoc hthread⟩
  exact h i t ht

theorem inStep_of_run (hrun : Run Step new ls s) {i : Nat} {t : EventLoopThread F}
    (ht : s.threads[i]? = some t) : t.InStep := by
  obtain ⟨acts, hacts⟩ := thread_run hrun ht
  exact hacts.invariant EventLoopThread.inStep_new fun _ _ _ h hstep => h.step hstep

/-- The threads whose loops the pool has are through with their callback. -/
def Ready (s : EventLoopThreadPool F) : Prop :=
  ∀ (i : Nat) (t : EventLoopThread F), i < s.loops.length → s.threads[i]? = some t →
    t.thread.initialized = true

theorem Rotation.length_le_threads (h : s.Rotation) : s.loops.length ≤ s.threads.length := by
  have hstage := h.stage
  rw [Stage] at hstage
  split at hstage
  · exact Nat.le_of_eq (hstage.loops.trans hstage.threads.symm)
  · have := hstage.loops
    have := hstage.threads
    omega
  all_goals exact Nat.le_of_eq hstage.threads.symm

theorem Ready.step (h : s.Ready) (hrun : Run Step new ls s) (hstep : Step s e s') :
    s'.Ready := by
  have hrotation := rotation_of_run hrun
  have hle := hrotation.length_le_threads
  have hold : ∀ (i : Nat) (t' : EventLoopThread F), i < s.loops.length →
      s'.threads[i]? = some t' → t'.thread.initialized = true := by
    intro i t' hi ht'
    rcases hstep.thread_cases ht' with hkept | ⟨hnew, -⟩ | ⟨t, a, ht, hthread, -⟩
    · exact h i t' hi hkept
    · omega
    · exact EventLoopThread.initialized_step (inStep_of_run hrun ht) hthread (h i t hi ht)
  rcases hstep.loops_cases with hloops | ⟨cb, j, t, u, hphase, ht, hthread, hloops, hthreads⟩
  · intro i t' hi ht'
    rw [hloops] at hi
    exact hold i t' hi ht'
  · intro i t' hi ht'
    rw [hloops, List.length_append, List.length_singleton] at hi
    rcases Nat.lt_or_ge i s.loops.length with hlt | hge
    · exact hold i t' hlt ht'
    · have hstage := hrotation.stage
      rw [Stage, hphase] at hstage
      have hj : j = i := by
        have := hstage.loops
        omega
      subst hj
      rw [hthreads, List.getElem?_set_self (List.getElem?_eq_some_iff.mp ht).1] at ht'
      cases ht'
      -- `startLoop` has seen the pointer, which is set after the callback
      cases hthread with
      | started howner hset => exact (inStep_of_run hrun ht).initialized hset

theorem ready_of_run (hrun : Run Step new ls s) : s.Ready := by
  have h : Run Step new ls s ∧ s.Ready := by
    refine hrun.trace_invariant (I := fun ls s => Run Step new ls s ∧ s.Ready)
      ⟨.nil, fun i t hi => absurd hi (Nat.not_lt_zero i)⟩ ?_
    intro ls s e s' h hstep
    exact ⟨h.1.snoc hstep, h.2.step h.1 hstep⟩
  exact h.2

/-- `numThreads_` after an event. -/
def Event.threadNum (n : Int) : Event F → Int
  | .setThreadNum m => m
  | _ => n

/-- What the calls of `setThreadNum` have left in `numThreads_`. -/
def threadNum (ls : List (Event F)) : Int := ls.foldl Event.threadNum 0

theorem threadNum_append (ls : List (Event F)) (e : Event F) :
    threadNum (ls ++ [e]) = e.threadNum (threadNum ls) := List.foldl_append

/-- `start` has been called where `n` threads were asked for. -/
def StartedWith (ls : List (Event F)) (n : Int) : Prop :=
  ∃ before cb after, ls = before ++ .start cb :: after ∧ threadNum before = n

structure Noted (ls : List (Event F)) (s : EventLoopThreadPool F) : Prop where
  numThreads : s.numThreads = threadNum ls
  asked : s.started = true → StartedWith ls s.asked

theorem StartedWith.append {n : Int} (h : StartedWith ls n) (e : Event F) :
    StartedWith (ls ++ [e]) n := by
  obtain ⟨before, cb, after, rfl, hn⟩ := h
  exact ⟨before, cb, after ++ [e], by rw [List.append_assoc, List.cons_append], hn⟩

theorem Noted.step (h : Noted ls s) (hstep : Step s e s') : Noted (ls ++ [e]) s' := by
  have hnum : e.threadNum s.numThreads = threadNum (ls ++ [e]) := by
    rw [threadNum_append, h.numThreads]
  have hasked := fun hstarted => (h.asked hstarted).append e
  rw [Step] at hstep
  generalize hr : (Except.ok s' : Except Fault (EventLoopThreadPool F)) = r at hstep
  cases hstep with
  | setThreadNum hphase hn =>
      cases hr
      exact ⟨hnum, hasked⟩
  | start hphase =>
      obtain ⟨-, rfl⟩ := start_eq hr.symm
      exact ⟨hnum, fun _ => ⟨ls, _, [], rfl, h.numThreads.symm⟩⟩
  | getNextLoop hphase =>
      obtain ⟨⟨loop, s₁⟩, hnext, hrest⟩ := bind_ok_inv hr.symm
      cases hrest
      obtain ⟨-, n, rfl⟩ := getNextLoop_inv hnext
      exact ⟨hnum, hasked⟩
  | getLoopForHash hphase | getAllLoops hphase =>
      obtain ⟨u, -, hrest⟩ := bind_ok_inv hr.symm
      cases hrest
      exact ⟨hnum, hasked⟩
  | _ =>
      cases hr
      exact ⟨hnum, hasked⟩

theorem noted_of_run (hrun : Run Step new ls s) : Noted ls s :=
  hrun.trace_invariant ⟨rfl, nofun⟩ fun _ _ _ _ h hstep => h.step hstep

/-- Among the first `m` turns, a loop has as many as any other, or one more. -/
theorem count_turn {n i : Nat} (hi : i < n) (m : Nat) :
    ((List.range m).map (turn n)).count (some i) = m / n + if i < m % n then 1 else 0 := by
  have hpos : 0 < n := by omega
  have hcount := Nat.count_modEq_card m hpos i
  rw [Nat.mod_eq_of_lt hi] at hcount
  rw [← hcount, List.count, List.countP_map, Nat.count]
  refine List.countP_congr ?_
  intro k hk
  simp [turn_pos hpos, Nat.ModEq, Nat.mod_eq_of_lt hi]

theorem Rotation.getLoopForHash (h : s.Rotation) (hashCode : Nat) :
    s.getLoopForHash hashCode = .ok (turn s.loops.length hashCode) := by
  rw [EventLoopThreadPool.getLoopForHash]
  rcases Nat.eq_zero_or_pos s.loops.length with hzero | hpos
  · rw [if_pos (List.length_eq_zero_iff.mp hzero), hzero, turn_zero]
  · rw [if_neg (List.length_pos_iff.mp hpos), h.loopAt (Nat.mod_lt _ hpos), ok_bind, turn_pos hpos]
    rfl

/-- Once `start` has returned, or calls its callback, the pool has as many loops as were
asked for when it was called, each through with its callback. The calls of `getNextLoop`
give them in turn, so that any two have been given equally often or one once more, the
same hash gives the same loop, and only a second `start` has no result. -/
theorem loops_in_turn (hrun : Run Step new ls s) (hphase : s.phase.userCode = true)
    (hstarted : s.started = true) : ∃ n : Nat, ∃ asked : Int, n = asked.toNat ∧
    StartedWith ls asked ∧ s.loops = List.range n ∧
    (∀ i < n, ∃ t, s.threads[i]? = some t ∧ t.thread.initialized = true) ∧
    s.given = (List.range s.given.length).map (turn n) ∧
    (∀ i < n, s.given.count (some i) =
      s.given.length / n + if i < s.given.length % n then 1 else 0) ∧
    (∀ hashCode, s.getLoopForHash hashCode = .ok (turn n hashCode)) ∧
    ∀ e r, Exec s e r → (∀ cb, e ≠ .start cb) → ∃ s', r = .ok s' := by
  have h := rotation_of_run hrun
  have hsettled := (stage_iff (PoolPhase.spawning_of_userCode hphase)).mp h.stage
  have hlength := hsettled.loops
  rw [if_pos hstarted] at hlength
  have hloops := h.loops
  have hgiven := h.given
  rw [hlength] at hloops hgiven
  refine ⟨s.asked.toNat, s.asked, rfl, (noted_of_run hrun).asked hstarted, hloops, ?_, hgiven,
    ?_, ?_, ?_⟩
  · intro i hi
    have hthread : i < s.threads.length := by
      have := hsettled.threads
      omega
    have ht := List.getElem?_eq_getElem hthread
    exact ⟨_, ht, ready_of_run hrun i _ (by omega) ht⟩
  · intro i hi
    rw [hgiven, count_turn hi, List.length_map, List.length_range]
  · intro hashCode
    rw [h.getLoopForHash, hlength]
  · intro e r hexec hstart
    cases hexec with
    | start => exact absurd rfl (hstart _)
    | getNextLoop =>
        rw [h.getNextLoop hstarted]
        exact ⟨_, rfl⟩
    | getLoopForHash =>
        rw [h.getLoopForHash]
        exact ⟨_, rfl⟩
    | getAllLoops =>
        rw [getAllLoops, require_of_true hstarted]
        exact ⟨_, rfl⟩
    | _ => exact ⟨_, rfl⟩

/-- Two threads, each of which has published its loop, and three calls. -/
theorem two_threads : ∃ s : EventLoopThreadPool Nat, ∃ ls, Run Step new ls s ∧
    s.phase.userCode = true ∧ s.started = true ∧ s.loops.length = 2 ∧ s.given.length = 3 := by
  have hnum := run_then (Run.nil : Run Step (new : EventLoopThreadPool Nat) [] _)
    (.setThreadNum 2) (.setThreadNum rfl (by decide)) rfl
  have hstart := run_then hnum (.start false) (.start rfl) rfl
  have hspawn := run_then hstart .spawn (.spawn rfl (by decide) (.startLoop rfl)) rfl
  have hpublish := run_then hspawn (.thread 0 .publish) (.thread rfl rfl (.publish rfl)) rfl
  have hfirst := run_then hpublish .startLoop (.startLoop rfl rfl (.started rfl rfl)) rfl
  have hspawn := run_then hfirst .spawn (.spawn rfl (by decide) (.startLoop rfl)) rfl
  have hpublish := run_then hspawn (.thread 1 .publish) (.thread rfl rfl (.publish rfl)) rfl
  have hsecond := run_then hpublish .startLoop (.startLoop rfl rfl (.started rfl rfl)) rfl
  have hspawned := run_then hsecond .spawned (.spawned rfl (by decide)) rfl
  have hone := run_then hspawned .getNextLoop (.getNextLoop rfl) rfl
  have htwo := run_then hone .getNextLoop (.getNextLoop rfl) rfl
  exact ⟨_, _, run_then htwo .getNextLoop (.getNextLoop rfl) rfl, rfl, rfl, rfl, rfl⟩

theorem loops_in_turn_two : ∃ s : EventLoopThreadPool Nat, s.loops = [0, 1] ∧
    s.given = [some 0, some 1, some 0] ∧ s.getLoopForHash 7 = .ok (some 1) := by
  obtain ⟨s, ls, hrun, hphase, hstarted, hlength, hcalls⟩ := two_threads
  obtain ⟨n, asked, -, -, hloops, -, hgiven, -, hhash, -⟩ := loops_in_turn hrun hphase hstarted
  have hn : n = 2 := by
    rw [hloops, List.length_range] at hlength
    exact hlength
  subst hn
  rw [hcalls] at hgiven
  exact ⟨s, hloops, hgiven, hhash 7⟩

end EventLoopThreadPool
end ProtoRpc
