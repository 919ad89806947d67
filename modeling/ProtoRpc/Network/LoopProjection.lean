import ProtoRpc.Network.ConnectionSteps
import ProtoRpc.Network.IoLoop

/-!
One connection out of a loop with many. To it the others are channels of which something
is asked, and functors of others in the queue; so what it goes through in a run of the
loop is a run of `Connection`, in which the environment does what the others do. Every
result about the runs of a single connection is one about each connection of a loop.
-/
namespace ProtoRpc
open Transition

namespace Poller
variable {C : Type} [DecidableEq C] {chan : C} {p p' : Poller C}

/-- The poller was called for the channel once at most. -/
def Called (chan : C) (p p' : Poller C) : Prop :=
  p' = p ∨ ∃ call : Call C, call.channel = chan ∧ Step p call p'

theorem called_interestOp (h : p.Agrees) {op : InterestOp} (hp : p.interestOp chan op = .ok p') :
    Called chan p p' :=
  Or.inr ⟨.interest chan op, rfl, fun _ => sole_of_interestOp h hp, hp⟩

theorem called_remove (h : p.Agrees) (hp : p.remove chan = .ok p') : Called chan p p' :=
  Or.inr ⟨.remove chan, rfl, registered_of_remove h hp, hp⟩

/-- A call leaves every fd, and the other channels altogether. -/
theorem Step.frame (h : p.Agrees) {call : Call C} (hstep : Step p call p') :
    p'.Agrees ∧ (∀ d, (p'.table d).fd = (p.table d).fd) ∧
      ∀ d, d ≠ call.channel → p'.table d = p.table d := by
  obtain ⟨-, hfd, -⟩ := exec_eq h hstep.1
  obtain ⟨hagrees, ctls, rfl⟩ := hstep.become h
  have hchannel : (call.after p).1 = call.channel := by cases call <;> rfl
  rw [hchannel] at hfd
  refine ⟨hagrees, ?_, ?_⟩
  · intro d
    rw [hchannel]
    by_cases hd : d = call.channel
    · subst hd
      simpa [Poller.become] using hfd
    · simp [Poller.become, Function.update_of_ne hd]
  · intro d hd
    rw [hchannel]
    exact Function.update_of_ne hd _ _

theorem Called.frame (h : p.Agrees) (hcalled : Called chan p p') :
    p'.Agrees ∧ (∀ d, (p'.table d).fd = (p.table d).fd) ∧
      ∀ d, d ≠ chan → p'.table d = p.table d := by
  rcases hcalled with rfl | ⟨call, rfl, hstep⟩
  · exact ⟨h, fun _ => rfl, fun _ _ => rfl⟩
  · exact hstep.frame h

end Poller

namespace ServerConnection
variable {C : Type} [DecidableEq C] {chan : C} {s s' : ServerConnection C}

/-- What an operation on a connection leaves as it was: the round of the loop and, but
for one call, the poller. -/
structure Local (chan : C) (s s' : ServerConnection C) : Prop where
  poller : s.poller.Agrees → Poller.Called chan s.poller s'.poller
  phase : s'.phase = s.phase
  activeChannels : s'.activeChannels = s.activeChannels
  currentActiveChannel : s'.currentActiveChannel = s.currentActiveChannel
  remaining : s'.remaining = s.remaining
  functors : s'.functors = s.functors
  accepted : s.accepted = true → s'.accepted = true
  destroyed : s.destroyed ≤ s'.destroyed

theorem local_adopt {c : TcpConnection} (hs : s.adopt chan c = .ok s') : Local chan s s' := by
  obtain ⟨p, hfollows, rfl⟩ := adopt_inv hs
  refine ⟨?_, rfl, rfl, rfl, rfl, rfl, id, Nat.le_refl _⟩
  intro hagrees
  rcases hfollows with ⟨-, rfl⟩ | ⟨-, hp⟩
  · exact Or.inl rfl
  · exact Poller.called_interestOp hagrees hp

theorem local_handleClose (hs : s.handleClose chan = .ok s') : Local chan s s' := by
  obtain ⟨-, p, hp, rfl⟩ := handleClose_inv hs
  exact ⟨fun hagrees => Poller.called_interestOp hagrees hp, rfl, rfl, rfl, rfl, rfl, id,
    Nat.le_refl _⟩

theorem local_connectEstablished (hs : s.connectEstablished chan = .ok s') : Local chan s s' := by
  obtain ⟨-, p, hp, rfl⟩ := connectEstablished_inv hs
  exact ⟨fun hagrees => Poller.called_interestOp hagrees hp, rfl, rfl, rfl, rfl, rfl, id,
    Nat.le_refl _⟩

theorem local_connectDestroyed (hs : s.connectDestroyed chan = .ok s') : Local chan s s' := by
  rw [connectDestroyed] at hs
  split at hs
  · obtain ⟨s₁, hs₁, hrest⟩ := bind_ok_inv hs
    obtain ⟨p, hp, rfl⟩ := interestOp_inv hs₁
    cases hrest
    exact ⟨fun hagrees => Poller.called_interestOp hagrees hp, rfl, rfl, rfl, rfl, rfl, id,
      Nat.le_succ _⟩
  · cases hs
    exact ⟨fun _ => Or.inl rfl, rfl, rfl, rfl, rfl, rfl, id, Nat.le_succ _⟩

theorem local_removeConnectionInLoop (hs : s.removeConnectionInLoop = .ok s') :
    Local chan s s' := by
  obtain rfl := removeConnectionInLoop_inv hs
  exact ⟨fun _ => Or.inl rfl, rfl, rfl, rfl, rfl, rfl, id, Nat.le_refl _⟩

theorem local_closeCallback {oneLoop : Bool} (hs : s.closeCallback oneLoop = .ok s') :
    Local chan s s' := by
  cases oneLoop with
  | true =>
      have hlocal : Local chan _ s' := local_removeConnectionInLoop hs
      exact { hlocal with }
  | false =>
      cases hs
      exact ⟨fun _ => Or.inl rfl, rfl, rfl, rfl, rfl, rfl, id, Nat.le_refl _⟩

theorem local_removeChannel (hs : s.removeChannel chan = .ok s') : Local chan s s' := by
  obtain ⟨p, hp, rfl⟩ := removeChannel_inv hs
  exact ⟨fun hagrees => Poller.called_remove hagrees hp, rfl, rfl, rfl, rfl, rfl, id,
    Nat.le_refl _⟩

theorem local_handleRead {r : Buffer.ReadResult} (hs : s.handleRead chan r = .ok s') :
    Local chan s s' := by
  obtain ⟨⟨n, input⟩, -, hrest⟩ := bind_ok_inv hs
  dsimp only at hrest
  split at hrest
  · cases hrest
    exact ⟨fun _ => Or.inl rfl, rfl, rfl, rfl, rfl, rfl, id, Nat.le_refl _⟩
  · split at hrest
    · have hlocal := local_handleClose hrest
      exact { hlocal with }
    · cases hrest
      exact ⟨fun _ => Or.inl rfl, rfl, rfl, rfl, rfl, rfl, id, Nat.le_refl _⟩

theorem local_runFunctor {r : WriteResult} {f : IoFunctor}
    (hs : s.runFunctor chan r f = .ok s') : Local chan s s' := by
  cases f with
  | connectEstablished => exact local_connectEstablished hs
  | connectDestroyed => exact local_connectDestroyed hs
  | other =>
      cases hs
      exact ⟨fun _ => Or.inl rfl, rfl, rfl, rfl, rfl, rfl, id, Nat.le_refl _⟩
  | own f =>
      cases f with
      | forceCloseInLoop =>
          simp only [runFunctor] at hs
          split at hs
          · exact local_handleClose hs
          · cases hs
            exact ⟨fun _ => Or.inl rfl, rfl, rfl, rfl, rfl, rfl, id, Nat.le_refl _⟩
      | _ =>
          obtain ⟨c, -, hs⟩ := bind_ok_inv hs
          exact local_adopt hs

theorem local_runFrame {oneLoop : Bool} {read : Buffer.ReadResult} {write : WriteResult}
    {f : Frame} (hs : s.runFrame chan oneLoop read write f = .ok s') : Local chan s s' := by
  cases f with
  | close => exact local_handleClose hs
  | read => exact local_handleRead hs
  | write =>
      obtain ⟨c, -, hs⟩ := bind_ok_inv hs
      exact local_adopt hs
  | closeCallback => exact local_closeCallback hs
  | remove => exact local_removeChannel hs
  | _ =>
      cases hs
      exact ⟨fun _ => Or.inl rfl, rfl, rfl, rfl, rfl, rfl, id, Nat.le_refl _⟩

theorem local_newConnection {oneLoop : Bool} (hs : s.newConnection chan oneLoop = .ok s') :
    Local chan s s' := by
  cases oneLoop with
  | true =>
      have hlocal := local_connectEstablished hs
      exact { hlocal with accepted := fun _ => hlocal.accepted rfl }
  | false =>
      cases hs
      exact ⟨fun _ => Or.inl rfl, rfl, rfl, rfl, rfl, rfl, fun _ => rfl, Nat.le_refl _⟩

end ServerConnection

namespace Connection
variable {C : Type} [DecidableEq C] {chan : C} {oneLoop : Bool} {v v' : Connection C}

/-- `v` as one of several users of the queue: `tasks` is left of the batch, and `pending`
was queued before. -/
def behind (v : Connection C) (tasks pending : List ConnTask) : Connection C :=
  { v with
    pendingTasks := pending ++ v.pendingTasks
    tasks := tasks }

/-- The events that are neither of the loop nor of anything else in it. -/
def Event.ofMember : Event C → Bool
  | .server .newConnection | .server (.send _ _ _) | .server (.shutdown _)
  | .server (.forceClose _) | .server (.retrieve _) | .server (.frame _ _)
  | .server .removeConnectionInLoop | .startRead _ | .stopRead _ | .forceCloseWithDelay => true
  | _ => false

omit [DecidableEq C] in
theorem behind_collect (v : Connection C) (s : ServerConnection C) (tasks pending : List ConnTask) :
    (v.behind tasks pending).collect s = (v.collect s).behind tasks pending := by
  simp [behind, collect]

theorem behind_startReadInLoop (tasks pending : List ConnTask) :
    (v.behind tasks pending).startReadInLoop chan = (do
      let v' ← v.startReadInLoop chan
      return v'.behind tasks pending) := by
  rw [startReadInLoop, startReadInLoop]
  change (if (!v.reading || !v.isReading chan) = true then _ else _) = _
  split
  · change (do let s ← v.server.interestOp chan .enableReading; _) = _
    cases v.server.interestOp chan .enableReading with
    | error f => rfl
    | ok s => rfl
  · rfl

theorem behind_stopReadInLoop (tasks pending : List ConnTask) :
    (v.behind tasks pending).stopReadInLoop chan = (do
      let v' ← v.stopReadInLoop chan
      return v'.behind tasks pending) := by
  rw [stopReadInLoop, stopReadInLoop]
  change (if (v.reading || v.isReading chan) = true then _ else _) = _
  split
  · change (do let s ← v.server.interestOp chan .disableReading; _) = _
    cases v.server.interestOp chan .disableReading with
    | error f => rfl
    | ok s => rfl
  · rfl

theorem behind_runTask (r : WriteResult) (t : ConnTask) (tasks pending : List ConnTask) :
    (v.behind tasks pending).runTask chan r t = (do
      let v' ← v.runTask chan r t
      return v'.behind tasks pending) := by
  cases t with
  | io f =>
      change (do let s ← v.server.runFunctor chan r f; return (v.behind tasks pending).collect s) = _
      rw [runTask]
      cases v.server.runFunctor chan r f with
      | error f => rfl
      | ok s => exact congrArg Except.ok (behind_collect v s tasks pending)
  | startReadInLoop => exact behind_startReadInLoop tasks pending
  | stopReadInLoop => exact behind_stopReadInLoop tasks pending

theorem Exec.trans {e : Event C} {r r' : Except Fault (Connection C)}
    (hexec : Exec chan oneLoop v e r) (hr : r = r') : Exec chan oneLoop v e r' := hr ▸ hexec

omit [DecidableEq C] in
theorem behind_bind_collect (r : Except Fault (ServerConnection C))
    (tasks pending : List ConnTask) :
    (do let s ← r; return (v.behind tasks pending).collect s) = (do
      let v' ← (do let s ← r; return v.collect s)
      return v'.behind tasks pending) := by
  cases r with
  | error f => rfl
  | ok s => exact congrArg Except.ok (behind_collect v s tasks pending)

/-- What a connection does does not depend on the queue. -/
theorem Exec.behind {e : Event C} (he : e.ofMember = true) {r : Except Fault (Connection C)}
    (hexec : Exec chan oneLoop v e r) (tasks pending : List ConnTask) :
    Exec chan oneLoop (v.behind tasks pending) e (do
      let v' ← r
      return v'.behind tasks pending) := by
  cases hexec with
  | server hqueue hexec =>
      exact (Exec.server (w := v.behind tasks pending) hqueue hexec).trans
        (behind_bind_collect _ tasks pending)
  | startRead hexposed hown =>
      refine (Exec.startRead (w := v.behind tasks pending) hexposed hown).trans ?_
      rename_i own
      cases own with
      | true => exact behind_startReadInLoop tasks pending
      | false => simp [Connection.startRead, queueInLoop, Connection.behind, ok_bind]
  | stopRead hexposed hown =>
      refine (Exec.stopRead (w := v.behind tasks pending) hexposed hown).trans ?_
      rename_i own
      cases own with
      | true => exact behind_stopReadInLoop tasks pending
      | false => simp [Connection.stopRead, queueInLoop, Connection.behind, ok_bind]
  | forceCloseWithDelay =>
      exact (Exec.forceCloseWithDelay (w := v.behind tasks pending)).trans
        (behind_bind_collect _ tasks pending)
  | _ => cases he

theorem local_startReadInLoop (hv : v.startReadInLoop chan = .ok v') :
    ServerConnection.Local chan v.server v'.server := by
  rcases startReadInLoop_inv hv with ⟨-, p, hp, rfl⟩ | ⟨-, rfl⟩
  · exact ⟨fun hagrees => Poller.called_interestOp hagrees hp, rfl, rfl, rfl, rfl, rfl, id,
      Nat.le_refl _⟩
  · exact ⟨fun _ => Or.inl rfl, rfl, rfl, rfl, rfl, rfl, id, Nat.le_refl _⟩

theorem local_stopReadInLoop (hv : v.stopReadInLoop chan = .ok v') :
    ServerConnection.Local chan v.server v'.server := by
  rcases stopReadInLoop_inv hv with ⟨-, p, hp, rfl⟩ | ⟨-, rfl⟩
  · exact ⟨fun hagrees => Poller.called_interestOp hagrees hp, rfl, rfl, rfl, rfl, rfl, id,
      Nat.le_refl _⟩
  · exact ⟨fun _ => Or.inl rfl, rfl, rfl, rfl, rfl, rfl, id, Nat.le_refl _⟩

theorem local_runTask {r : WriteResult} {t : ConnTask} (hv : v.runTask chan r t = .ok v') :
    ServerConnection.Local chan v.server v'.server := by
  cases t with
  | io f =>
      obtain ⟨s, hs, hv'⟩ := bind_ok_inv hv
      cases hv'
      have hlocal := ServerConnection.local_runFunctor hs
      exact { hlocal with }
  | startReadInLoop => exact local_startReadInLoop hv
  | stopReadInLoop => exact local_stopReadInLoop hv

theorem Exec.local {e : Event C} (he : e.ofMember = true)
    (hexec : Exec chan oneLoop v e (.ok v')) : ServerConnection.Local chan v.server v'.server := by
  generalize hr : Except.ok v' = result at hexec
  cases hexec with
  | server hqueue hexec =>
      obtain ⟨s, rfl, hv'⟩ := bind_ok_inv hr.symm
      cases hv'
      suffices hlocal : ServerConnection.Local chan v.server s from { hlocal with }
      generalize hs : Except.ok s = result at hexec
      cases hexec with
      | newConnection => exact ServerConnection.local_newConnection hs.symm
      | send =>
          obtain ⟨c, -, hs⟩ := bind_ok_inv hs.symm
          exact ServerConnection.local_adopt hs
      | shutdown => exact ServerConnection.local_adopt hs.symm
      | forceClose => exact ServerConnection.local_adopt hs.symm
      | retrieve =>
          obtain ⟨input, -, hs⟩ := bind_ok_inv hs.symm
          cases hs
          exact ⟨fun _ => Or.inl rfl, rfl, rfl, rfl, rfl, rfl, id, Nat.le_refl _⟩
      | frame =>
          have hlocal := ServerConnection.local_runFrame hs.symm
          exact { hlocal with }
      | removeConnectionInLoop =>
          have hlocal : ServerConnection.Local chan _ s :=
            ServerConnection.local_removeConnectionInLoop hs.symm
          exact { hlocal with }
      | _ => cases he
  | startRead =>
      rename_i own hexposed hown
      cases own with
      | true => exact local_startReadInLoop hr.symm
      | false =>
          cases hr
          exact ⟨fun _ => Or.inl rfl, rfl, rfl, rfl, rfl, rfl, id, Nat.le_refl _⟩
  | stopRead =>
      rename_i own hexposed hown
      cases own with
      | true => exact local_stopReadInLoop hr.symm
      | false =>
          cases hr
          exact ⟨fun _ => Or.inl rfl, rfl, rfl, rfl, rfl, rfl, id, Nat.le_refl _⟩
  | forceCloseWithDelay =>
      obtain ⟨s, hs, hv'⟩ := bind_ok_inv hr.symm
      cases hv'
      have hlocal := ServerConnection.local_adopt hs
      exact { hlocal with }
  | _ => cases he

/-- What the server has queued is in the queue of the connection between steps. -/
theorem collected_startReadInLoop (hnone : v.server.pendingFunctors = [])
    (hv : v.startReadInLoop chan = .ok v') : v'.server.pendingFunctors = [] := by
  rcases startReadInLoop_inv hv with ⟨-, p, hp, rfl⟩ | ⟨-, rfl⟩ <;> exact hnone

theorem collected_stopReadInLoop (hnone : v.server.pendingFunctors = [])
    (hv : v.stopReadInLoop chan = .ok v') : v'.server.pendingFunctors = [] := by
  rcases stopReadInLoop_inv hv with ⟨-, p, hp, rfl⟩ | ⟨-, rfl⟩ <;> exact hnone

theorem collected_runTask (hnone : v.server.pendingFunctors = []) {r : WriteResult} {t : ConnTask}
    (hv : v.runTask chan r t = .ok v') : v'.server.pendingFunctors = [] := by
  cases t with
  | io f =>
      obtain ⟨s, hs, hv'⟩ := bind_ok_inv hv
      cases hv'
      rfl
  | startReadInLoop => exact collected_startReadInLoop hnone hv
  | stopReadInLoop => exact collected_stopReadInLoop hnone hv

theorem Exec.collected {e : Event C} (he : e.ofMember = true)
    (hexec : Exec chan oneLoop v e (.ok v')) (hnone : v.server.pendingFunctors = []) :
    v'.server.pendingFunctors = [] := by
  generalize hr : Except.ok v' = result at hexec
  cases hexec with
  | server hqueue hexec =>
      obtain ⟨s, rfl, hv'⟩ := bind_ok_inv hr.symm
      cases hv'
      rfl
  | startRead =>
      rename_i own hexposed hown
      cases own with
      | true => exact collected_startReadInLoop hnone hr.symm
      | false =>
          cases hr
          exact hnone
  | stopRead =>
      rename_i own hexposed hown
      cases own with
      | true => exact collected_stopReadInLoop hnone hr.symm
      | false =>
          cases hr
          exact hnone
  | forceCloseWithDelay =>
      obtain ⟨s, hs, hv'⟩ := bind_ok_inv hr.symm
      cases hv'
      rfl
  | _ => cases he

theorem step_of_eq {e : Event C} {v₁ v₂ : Connection C} (hexec : Exec chan oneLoop v e (.ok v₁))
    (hsame : v₁ = v₂) : Step chan oneLoop v e v₂ := hexec.trans (congrArg Except.ok hsame)

/-- The environment of a connection: the poller is as `p` says, and others have queued `n`
functors. -/
def elsewhere (v : Connection C) (p : Poller C) (n : Nat) : Connection C :=
  { v with
    server := { v.server with poller := p }
    pendingTasks := v.pendingTasks ++ List.replicate n (.io .other) }

theorem elsewhere_otherFunctor (hnone : v.server.pendingFunctors = []) (p : Poller C) (n : Nat) :
    Step chan oneLoop (v.elsewhere p n) (.server .otherFunctor) (v.elsewhere p (n + 1)) := by
  have hexec : Exec chan oneLoop (v.elsewhere p n) (.server .otherFunctor) _ :=
    .server rfl .otherFunctor
  refine step_of_eq hexec ?_
  simp [elsewhere, collect, hnone, List.replicate_succ']

/-- An event as the connection and its loop see it; what others do is not seen. -/
def Event.inside : Event C → Option (Event C)
  | .server (.otherChannel _) | .server .otherFunctor => none
  | e => some e

omit [DecidableEq C] in
theorem Event.inside_of_member {e : Event C} (he : e.ofMember = true) : e.inside = some e := by
  cases e with
  | server e => cases e <;> first | rfl | cases he
  | _ => rfl

/-- A condition on the steps of the connection and its loop. -/
def Overlooks (cond : Connection C → Event C → Prop) : Prop :=
  ∀ v e, e.inside = none → cond v e

section
variable {cond : Connection C → Event C → Prop}

theorem elsewhere_otherChannel (hcond : Overlooks cond) (hnone : v.server.pendingFunctors = [])
    {d : C} {p : Poller C} (hd : d ≠ chan) (hcalled : Poller.Called d v.server.poller p)
    (hfd : v.server.accepted = true → v.server.destroyed = 0 →
      (v.server.poller.table d).fd ≠ (v.server.poller.table chan).fd) :
    ∃ events, Run (Guarded (Step chan oneLoop) cond) v events (v.elsewhere p 0) ∧
      events.filterMap Event.inside = [] := by
  rcases hcalled with rfl | ⟨call, rfl, hallowed, hp⟩
  · have hsame : v.elsewhere v.server.poller 0 = v := by simp [elsewhere]
    rw [hsame]
    exact ⟨[], .nil, rfl⟩
  · refine ⟨[.server (.otherChannel call)], .snoc (.nil (s := v)) ⟨hcond _ _ rfl, ?_⟩, rfl⟩
    have hexec : Exec chan oneLoop v (.server (.otherChannel call)) _ :=
      .server rfl (.otherChannel hd hallowed hfd)
    rw [hp] at hexec
    refine step_of_eq hexec ?_
    simp [elsewhere, collect, hnone]

theorem elsewhere_run (hcond : Overlooks cond) (hnone : v.server.pendingFunctors = [])
    {d : C} {p : Poller C} (hd : d ≠ chan) (hcalled : Poller.Called d v.server.poller p)
    (hfd : v.server.accepted = true → v.server.destroyed = 0 →
      (v.server.poller.table d).fd ≠ (v.server.poller.table chan).fd) (n : Nat) :
    ∃ events, Run (Guarded (Step chan oneLoop) cond) v events (v.elsewhere p n) ∧
      events.filterMap Event.inside = [] := by
  induction n with
  | zero => exact elsewhere_otherChannel hcond hnone hd hcalled hfd
  | succ n ih =>
      obtain ⟨events, hrun, hseen⟩ := ih
      refine ⟨_, hrun.snoc ⟨hcond _ _ rfl, elsewhere_otherFunctor hnone p n⟩, ?_⟩
      rw [List.filterMap_append, hseen]
      rfl

end

end Connection

namespace IoLoop
open Connection (behind elsewhere)
variable {C : Type} [DecidableEq C] {oneLoop : C → Bool} {c d : C} {w w' : IoLoop C}

/-- What a task in the queue of the loop is to the connection on channel `c`. -/
def share (c : C) (task : C × ConnTask) : ConnTask :=
  if task.1 = c then task.2 else .io .other

/-- The connection on channel `c`, with the queue of the loop as it sees it. -/
def project (w : IoLoop C) (c : C) : Connection C :=
  (w.view c).behind (w.tasks.map (share c)) (w.pendingTasks.map (share c))

theorem map_share_self (c : C) (tasks : List ConnTask) :
    (tasks.map fun t => (c, t)).map (share c) = tasks := by
  simp [share, Function.comp_def]

theorem map_share_of_ne (hd : d ≠ c) (tasks : List ConnTask) :
    (tasks.map fun t => (d, t)).map (share c) = List.replicate tasks.length (.io .other) := by
  simp [share, Function.comp_def, hd, List.map_const']

theorem project_put_self {v : Connection C}
    (hlocal : ServerConnection.Local c (w.view c).server v.server)
    (hnone : v.server.pendingFunctors = []) :
    (w.put c v).project c = v.behind (w.tasks.map (share c)) (w.pendingTasks.map (share c)) := by
  obtain ⟨server, reading, pendingTasks, tasks⟩ := v
  obtain ⟨-, hphase, hactive, hcurrent, hremaining, hfunctors, -, -⟩ := hlocal
  cases server
  cases hphase
  cases hactive
  cases hcurrent
  cases hremaining
  cases hfunctors
  cases hnone
  simp only [project, behind, view, put, List.map_append, map_share_self, Function.update_self,
    List.append_nil]

theorem project_put_of_ne (hd : d ≠ c) (v : Connection C) :
    (w.put d v).project c = (w.project c).elsewhere v.server.poller v.pendingTasks.length := by
  simp only [project, behind, elsewhere, view, put, List.map_append, map_share_of_ne hd,
    Function.update_of_ne hd.symm, List.append_nil]

/-- An event of the loop as the connection on channel `c` sees it. -/
def Event.inside (c : C) : Event C → Option (Connection.Event C)
  | .member d e => if d = c then some e else none
  | .poll capacity reports => some (.server (.poll capacity reports))
  | .handleEvent => some (.server .handleEvent)
  | .doPendingFunctors => some .doPendingFunctors
  | .task r => some (.task r)
  | .endBatch => some .endBatch
  | .otherChannel _ => none

/-- A step of the loop, as steps of the connection on channel `c` that meet `cond`. -/
def Seen (oneLoop : C → Bool) (c : C) (cond : Connection C → Connection.Event C → Prop)
    (w : IoLoop C) (e : Event C) (w' : IoLoop C) : Prop :=
  ∃ events, Run (Guarded (Connection.Step c (oneLoop c)) cond) (w.project c) events
      (w'.project c) ∧
    events.filterMap Connection.Event.inside = (e.inside c).toList

end IoLoop
end ProtoRpc
