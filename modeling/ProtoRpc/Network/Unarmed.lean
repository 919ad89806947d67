import ProtoRpc.Network.HalfClose

/-!
A connection that is down. Its channel has no interest, no report of it waits and the
kernel has nothing to report; after `connectDestroyed` it is out of the poller. `send`,
`shutdown` and `forceClose` look at the state and leave that as it is. The functors of
`startRead` and `stopRead` do not: they register the channel again. And `handleClose`
of a connection that has stopped reading, and has no output, adds the channel to the
kernel's list with an empty mask.
-/
namespace ProtoRpc

namespace ServerConnection

variable {C : Type} [DecidableEq C] {chan : C} {s s' : ServerConnection C}

structure Disarmed (chan : C) (s : ServerConnection C) : Prop where
  events : (s.poller.table chan).events = .noneEvent
  index : (s.poller.table chan).index ≠ .kAdded
  polled : s.Polled chan 0
  gone : 0 < s.destroyed → .remove ∉ s.todo → (s.poller.table chan).index = .kNew

namespace Disarmed

/-- The channel stays as it is, and no frame comes that closes or leaves that removes. -/
theorem moved (h : s.Disarmed chan) (htable : s'.poller.table chan = s.poller.table chan)
    (hpolled : s'.Polled chan 0) (hdestroyed : s'.destroyed = s.destroyed)
    (hremove : .remove ∈ s.todo → .remove ∈ s'.todo) : s'.Disarmed chan where
  events := by
    rw [htable]
    exact h.events
  index := by
    rw [htable]
    exact h.index
  polled := hpolled
  gone := by
    rw [htable, hdestroyed]
    intro hdone hnone
    exact h.gone hdone fun hmem => hnone (hremove hmem)

theorem popFrame (h : s.Disarmed chan) {f : Frame} {rest : List Frame}
    (htodo : s.todo = f :: rest) (hf : f ≠ .remove) : Disarmed chan { s with todo := rest } := by
  refine h.moved rfl (h.polled.popFrame htodo) rfl ?_
  rw [htodo]
  intro hmem
  rcases List.mem_cons.mp hmem with hhead | hrest
  · exact absurd hhead.symm hf
  · exact hrest

/-- An operation finds the connection down and does not touch the channel. -/
theorem adopt (h : s.Disarmed chan) {c : TcpConnection} (hworks : s.conn.Works c)
    (hstate : s.conn.state = .kDisconnected) (hs : s.adopt chan c = .ok s') :
    s'.Disarmed chan := by
  obtain ⟨p, hfollows, rfl⟩ := adopt_inv hs
  rcases hfollows with ⟨-, rfl⟩ | ⟨hdiffer, -⟩
  · exact h.moved rfl (h.polled.moved rfl rfl (Nat.le_refl _)) rfl id
  · exact absurd (hworks.closed hstate) hdiffer

theorem removeConnectionInLoop (h : s.Disarmed chan) (hs : s.removeConnectionInLoop = .ok s') :
    s'.Disarmed chan := by
  obtain rfl := removeConnectionInLoop_inv hs
  exact h.moved rfl (h.polled.moved rfl rfl (Nat.le_refl _)) rfl id

end Disarmed

theorem disarmed_removeChannel (hagrees : s.poller.Agrees) (hpolled : s.Polled chan 0)
    (hs : s.removeChannel chan = .ok s') : s'.Disarmed chan := by
  obtain ⟨p, hp, rfl⟩ := removeChannel_inv hs
  obtain ⟨hnone, -, hevents, hindex⟩ := Poller.remove_inv hagrees hp
  exact
    { events := hevents.trans hnone
      index := by
        rw [hindex]
        decide
      polled := hpolled.moved rfl rfl (Nat.le_refl _)
      gone := fun _ _ => hindex }

/-- `handleClose` leaves the channel out of the kernel's list where it finds an
interest to drop. -/
theorem disarmed_handleClose_iff {reading : Bool} (hwired : Wired chan s.poller s.conn reading)
    (hpolled : s.Polled chan 0) (hdestroyed : s.destroyed = 0)
    (hs : s.handleClose chan = .ok s') :
    s'.Disarmed chan ↔ (s.poller.table chan).events ≠ .noneEvent := by
  obtain ⟨hopen, p, hp, rfl⟩ := handleClose_inv hs
  obtain ⟨-, hevents, hindex⟩ := Poller.interestOp_inv hwired.agrees hp
  have hup := TcpConnection.ne_down_of_open hopen
  have hadded : (p.table chan).index = .kAdded ↔ (s.poller.table chan).index ≠ .kAdded := by
    rw [hindex, Poller.indexAfter_eq_added]
    exact ⟨fun hnot => hnot rfl, fun hnot _ => hnot⟩
  constructor
  · intro hdisarmed hnone
    exact hdisarmed.index (hadded.mpr (hwired.deleted hup hnone))
  · intro hsome
    exact
      { events := hevents
        index := fun hnot => hadded.mp hnot (hwired.added hsome)
        polled := by
          refine hpolled.moved rfl rfl ?_
          simp [mayClose]
        gone := fun hdone => absurd hdestroyed (Nat.ne_of_gt hdone) }

end ServerConnection

namespace Connection
open Transition

variable {C : Type} [DecidableEq C] {chan : C} {w w' : Connection C} {s : ServerConnection C}

/-- Nothing will call a connection that is down: its channel wants no events, is not in
the list of the kernel, and no report or frame of it is left that could close or read;
and from `connectDestroyed` on it is not in `channels_`. -/
def Unarmed (chan : C) (w : Connection C) : Prop :=
  w.server.conn.state = .kDisconnected →
    (w.server.poller.table chan).events = .noneEvent ∧
    (∀ fd mask, w.server.poller.interest fd ≠ some (mask, chan)) ∧
    chan ∉ w.server.remaining.map Prod.fst ∧
    (∀ f ∈ w.server.todo, f ≠ .close ∧ f ≠ .read) ∧
    (0 < w.server.destroyed → .remove ∉ w.server.todo →
      ∀ fd, w.server.poller.channels fd ≠ some chan)

/-- The step runs `startReadInLoop`. -/
def RunsStartRead (w : Connection C) : Event C → Prop
  | .startRead own => own = true
  | .task _ => w.tasks.head? = some .startReadInLoop
  | _ => False

/-- The step runs `stopReadInLoop`. -/
def RunsStopRead (w : Connection C) : Event C → Prop
  | .stopRead own => own = true
  | .task _ => w.tasks.head? = some .stopReadInLoop
  | _ => False

/-- The step runs `handleClose`. -/
def RunsHandleClose (w : Connection C) : Event C → Prop
  | .server (.frame read _) =>
      w.server.todo.head? = some .close ∨ (w.server.todo.head? = some .read ∧ read = .data [])
  | .task _ => w.tasks.head? = some (.io (.own .forceCloseInLoop)) ∧ w.isOpen
  | _ => False

/-- `startReadInLoop` does not find the connection down, `stopReadInLoop` finds it down
only where it has stopped reading before, and `handleClose` finds an interest. -/
structure Orderly (chan : C) (w : Connection C) (e : Event C) : Prop where
  startRead : w.RunsStartRead e → w.server.conn.state ≠ .kDisconnected
  stopRead : w.RunsStopRead e → w.server.conn.state = .kDisconnected → w.reading = false
  handleClose : w.RunsHandleClose e → (w.server.poller.table chan).events ≠ .noneEvent

theorem unarmed_iff (h : Inv chan w) :
    w.Unarmed chan ↔ (w.server.conn.state = .kDisconnected → w.server.Disarmed chan) := by
  refine forall_congr' ?_
  intro _
  have hinterest : (∀ fd mask, w.server.poller.interest fd ≠ some (mask, chan)) ↔
      (w.server.poller.table chan).index ≠ .kAdded := by
    constructor
    · intro hnone hadded
      exact hnone _ _ ((h.wired.agrees.polled _ _ _).mpr ⟨rfl, hadded, rfl⟩)
    · intro hindex fd mask hsome
      exact hindex ((h.wired.agrees.polled _ _ _).mp hsome).2.1
  have hchannels : (∀ fd, w.server.poller.channels fd ≠ some chan) ↔
      (w.server.poller.table chan).index = .kNew := by
    constructor
    · intro hnone
      by_contra hindex
      exact hnone _ ((h.wired.agrees.listed _ _).mpr ⟨rfl, hindex⟩)
    · intro hindex fd hsome
      exact ((h.wired.agrees.listed _ _).mp hsome).2 hindex
  have hframes : (∀ f ∈ w.server.todo, f ≠ .close ∧ f ≠ .read) ↔
      w.server.todo.countP ServerConnection.mayClose = 0 := by
    rw [List.countP_eq_zero]
    refine forall₂_congr ?_
    intro f _
    cases f <;> simp [ServerConnection.mayClose]
  rw [hinterest, hchannels, hframes]
  constructor
  · rintro ⟨hevents, hindex, hremaining, htodo, hgone⟩
    refine ⟨hevents, hindex, ⟨?_, h.polled.bits, h.polled.remaining⟩, hgone⟩
    rw [htodo, List.count_eq_zero.mpr hremaining]
  · rintro ⟨hevents, hindex, hpolled, hgone⟩
    have hcloses := hpolled.closes
    refine ⟨hevents, hindex, List.count_eq_zero.mp ?_, ?_, hgone⟩
    · omega
    · omega

theorem disarmed_collect (w : Connection C) (s : ServerConnection C) :
    ((w.collect s).server.conn.state = .kDisconnected → (w.collect s).server.Disarmed chan) ↔
      (s.conn.state = .kDisconnected → s.Disarmed chan) := by
  constructor
  · intro h hstate
    have hdisarmed := h hstate
    exact hdisarmed.moved rfl (hdisarmed.polled.moved rfl rfl (Nat.le_refl _)) rfl id
  · intro h hstate
    have hdisarmed := h hstate
    exact hdisarmed.moved rfl (hdisarmed.polled.moved rfl rfl (Nat.le_refl _)) rfl id

/-- `v` is `w` but for the frame or the task that calls `handleClose`, and for what was
read. -/
theorem Inv.handleClose_iff {v : Connection C} (h : Inv chan v)
    (hpolled : v.server.Polled chan 0) (hs : v.server.handleClose chan = .ok s) :
    (s.conn.state = .kDisconnected → s.Disarmed chan) ↔
      (v.server.poller.table chan).events ≠ .noneEvent := by
  obtain ⟨hopen, p, -, hclosed⟩ := ServerConnection.handleClose_inv hs
  have hdown : s.conn.state = .kDisconnected := by
    rw [hclosed]
  rw [← ServerConnection.disarmed_handleClose_iff h.wired hpolled
    (h.chores.not_destroyed (TcpConnection.ne_down_of_open hopen)) hs]
  exact ⟨fun hdisarmed => hdisarmed hdown, fun hdisarmed _ => hdisarmed⟩

theorem disarmed_adopt {v : ServerConnection C}
    (hv : v.conn.state = .kDisconnected → v.Disarmed chan) {c : TcpConnection}
    (hworks : v.conn.Works c) (hs : v.adopt chan c = .ok s) :
    s.conn.state = .kDisconnected → s.Disarmed chan := by
  intro hdown
  obtain ⟨p, -, rfl⟩ := ServerConnection.adopt_inv hs
  have hstate := hworks.keeps.down_iff.mp hdown
  exact (hv hstate).adopt hworks hstate hs

/-- A frame leaves a connection that is down unarmed, and one that closes it where the
channel has an interest. -/
theorem Inv.disarmed_runFrame_iff (h : Inv chan w)
    (hw : w.server.conn.state = .kDisconnected → w.server.Disarmed chan) {oneLoop : Bool}
    {f : Frame} {rest : List Frame} {read : Buffer.ReadResult} {write : WriteResult}
    (htodo : w.server.todo = f :: rest)
    (hwrite : write.Within w.server.conn.outputBuffer.readableBytes)
    (hs : ServerConnection.runFrame chan oneLoop { w.server with todo := rest } read write f =
      .ok s) :
    (s.conn.state = .kDisconnected → s.Disarmed chan) ↔
      (f = .close ∨ (f = .read ∧ read = .data []) →
        (w.server.poller.table chan).events ≠ .noneEvent) := by
  have hpop := h.popFrame htodo
  have hrest : f ≠ .remove → w.server.conn.state = .kDisconnected →
      ServerConnection.Disarmed chan { w.server with todo := rest } :=
    fun hf hdown => (hw hdown).popFrame htodo hf
  cases f with
  | close =>
      rw [hpop.handleClose_iff (h.polled.closable htodo rfl) hs]
      simp
  | read =>
      obtain ⟨input, hinput, hcases⟩ := ServerConnection.handleRead_inv
        (s := { w.server with todo := rest }) h.wired.wf.input hs
      rcases hcases with ⟨rfl, hclose⟩ | ⟨hread, called, hcalled, rfl⟩
      · rw [(hpop.setInput hinput (Or.inl rfl)).handleClose_iff
          ((h.polled.closable htodo rfl).moved rfl rfl (Nat.le_refl _)) hclose]
        simp
      · simp only [hread, and_false, or_false, reduceCtorEq, false_implies, iff_true]
        intro hdown
        refine (hrest (by decide) hdown).moved rfl ?_ rfl (List.mem_append_right _)
        refine (hrest (by decide) hdown).polled.moved rfl rfl ?_
        rcases hcalled with rfl | rfl
        · exact Nat.le_refl _
        · exact Nat.le_refl _
  | write =>
      obtain ⟨c, hc, hs⟩ := bind_ok_inv hs
      have hworks := (TcpConnection.handleWrite_works h.wired.wf h.wired.pending h.wired.queue
        hwrite hc h.wired.idle).1
      simp only [reduceCtorEq, false_and, or_self, false_implies, iff_true]
      exact disarmed_adopt (v := { w.server with todo := rest }) (hrest (by decide)) hworks hs
  | error | connectionCallback | messageCallback =>
      cases hs
      simp only [reduceCtorEq, false_and, or_self, false_implies, iff_true]
      exact hrest (by decide)
  | closeCallback =>
      simp only [reduceCtorEq, false_and, or_self, false_implies, iff_true]
      have hdown := h.chores.leaving (Or.inl (by rw [htodo]; exact List.mem_cons_self))
      have hpopped := hrest (by decide) hdown
      intro _
      cases oneLoop with
      | true =>
          have hcalled : ServerConnection.Disarmed chan
              { w.server with todo := rest, closeCallbacks := w.server.closeCallbacks + 1 } :=
            hpopped.moved rfl (hpopped.polled.moved rfl rfl (Nat.le_refl _)) rfl id
          exact hcalled.removeConnectionInLoop hs
      | false =>
          cases hs
          exact hpopped.moved rfl (hpopped.polled.moved rfl rfl (Nat.le_refl _)) rfl id
  | remove =>
      simp only [reduceCtorEq, false_and, or_self, false_implies, iff_true]
      have hdown := h.chores.leaving (Or.inr (Or.inl (by rw [htodo]; exact List.mem_cons_self)))
      intro _
      exact ServerConnection.disarmed_removeChannel hpop.wired.agrees
        ((hw hdown).polled.popFrame htodo) hs

/-- The other events of the server, its clients and the poll. -/
theorem Inv.disarmed_server (h : Inv chan w)
    (hw : w.server.conn.state = .kDisconnected → w.server.Disarmed chan) {oneLoop : Bool}
    {e : ServerConnection.Event C} {r : Except Fault (ServerConnection C)}
    (he : e.ofQueue = false) (hframe : ∀ read write, e ≠ .frame read write)
    (hexec : ServerConnection.Exec chan oneLoop w.server e r) (hr : r = .ok s) :
    s.conn.state = .kDisconnected → s.Disarmed chan := by
  have hwf := h.wired.wf
  have hpending := h.wired.pending
  have hqueue := h.wired.queue
  cases hexec with
  | newConnection haccepted _ _ =>
      cases oneLoop with
      | true =>
          obtain ⟨-, p, -, rfl⟩ := ServerConnection.connectEstablished_inv hr
          intro hdown
          cases hdown
      | false =>
          cases hr
          intro hdown
          cases (h.chores.unborn haccepted).1.symm.trans hdown
  | send _ _ _ =>
      obtain ⟨⟨c, b⟩, hc, hs⟩ := bind_ok_inv hr
      exact disarmed_adopt hw (TcpConnection.send_works hwf hpending hqueue hc).1 hs
  | shutdown _ =>
      exact disarmed_adopt hw (TcpConnection.shutdown_works hwf hpending hqueue _).1 hr
  | forceClose _ =>
      exact disarmed_adopt hw (TcpConnection.forceClose_works hwf hpending hqueue).1 hr
  | retrieve _ _ =>
      obtain ⟨input, -, hs⟩ := bind_ok_inv hr
      cases hs
      intro hdown
      exact (hw hdown).moved rfl ((hw hdown).polled.moved rfl rfl (Nat.le_refl _)) rfl id
  | poll _ htodo hreports =>
      rw [h.wired.agrees.fillActiveChannels hreports] at hr
      cases hr
      intro hdown
      refine (hw hdown).moved rfl ?_ rfl id
      exact .poll h.wired.agrees htodo hreports fun hadded => absurd hadded (hw hdown).index
  | handleEvent hphase htodo hremaining =>
      cases hr
      intro hdown
      refine (hw hdown).moved rfl ((hw hdown).polled.handleEvent hphase htodo hremaining) rfl ?_
      rw [htodo]
      intro hmem
      cases hmem
  | frame _ _ => exact absurd rfl (hframe _ _)
  | removeConnectionInLoop _ =>
      intro hdown
      have hstate : w.server.conn.state = .kDisconnected := by
        obtain rfl := ServerConnection.removeConnectionInLoop_inv hr
        exact hdown
      have hfewer : ServerConnection.Disarmed chan
          { w.server with removals := w.server.removals - 1 } :=
        (hw hstate).moved rfl ((hw hstate).polled.moved rfl rfl (Nat.le_refl _)) rfl id
      exact hfewer.removeConnectionInLoop hr
  | otherFunctor =>
      cases hr
      intro hdown
      exact (hw hdown).moved rfl ((hw hdown).polled.moved rfl rfl (Nat.le_refl _)) rfl id
  | otherChannel hother hallowed _ =>
      obtain ⟨p, hp, hs⟩ := bind_ok_inv hr
      cases hs
      intro hdown
      exact (hw hdown).moved (Poller.table_of_exec h.wired.agrees hallowed hother hp)
        ((hw hdown).polled.moved rfl rfl (Nat.le_refl _)) rfl id
  | doPendingFunctors => cases he
  | functor => cases he
  | endBatch => cases he

/-- `startReadInLoop` arms the channel of a connection that is down. -/
theorem Inv.disarmed_startReadInLoop_iff (h : Inv chan w)
    (hw' : w.startReadInLoop chan = .ok w') :
    (w'.server.conn.state = .kDisconnected → w'.server.Disarmed chan) ↔
      w.server.conn.state ≠ .kDisconnected := by
  have hstate : w'.server.conn.state = w.server.conn.state := by
    rcases startReadInLoop_inv hw' with ⟨-, p, -, rfl⟩ | ⟨-, rfl⟩
    · rfl
    · rfl
  rw [hstate]
  constructor
  · intro hdisarmed hdown
    have hnone := (hdisarmed hdown).events
    rcases startReadInLoop_inv hw' with ⟨-, p, hp, rfl⟩ | ⟨⟨-, hreading⟩, rfl⟩
    · have hevents := (Poller.interestOp_inv h.wired.agrees hp).2.1
      cases (congrArg EventMask.read hevents).symm.trans (congrArg EventMask.read hnone)
    · cases hreading.symm.trans (congrArg EventMask.read hnone)
  · exact fun hup hdown => absurd hdown hup

/-- `stopReadInLoop` does so too, unless reading was stopped before. -/
theorem Inv.disarmed_stopReadInLoop_iff (h : Inv chan w)
    (hw : w.server.conn.state = .kDisconnected → w.server.Disarmed chan)
    (hw' : w.stopReadInLoop chan = .ok w') :
    (w'.server.conn.state = .kDisconnected → w'.server.Disarmed chan) ↔
      (w.server.conn.state = .kDisconnected → w.reading = false) := by
  have hstate : w'.server.conn.state = w.server.conn.state := by
    rcases stopReadInLoop_inv hw' with ⟨-, p, -, rfl⟩ | ⟨-, rfl⟩
    · rfl
    · rfl
  rw [hstate]
  refine forall_congr' ?_
  intro hdown
  have hidle : w.isReading chan = false := congrArg EventMask.read (hw hdown).events
  rcases stopReadInLoop_inv hw' with ⟨htest, p, hp, rfl⟩ | ⟨htest, rfl⟩
  · rw [hidle, Bool.or_false] at htest
    simp only [htest, Bool.true_eq_false, iff_false]
    intro hdisarmed
    obtain ⟨-, -, hindex⟩ := Poller.interestOp_inv h.wired.agrees hp
    refine hdisarmed.index (hindex.trans ((Poller.indexAfter_eq_added _ _).mpr fun _ => ?_))
    exact (hw hdown).index
  · rw [hidle, Bool.or_false] at htest
    exact ⟨fun _ => htest, fun _ => hw hdown⟩

/-- A functor of the connection leaves one that is down unarmed, but for
`forceCloseInLoop` of an open one whose channel has no interest. -/
theorem Inv.disarmed_runFunctor_iff (h : Inv chan w)
    (hw : w.server.conn.state = .kDisconnected → w.server.Disarmed chan)
    {f : IoFunctor} {rest : List ConnTask} {r : WriteResult} (hphase : w.server.phase = .functors)
    (htodo : w.server.todo = []) (htasks : w.tasks = .io f :: rest)
    (hs : w.server.runFunctor chan r f = .ok s) :
    (s.conn.state = .kDisconnected → s.Disarmed chan) ↔
      (f = .own .forceCloseInLoop ∧ w.isOpen →
        (w.server.poller.table chan).events ≠ .noneEvent) := by
  have hmem := mem_queued_head htasks
  cases f with
  | connectEstablished =>
      obtain ⟨-, p, -, rfl⟩ := ServerConnection.connectEstablished_inv hs
      simp
  | connectDestroyed =>
      have hdown := h.chores.down_of_task hmem
      have hnot : w.server.conn.state ≠ .kConnected := by
        rw [hdown]
        decide
      cases (if_neg hnot).symm.trans hs
      simp only [reduceCtorEq, false_and, false_implies, iff_true]
      intro _
      exact
        { events := (hw hdown).events
          index := (hw hdown).index
          polled := by
            refine (hw hdown).polled.moved rfl rfl ?_
            simp [ServerConnection.mayClose]
          gone := fun _ hnone => absurd List.mem_cons_self hnone }
  | other =>
      cases hs
      simp only [reduceCtorEq, false_and, false_implies, iff_true]
      exact hw
  | own f =>
      cases f with
      | sendInLoop m =>
          obtain ⟨c, hc, hs⟩ := bind_ok_inv hs
          have hworks := (TcpConnection.sendInLoop_works h.wired.wf h.wired.pending
            h.wired.queue hc).1
          simp only [IoFunctor.own.injEq, reduceCtorEq, false_and, false_implies, iff_true]
          exact disarmed_adopt hw hworks hs
      | shutdownInLoop =>
          have hworks := (TcpConnection.shutdownInLoop_works h.wired.wf h.wired.pending
            h.wired.queue (h.chores.ended hmem)).1
          simp only [IoFunctor.own.injEq, reduceCtorEq, false_and, false_implies, iff_true]
          exact disarmed_adopt hw hworks hs
      | forceCloseInLoop =>
          simp only [ServerConnection.runFunctor] at hs
          split at hs
          · rename_i hopen
            rw [h.handleClose_iff (.idle hphase htodo h.polled) hs]
            exact ⟨fun hsome _ => hsome, fun hsome => hsome ⟨rfl, hopen⟩⟩
          · rename_i hclosed
            cases hs
            exact ⟨fun _ hopen => absurd hopen.2 hclosed, fun _ => hw⟩

/-- A task leaves a connection that is down unarmed, but for those of the two read
operations, and one that closes it where the channel has an interest. -/
theorem Inv.disarmed_runTask_iff (h : Inv chan w)
    (hw : w.server.conn.state = .kDisconnected → w.server.Disarmed chan)
    {t : ConnTask} {rest : List ConnTask} {r : WriteResult} (hphase : w.server.phase = .functors)
    (htodo : w.server.todo = []) (htasks : w.tasks = t :: rest)
    (hw' : Connection.runTask chan { w with tasks := rest } r t = .ok w') :
    (w'.server.conn.state = .kDisconnected → w'.server.Disarmed chan) ↔
      (t = .startReadInLoop → w.server.conn.state ≠ .kDisconnected) ∧
      (t = .stopReadInLoop → w.server.conn.state = .kDisconnected → w.reading = false) ∧
      (t = .io (.own .forceCloseInLoop) ∧ w.isOpen →
        (w.server.poller.table chan).events ≠ .noneEvent) := by
  have hpop := h.popTask htasks
  cases t with
  | startReadInLoop =>
      rw [hpop.disarmed_startReadInLoop_iff hw']
      simp
  | stopReadInLoop =>
      rw [hpop.disarmed_stopReadInLoop_iff hw hw']
      simp
  | io f =>
      obtain ⟨s, hs, hcollect⟩ := bind_ok_inv hw'
      cases hcollect
      rw [disarmed_collect, h.disarmed_runFunctor_iff hw hphase htodo htasks hs]
      simp

omit [DecidableEq C] in
theorem orderly_of_none {e : Event C} (hstart : ¬ w.RunsStartRead e) (hstop : ¬ w.RunsStopRead e)
    (hclose : ¬ w.RunsHandleClose e) : w.Orderly chan e :=
  ⟨fun hruns => absurd hruns hstart, fun hruns => absurd hruns hstop,
    fun hruns => absurd hruns hclose⟩

omit [DecidableEq C] in
/-- Of a frame only `handleClose` matters. -/
theorem orderly_frame_iff {f : Frame} {rest : List Frame} {read : Buffer.ReadResult}
    {write : WriteResult} (htodo : w.server.todo = f :: rest) :
    w.Orderly chan (.server (.frame read write)) ↔
      (f = .close ∨ (f = .read ∧ read = .data []) →
        (w.server.poller.table chan).events ≠ .noneEvent) := by
  have hruns : w.RunsHandleClose (.server (.frame read write)) ↔
      f = .close ∨ (f = .read ∧ read = .data []) := by
    rw [RunsHandleClose, htodo, List.head?_cons, Option.some.injEq, Option.some.injEq]
  constructor
  · intro horderly hcloses
    exact horderly.handleClose (hruns.mpr hcloses)
  · intro hsome
    exact ⟨fun hruns => hruns.elim, fun hruns => hruns.elim,
      fun hcloses => hsome (hruns.mp hcloses)⟩

omit [DecidableEq C] in
theorem orderly_task_iff {t : ConnTask} {rest : List ConnTask} {r : WriteResult}
    (htasks : w.tasks = t :: rest) :
    w.Orderly chan (.task r) ↔
      (t = .startReadInLoop → w.server.conn.state ≠ .kDisconnected) ∧
      (t = .stopReadInLoop → w.server.conn.state = .kDisconnected → w.reading = false) ∧
      (t = .io (.own .forceCloseInLoop) ∧ w.isOpen →
        (w.server.poller.table chan).events ≠ .noneEvent) := by
  have hhead (u : ConnTask) : w.tasks.head? = some u ↔ t = u := by
    rw [htasks, List.head?_cons, Option.some.injEq]
  constructor
  · intro horderly
    exact ⟨fun ht => horderly.startRead ((hhead _).mpr ht),
      fun ht => horderly.stopRead ((hhead _).mpr ht),
      fun ht => horderly.handleClose ⟨(hhead _).mpr ht.1, ht.2⟩⟩
  · rintro ⟨hstart, hstop, hclose⟩
    exact ⟨fun hruns => hstart ((hhead _).mp hruns), fun hruns => hstop ((hhead _).mp hruns),
      fun hruns => hclose ⟨(hhead _).mp hruns.1, hruns.2⟩⟩

/-- The step decides whether the connection stays unarmed. -/
theorem Inv.disarmed_exec_iff (h : Inv chan w)
    (hw : w.server.conn.state = .kDisconnected → w.server.Disarmed chan) {oneLoop : Bool}
    {e : Event C} {r : Except Fault (Connection C)} (hexec : Exec chan oneLoop w e r)
    (hr : r = .ok w') :
    (w'.server.conn.state = .kDisconnected → w'.server.Disarmed chan) ↔ w.Orderly chan e := by
  cases hexec with
  | server hqueue hexec =>
      obtain ⟨s, hs, hcollect⟩ := bind_ok_inv hr
      cases hcollect
      rw [disarmed_collect]
      rename_i e r
      cases e with
      | frame read write =>
          cases hexec with
          | frame htodo hwrite =>
              rw [h.disarmed_runFrame_iff hw htodo hwrite hs, orderly_frame_iff htodo]
      | _ =>
          refine ⟨fun _ => orderly_of_none id id id, fun _ => ?_⟩
          exact h.disarmed_server hw hqueue (by simp) hexec hs
  | startRead hexposed hown =>
      rename_i own
      cases own with
      | true =>
          rw [h.disarmed_startReadInLoop_iff hr]
          refine ⟨fun hup => ⟨fun _ => hup, fun hruns => hruns.elim, fun hruns => hruns.elim⟩, ?_⟩
          exact fun horderly => horderly.startRead rfl
      | false =>
          cases hr
          exact ⟨fun _ => orderly_of_none (by simp [RunsStartRead]) id id, fun _ => hw⟩
  | stopRead hexposed hown =>
      rename_i own
      cases own with
      | true =>
          rw [h.disarmed_stopReadInLoop_iff hw hr]
          refine ⟨fun hup => ⟨fun hruns => hruns.elim, fun _ => hup, fun hruns => hruns.elim⟩, ?_⟩
          exact fun horderly => horderly.stopRead rfl
      | false =>
          cases hr
          exact ⟨fun _ => orderly_of_none id (by simp [RunsStopRead]) id, fun _ => hw⟩
  | forceCloseWithDelay =>
      obtain ⟨s, hs, hcollect⟩ := bind_ok_inv hr
      cases hcollect
      rw [disarmed_collect]
      have hworks := TcpConnection.forceCloseWithDelay_works h.wired.wf h.wired.pending
        h.wired.queue
      exact ⟨fun _ => orderly_of_none id id id, fun _ => disarmed_adopt hw hworks hs⟩
  | doPendingFunctors _ _ hremaining =>
      cases hr
      refine ⟨fun _ => orderly_of_none id id id, fun _ hdown => ?_⟩
      have hpolled := (hw hdown).polled
      exact (hw hdown).moved rfl ⟨hpolled.closes, hpolled.bits, fun _ => hremaining⟩ rfl id
  | task hphase htodo htasks _ =>
      rw [h.disarmed_runTask_iff hw hphase htodo htasks hr, orderly_task_iff htasks]
  | endBatch hphase _ _ =>
      cases hr
      refine ⟨fun _ => orderly_of_none id id id, fun _ hdown => ?_⟩
      have hpolled := (hw hdown).polled
      have hremaining := hpolled.remaining (by rw [hphase]; decide)
      exact (hw hdown).moved rfl ⟨hpolled.closes, hpolled.bits, fun _ => hremaining⟩ rfl id

/-- A connection that is down is unarmed in every state of exactly those runs in which
no `startReadInLoop` finds it down, a `stopReadInLoop` that does finds reading stopped,
and `handleClose` always finds an interest. -/
theorem unarmed_run_iff (chan : C) (oneLoop : Bool) (fd : C → Int) (events : List (Event C))
    (w : Connection C) :
    Run (Through (Step chan oneLoop) (Unarmed chan)) (new fd) events w ↔
      Run (Guarded (Step chan oneLoop) (Orderly chan)) (new fd) events w := by
  refine Run.through_iff_guarded (I := Inv chan) (inv_new fd) ?_ ?_
  · intro hdown
    cases hdown
  · intro w e w' h hunarmed hstep
    have h' := h.exec hstep rfl
    refine ⟨h', ?_⟩
    rw [unarmed_iff h']
    exact h.disarmed_exec_iff ((unarmed_iff h).mp hunarmed) hstep rfl

/-- The callback of a connection that has been closed calls `startRead`. -/
theorem start_read_arms_closed : ∃ (events : List (Event Unit)) (w : Connection Unit),
    Run (Step () true) (new fun _ => 7) events w ∧ w.server.conn.state = .kDisconnected ∧
      (w.server.poller.table ()).isNoneEvent = false ∧
      w.server.poller.interest 7 = some (⟨true, false⟩, ()) ∧ ¬ w.Unarmed () := by
  have hsole : (Poller.new fun _ : Unit => 7).Sole () := fun _ hd => absurd rfl hd
  have hnew := run_then (.nil : Run (Step () true) (new fun _ : Unit => 7) [] _)
    (.server .newConnection) (.server rfl (.newConnection rfl hsole fun _ => rfl)) rfl
  have hforced := run_then hnew (.server (.forceClose true)) (.server rfl (.forceClose fun _ => rfl))
    rfl
  have hcalled := run_then hforced (.server (.frame (.data []) (.wrote 0)))
    (.server rfl (.frame rfl (Nat.zero_le _))) rfl
  have hpolled := run_then hcalled (.server (.poll 16 []))
    (.server rfl (.poll rfl rfl ⟨Nat.zero_le _, List.nodup_nil, fun _ hr => absurd hr List.not_mem_nil⟩))
    rfl
  have hswapped := run_then hpolled .doPendingFunctors (.doPendingFunctors rfl rfl rfl) rfl
  have hclosed := run_then hswapped (.task (.wrote 0))
    (.task rfl rfl rfl fun _ hm => by cases hm) rfl
  have hstarted := run_then hclosed (.startRead true)
    (.startRead (List.cons_ne_nil _ _) fun _ => rfl) rfl
  refine ⟨_, _, hstarted, rfl, rfl, rfl, ?_⟩
  intro hunarmed
  cases (hunarmed rfl).1

end Connection
end ProtoRpc
