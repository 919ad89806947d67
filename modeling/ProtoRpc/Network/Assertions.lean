import ProtoRpc.Network.Duties
import ProtoRpc.Network.LoopRuns

/-!
No assertion fails. In a run in which nothing arms a connection that is down, every event of
the connection has a result, whatever its owner, its peer and its loop do, and whatever the
other connections of the loop do; and a connection that is down and has nothing left to be
done has left the table and the poller, and has been destroyed once.
-/
namespace ProtoRpc

namespace ServerConnection
variable {C : Type} [DecidableEq C] {chan : C} {s : ServerConnection C}

theorem interestOp_result (hagrees : s.poller.Agrees) (hsole : s.poller.Sole chan)
    (op : InterestOp) : ∃ s', s.interestOp chan op = .ok s' := by
  obtain ⟨p, hp, -⟩ := Poller.interestOp_spec hagrees hsole op
  exact ⟨_, interestOp_ok hp⟩

theorem handleClose_result (hagrees : s.poller.Agrees) (hsole : s.poller.Sole chan)
    (hopen : s.conn.state = .kConnected ∨ s.conn.state = .kDisconnecting) :
    ∃ s', s.handleClose chan = .ok s' := by
  have hconn : s.conn.handleClose =
      .ok { s.conn with state := .kDisconnected, isWriting := false } := by
    rw [TcpConnection.handleClose, require_of_true hopen]
    rfl
  obtain ⟨s₁, hs₁⟩ : ∃ s₁, interestOp chan
      { s with conn := { s.conn with state := .kDisconnected, isWriting := false } } .disableAll =
      .ok s₁ := by
    apply interestOp_result
    · exact hagrees
    · exact hsole
  refine ⟨({ s₁ with todo := .closeCallback :: s₁.todo } : ServerConnection C).notify
    .handleClose, ?_⟩
  rw [handleClose, hconn, ok_bind, hs₁]
  rfl

theorem connectEstablished_result (hagrees : s.poller.Agrees) (hsole : s.poller.Sole chan)
    (hstate : s.conn.state = .kConnecting) : ∃ s', s.connectEstablished chan = .ok s' := by
  have hconn : s.conn.connectEstablished = .ok { s.conn with state := .kConnected } := by
    rw [TcpConnection.connectEstablished, require_of_true hstate]
    rfl
  obtain ⟨s₁, hs₁⟩ : ∃ s₁, interestOp chan { s with conn := { s.conn with state := .kConnected } }
      .enableReading = .ok s₁ := by
    apply interestOp_result
    · exact hagrees
    · exact hsole
  refine ⟨s₁.notify .connectEstablished, ?_⟩
  rw [connectEstablished, hconn, ok_bind, hs₁]
  rfl

end ServerConnection

namespace Connection
open Transition

variable {C : Type} [DecidableEq C] {chan : C} {w w' : Connection C} {s : ServerConnection C}

/-- The server has a result, and the duties of the connection are kept. -/
def Discharges (chan : C) (w : Connection C) (r : Except Fault (ServerConnection C)) : Prop :=
  ∃ s, r = .ok s ∧ Duties chan { w with server := s }

theorem Duties.adopt (h : Duties chan w) (hinv : Inv chan w) {c : TcpConnection}
    (hworks : w.server.conn.Works c)
    (hunborn : w.server.conn.state = .kConnecting → c = w.server.conn) :
    Discharges chan w (w.server.adopt chan c) := by
  obtain ⟨s, hs⟩ : ∃ s, w.server.adopt chan c = .ok s := by
    rw [ServerConnection.adopt]
    by_cases hsame : c.isWriting = w.server.conn.isWriting
    · exact ⟨_, if_pos hsame⟩
    · have hsole := h.sole_of_open (fun hstate => hsame (by rw [hunborn hstate]))
        (fun hdown => hsame (hworks.closed hdown))
      rw [if_neg hsame]
      split
      · apply ServerConnection.interestOp_result
        · exact hinv.wired.agrees
        · exact hsole
      · apply ServerConnection.interestOp_result
        · exact hinv.wired.agrees
        · exact hsole
  refine ⟨s, hs, h.idles (idles_adopt hinv hworks ?_ hs)⟩
  intro hstate
  rw [hunborn hstate]
  exact ⟨rfl, hinv.wired.queue⟩

theorem Duties.close (h : Duties chan w) (hinv : Inv chan w) (hopen : w.isOpen) :
    Discharges chan w (w.server.handleClose chan) := by
  have hknown : w.server.conn.state ≠ .kConnecting := by
    rcases hopen with hstate | hstate <;> rw [hstate] <;> decide
  obtain ⟨s, hs⟩ := ServerConnection.handleClose_result hinv.wired.agrees
    (h.sole_of_open hknown (TcpConnection.ne_down_of_open hopen)) hopen
  exact ⟨s, hs, h.handleClose hinv.wired.agrees hs⟩

theorem Duties.accept (h : Duties chan w) (hinv : Inv chan w) {oneLoop : Bool}
    (haccepted : w.server.accepted = false) (hsole : w.server.poller.Sole chan) :
    Discharges chan w (w.server.newConnection chan oneLoop) := by
  have hnew := h.newConnection haccepted hsole
  cases oneLoop with
  | false => exact ⟨_, rfl, hnew⟩
  | true =>
      obtain ⟨s, hs⟩ : ∃ s, ServerConnection.connectEstablished chan
          { w.server with accepted := true, listed := true } = .ok s := by
        apply ServerConnection.connectEstablished_result
        · exact hinv.wired.agrees
        · exact hsole
        · exact (hinv.chores.unborn haccepted).1
      refine ⟨s, hs, ?_⟩
      refine hnew.connectEstablished hinv.wired.agrees w.server.pendingFunctors w.tasks ?_ hs
      simp only [queued, List.map_append, List.map_cons, List.map_nil, ← List.append_assoc]
      exact List.perm_append_singleton _ _

theorem Duties.remove (h : Duties chan w) {n : Nat} (hn : w.server.removals = n + 1) :
    Discharges chan w
      (ServerConnection.removeConnectionInLoop { w.server with removals := n }) := by
  have hlisted := (h.removable (by omega)).1
  refine ⟨_, ?_, h.removeConnectionInLoop hn⟩
  rw [ServerConnection.removeConnectionInLoop, require_of_true hlisted]
  rfl

/-- The connection is as its duties say, and where it is down nothing can call it. -/
structure Ordered (chan : C) (w : Connection C) : Prop where
  inv : Inv chan w
  disarmed : w.server.conn.state = .kDisconnected → w.server.Disarmed chan
  duties : Duties chan w

namespace Ordered

theorem isOpen (h : Ordered chan w)
    (hpolled : ∀ n, w.server.Polled chan n → 0 < n) : w.isOpen := by
  cases hstate : w.server.conn.state with
  | kConnecting => exact absurd (hpolled 0 (h.duties.unborn hstate).2.2) (Nat.lt_irrefl 0)
  | kConnected => exact Or.inl hstate
  | kDisconnecting => exact Or.inr hstate
  | kDisconnected => exact absurd (hpolled 0 (h.disarmed hstate).polled) (Nat.lt_irrefl 0)

/-- A frame that can close finds the connection open. -/
theorem isOpen_of_frame (h : Ordered chan w) {f : Frame} {rest : List Frame}
    (htodo : w.server.todo = f :: rest) (hf : ServerConnection.mayClose f = true) :
    w.isOpen := by
  refine h.isOpen ?_
  intro n hpolled
  have hcloses := hpolled.closes
  rw [htodo, List.countP_cons_of_pos hf] at hcloses
  omega

theorem frameRead (h : Ordered chan w) {rest : List Frame}
    (htodo : w.server.todo = .read :: rest) (read : Buffer.ReadResult) :
    Discharges chan w
      (ServerConnection.handleRead chan { w.server with todo := rest } read) := by
  have hinv := h.inv.popFrame htodo
  have hduties := h.duties.idles (idles_popFrame htodo (by decide) (by decide))
  cases read with
  | error errno => exact ⟨_, rfl, hduties⟩
  | data bytes =>
      obtain ⟨input, hread, hwf, -⟩ := Buffer.readFd_spec h.inv.wired.wf.input bytes
      have hfilled := hduties.idles (@idles_setInput _ _ chan _ input _ (Or.inl rfl))
      simp only [ServerConnection.handleRead, hread, ok_bind]
      split
      · have hup := TcpConnection.ne_down_of_open (h.isOpen_of_frame htodo rfl)
        refine ⟨_, rfl, hduties.idles (idles_setInput (Or.inr ⟨rfl, ?_⟩))⟩
        exact (h.duties.not_destroyed hup).2.2.2
      · split
        · exact hfilled.close (hinv.setInput hwf (Or.inl rfl)) (h.isOpen_of_frame htodo rfl)
        · exact ⟨_, rfl, hfilled⟩

theorem frameWrite (h : Ordered chan w) {rest : List Frame}
    (htodo : w.server.todo = .write :: rest) {write : WriteResult}
    (hwrite : write.Within w.server.conn.outputBuffer.readableBytes) :
    Discharges chan w
      (ServerConnection.handleWrite chan { w.server with todo := rest } write) := by
  have hinv := h.inv.popFrame htodo
  have hduties := h.duties.idles (idles_popFrame htodo (by decide) (by decide))
  obtain ⟨c, hc, hunborn⟩ : ∃ c, w.server.conn.handleWrite write = .ok c ∧
      (w.server.conn.state = .kConnecting → c = w.server.conn) := by
    rcases TcpConnection.handleWrite_cases h.inv.wired.wf hwrite with
      ⟨hsame, -⟩ | ⟨hwriting, -, out, -, -, hmoved⟩
    · exact ⟨_, hsame, fun _ => rfl⟩
    · refine ⟨_, hmoved, fun hstate => ?_⟩
      cases hwriting.symm.trans (h.duties.unborn hstate).2.1
  have hworks := (TcpConnection.handleWrite_works h.inv.wired.wf h.inv.wired.pending
    h.inv.wired.queue hwrite hc h.inv.wired.idle).1
  change Discharges chan w (do
    let c ← w.server.conn.handleWrite write
    ServerConnection.adopt chan { w.server with todo := rest } c)
  rw [hc, ok_bind]
  exact hduties.adopt hinv hworks hunborn

theorem frameCloseCallback (h : Ordered chan w) {rest : List Frame}
    (htodo : w.server.todo = .closeCallback :: rest) (oneLoop : Bool) :
    Discharges chan w
      (ServerConnection.closeCallback oneLoop { w.server with todo := rest }) := by
  have hcalled := h.duties.closeCallback htodo
  cases oneLoop with
  | false => exact ⟨_, rfl, hcalled⟩
  | true => exact hcalled.remove rfl

theorem frameRemove (h : Ordered chan w) {rest : List Frame}
    (htodo : w.server.todo = .remove :: rest) :
    Discharges chan w (ServerConnection.removeChannel chan { w.server with todo := rest }) := by
  have hmem : .remove ∈ w.server.todo := by
    rw [htodo]
    exact List.mem_cons_self
  have hdown := h.inv.chores.leaving (Or.inr (Or.inl hmem))
  obtain ⟨hphase, hindex⟩ := h.duties.detaching hmem
  obtain ⟨p, hp, -⟩ := Poller.remove_spec h.inv.wired.agrees hindex
    (by rw [Channel.isNoneEvent, (h.disarmed hdown).events]; rfl)
  refine ⟨_, ServerConnection.removeChannel_ok (s := { w.server with todo := rest }) ?_ hp,
    h.duties.removeChannel h.inv htodo⟩
  intro hhandling
  cases hphase.symm.trans hhandling

theorem frame (h : Ordered chan w) {oneLoop : Bool} {f : Frame} {rest : List Frame}
    {read : Buffer.ReadResult} {write : WriteResult} (htodo : w.server.todo = f :: rest)
    (hwrite : write.Within w.server.conn.outputBuffer.readableBytes) :
    Discharges chan w
      (ServerConnection.runFrame chan oneLoop { w.server with todo := rest } read write f) := by
  cases f with
  | close =>
      exact (h.duties.idles (idles_popFrame htodo (by decide) (by decide))).close
        (h.inv.popFrame htodo) (h.isOpen_of_frame htodo rfl)
  | read => exact h.frameRead htodo read
  | write => exact h.frameWrite htodo hwrite
  | error | connectionCallback | messageCallback =>
      exact ⟨_, rfl, h.duties.idles (idles_popFrame htodo (by decide) (by decide))⟩
  | closeCallback => exact h.frameCloseCallback htodo oneLoop
  | remove => exact h.frameRemove htodo

/-- What the server, its clients and the poll do. -/
theorem server (h : Ordered chan w) {oneLoop : Bool} {e : ServerConnection.Event C}
    {r : Except Fault (ServerConnection C)} (he : e.ofQueue = false)
    (hexec : ServerConnection.Exec chan oneLoop w.server e r) : Discharges chan w r := by
  have hwf := h.inv.wired.wf
  have hpending := h.inv.wired.pending
  have hqueue := h.inv.wired.queue
  cases hexec with
  | newConnection haccepted hsole _ => exact h.duties.accept h.inv haccepted hsole
  | @send own buf r hown hbuf hr =>
      obtain ⟨⟨c, b⟩, hc, hunborn⟩ : ∃ x, w.server.conn.send own buf r = .ok x ∧
          (w.server.conn.state = .kConnecting → x.1 = w.server.conn) := by
        by_cases hconnected : w.server.conn.state = .kConnected
        · obtain ⟨c, b, hsend, -⟩ := TcpConnection.send_connected hwf hconnected hbuf own r
          exact ⟨_, hsend, fun hstate => (by cases hconnected.symm.trans hstate)⟩
        · exact ⟨_, TcpConnection.send_notConnected hconnected buf own r, fun _ => rfl⟩
      rw [hc, ok_bind]
      exact h.duties.adopt h.inv (TcpConnection.send_works hwf hpending hqueue hc).1 hunborn
  | shutdown _ =>
      refine h.duties.adopt h.inv (TcpConnection.shutdown_works hwf hpending hqueue _).1 ?_
      intro hstate
      rw [TcpConnection.shutdown, if_neg (by rw [hstate]; decide)]
  | forceClose _ =>
      refine h.duties.adopt h.inv (TcpConnection.forceClose_works hwf hpending hqueue).1 ?_
      intro hstate
      rw [TcpConnection.forceClose, if_neg (by rw [hstate]; decide)]
  | retrieve _ hn =>
      obtain ⟨input, hretrieve, -⟩ := Buffer.retrieve_spec hwf.input hn
      rw [hretrieve]
      exact ⟨_, rfl, h.duties.idles (idles_setInput (Or.inl rfl))⟩
  | poll _ htodo hreports =>
      rw [h.inv.wired.agrees.fillActiveChannels hreports]
      exact ⟨_, rfl, h.duties.idles (idles_poll h.inv h.duties htodo hreports)⟩
  | handleEvent hphase htodo hremaining =>
      refine ⟨_, rfl, h.duties.idles (idles_handleEvent hphase htodo hremaining ?_)⟩
      rintro hdestroyed rfl
      have hcloses := (h.disarmed (h.inv.chores.leaving
        (Or.inr (Or.inr (Or.inr (Or.inr hdestroyed)))))).polled.closes
      rw [hremaining, List.map_cons, List.count_cons_self] at hcloses
      omega
  | frame htodo hwrite => exact h.frame htodo hwrite
  | removeConnectionInLoop hremovals =>
      exact h.duties.remove (Nat.succ_pred_eq_of_pos hremovals).symm
  | otherFunctor =>
      exact ⟨_, rfl, h.duties.idles (idles_push (by decide) (by decide) (by simp))⟩
  | otherChannel hother hallowed hfd =>
      obtain ⟨-, -, ctls, -, hexec⟩ := Poller.exec_eq h.inv.wired.agrees hallowed
      rw [hexec, ok_bind]
      exact ⟨_, rfl, h.duties.idles (idles_otherChannel h.inv hother hallowed hexec hfd)⟩
  | doPendingFunctors => cases he
  | functor => cases he
  | endBatch => cases he

end Ordered

theorem Duties.startRead (h : Duties chan w) (hinv : Inv chan w)
    (hknown : w.server.conn.state ≠ .kConnecting) (hup : w.server.conn.state ≠ .kDisconnected) :
    ∃ w', w.startReadInLoop chan = .ok w' ∧ Duties chan w' := by
  rw [startReadInLoop]
  split
  · obtain ⟨p, hp, -⟩ := Poller.interestOp_spec hinv.wired.agrees (h.sole_of_open hknown hup)
      .enableReading
    rw [ServerConnection.interestOp_ok hp, ok_bind]
    exact ⟨_, rfl, h.idles (idles_interestOp hinv hp hknown)⟩
  · exact ⟨_, rfl, h⟩

/-- Where the connection is down, there is no interest in reading to drop. -/
theorem Duties.stopRead (h : Duties chan w) (hinv : Inv chan w)
    (hknown : w.server.conn.state ≠ .kConnecting)
    (hdown : w.server.conn.state = .kDisconnected → w.reading = false ∧ w.isReading chan = false) :
    ∃ w', w.stopReadInLoop chan = .ok w' ∧ Duties chan w' := by
  rw [stopReadInLoop]
  split
  · rename_i hreads
    have hup : w.server.conn.state ≠ .kDisconnected := by
      intro hstate
      rw [(hdown hstate).1, (hdown hstate).2] at hreads
      cases hreads
    obtain ⟨p, hp, -⟩ := Poller.interestOp_spec hinv.wired.agrees (h.sole_of_open hknown hup)
      .disableReading
    rw [ServerConnection.interestOp_ok hp, ok_bind]
    exact ⟨_, rfl, h.idles (idles_interestOp hinv hp hknown)⟩
  · exact ⟨_, rfl, h⟩

namespace Ordered

theorem unread (h : Ordered chan w) (hstate : w.server.conn.state = .kDisconnected) :
    w.isReading chan = false := by
  rw [isReading, (h.disarmed hstate).events]
  rfl

theorem taskEstablished (h : Ordered chan w) {rest : List ConnTask}
    (htasks : w.tasks = .io .connectEstablished :: rest) :
    Discharges chan { w with tasks := rest } (w.server.connectEstablished chan) := by
  have hqueued : w.queued = .io .connectEstablished :: queued { w with tasks := rest } := by
    rw [queued, htasks]
    rfl
  have hestablished := h.duties.established
  rw [hqueued, List.count_cons_self] at hestablished
  have hstate : w.server.conn.state = .kConnecting := by
    by_contra hnot
    rw [if_neg hnot] at hestablished
    split at hestablished <;> omega
  have haccepted : w.server.accepted = true := by
    by_contra hnot
    rw [if_neg hnot] at hestablished
    omega
  have hdestroyed := (h.duties.not_destroyed (by rw [hstate]; decide)).2.2.2
  obtain ⟨s, hs⟩ := ServerConnection.connectEstablished_result h.inv.wired.agrees
    (h.duties.sole haccepted hdestroyed) hstate
  exact ⟨s, hs, h.duties.connectEstablished h.inv.wired.agrees w.server.pendingFunctors rest
    (hqueued ▸ List.Perm.refl _) hs⟩

theorem taskOwn (h : Ordered chan w) {f : Functor} {rest : List ConnTask} {r : WriteResult}
    (htasks : w.tasks = .io (.own f) :: rest) :
    Discharges chan { w with tasks := rest } (w.server.runFunctor chan r (.own f)) := by
  have hinv := h.inv.popTask htasks
  have hduties := h.duties.idles (idles_popTask htasks (by simp) (by simp))
  have hmem := mem_queued_head htasks
  have hknown := h.duties.called _ hmem rfl
  cases f with
  | sendInLoop m =>
      obtain ⟨c, hc⟩ : ∃ c, w.server.conn.runFunctor r (.sendInLoop m) = .ok c := by
        by_cases hdown : w.server.conn.state = .kDisconnected
        · exact ⟨_, if_pos hdown⟩
        · obtain ⟨c, hsend, -⟩ := TcpConnection.sendInLoop_spec h.inv.wired.wf hdown m r
          exact ⟨c, hsend⟩
      have hworks := (TcpConnection.sendInLoop_works h.inv.wired.wf h.inv.wired.pending
        h.inv.wired.queue hc).1
      rw [ServerConnection.runFunctor, hc, ok_bind]
      · exact hduties.adopt hinv hworks fun hnot => absurd hnot hknown
      · simp
  | shutdownInLoop =>
      have hworks := (TcpConnection.shutdownInLoop_works h.inv.wired.wf h.inv.wired.pending
        h.inv.wired.queue (h.inv.chores.ended hmem)).1
      exact hduties.adopt hinv hworks fun hnot => absurd hnot hknown
  | forceCloseInLoop =>
      simp only [ServerConnection.runFunctor]
      split
      · rename_i hopen
        exact hduties.close hinv hopen
      · exact ⟨_, rfl, hduties⟩

theorem task (h : Ordered chan w) {t : ConnTask} {rest : List ConnTask} {r : WriteResult}
    (horderly : w.Orderly chan (.task r)) (hphase : w.server.phase = .functors)
    (htodo : w.server.todo = []) (htasks : w.tasks = t :: rest) :
    ∃ w', runTask chan { w with tasks := rest } r t = .ok w' ∧ Duties chan w' := by
  have hinv := h.inv.popTask htasks
  have hmem := mem_queued_head htasks
  obtain ⟨hstart, hstop, -⟩ := (orderly_task_iff htasks).mp horderly
  cases t with
  | startReadInLoop =>
      have hduties := h.duties.idles (idles_popTask htasks (by simp) (by simp))
      exact hduties.startRead hinv (h.duties.called _ hmem rfl) (hstart rfl)
  | stopReadInLoop =>
      have hduties := h.duties.idles (idles_popTask htasks (by simp) (by simp))
      exact hduties.stopRead hinv (h.duties.called _ hmem rfl)
        fun hdown => ⟨hstop rfl hdown, h.unread hdown⟩
  | io f =>
      suffices hfunctor : Discharges chan { w with tasks := rest } (w.server.runFunctor chan r f) by
        obtain ⟨s, hs, hduties⟩ := hfunctor
        refine ⟨collect { w with tasks := rest } s, ?_, hduties.idles (idles_collect _ s)⟩
        change (do
          let s ← w.server.runFunctor chan r f
          return collect { w with tasks := rest } s) = _
        rw [hs]
        rfl
      cases f with
      | connectEstablished => exact h.taskEstablished htasks
      | connectDestroyed =>
          obtain ⟨hdown, -⟩ := h.duties.destroyable h.inv hmem
          have hnot : w.server.conn.state ≠ .kConnected := by
            rw [hdown]
            decide
          exact ⟨_, if_neg hnot, h.duties.connectDestroyed h.inv hphase htodo htasks⟩
      | own f => exact h.taskOwn htasks
      | other => exact ⟨_, rfl, h.duties.idles (idles_popTask htasks (by simp) (by simp))⟩

/-- Every event has a result, and keeps the connection in order. -/
theorem exec (h : Ordered chan w) {oneLoop : Bool} {e : Event C}
    {r : Except Fault (Connection C)} (horderly : w.Orderly chan e)
    (hexec : Exec chan oneLoop w e r) : ∃ w', r = .ok w' ∧ Ordered chan w' := by
  suffices hresult : ∃ w', r = .ok w' ∧ Duties chan w' by
    obtain ⟨w', hr, hduties⟩ := hresult
    exact ⟨w', hr, h.inv.exec hexec hr, (h.inv.disarmed_exec_iff h.disarmed hexec hr).mpr horderly,
      hduties⟩
  cases hexec with
  | server he hexec =>
      obtain ⟨s, hs, hduties⟩ := h.server he hexec
      rw [hs]
      exact ⟨_, rfl, hduties.idles (idles_collect w s)⟩
  | startRead hexposed hown =>
      rename_i own
      have hknown : w.server.conn.state ≠ .kConnecting :=
        fun hconnecting => hexposed (h.inv.chores.connecting hconnecting)
      cases own with
      | true => exact h.duties.startRead h.inv hknown (horderly.startRead rfl)
      | false =>
          exact ⟨_, rfl, h.duties.idles (idles_queueInLoop (by simp) (by simp) fun _ => hknown)⟩
  | stopRead hexposed hown =>
      rename_i own
      have hknown : w.server.conn.state ≠ .kConnecting :=
        fun hconnecting => hexposed (h.inv.chores.connecting hconnecting)
      cases own with
      | true =>
          exact h.duties.stopRead h.inv hknown
            fun hdown => ⟨horderly.stopRead rfl hdown, h.unread hdown⟩
      | false =>
          exact ⟨_, rfl, h.duties.idles (idles_queueInLoop (by simp) (by simp) fun _ => hknown)⟩
  | forceCloseWithDelay =>
      have hworks := TcpConnection.forceCloseWithDelay_works h.inv.wired.wf h.inv.wired.pending
        h.inv.wired.queue
      obtain ⟨s, hs, hduties⟩ := h.duties.adopt h.inv hworks (by
        intro hstate
        rw [TcpConnection.forceCloseWithDelay, if_neg (by rw [hstate]; decide)])
      rw [hs]
      exact ⟨_, rfl, hduties.idles (idles_collect w s)⟩
  | doPendingFunctors hphase htodo hremaining =>
      refine ⟨_, rfl, h.duties.idles ?_⟩
      refine idles_moved rfl rfl rfl rfl rfl rfl rfl (fun _ _ => rfl) ?_ ?_ ?_ fun _ _ hf => hf
      · rw [htodo]
        exact fun hmem => (by cases hmem)
      · intro t
        refine Or.inl ?_
        rw [queued, queued, h.inv.batch (by rw [hphase]; decide)]
        simp
      · exact fun _ hpolled => ⟨hpolled.closes, hpolled.bits, fun _ => hremaining⟩
  | task hphase htodo htasks _ => exact h.task horderly hphase htodo htasks
  | endBatch hphase htodo _ =>
      refine ⟨_, rfl, h.duties.idles ?_⟩
      refine idles_moved rfl rfl rfl rfl rfl rfl rfl (fun _ _ => rfl) ?_ (fun _ => Or.inl rfl) ?_
        fun _ _ hf => hf
      · rw [htodo]
        exact fun hmem => (by cases hmem)
      · intro _ hpolled
        exact ⟨hpolled.closes, hpolled.bits,
          fun _ => hpolled.remaining (by rw [hphase]; decide)⟩

end Ordered

theorem ordered_new (fd : C → Int) : Ordered chan (new fd) :=
  ⟨inv_new fd, fun hdown => (by cases hdown), duties_new fd⟩

theorem ordered_of_run {oneLoop : Bool} {fd : C → Int} {events : List (Event C)}
    (hrun : Run (Guarded (Step chan oneLoop) (Orderly chan)) (new fd) events w) :
    Ordered chan w := by
  refine hrun.invariant (ordered_new fd) ?_
  rintro w e w' h ⟨horderly, hstep⟩
  obtain ⟨w₁, hw₁, h'⟩ := h.exec horderly hstep
  cases hw₁
  exact h'

omit [DecidableEq C] in
theorem overlooks_orderly (chan : C) : Overlooks (Orderly chan) := by
  intro v e he
  cases e with
  | server e => cases e <;> first | exact orderly_of_none id id id | cases he
  | _ => cases he

end Connection

namespace IoLoop
open Transition

variable {C : Type} [DecidableEq C] {oneLoop : C → Bool} {c : C} {w : IoLoop C}

/-- The event is one of the connection on channel `c`, or of the loop. -/
def Concerns (w : IoLoop C) (c : C) : Event C → Prop
  | .member d _ => d = c
  | .task _ => ∀ x ∈ w.tasks.head?, x.1 = c
  | _ => True

theorem ordered_project {fd : C → Int} {events : List (Event C)}
    (hrun : Run (Guarded (Step oneLoop) (OwnedUnder c (Connection.Orderly c))) (new fd) events w) :
    (w.project c).Ordered c := by
  obtain ⟨-, events', hrun', -⟩ := project_run (Connection.overlooks_orderly c) hrun
  exact Connection.ordered_of_run hrun'

/-- In a loop with any number of connections, no event of a connection meets an assertion that
fails, nor one of the loop, where nothing arms the connection once it is down. Each public
operation is one event. -/
theorem assertions_hold {fd : C → Int} {events : List (Event C)}
    (hrun : Run (Guarded (Step oneLoop) (OwnedUnder c (Connection.Orderly c))) (new fd) events w)
    {e : Event C} {r : Except Fault (IoLoop C)}
    (hnext : w.OwnedUnder c (Connection.Orderly c) e) (hconcerns : w.Concerns c e)
    (hexec : Exec oneLoop w e r) : ∃ w', r = .ok w' := by
  have h := ordered_project hrun
  have hagrees : w.poller.Agrees := h.inv.wired.agrees
  cases hexec with
  | @member d e r hpermits hexec =>
      obtain rfl : d = c := hconcerns
      obtain ⟨v, hv, -⟩ := h.exec (hnext.2 e (if_pos rfl))
        (hexec.behind (ofMember_of_permits hpermits) _ _)
      cases r with
      | error f => cases hv
      | ok v => exact ⟨_, rfl⟩
  | poll _ _ hreports =>
      rw [hagrees.fillActiveChannels hreports]
      exact ⟨_, rfl⟩
  | handleEvent | doPendingFunctors | endBatch => exact ⟨_, rfl⟩
  | @task d t rest r hphase hidle htasks hr =>
      obtain rfl : d = c := hconcerns (d, t) (by rw [htasks]; rfl)
      have hhead : (w.project d).tasks = t :: rest.map (share d) := by
        simp [project, Connection.behind, htasks, share]
      obtain ⟨v, hv, -⟩ := h.task (r := r) (hnext.2 (.task r) rfl) hphase (hidle d) hhead
      have hbehind := @Connection.behind_runTask _ _ d (view { w with tasks := rest } d) r t
        (rest.map (share d)) (w.pendingTasks.map (share d))
      have hok := hv.symm.trans hbehind
      change ∃ w', (do
        let v ← (view { w with tasks := rest } d).runTask d r t
        return { w with tasks := rest }.put d v) = .ok w'
      cases hrun : (view { w with tasks := rest } d).runTask d r t with
      | error f =>
          rw [hrun] at hok
          cases hok
      | ok v => exact ⟨_, rfl⟩
  | otherChannel _ hallowed _ =>
      obtain ⟨-, -, ctls, -, hexec⟩ := Poller.exec_eq hagrees hallowed
      rw [hexec]
      exact ⟨_, rfl⟩

/-- Of two connections on one loop the second has been established. -/
theorem two_orderly_run : ∃ (events : List (Event Bool)) (w : IoLoop Bool),
    Run (Guarded (Step fun _ => true) (OwnedUnder true (Connection.Orderly true)))
      (new fun c => if c then 8 else 7) events w ∧ (w.members true).conn.state = .kConnected := by
  obtain ⟨w, hrun, hstate⟩ := two_connections_run
  refine ⟨_, w, (hrun.refines (I := fun _ => True) id trivial ?_).2, hstate⟩
  rintro w e w' - ⟨⟨howned, hkeeps⟩, hstep⟩
  exact ⟨trivial, ⟨howned, fun e' he' => (hkeeps e' he').2⟩, hstep⟩

theorem assertions_hold_second : ∃ (events : List (Event Bool)) (w w' : IoLoop Bool),
    Run (Guarded (Step fun _ => true) (OwnedUnder true (Connection.Orderly true)))
      (new fun c => if c then 8 else 7) events w ∧
      Step (fun _ => true) w (.member true (.server (.shutdown false))) w' := by
  obtain ⟨events, w, hrun, hstate⟩ := two_orderly_run
  have h := (ordered_project hrun).duties
  have hconnected : (w.project true).server.conn.state = .kConnected := hstate
  have haccepted := h.accepted (by rw [hconnected]; decide)
  have hdestroyed := (h.not_destroyed (by rw [hconnected]; decide)).2.2.2
  have hexec : Exec (fun _ => true) w (.member true (.server (.shutdown false))) _ :=
    .member (fun hown => by cases hown) (.server rfl (.shutdown fun hown => by cases hown))
  have hnext : w.OwnedUnder true (Connection.Orderly true)
      (.member true (.server (.shutdown false))) := by
    refine ⟨⟨haccepted, fun hnot => absurd hdestroyed hnot⟩, ?_⟩
    intro e he
    cases he
    exact Connection.orderly_of_none id id id
  obtain ⟨w', hw'⟩ := assertions_hold hrun hnext rfl hexec
  rw [hw'] at hexec
  exact ⟨events, w, w', hrun, hexec⟩

/-- Nothing of the connection on channel `c` waits, in its loop or in that of the server. -/
def Settled (w : IoLoop C) (c : C) : Prop :=
  (w.members c).todo = [] ∧ (w.members c).removals = 0 ∧
    ∀ x ∈ w.tasks ++ w.pendingTasks, x.1 ≠ c

theorem count_queued_project {t : ConnTask} (ht : t ≠ .io .other) :
    (w.project c).queued.count t = (w.tasks ++ w.pendingTasks).count (c, t) := by
  have hqueued : (w.project c).queued = (w.tasks ++ w.pendingTasks).map (share c) := by
    simp [Connection.queued, project, Connection.behind, view]
  rw [hqueued, List.count, List.count, List.countP_map]
  refine List.countP_congr ?_
  rintro ⟨d, u⟩ -
  by_cases hd : d = c
  · simp [share, hd]
  · simp [share, hd, ht.symm]

theorem Settled.count (h : w.Settled c) {t : ConnTask} (ht : t ≠ .io .other) :
    (w.project c).queued.count t = 0 := by
  rw [count_queued_project ht, List.count_eq_zero]
  exact fun hmem => h.2.2 _ hmem rfl

/-- A connection is closed, destroyed and told to be down once at most. When nothing of it waits
it is established, in the table and open, or it is down, out of the table and the poller, and
has been closed and destroyed. Each public operation is one event. -/
theorem connections_settle {fd : C → Int} {events : List (Event C)}
    (hrun : Run (Guarded (Step oneLoop) (OwnedUnder c (Connection.Orderly c))) (new fd) events w) :
    ((w.members c).closeCallbacks ≤ 1 ∧ (w.members c).destroyed ≤ 1 ∧
      (w.members c).notices.countP (fun n => !n.up) ≤ 1) ∧
    (w.Settled c → (w.members c).accepted = true →
      (((w.members c).conn.state = .kConnected ∨ (w.members c).conn.state = .kDisconnecting) ∧
        (w.members c).listed = true ∧ (w.members c).destroyed = 0) ∨
      ((w.members c).conn.state = .kDisconnected ∧ (w.members c).listed = false ∧
        (w.members c).closeCallbacks = 1 ∧ (w.members c).destroyed = 1 ∧
        (∀ fd, w.poller.channels fd ≠ some c) ∧
        ∀ fd mask, w.poller.interest fd ≠ some (mask, c))) := by
  have h := ordered_project hrun
  have hestablished := h.duties.established
  have hclosed := h.duties.closed
  have hremoved := h.duties.removed
  have hlisted := h.duties.listed
  have hone : (if (w.project c).server.conn.state = .kDisconnected then 1 else 0) ≤ 1 := by
    split <;> decide
  refine ⟨⟨?_, ?_, ?_⟩, ?_⟩
  · change (w.project c).server.closeCallbacks ≤ 1
    omega
  · change (w.project c).server.destroyed ≤ 1
    omega
  · exact h.inv.chores.downs.trans_le hone
  intro hsettled haccepted
  have ⟨htodo, hremovals, _⟩ := hsettled
  change (w.project c).server.todo = [] at htodo
  change (w.project c).server.removals = 0 at hremovals
  change (w.project c).server.accepted = true at haccepted
  rw [hsettled.count (by decide), if_pos haccepted] at hestablished hlisted
  rw [hsettled.count (by decide), hremovals] at hremoved
  rw [htodo] at hclosed
  change ((w.project c).isOpen ∧ (w.project c).server.listed = true ∧
    (w.project c).server.destroyed = 0) ∨ _
  cases hstate : (w.project c).server.conn.state with
  | kConnecting =>
      rw [if_pos hstate] at hestablished
      cases hestablished
  | kConnected | kDisconnecting =>
      rw [if_neg (by rw [hstate]; decide)] at hclosed
      have hdestroyed : (w.project c).server.destroyed = 0 := by
        simp only [List.count_nil] at hclosed
        omega
      refine Or.inl ⟨?_, ?_, hdestroyed⟩
      · simp [Connection.isOpen, hstate]
      · by_contra hnot
        rw [if_neg hnot] at hlisted
        omega
  | kDisconnected =>
      rw [if_pos hstate] at hclosed
      simp only [List.count_nil] at hclosed
      have hdestroyed : (w.project c).server.destroyed = 1 := by omega
      have hindex := (h.disarmed hstate).gone (by omega) (by rw [htodo]; exact List.not_mem_nil)
      obtain ⟨hchannels, hinterest⟩ := h.inv.wired.agrees.out_of_poller hindex
      have hcloseCallbacks : (w.project c).server.closeCallbacks = 1 := by omega
      refine Or.inr ⟨hstate, ?_, hcloseCallbacks, hdestroyed, hchannels, hinterest⟩
      change (w.project c).server.listed = false
      by_contra hnot
      rw [if_pos (by simpa using hnot)] at hlisted
      omega

theorem connections_settle_second : ∃ (events : List (Event Bool)) (w : IoLoop Bool),
    Run (Guarded (Step fun _ => true) (OwnedUnder true (Connection.Orderly true)))
      (new fun c => if c then 8 else 7) events w ∧
      (w.members true).closeCallbacks ≤ 1 ∧ (w.members true).destroyed ≤ 1 ∧
      (w.members true).notices.countP (fun n => !n.up) ≤ 1 := by
  obtain ⟨events, w, hrun, -⟩ := two_orderly_run
  exact ⟨events, w, hrun, (connections_settle hrun).1⟩

end IoLoop
end ProtoRpc
