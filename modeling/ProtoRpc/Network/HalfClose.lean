import ProtoRpc.Network.ConnectionSteps

/-!
Output and half-close. While a connection is open its channel is registered for
writing exactly when there is output, and the write side is shut down only with no
output left. A connection that is disconnecting has its write side shut down, has
output to write first, or has a functor queued that will see to it; only
`forceCloseWithDelay`, whose timer is commented out, can leave it with none of them.
-/
namespace ProtoRpc.Connection
open Transition

variable {C : Type} [DecidableEq C] {chan : C} {w w' : Connection C} {s : ServerConnection C}

theorem registeredForWriting_iff (h : Inv chan w) :
    w.registeredForWriting chan ↔ w.server.conn.isWriting = true := by
  constructor
  · rintro ⟨mask, hmask, hinterest⟩
    obtain ⟨-, -, rfl⟩ := (h.wired.agrees.polled _ _ _).mp hinterest
    rw [← h.wired.writing]
    exact hmask
  · intro hwriting
    have hwrite := h.wired.writing.trans hwriting
    refine ⟨_, hwrite, (h.wired.agrees.polled _ _ _).mpr ⟨rfl, h.wired.added ?_, rfl⟩⟩
    intro hnone
    rw [hnone] at hwrite
    cases hwrite

/-- Something is done, or is going to be done, to shut the write side down. -/
def HalfCloses (w : Connection C) : Prop :=
  w.server.conn.writeShutdown = true ∨ w.server.conn.isWriting = true ∨
    ∃ f : Functor, f.closes = true ∧ .io (.own f) ∈ w.queued

/-- Neither `shutdown` nor `send` has an effect any more. -/
def Ended (w : Connection C) : Prop :=
  w.server.conn.state = .kDisconnecting ∨ w.server.conn.state = .kDisconnected

/-- What a step does for the half-close of a connection. -/
structure Turn (w w' : Connection C) : Prop where
  ended : w.Ended → w'.Ended
  shut : w.server.conn.writeShutdown = true → w'.server.conn.writeShutdown = true
  emptied : w.server.conn.writeShutdown = false → w'.server.conn.writeShutdown = true →
    w.isOpen → w'.server.conn.outputBuffer.content = []
  sees : w'.server.conn.state = .kDisconnecting → w'.HalfCloses ∨
    (w.server.conn.state = .kDisconnecting ∧ w.server.conn.isWriting = false ∧
      ∀ f : Functor, f.closes = true → .io (.own f) ∈ w.queued → .io (.own f) ∈ w'.queued)

omit [DecidableEq C] in
/-- An operation, before what it has queued is collected. -/
theorem Turn.works {c : TcpConnection} (hworks : w.server.conn.Works c)
    (hsees : c.state = .kDisconnecting → w'.HalfCloses ∨
      (w.server.conn.state = .kDisconnecting ∧ w.server.conn.isWriting = false ∧
        ∀ f : Functor, f.closes = true → .io (.own f) ∈ w.queued → .io (.own f) ∈ w'.queued))
    (hconn : w'.server.conn = { c with pendingFunctors := [] }) : Turn w w' where
  ended := by
    rw [Ended, Ended, hconn]
    intro hended
    rcases hworks.keeps with hsame | ⟨-, hdisconnecting⟩
    · exact hsame.symm ▸ hended
    · exact Or.inl hdisconnecting
  shut := by
    rw [hconn]
    exact hworks.shut
  emptied := by
    rw [hconn]
    intro hnot hshut hopen
    refine hworks.emptied hnot hshut ?_
    exact TcpConnection.ne_down_of_open (hworks.keeps.open_iff.mpr hopen)
  sees := by
    rw [hconn]
    exact hsees

omit [DecidableEq C] in
/-- A step that leaves the connection, its input apart, and the functors that close. -/
theorem Turn.same (hstate : w'.server.conn.state = w.server.conn.state)
    (hwriting : w'.server.conn.isWriting = w.server.conn.isWriting)
    (hshut : w'.server.conn.writeShutdown = w.server.conn.writeShutdown)
    (hqueued : ∀ f : Functor, f.closes = true → .io (.own f) ∈ w.queued →
      .io (.own f) ∈ w'.queued) : Turn w w' where
  ended := by
    rw [Ended, Ended, hstate]
    exact id
  shut := fun hold => hshut.trans hold
  emptied := by
    intro hnot hset
    cases hnot.symm.trans (hshut.symm.trans hset)
  sees := by
    intro hdisconnecting
    cases hw : w.server.conn.isWriting with
    | true => exact Or.inl (Or.inr (Or.inl (hwriting.trans hw)))
    | false => exact Or.inr ⟨hstate ▸ hdisconnecting, rfl, hqueued⟩

omit [DecidableEq C] in
/-- A step that closes or establishes the connection. -/
theorem Turn.to (hended : w.Ended → w'.Ended)
    (hstate : w'.server.conn.state ≠ .kDisconnecting)
    (hshut : w'.server.conn.writeShutdown = w.server.conn.writeShutdown) : Turn w w' where
  ended := hended
  shut := fun hold => hshut.trans hold
  emptied := by
    intro hnot hset
    cases hnot.symm.trans (hshut.symm.trans hset)
  sees := fun hdisconnecting => absurd hdisconnecting hstate

/-- An operation that sees to the half-close; `v` is `w` but for a frame or a task
that does not close. -/
theorem Turn.adopt {v : Connection C}
    (hqueued : ∀ f : Functor, f.closes = true → .io (.own f) ∈ w.queued → .io (.own f) ∈ v.queued)
    {c : TcpConnection} (hworks : w.server.conn.Works c) (hsees : w.server.conn.SeesTo c)
    (hs : v.server.adopt chan c = .ok s) : Turn w (v.collect s) := by
  obtain ⟨p, -, rfl⟩ := ServerConnection.adopt_inv hs
  refine .works hworks ?_ rfl
  intro hstate
  rcases hsees hstate with (hshut | hwriting | ⟨f, hf, hcloses⟩) | ⟨hdisconnecting, hidle⟩
  · exact Or.inl (Or.inl hshut)
  · exact Or.inl (Or.inr (Or.inl hwriting))
  · refine Or.inl (Or.inr (Or.inr ⟨f, hcloses, ?_⟩))
    rw [queued_collect]
    simp [queued, hf]
  · refine Or.inr ⟨hdisconnecting, hidle, ?_⟩
    intro f hcloses hmem
    have hmem' := hqueued f hcloses hmem
    rw [queued_collect]
    simp only [queued, List.mem_append, List.map_append] at hmem' ⊢
    tauto

theorem Turn.handleClose {v : Connection C} (hv : v.server.conn.writeShutdown =
      w.server.conn.writeShutdown) (hs : v.server.handleClose chan = .ok s) :
    Turn w (v.collect s) := by
  obtain ⟨-, p, -, rfl⟩ := ServerConnection.handleClose_inv hs
  exact .to (fun _ => Or.inr rfl) (fun hstate => by cases hstate) hv

theorem Turn.connectEstablished {v : Connection C} (hv : v.server.conn = w.server.conn)
    (hs : v.server.connectEstablished chan = .ok s) : Turn w (v.collect s) := by
  obtain ⟨hstate, p, -, rfl⟩ := ServerConnection.connectEstablished_inv hs
  have hshut : v.server.conn.writeShutdown = w.server.conn.writeShutdown := by rw [hv]
  refine .to ?_ (fun hnot => by cases hnot) hshut
  rintro (hended | hended)
  · cases hstate.symm.trans ((congrArg TcpConnection.state hv).trans hended)
  · cases hstate.symm.trans ((congrArg TcpConnection.state hv).trans hended)

omit [DecidableEq C] in
theorem mem_queued_collect {t : ConnTask} (ht : t ∈ w.queued)
    (hs : ∀ g ∈ w.server.pendingFunctors, g ∈ s.pendingFunctors) : t ∈ (w.collect s).queued := by
  rw [queued_collect]
  simp only [queued, List.mem_append, List.mem_map] at ht ⊢
  rcases ht with htask | hpending | ⟨g, hg, rfl⟩
  · exact Or.inl htask
  · exact Or.inr (Or.inl hpending)
  · exact Or.inr (Or.inr ⟨g, hs g hg, rfl⟩)

omit [DecidableEq C] in
/-- What the server does without the connection. -/
theorem Turn.moved (hconn : s.conn = w.server.conn)
    (hs : ∀ g ∈ w.server.pendingFunctors, g ∈ s.pendingFunctors) : Turn w (w.collect s) :=
  .same (congrArg TcpConnection.state hconn) (congrArg TcpConnection.isWriting hconn)
    (congrArg TcpConnection.writeShutdown hconn) fun _ _ ht => mem_queued_collect ht hs

omit [DecidableEq C] in
theorem Turn.removeConnectionInLoop {v : Connection C} (hconn : v.server.conn = w.server.conn)
    (hqueued : ∀ f : Functor, f.closes = true → .io (.own f) ∈ w.queued → .io (.own f) ∈ v.queued)
    (hs : v.server.removeConnectionInLoop = .ok s) : Turn w (v.collect s) := by
  obtain rfl := ServerConnection.removeConnectionInLoop_inv hs
  refine .same (congrArg TcpConnection.state hconn) (congrArg TcpConnection.isWriting hconn)
    (congrArg TcpConnection.writeShutdown hconn) ?_
  intro f hf ht
  exact mem_queued_collect (hqueued f hf ht) fun _ hg => List.mem_append_left _ hg

theorem turn_runFrame (h : Inv chan w) {oneLoop : Bool} {f : Frame} {rest : List Frame}
    {read : Buffer.ReadResult} {write : WriteResult}
    (hwrite : write.Within w.server.conn.outputBuffer.readableBytes)
    (hs : ServerConnection.runFrame chan oneLoop { w.server with todo := rest } read write f =
      .ok s) : Turn w (w.collect s) := by
  let v : Connection C := { w with server := { w.server with todo := rest } }
  have hkept : ∀ f : Functor, f.closes = true → .io (.own f) ∈ w.queued →
      .io (.own f) ∈ v.queued := fun _ _ ht => ht
  cases f with
  | close => exact .handleClose (v := v) rfl hs
  | read =>
      obtain ⟨input, -, hcases⟩ := ServerConnection.handleRead_inv
        (s := { w.server with todo := rest }) h.wired.wf.input hs
      rcases hcases with ⟨-, hclose⟩ | ⟨-, called, -, rfl⟩
      · exact .handleClose (v := { w with server :=
          { w.server with todo := rest, conn := { w.server.conn with inputBuffer := input } } })
          rfl hclose
      · exact .same rfl rfl rfl fun _ _ ht => mem_queued_collect ht fun _ hg => hg
  | write =>
      obtain ⟨c, hc, hs⟩ := bind_ok_inv hs
      obtain ⟨hworks, hsees⟩ := TcpConnection.handleWrite_works h.wired.wf h.wired.pending
        h.wired.queue hwrite hc h.wired.idle
      exact .adopt (v := v) hkept hworks hsees hs
  | error | connectionCallback | messageCallback =>
      cases hs
      exact .moved rfl fun _ hg => hg
  | closeCallback =>
      cases oneLoop with
      | true =>
          exact .removeConnectionInLoop (v := { v with server :=
            { v.server with closeCallbacks := w.server.closeCallbacks + 1 } }) rfl hkept hs
      | false =>
          cases hs
          exact .moved rfl fun _ hg => hg
  | remove =>
      obtain ⟨p, -, rfl⟩ := ServerConnection.removeChannel_inv hs
      exact .moved rfl fun _ hg => hg

theorem turn_server (h : Inv chan w) {oneLoop : Bool} {e : ServerConnection.Event C}
    {r : Except Fault (ServerConnection C)} (he : e.ofQueue = false)
    (hexec : ServerConnection.Exec chan oneLoop w.server e r) (hr : r = .ok s) :
    Turn w (w.collect s) := by
  have hwf := h.wired.wf
  have hpending := h.wired.pending
  have hqueue := h.wired.queue
  cases hexec with
  | newConnection _ _ _ =>
      cases oneLoop with
      | true =>
          exact .connectEstablished (v := { w with server :=
            { w.server with accepted := true, listed := true } }) rfl hr
      | false =>
          cases hr
          exact .moved rfl fun _ hg => List.mem_append_left _ hg
  | send _ _ _ =>
      obtain ⟨⟨c, b⟩, hc, hs⟩ := bind_ok_inv hr
      obtain ⟨hworks, hsees⟩ := TcpConnection.send_works hwf hpending hqueue hc
      exact .adopt (fun _ _ ht => ht) hworks hsees hs
  | shutdown _ =>
      obtain ⟨hworks, hsees⟩ := TcpConnection.shutdown_works hwf hpending hqueue _
      exact .adopt (fun _ _ ht => ht) hworks hsees hr
  | forceClose _ =>
      obtain ⟨hworks, hsees⟩ := TcpConnection.forceClose_works hwf hpending hqueue
      exact .adopt (fun _ _ ht => ht) hworks hsees hr
  | retrieve _ _ =>
      obtain ⟨input, -, hs⟩ := bind_ok_inv hr
      cases hs
      exact .same rfl rfl rfl fun _ _ ht => mem_queued_collect ht fun _ hg => hg
  | poll _ _ _ =>
      obtain ⟨active, -, hs⟩ := bind_ok_inv hr
      cases hs
      exact .moved rfl fun _ hg => hg
  | handleEvent _ _ _ =>
      cases hr
      exact .moved rfl fun _ hg => hg
  | frame _ hwrite => exact turn_runFrame h hwrite hr
  | removeConnectionInLoop _ =>
      exact .removeConnectionInLoop (v := { w with server :=
        { w.server with removals := w.server.removals - 1 } }) rfl (fun _ _ ht => ht) hr
  | otherFunctor =>
      cases hr
      exact .moved rfl fun _ hg => List.mem_append_left _ hg
  | otherChannel _ _ _ =>
      obtain ⟨p, -, hs⟩ := bind_ok_inv hr
      cases hs
      exact .moved rfl fun _ hg => hg
  | doPendingFunctors => cases he
  | functor => cases he
  | endBatch => cases he

theorem turn_startReadInLoop {v : Connection C} (hsame : Turn w v)
    (hw' : v.startReadInLoop chan = .ok w') : Turn w w' := by
  rcases startReadInLoop_inv hw' with ⟨-, p, -, rfl⟩ | ⟨-, rfl⟩
  · exact ⟨hsame.ended, hsame.shut, hsame.emptied, hsame.sees⟩
  · exact hsame

theorem turn_stopReadInLoop {v : Connection C} (hsame : Turn w v)
    (hw' : v.stopReadInLoop chan = .ok w') : Turn w w' := by
  rcases stopReadInLoop_inv hw' with ⟨-, p, -, rfl⟩ | ⟨-, rfl⟩
  · exact ⟨hsame.ended, hsame.shut, hsame.emptied, hsame.sees⟩
  · exact hsame

omit [DecidableEq C] in
/-- A task that does not close leaves the batch. -/
theorem mem_queued_popTask {t : ConnTask} {rest : List ConnTask} (htasks : w.tasks = t :: rest)
    (ht : ∀ f : Functor, f.closes = true → t ≠ .io (.own f)) (f : Functor)
    (hf : f.closes = true) (hmem : .io (.own f) ∈ w.queued) :
    .io (.own f) ∈ queued { w with tasks := rest } := by
  rw [queued, htasks, List.cons_append] at hmem
  rcases List.mem_cons.mp hmem with hhead | hrest
  · exact absurd hhead.symm (ht f hf)
  · exact hrest

theorem turn_runTask (h : Inv chan w) {t : ConnTask} {rest : List ConnTask} {r : WriteResult}
    (htasks : w.tasks = t :: rest) (hw' : runTask chan { w with tasks := rest } r t = .ok w') :
    Turn w w' := by
  let v : Connection C := { w with tasks := rest }
  have hmem := mem_queued_head htasks
  cases t with
  | startReadInLoop =>
      refine turn_startReadInLoop (v := v) (.same rfl rfl rfl ?_) hw'
      exact mem_queued_popTask htasks (by simp)
  | stopReadInLoop =>
      refine turn_stopReadInLoop (v := v) (.same rfl rfl rfl ?_) hw'
      exact mem_queued_popTask htasks (by simp)
  | io f =>
      obtain ⟨s, hs, hcollect⟩ := bind_ok_inv hw'
      cases hcollect
      cases f with
      | connectEstablished => exact .connectEstablished (v := v) rfl hs
      | connectDestroyed =>
          have hstate := h.chores.down_of_task hmem
          have hdown : w.server.conn.state ≠ .kConnected := by
            rw [hstate]
            decide
          cases (if_neg hdown).symm.trans hs
          refine .to id ?_ rfl
          intro hdisconnecting
          cases hstate.symm.trans hdisconnecting
      | other =>
          cases hs
          refine .same rfl rfl rfl ?_
          intro f hf hmem
          rw [queued_collect]
          exact mem_queued_popTask htasks (by simp) f hf hmem
      | own f =>
          cases f with
          | sendInLoop m =>
              obtain ⟨c, hc, hs⟩ := bind_ok_inv hs
              obtain ⟨hworks, hsees⟩ := TcpConnection.sendInLoop_works h.wired.wf h.wired.pending
                h.wired.queue hc
              refine .adopt (v := v) (mem_queued_popTask htasks ?_) hworks hsees hs
              rintro g hg hm
              cases hm
              cases hg
          | shutdownInLoop =>
              obtain ⟨hworks, hdone⟩ := TcpConnection.shutdownInLoop_works h.wired.wf
                h.wired.pending h.wired.queue (h.chores.ended hmem)
              obtain ⟨p, -, rfl⟩ := ServerConnection.adopt_inv hs
              refine .works hworks ?_ rfl
              intro _
              rcases hdone with hshut | hwriting
              · exact Or.inl (Or.inl hshut)
              · exact Or.inl (Or.inr (Or.inl hwriting))
          | forceCloseInLoop =>
              simp only [ServerConnection.runFunctor] at hs
              split at hs
              · exact .handleClose (v := v) rfl hs
              · rename_i hclosed
                cases hs
                refine .to id ?_ rfl
                intro hdisconnecting
                exact hclosed (Or.inr hdisconnecting)

/-- Every step but `forceCloseWithDelay`. -/
theorem turn_exec (h : Inv chan w) {oneLoop : Bool} {e : Event C}
    {r : Except Fault (Connection C)} (hexec : Exec chan oneLoop w e r) (hr : r = .ok w')
    (he : e ≠ .forceCloseWithDelay) : Turn w w' := by
  cases hexec with
  | server hqueue hexec =>
      obtain ⟨s, hs, hcollect⟩ := bind_ok_inv hr
      cases hcollect
      exact turn_server h hqueue hexec hs
  | startRead hexposed hown =>
      rename_i own
      cases own with
      | true => exact turn_startReadInLoop (.same rfl rfl rfl fun _ _ ht => ht) hr
      | false =>
          cases hr
          refine .same rfl rfl rfl ?_
          intro f _ hmem
          simp only [queueInLoop, queued, List.mem_append] at hmem ⊢
          tauto
  | stopRead hexposed hown =>
      rename_i own
      cases own with
      | true => exact turn_stopReadInLoop (.same rfl rfl rfl fun _ _ ht => ht) hr
      | false =>
          cases hr
          refine .same rfl rfl rfl ?_
          intro f _ hmem
          simp only [queueInLoop, queued, List.mem_append] at hmem ⊢
          tauto
  | forceCloseWithDelay => exact absurd rfl he
  | doPendingFunctors hphase _ _ =>
      cases hr
      refine .same rfl rfl rfl ?_
      intro f _ hmem
      rw [queued, h.batch (by rw [hphase]; decide)] at hmem
      simpa [queued] using hmem
  | task _ _ htasks _ => exact turn_runTask h htasks hr
  | endBatch _ _ _ =>
      cases hr
      exact .same rfl rfl rfl fun _ _ ht => ht

/-- Forgets earlier calls of `shutdownWrite`, so that one of the next step shows. -/
def unshut (w : Connection C) : Connection C :=
  { w with server := { w.server with conn := { w.server.conn with writeShutdown := false } } }

theorem Inv.unshut (h : Inv chan w) : Inv chan w.unshut where
  wired := { h.wired with wf := ⟨h.wired.wf.input, h.wired.wf.output⟩ }
  chores :=
    { h.chores with
      fresh := fun hnot hup => ⟨rfl, (h.chores.fresh hnot hup).2⟩ }
  batch := h.batch
  polled := h.polled.moved rfl rfl (Nat.le_refl _)

theorem forceCloseWithDelay_inv (h : Inv chan w) {oneLoop : Bool}
    (hstep : Step chan oneLoop w .forceCloseWithDelay w') :
    w'.server.conn = w.server.conn.forceCloseWithDelay ∧ w'.queued = w.queued := by
  have hnone : w.server.conn.forceCloseWithDelay.pendingFunctors = [] := by
    rw [TcpConnection.forceCloseWithDelay]
    split
    · exact h.wired.queue
    · exact h.wired.queue
  obtain ⟨r, hr, hexec⟩ : ∃ r, r = .ok w' ∧ Exec chan oneLoop w .forceCloseWithDelay r :=
    ⟨_, rfl, hstep⟩
  cases hexec
  obtain ⟨s, hs, hcollect⟩ := bind_ok_inv hr
  cases hcollect
  obtain ⟨p, -, rfl⟩ := ServerConnection.adopt_inv hs
  refine ⟨?_, ?_⟩
  · simp [collect, ← hnone]
  · rw [queued_collect]
    simp [queued, hnone]

theorem forceCloseWithDelay_writeShutdown (c : TcpConnection) :
    c.forceCloseWithDelay.writeShutdown = c.writeShutdown := by
  rw [TcpConnection.forceCloseWithDelay]
  split <;> rfl

/-- While a connection is open its channel is registered for writing exactly when
there is output, and no step shuts the write side down with output left. -/
theorem writes_pending_output {oneLoop : Bool} {fd : C → Int} {events : List (Event C)}
    (hrun : Run (Step chan oneLoop) (new fd) events w) (hopen : w.isOpen) :
    (w.registeredForWriting chan ↔ w.server.conn.outputBuffer.content ≠ []) ∧
      ∀ e w', Step chan oneLoop w.unshut e w' → w'.server.conn.writeShutdown = true →
        w'.server.conn.outputBuffer.content = [] := by
  have h := inv_of_run hrun
  have hpending := h.wired.pending (TcpConnection.ne_down_of_open hopen)
  refine ⟨(registeredForWriting_iff h).trans hpending, ?_⟩
  intro e w' hstep hshut
  by_cases he : e = .forceCloseWithDelay
  · subst he
    rw [(forceCloseWithDelay_inv h.unshut hstep).1, forceCloseWithDelay_writeShutdown] at hshut
    cases hshut
  · exact (turn_exec h.unshut hstep rfl he).emptied rfl hshut hopen

/-- A connection is established, on a server with one loop. -/
theorem connected_run : ∃ w : Connection Unit,
    Run (Step () true) (new fun _ => 7)
      [.server .newConnection, .server (.frame (.data []) (.wrote 0))] w ∧
    w.server.conn = { TcpConnection.new with state := .kConnected } ∧ w.queued = [] ∧
    w.server.notices ≠ [] ∧ w.server.listed = true ∧ w.server.phase = .polling := by
  have hsole : (Poller.new fun _ : Unit => 7).Sole () := fun _ hd => absurd rfl hd
  have hnew := run_then (.nil : Run (Step () true) (new fun _ : Unit => 7) [] _)
    (.server .newConnection) (.server rfl (.newConnection rfl hsole fun _ => rfl)) rfl
  have hcalled := run_then hnew (.server (.frame (.data []) (.wrote 0)))
    (.server rfl (.frame rfl (Nat.zero_le _))) rfl
  exact ⟨_, hcalled, rfl, rfl, List.cons_ne_nil _ _, rfl, rfl⟩

/-- Of three octets the kernel takes one. -/
theorem send_partial : ∃ message rest out : Buffer, message.WF ∧
    (WriteResult.wrote 1).Within message.readableBytes ∧ out.WF ∧ out.content = [2, 3] ∧
    { TcpConnection.new with state := .kConnected }.send true message (.wrote 1) =
      .ok (
        { TcpConnection.new with
          state := .kConnected
          handed := [[1, 2, 3]]
          written := [1]
          outputBuffer := out
          isWriting := true }, rest) := by
  let message : Buffer := ⟨List.replicate 8 0 ++ [1, 2, 3], 8, 11⟩
  let c : TcpConnection := { TcpConnection.new with state := .kConnected, handed := [[1, 2, 3]] }
  have hwf : c.WF := ⟨TcpConnection.new_wf.input, TcpConnection.new_wf.output⟩
  obtain ⟨out, hout, hcontent, hsend⟩ :=
    TcpConnection.sendInLoop_eq hwf (by decide) [1, 2, 3] (.wrote 1)
  refine ⟨message, message.retrieveAll, out, ⟨by decide, by decide, by decide⟩,
    Nat.le_add_left 1 2, hout, ?_, ?_⟩
  · calc out.content = (Buffer.new Buffer.kInitialSize).content ++ [2, 3] := hcontent
      _ = [2, 3] := by rw [Buffer.new_content, List.nil_append]
  · rw [TcpConnection.send, if_pos rfl, if_pos rfl]
    change (do
      let c ← c.sendInLoop [1, 2, 3] (.wrote 1)
      pure (c, _)) = _
    rw [hsend]
    rfl

/-- `shutdown` waits for the other two. -/
def flushing (out : Buffer) : TcpConnection :=
  { TcpConnection.new with
    state := .kDisconnecting
    handed := [[1, 2, 3]]
    written := [1]
    outputBuffer := out
    isWriting := true }

theorem handleWrite_rest {out : Buffer} (hout : out.WF) (hcontent : out.content = [2, 3]) :
    (WriteResult.wrote 2).Within out.readableBytes ∧
      ∃ c, (flushing out).handleWrite (.wrote 2) = .ok c ∧ c.isWriting = false ∧
        c.writeShutdown = true := by
  have hwf : (flushing out).WF := ⟨TcpConnection.new_wf.input, hout⟩
  have hall : (WriteResult.wrote 2).Within out.readableBytes := by
    have hbytes := Buffer.length_content hout
    rw [hcontent] at hbytes
    exact Nat.le_of_eq hbytes
  refine ⟨hall, ?_⟩
  rcases TcpConnection.handleWrite_cases hwf hall with ⟨-, hnone⟩ | ⟨-, -, out', -, hempty, hwrite⟩
  · cases hnone rfl
  · change out'.content = out.content.drop 2 at hempty
    rw [hcontent] at hempty
    refine ⟨_, hwrite, ?_, ?_⟩
    · exact congrArg (fun l : List UInt8 => l.length != 0) hempty
    · exact congrArg (fun l : List UInt8 => false || (l.length == 0 && true)) hempty

theorem step_send {oneLoop own : Bool} {buf buf' : Buffer} {r : WriteResult} {c : TcpConnection}
    (hown : own = true → w.server.userCode = true) (hbuf : buf.WF)
    (hr : r.Within buf.readableBytes) (hsend : w.server.conn.send own buf r = .ok (c, buf'))
    (hs : w.server.adopt chan c = .ok s) :
    Step chan oneLoop w (.server (.send own buf r)) (w.collect s) := by
  have hexec : Exec chan oneLoop w (.server (.send own buf r)) _ :=
    .server rfl (.send hown hbuf hr)
  rw [hsend] at hexec
  change Exec chan oneLoop w _ (do
    let s ← w.server.adopt chan c
    return w.collect s) at hexec
  rw [hs] at hexec
  exact hexec

theorem step_handleWrite {oneLoop : Bool} {rest : List Frame} {read : Buffer.ReadResult}
    {r : WriteResult} {c : TcpConnection} (htodo : w.server.todo = .write :: rest)
    (hr : r.Within w.server.conn.outputBuffer.readableBytes)
    (hwrite : w.server.conn.handleWrite r = .ok c)
    (hs : { w.server with todo := rest }.adopt chan c = .ok s) :
    Step chan oneLoop w (.server (.frame read r)) (w.collect s) := by
  have hexec : Exec chan oneLoop w (.server (.frame read r)) _ := .server rfl (.frame htodo hr)
  change Exec chan oneLoop w _ (do
    let s ← (do
      let c ← w.server.conn.handleWrite r
      { w.server with todo := rest }.adopt chan c)
    return w.collect s) at hexec
  rw [hwrite, ok_bind, hs] at hexec
  exact hexec

/-- The loop is about to write them. -/
theorem flushing_run : ∃ (events : List (Event Unit)) (w : Connection Unit) (out : Buffer),
    Run (Step () true) (new fun _ => 7) events w ∧ out.WF ∧ out.content = [2, 3] ∧
      w.server.conn = flushing out ∧ w.server.todo = [.write] ∧
      (w.server.poller.table ()).index = .kAdded := by
  have hsole : (Poller.new fun _ : Unit => 7).Sole () := fun _ hd => absurd rfl hd
  have hnew := run_then (.nil : Run (Step () true) (new fun _ : Unit => 7) [] _)
    (.server .newConnection) (.server rfl (.newConnection rfl hsole fun _ => rfl)) rfl
  have hcalled := run_then hnew (.server (.frame (.data []) (.wrote 0)))
    (.server rfl (.frame rfl (Nat.zero_le _))) rfl
  obtain ⟨message, rest, out, hmessage, hwithin, hout, hcontent, hsend⟩ := send_partial
  have hsent := hcalled.snoc (step_send (fun _ => rfl) hmessage hwithin hsend rfl)
  have hshut := run_then hsent (.server (.shutdown true)) (.server rfl (.shutdown fun _ => rfl)) rfl
  have hpoll := run_then hshut
    (.server (.poll 16 [⟨⟨false, false, true, false, false, false, false⟩, ()⟩]))
    (.server rfl (.poll rfl rfl ⟨by decide, by decide, List.forall_mem_singleton.mpr
      ⟨7, ⟨true, true⟩, rfl, by constructor <;> simp⟩⟩)) rfl
  have hhandle := run_then hpoll (.server .handleEvent) (.server rfl (.handleEvent rfl rfl rfl)) rfl
  exact ⟨_, _, out, hhandle, hout, hcontent, rfl, rfl, rfl⟩

/-- Two octets wait to be written; once they are the write side is shut down. -/
theorem writes_pending_output_connected : ∃ (events : List (Event Unit)) (e : Event Unit)
    (w w' : Connection Unit), Run (Step () true) (new fun _ => 7) events w ∧ w.isOpen ∧
      w.server.conn.outputBuffer.content = [2, 3] ∧ w.registeredForWriting () ∧
      Step () true w.unshut e w' ∧ w'.server.conn.writeShutdown = true ∧
      w'.server.conn.outputBuffer.content = [] := by
  obtain ⟨events, w, out, hrun, hout, hcontent, hconn, htodo, hindex⟩ := flushing_run
  have h := inv_of_run hrun
  have hopen : w.isOpen := Or.inr (congrArg TcpConnection.state hconn)
  have hpending : w.server.conn.outputBuffer.content = [2, 3] := by
    rw [hconn]
    exact hcontent
  have hunshut : w.unshut.server.conn = flushing out := by
    rw [unshut, hconn]
    rfl
  obtain ⟨hregistered, hemptied⟩ := writes_pending_output hrun hopen
  obtain ⟨hall, c, hwrite, hidle, hshut⟩ := handleWrite_rest hout hcontent
  obtain ⟨p, hp, -⟩ := Poller.interestOp_spec h.wired.agrees
    (h.wired.agrees.sole (c := ()) (by rw [hindex]; decide)) .disableWriting
  have hstep : Step () true w.unshut (.server (.frame (.data []) (.wrote 2)))
      (w.unshut.collect
        { w.unshut.server with
          todo := []
          conn := { c with pendingFunctors := [] }
          poller := p
          pendingFunctors := w.server.pendingFunctors ++ c.pendingFunctors.map .own }) := by
    refine step_handleWrite htodo (by rw [hunshut]; exact hall) (by rw [hunshut]; exact hwrite) ?_
    have hwriting : w.unshut.server.conn.isWriting = true := congrArg TcpConnection.isWriting hunshut
    rw [ServerConnection.adopt, hidle, if_neg (by rw [hwriting]; decide), if_neg (by decide)]
    exact ServerConnection.interestOp_ok hp
  exact ⟨events, _, w, _, hrun, hopen, hpending, hregistered.mpr (by rw [hpending]; decide),
    hstep, hshut, hemptied _ _ hstep hshut⟩

/-- A connection that is disconnecting has its write side shut down, or output to
write first, or a functor in the queue that goes on with it. -/
def Followed (chan : C) (w : Connection C) : Prop :=
  w.server.conn.state = .kDisconnecting →
    w.server.conn.writeShutdown = true ∨
    (w.registeredForWriting chan ∧ w.server.conn.outputBuffer.content ≠ []) ∨
    .io (.own .shutdownInLoop) ∈ w.queued ∨ .io (.own .forceCloseInLoop) ∈ w.queued

/-- `forceCloseWithDelay` is called on a connected connection only while it has
output. -/
def DelaysWriting (w : Connection C) (e : Event C) : Prop :=
  e = .forceCloseWithDelay → w.server.conn.state = .kConnected →
    w.server.conn.outputBuffer.content ≠ []

theorem followed_iff (h : Inv chan w) :
    w.Followed chan ↔ (w.server.conn.state = .kDisconnecting → w.HalfCloses) := by
  refine forall_congr' ?_
  intro hstate
  have hpending := h.wired.pending (by rw [hstate]; decide)
  have hcloses : (∃ f : Functor, f.closes = true ∧ .io (.own f) ∈ w.queued) ↔
      (.io (.own .shutdownInLoop) ∈ w.queued ∨ .io (.own .forceCloseInLoop) ∈ w.queued) := by
    constructor
    · rintro ⟨f, hf, hmem⟩
      cases f with
      | sendInLoop m => cases hf
      | shutdownInLoop => exact Or.inl hmem
      | forceCloseInLoop => exact Or.inr hmem
    · rintro (hmem | hmem)
      · exact ⟨_, rfl, hmem⟩
      · exact ⟨_, rfl, hmem⟩
  rw [HalfCloses, hcloses, registeredForWriting_iff h, ← hpending, and_self]

/-- Only output keeps a connection that is still connected from being left half-closed. -/
theorem halfCloses_connected (h : Inv chan w) (hconnected : w.server.conn.state = .kConnected) :
    w.HalfCloses ↔ w.server.conn.outputBuffer.content ≠ [] := by
  obtain ⟨hnot, hnone⟩ := h.chores.fresh (by rw [hconnected]; decide)
    (by rw [hconnected]; decide)
  rw [← h.wired.pending (by rw [hconnected]; decide)]
  constructor
  · rintro (hshut | hwriting | ⟨f, hf, hmem⟩)
    · cases hnot.symm.trans hshut
    · exact hwriting
    · cases (hnone f hmem).symm.trans hf
  · exact fun hwriting => Or.inr (Or.inl hwriting)

/-- The step decides whether the half-close is followed up. -/
theorem followed_step_iff (h : Inv chan w) (hfollowed : w.Followed chan) {oneLoop : Bool}
    {e : Event C} (hstep : Step chan oneLoop w e w') :
    w'.Followed chan ↔ w.DelaysWriting e := by
  have h' := h.exec hstep rfl
  rw [followed_iff h] at hfollowed
  rw [followed_iff h']
  by_cases he : e = .forceCloseWithDelay
  · subst he
    obtain ⟨hconn, hqueued⟩ := forceCloseWithDelay_inv h hstep
    have hcond : w.DelaysWriting .forceCloseWithDelay ↔ (w.server.conn.state = .kConnected →
        w.server.conn.outputBuffer.content ≠ []) := ⟨fun hd => hd rfl, fun hd _ => hd⟩
    rw [hcond]
    by_cases hconnected : w.server.conn.state = .kConnected
    · have hset : w.server.conn.forceCloseWithDelay =
          { w.server.conn with state := .kDisconnecting } := if_pos (Or.inl hconnected)
      have hsame : w'.HalfCloses ↔ w.HalfCloses := by
        rw [HalfCloses, HalfCloses, hqueued, hconn, hset]
      rw [hsame, halfCloses_connected h hconnected, hconn, hset]
      simp only [hconnected, forall_true_left]
    · refine ⟨fun _ hstate => absurd hstate hconnected, ?_⟩
      intro _ hstate
      have hsame : w.server.conn.forceCloseWithDelay = w.server.conn := by
        rw [TcpConnection.forceCloseWithDelay]
        split
        · rename_i hopen
          rcases hopen with hopen | hopen
          · exact absurd hopen hconnected
          · rw [← hopen]
        · rfl
      rw [hconn, hsame] at hstate
      rw [HalfCloses, hqueued, hconn, hsame]
      exact hfollowed hstate
  · refine ⟨fun _ hnot => absurd hnot he, ?_⟩
    intro _ hstate
    have hturn := turn_exec h hstep rfl he
    rcases hturn.sees hstate with hcloses | ⟨hdisconnecting, hidle, hkept⟩
    · exact hcloses
    · rcases hfollowed hdisconnecting with hshut | hwriting | ⟨f, hf, hmem⟩
      · exact Or.inl (hturn.shut hshut)
      · cases hidle.symm.trans hwriting
      · exact Or.inr (Or.inr ⟨f, hf, hkept f hf hmem⟩)

end ProtoRpc.Connection
