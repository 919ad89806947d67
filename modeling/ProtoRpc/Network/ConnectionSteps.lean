import ProtoRpc.Network.ConnectionInvariant

/-!
Every operation of a connection, every task and frame of its loop and every poll
keeps the invariant; so it holds in every state that a run reaches.
-/
namespace ProtoRpc.Connection
open Transition

variable {C : Type} [DecidableEq C] {chan : C} {w w' : Connection C} {s : ServerConnection C}

omit [DecidableEq C] in
theorem queued_collect (w : Connection C) (s : ServerConnection C) :
    (w.collect s).queued = queued { w with server := s } := by
  simp [collect, queued]

omit [DecidableEq C] in
theorem mem_queued_push {g : IoFunctor} {t : ConnTask} :
    t ∈ queued { w with server :=
      { w.server with pendingFunctors := w.server.pendingFunctors ++ [g] } } ↔
      t ∈ w.queued ∨ t = .io g := by
  simp [queued, or_assoc]

theorem Inv.collect (h : Inv chan { w with server := s }) : Inv chan (w.collect s) where
  wired := h.wired
  chores := h.chores.stays ⟨rfl, rfl, rfl, rfl, rfl, rfl, rfl, fun _ hf => Or.inl hf,
    fun _ ht => Or.inl (queued_collect w s ▸ ht), rfl⟩
  batch := h.batch
  polled := h.polled.moved rfl rfl (Nat.le_refl _)

theorem Inv.popFrame (h : Inv chan w) {f : Frame} {rest : List Frame}
    (htodo : w.server.todo = f :: rest) :
    Inv chan { w with server := { w.server with todo := rest } } where
  wired := h.wired
  chores := h.chores.stays ⟨rfl, rfl, rfl, rfl, rfl, rfl, rfl,
    fun _ hf => Or.inl (htodo ▸ List.mem_cons_of_mem _ hf), fun _ ht => Or.inl ht, rfl⟩
  batch := h.batch
  polled := h.polled.popFrame htodo

theorem Inv.popTask (h : Inv chan w) {t : ConnTask} {rest : List ConnTask}
    (htasks : w.tasks = t :: rest) : Inv chan { w with tasks := rest } where
  wired := h.wired
  chores := by
    refine h.chores.stays ⟨rfl, rfl, rfl, rfl, rfl, rfl, rfl, fun _ hf => Or.inl hf, ?_, rfl⟩
    intro u hu
    refine Or.inl ?_
    rw [queued, htasks]
    exact List.mem_cons_of_mem _ hu
  batch := by
    intro hphase
    have hnone := h.batch hphase
    rw [htasks] at hnone
    cases hnone
  polled := h.polled.moved rfl rfl (Nat.le_refl _)

theorem Inv.push (h : Inv chan w) {g : IoFunctor} (hg : w.Fits (.io g)) :
    Inv chan { w with server :=
      { w.server with pendingFunctors := w.server.pendingFunctors ++ [g] } } where
  wired := h.wired
  chores := by
    refine h.chores.stays ⟨rfl, rfl, rfl, rfl, rfl, rfl, rfl, fun _ hf => Or.inl hf, ?_, rfl⟩
    intro t ht
    rcases mem_queued_push.mp ht with hold | rfl
    · exact Or.inl hold
    · exact Or.inr hg
  batch := h.batch
  polled := h.polled.moved rfl rfl (Nat.le_refl _)

theorem Inv.queueInLoop (h : Inv chan w) {t : ConnTask} (ht : w.Fits t) :
    Inv chan (w.queueInLoop t) where
  wired := h.wired
  chores := by
    refine h.chores.stays ⟨rfl, rfl, rfl, rfl, rfl, rfl, rfl, fun _ hf => Or.inl hf, ?_, rfl⟩
    intro u hu
    have hmem : u ∈ w.queued ∨ u = t := by
      simp only [Connection.queueInLoop, queued, List.mem_append, List.mem_singleton] at hu ⊢
      tauto
    rcases hmem with hold | rfl
    · exact Or.inl hold
    · exact Or.inr ht
  batch := h.batch
  polled := h.polled.moved rfl rfl (Nat.le_refl _)

theorem registered_of_interestOp {p p' : Poller C} (h : p.Agrees) {op : InterestOp}
    (hp : p.interestOp chan op = .ok p') : (p'.table chan).index ≠ .kNew := by
  rw [(Poller.interestOp_inv h hp).2.2, Poller.indexAfter]
  split <;> decide

theorem Inv.adopt (h : Inv chan w) {c : TcpConnection} (hworks : w.server.conn.Works c)
    (hs : w.server.adopt chan c = .ok s) : Inv chan { w with server := s } := by
  obtain ⟨p, hfollows, rfl⟩ := ServerConnection.adopt_inv hs
  have hqueued : ∀ t, t ∈ queued
      { w with
        server :=
          { w.server with
            conn := { c with pendingFunctors := [] }
            poller := p
            pendingFunctors := w.server.pendingFunctors ++ c.pendingFunctors.map .own } } →
      t ∈ w.queued ∨ ∃ f ∈ c.pendingFunctors, t = .io (.own f) := by
    intro t ht
    simpa [queued, or_assoc, eq_comm] using ht
  have hdown := hworks.keeps.down_iff
  have hconnecting := hworks.keeps.connecting_iff
  refine ⟨h.wired.adopt hworks hfollows, ?_, h.polled.moved rfl rfl (Nat.le_refl _), h.batch⟩
  exact
    { connecting := fun hstate => h.chores.connecting (hconnecting.mp hstate)
      leaving := by
        intro hleaving
        refine hdown.mpr (h.chores.leaving (hleaving.back (fun _ hf => Or.inl hf) rfl ?_ rfl))
        intro htask
        rcases hqueued _ htask with hold | ⟨f, -, hnew⟩
        · exact hold
        · cases hnew
      unborn := by
        intro haccepted
        obtain ⟨hstate, hnone⟩ := h.chores.unborn haccepted
        refine ⟨hconnecting.mpr hstate, ?_⟩
        intro htask
        rcases hqueued _ htask with hold | ⟨f, -, hnew⟩
        · exact hnone hold
        · cases hnew
      listed := by
        intro hlisted
        obtain ⟨hdestroyed, hnone⟩ := h.chores.listed hlisted
        refine ⟨hdestroyed, ?_⟩
        intro htask
        rcases hqueued _ htask with hold | ⟨f, -, hnew⟩
        · exact hnone hold
        · cases hnew
      known := by
        intro htask hstate
        rcases hqueued _ htask with hold | ⟨f, -, hnew⟩
        · exact h.chores.known hold (hconnecting.mp hstate)
        · cases hnew
      removing := h.chores.removing
      downs := by
        refine h.chores.downs.trans ?_
        simp only [hdown]
      registered := by
        intro hnotices hdestroyed
        rcases hfollows with ⟨-, rfl⟩ | ⟨-, hp⟩
        · exact h.chores.registered hnotices hdestroyed
        · exact registered_of_interestOp h.wired.agrees hp
      fresh := by
        intro hnot hup
        change c.state ≠ .kDisconnecting at hnot
        change c.state ≠ .kDisconnected at hup
        obtain ⟨hshut, hnone⟩ := hworks.fresh hnot hup
        have hsame : w.server.conn.state = c.state := by
          rcases hworks.keeps with hsame | ⟨-, hdisconnecting⟩
          · exact hsame.symm
          · exact absurd hdisconnecting hnot
        obtain ⟨hold, hold'⟩ := h.chores.fresh (by rw [hsame]; exact hnot) (by rw [hsame]; exact hup)
        refine ⟨hshut.trans hold, ?_⟩
        intro f htask
        rcases hqueued _ htask with hmem | ⟨g, hg, hnew⟩
        · exact hold' f hmem
        · cases hnew
          exact hnone f hg }

theorem Inv.handleClose (h : Inv chan w) (hs : w.server.handleClose chan = .ok s) :
    Inv chan { w with server := s } := by
  obtain ⟨hopen, p, hp, rfl⟩ := ServerConnection.handleClose_inv hs
  refine ⟨h.wired.close hp, ?_, h.polled.moved rfl rfl ?_, h.batch⟩
  · exact
      { connecting := fun hstate => by cases hstate
        leaving := fun _ => rfl
        unborn := by
          intro haccepted
          rw [(h.chores.unborn haccepted).1] at hopen
          simp at hopen
        listed := h.chores.listed
        known := fun _ hstate => by cases hstate
        removing := by
          intro hmem
          refine h.chores.removing ?_
          simpa using hmem
        downs := by
          have hdowns := h.chores.downs
          rw [if_neg (TcpConnection.ne_down_of_open hopen), downs] at hdowns
          simp [downs, hdowns]
        registered := fun _ _ => registered_of_interestOp h.wired.agrees hp
        fresh := fun _ hup => absurd rfl hup }
  · simp [ServerConnection.mayClose]

theorem Inv.connectEstablished (h : Inv chan w) (haccepted : w.server.accepted = true)
    (hs : w.server.connectEstablished chan = .ok s) : Inv chan { w with server := s } := by
  obtain ⟨hstate, p, hp, rfl⟩ := ServerConnection.connectEstablished_inv hs
  have hstaying : ¬ w.Leaving := by
    intro hleaving
    rw [h.chores.leaving hleaving] at hstate
    cases hstate
  refine ⟨h.wired.establish hstate hp, ?_, h.polled.moved rfl rfl ?_, h.batch⟩
  · exact
      { connecting := fun hconnecting => by cases hconnecting
        leaving := by
          intro hleaving
          refine absurd (hleaving.back (w := w) ?_ rfl id rfl) hstaying
          intro f hf
          rcases List.mem_cons.mp hf with rfl | hold
          · exact Or.inr ⟨by decide, by decide⟩
          · exact Or.inl hold
        unborn := by
          intro hnot
          cases haccepted.symm.trans hnot
        listed := h.chores.listed
        known := fun _ hstate => by cases hstate
        removing := by
          intro hmem
          refine h.chores.removing ?_
          simpa using hmem
        downs := by
          have hdowns := h.chores.downs
          rw [if_neg (by rw [hstate]; decide), downs] at hdowns
          simp [downs, hdowns]
        registered := fun _ _ => registered_of_interestOp h.wired.agrees hp
        fresh := fun _ _ => h.chores.fresh (by rw [hstate]; decide) (by rw [hstate]; decide) }
  · simp [ServerConnection.mayClose]

/-- `connectDestroyed` of a connection that is down and off the list. -/
theorem Inv.connectDestroyed (h : Inv chan w) (hstate : w.server.conn.state = .kDisconnected)
    (hlisted : w.server.listed = false) (hs : w.server.connectDestroyed chan = .ok s) :
    Inv chan { w with server := s } := by
  have hdown : w.server.conn.state ≠ .kConnected := by
    rw [hstate]
    decide
  cases (if_neg hdown).symm.trans hs
  refine ⟨h.wired, ?_, h.polled.moved rfl rfl ?_, h.batch⟩
  · exact
      { h.chores with
        leaving := fun _ => hstate
        listed := by
          intro hnot
          cases hlisted.symm.trans hnot
        removing := fun _ => Nat.succ_pos _
        registered := fun _ hnone => absurd hnone (Nat.succ_ne_zero _) }
  · simp [ServerConnection.mayClose]

theorem Inv.removeChannel (h : Inv chan w) (hdestroyed : 0 < w.server.destroyed)
    (hs : w.server.removeChannel chan = .ok s) : Inv chan { w with server := s } := by
  obtain ⟨p, hp, rfl⟩ := ServerConnection.removeChannel_inv hs
  refine ⟨h.wired.remove hp, ?_, h.polled.moved rfl rfl (Nat.le_refl _), h.batch⟩
  exact { h.chores with registered := fun _ hnone => absurd hnone (Nat.ne_of_gt hdestroyed) }

theorem Inv.removeConnectionInLoop (h : Inv chan w)
    (hstate : w.server.conn.state = .kDisconnected)
    (hs : w.server.removeConnectionInLoop = .ok s) : Inv chan { w with server := s } := by
  obtain rfl := ServerConnection.removeConnectionInLoop_inv hs
  have hunlisted : Inv chan { w with server := { w.server with listed := false } } :=
    { wired := h.wired
      chores := { h.chores with listed := fun hnot => by cases hnot }
      batch := h.batch
      polled := h.polled.moved rfl rfl (Nat.le_refl _) }
  exact hunlisted.push (g := .connectDestroyed) ⟨hstate, rfl⟩

theorem Inv.closeCallback (h : Inv chan w) {oneLoop : Bool}
    (hstate : w.server.conn.state = .kDisconnected)
    (hs : w.server.closeCallback oneLoop = .ok s) : Inv chan { w with server := s } := by
  have hcalled : Inv chan { w with server :=
      { w.server with closeCallbacks := w.server.closeCallbacks + 1 } } :=
    { wired := h.wired
      chores := { h.chores with }
      batch := h.batch
      polled := h.polled.moved rfl rfl (Nat.le_refl _) }
  cases oneLoop with
  | true => exact hcalled.removeConnectionInLoop hstate hs
  | false =>
      cases hs
      exact
        { wired := h.wired
          chores := { h.chores with leaving := fun _ => hstate }
          batch := h.batch
          polled := h.polled.moved rfl rfl (Nat.le_refl _) }

/-- The interest in reading changes, of a connection that the user knows. -/
theorem Inv.setReading (h : Inv chan w) {p : Poller C} {reading : Bool}
    (hwired : Wired chan p w.server.conn reading) (hindex : (p.table chan).index ≠ .kNew) :
    Inv chan { w with server := { w.server with poller := p }, reading := reading } where
  wired := hwired
  chores := { h.chores with registered := fun _ _ => hindex }
  batch := h.batch
  polled := h.polled.moved rfl rfl (Nat.le_refl _)

theorem Inv.startReadInLoop (h : Inv chan w) (hw' : w.startReadInLoop chan = .ok w') :
    Inv chan w' := by
  rcases startReadInLoop_inv hw' with ⟨-, p, hp, rfl⟩ | ⟨-, rfl⟩
  · exact h.setReading (h.wired.startRead hp) (registered_of_interestOp h.wired.agrees hp)
  · exact h

theorem Inv.stopReadInLoop (h : Inv chan w) (hstate : w.server.conn.state ≠ .kConnecting)
    (hw' : w.stopReadInLoop chan = .ok w') : Inv chan w' := by
  rcases stopReadInLoop_inv hw' with ⟨htest, p, hp, rfl⟩ | ⟨-, rfl⟩
  · exact h.setReading (h.wired.stopRead hstate htest hp)
      (registered_of_interestOp h.wired.agrees hp)
  · exact h

theorem Inv.setInput (h : Inv chan w) {input : Buffer} (hinput : input.WF)
    {called : List Frame} (hcalled : called = [] ∨ called = [.messageCallback]) :
    Inv chan { w with server :=
      { w.server with
        conn := { w.server.conn with inputBuffer := input }
        todo := called ++ w.server.todo } } where
  wired := h.wired.setInput hinput
  chores := by
    refine h.chores.stays ⟨rfl, rfl, rfl, rfl, rfl, rfl, rfl, ?_, fun _ ht => Or.inl ht, rfl⟩
    intro f hf
    rcases hcalled with rfl | rfl
    · exact Or.inl hf
    · rcases List.mem_cons.mp hf with rfl | hold
      · exact Or.inr ⟨by decide, by decide⟩
      · exact Or.inl hold
  batch := h.batch
  polled := by
    refine h.polled.moved rfl rfl ?_
    rcases hcalled with rfl | rfl
    · exact Nat.le_refl _
    · exact Nat.le_refl _

theorem Inv.newConnection (h : Inv chan w) {oneLoop : Bool} (haccepted : w.server.accepted = false)
    (hs : w.server.newConnection chan oneLoop = .ok s) : Inv chan { w with server := s } := by
  have hup : w.server.conn.state ≠ .kDisconnected := by
    rw [(h.chores.unborn haccepted).1]
    decide
  have hnew : Inv chan { w with server := { w.server with accepted := true, listed := true } } :=
    { wired := h.wired
      chores :=
        { h.chores with
          unborn := fun hnot => by cases hnot
          listed := by
            intro _
            refine ⟨h.chores.not_destroyed hup, ?_⟩
            exact fun htask => hup (h.chores.down_of_task htask) }
      batch := h.batch
      polled := h.polled.moved rfl rfl (Nat.le_refl _) }
  cases oneLoop with
  | true => exact hnew.connectEstablished rfl hs
  | false =>
      cases hs
      exact hnew.push (g := .connectEstablished) rfl

theorem Inv.runFrame (h : Inv chan w) {oneLoop : Bool} {f : Frame} {rest : List Frame}
    {read : Buffer.ReadResult} {write : WriteResult} (htodo : w.server.todo = f :: rest)
    (hwrite : write.Within w.server.conn.outputBuffer.readableBytes)
    (hs : ServerConnection.runFrame chan oneLoop { w.server with todo := rest } read write f =
      .ok s) : Inv chan { w with server := s } := by
  have hpop := h.popFrame htodo
  have hmem : f ∈ w.server.todo := by
    rw [htodo]
    exact List.mem_cons_self
  cases f with
  | close => exact hpop.handleClose hs
  | read =>
      obtain ⟨input, hinput, hcases⟩ := ServerConnection.handleRead_inv
        (s := { w.server with todo := rest }) h.wired.wf.input hs
      rcases hcases with ⟨-, hclose⟩ | ⟨-, called, hcalled, rfl⟩
      · exact (hpop.setInput hinput (Or.inl rfl)).handleClose hclose
      · exact hpop.setInput hinput hcalled
  | write =>
      obtain ⟨c, hc, hs⟩ := bind_ok_inv hs
      exact hpop.adopt (TcpConnection.handleWrite_works h.wired.wf h.wired.pending h.wired.queue
        hwrite hc h.wired.idle).1 hs
  | error | connectionCallback | messageCallback =>
      cases hs
      exact hpop
  | closeCallback => exact hpop.closeCallback (h.chores.leaving (Or.inl hmem)) hs
  | remove => exact hpop.removeChannel (h.chores.removing hmem) hs

theorem Inv.otherChannel (h : Inv chan w) {call : Poller.Call C} (hother : call.channel ≠ chan)
    (hallowed : w.server.poller.Allowed call) {p : Poller C}
    (hp : w.server.poller.exec call = .ok p) :
    Inv chan { w with server := { w.server with poller := p } } := by
  have hagrees := (Poller.Step.become h.wired.agrees ⟨hallowed, hp⟩).1
  have htable := Poller.table_of_exec h.wired.agrees hallowed hother hp
  refine ⟨h.wired.other hagrees htable, ?_, h.polled.moved rfl rfl (Nat.le_refl _), h.batch⟩
  exact h.chores.stays ⟨rfl, rfl, rfl, rfl, rfl, rfl, rfl, fun _ hf => Or.inl hf,
    fun _ ht => Or.inl ht, congrArg Channel.index htable⟩

/-- The loop moves on; the connection, its channel and its queue stay. -/
theorem Inv.poll (h : Inv chan w) (hphase : w.server.phase = .polling)
    (htodo : w.server.todo = []) {capacity : Nat}
    {reports : List (Poller.Report C)} (hreports : w.server.poller.Reports capacity reports) :
    Inv chan { w with server :=
      { w.server with
        phase := .handling
        activeChannels := reports.map fun r => (r.ptr, r.revents)
        remaining := reports.map fun r => (r.ptr, r.revents) } } where
  wired := h.wired
  chores := { h.chores with }
  batch := fun _ => h.batch (by rw [hphase]; decide)
  polled := .poll h.wired.agrees htodo hreports fun _ => Nat.one_pos

theorem Inv.handleEvent (h : Inv chan w) {c : C} {r : Revents} {rest : List (C × Revents)}
    (hphase : w.server.phase = .handling) (htodo : w.server.todo = [])
    (hremaining : w.server.remaining = (c, r) :: rest) :
    Inv chan { w with server :=
      { w.server with
        currentActiveChannel := some c
        remaining := rest
        todo := if c = chan then eventFrames r else [] } } where
  wired := h.wired
  chores := by
    refine h.chores.stays ⟨rfl, rfl, rfl, rfl, rfl, rfl, rfl, ?_, fun _ ht => Or.inl ht, rfl⟩
    intro f hf
    refine Or.inr ?_
    change f ∈ if c = chan then eventFrames r else [] at hf
    split at hf
    · simp only [eventFrames] at hf
      constructor
      · rintro rfl
        simp at hf
      · rintro rfl
        simp at hf
    · cases hf
  batch := h.batch
  polled := h.polled.handleEvent hphase htodo hremaining

/-- What the server, its clients and the poll do. -/
theorem Inv.server (h : Inv chan w) {oneLoop : Bool} {e : ServerConnection.Event C}
    {r : Except Fault (ServerConnection C)} (he : e.ofQueue = false)
    (hexec : ServerConnection.Exec chan oneLoop w.server e r) (hr : r = .ok s) :
    Inv chan { w with server := s } := by
  have hwf := h.wired.wf
  have hpending := h.wired.pending
  have hqueue := h.wired.queue
  cases hexec with
  | newConnection haccepted _ _ => exact h.newConnection haccepted hr
  | send _ _ _ =>
      obtain ⟨⟨c, b⟩, hc, hs⟩ := bind_ok_inv hr
      exact h.adopt (TcpConnection.send_works hwf hpending hqueue hc).1 hs
  | shutdown _ => exact h.adopt (TcpConnection.shutdown_works hwf hpending hqueue _).1 hr
  | forceClose _ => exact h.adopt (TcpConnection.forceClose_works hwf hpending hqueue).1 hr
  | retrieve _ hn =>
      obtain ⟨input, hretrieve, hinput, -⟩ := Buffer.retrieve_spec hwf.input hn
      rw [hretrieve] at hr
      cases hr
      exact h.setInput hinput (Or.inl rfl)
  | poll hphase htodo hreports =>
      rw [h.wired.agrees.fillActiveChannels hreports] at hr
      cases hr
      exact h.poll hphase htodo hreports
  | handleEvent hphase htodo hremaining =>
      cases hr
      exact h.handleEvent hphase htodo hremaining
  | frame htodo hwrite => exact h.runFrame htodo hwrite hr
  | removeConnectionInLoop hremovals =>
      have hstate := h.chores.leaving (Or.inr (Or.inr (Or.inl hremovals)))
      have hfewer : Inv chan { w with server :=
          { w.server with removals := w.server.removals - 1 } } :=
        { wired := h.wired
          chores := { h.chores with leaving := fun _ => hstate }
          batch := h.batch
          polled := h.polled.moved rfl rfl (Nat.le_refl _) }
      exact hfewer.removeConnectionInLoop hstate hr
  | otherFunctor =>
      cases hr
      exact h.push (g := .other) trivial
  | otherChannel hother hallowed _ =>
      obtain ⟨p, hp, hs⟩ := bind_ok_inv hr
      cases hs
      exact h.otherChannel hother hallowed hp
  | doPendingFunctors => cases he
  | functor => cases he
  | endBatch => cases he

theorem Inv.runTask (h : Inv chan w) {t : ConnTask} {rest : List ConnTask} {r : WriteResult}
    (htasks : w.tasks = t :: rest) (hw' : runTask chan { w with tasks := rest } r t = .ok w') :
    Inv chan w' := by
  have hpop := h.popTask htasks
  have hmem := mem_queued_head htasks
  cases t with
  | startReadInLoop => exact hpop.startReadInLoop hw'
  | stopReadInLoop => exact hpop.stopReadInLoop (h.chores.known hmem) hw'
  | io f =>
      obtain ⟨s, hs, hcollect⟩ := bind_ok_inv hw'
      cases hcollect
      refine Inv.collect ?_
      cases f with
      | connectEstablished =>
          refine hpop.connectEstablished ?_ hs
          by_contra hnot
          exact (h.chores.unborn (by simpa using hnot)).2 hmem
      | connectDestroyed =>
          refine hpop.connectDestroyed (h.chores.down_of_task hmem) ?_ hs
          by_contra hlisted
          exact (h.chores.listed (by simpa using hlisted)).2 hmem
      | other =>
          cases hs
          exact hpop
      | own f =>
          cases f with
          | sendInLoop m =>
              obtain ⟨c, hc, hs⟩ := bind_ok_inv hs
              exact hpop.adopt (TcpConnection.sendInLoop_works h.wired.wf h.wired.pending
                h.wired.queue hc).1 hs
          | shutdownInLoop =>
              exact hpop.adopt (TcpConnection.shutdownInLoop_works h.wired.wf h.wired.pending
                h.wired.queue (h.chores.ended hmem)).1 hs
          | forceCloseInLoop =>
              simp only [ServerConnection.runFunctor] at hs
              split at hs
              · exact hpop.handleClose hs
              · cases hs
                exact hpop

theorem Inv.exec (h : Inv chan w) {oneLoop : Bool} {e : Event C}
    {r : Except Fault (Connection C)} (hexec : Exec chan oneLoop w e r) (hr : r = .ok w') :
    Inv chan w' := by
  cases hexec with
  | server he hexec =>
      obtain ⟨s, hs, hcollect⟩ := bind_ok_inv hr
      cases hcollect
      exact (h.server he hexec hs).collect
  | startRead hexposed hown =>
      rename_i own
      cases own with
      | true => exact h.startReadInLoop hr
      | false =>
          cases hr
          exact h.queueInLoop (t := .startReadInLoop) trivial
  | stopRead hexposed hown =>
      rename_i own
      have hstate : w.server.conn.state ≠ .kConnecting :=
        fun hconnecting => hexposed (h.chores.connecting hconnecting)
      cases own with
      | true => exact h.stopReadInLoop hstate hr
      | false =>
          cases hr
          exact h.queueInLoop (t := .stopReadInLoop) hstate
  | forceCloseWithDelay =>
      obtain ⟨s, hs, hcollect⟩ := bind_ok_inv hr
      cases hcollect
      exact (h.adopt (TcpConnection.forceCloseWithDelay_works h.wired.wf h.wired.pending
        h.wired.queue) hs).collect
  | doPendingFunctors _ _ hremaining =>
      cases hr
      refine ⟨h.wired, ?_, ⟨h.polled.closes, h.polled.bits, fun _ => hremaining⟩,
        fun hnot => absurd rfl hnot⟩
      refine h.chores.stays ⟨rfl, rfl, rfl, rfl, rfl, rfl, rfl, fun _ hf => Or.inl hf, ?_, rfl⟩
      intro t ht
      refine Or.inl (List.mem_append_right _ ?_)
      simpa [queued] using ht
  | task _ _ htasks _ => exact h.runTask htasks hr
  | endBatch hphase _ htasks =>
      cases hr
      have hremaining := h.polled.remaining (by rw [hphase]; decide)
      exact
        { wired := h.wired
          chores := { h.chores with }
          batch := fun _ => htasks
          polled := ⟨h.polled.closes, h.polled.bits, fun _ => hremaining⟩ }

theorem inv_new (fd : C → Int) : Inv chan (new fd) where
  wired :=
    { agrees := Poller.agrees_new fd
      wf := TcpConnection.new_wf
      queue := rfl
      pending := by
        intro _
        simp [new, ServerConnection.new, TcpConnection.new]
      idle := fun _ => rfl
      writing := rfl
      added := fun hsome => absurd rfl hsome
      deleted := by
        intro _ _ hadded
        cases hadded
      unread := fun _ => rfl
      read := fun hopen => by simp [new, ServerConnection.new, TcpConnection.new] at hopen }
  chores :=
    { connecting := fun _ => rfl
      leaving := by
        rintro (hclose | hremove | hremoval | htask | hdestroyed)
        · cases hclose
        · cases hremove
        · exact absurd hremoval (Nat.lt_irrefl 0)
        · cases htask
        · exact absurd hdestroyed (Nat.lt_irrefl 0)
      unborn := fun _ => ⟨rfl, List.not_mem_nil⟩
      listed := fun _ => ⟨rfl, List.not_mem_nil⟩
      known := fun htask => by cases htask
      removing := fun hmem => by cases hmem
      downs := rfl
      registered := fun hnotices => absurd rfl hnotices
      fresh := fun _ _ => ⟨rfl, fun _ htask => by cases htask⟩ }
  batch := fun _ => rfl
  polled := ⟨Nat.zero_le _, fun _ hx => absurd hx List.not_mem_nil, fun _ => rfl⟩

theorem inv_of_run {oneLoop : Bool} {fd : C → Int} {events : List (Event C)}
    (hrun : Run (Step chan oneLoop) (new fd) events w) : Inv chan w :=
  hrun.invariant (inv_new fd) fun _ _ _ h hstep => h.exec hstep rfl

end ProtoRpc.Connection
