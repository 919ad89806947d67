import ProtoRpc.Network.LoopProjection

/-!
The queue of a loop is run in the order in which it was filled. A functor of `send` or
`shutdown` is bound to the address of the connection only, but is queued by one that is open;
so it comes before the `connectDestroyed` of that connection, and the shared pointer of the
latter outlives it. `startRead` and `stopRead` look at no state, and give no such order.
-/
namespace ProtoRpc

/-- The functors that are bound to the address only and that only an open connection queues. -/
def IoFunctor.bare : IoFunctor → Bool
  | .own (.sendInLoop _) | .own .shutdownInLoop => true
  | _ => false

def ConnTask.bare : ConnTask → Bool
  | .io f => f.bare
  | _ => false

namespace TcpConnection
variable {c c' : TcpConnection}

/-- A connection that is down queues nothing. -/
def QueuesOpen (c c' : TcpConnection) : Prop :=
  c.state = .kDisconnected → c'.pendingFunctors = c.pendingFunctors

theorem queuesOpen_send {own : Bool} {buf rest : Buffer} {r : WriteResult}
    (hsend : c.send own buf r = .ok (c', rest)) : QueuesOpen c c' := by
  intro hdown
  rw [send_notConnected (by rw [hdown]; decide)] at hsend
  cases hsend
  rfl

theorem queuesOpen_shutdown (own : Bool) : QueuesOpen c (c.shutdown own) := by
  intro hdown
  rw [shutdown, if_neg (by rw [hdown]; decide)]

theorem queuesOpen_forceClose : QueuesOpen c c.forceClose := by
  intro hdown
  rw [forceClose, if_neg (by rw [hdown]; decide)]

theorem queuesOpen_forceCloseWithDelay : QueuesOpen c c.forceCloseWithDelay := by
  intro hdown
  rw [forceCloseWithDelay, if_neg (by rw [hdown]; decide)]

theorem queuesOpen_sendInLoop {message : List UInt8} {r : WriteResult}
    (hsend : c.sendInLoop message r = .ok c') : QueuesOpen c c' := by
  intro hdown
  rw [sendInLoop, if_pos hdown] at hsend
  cases hsend
  rfl

theorem queuesOpen_shutdownInLoop : QueuesOpen c c.shutdownInLoop := by
  intro _
  rw [shutdownInLoop]
  split <;> rfl

theorem queuesOpen_handleWrite (h : c.WF) {r : WriteResult}
    (hr : r.Within c.outputBuffer.readableBytes) (hwrite : c.handleWrite r = .ok c') :
    QueuesOpen c c' := by
  intro _
  obtain ⟨c₁, hc₁, -, -, -, hpending, -⟩ := handleWrite_spec h hr
  cases hc₁.symm.trans hwrite
  exact hpending

end TcpConnection

namespace ServerConnection
variable {C : Type} [DecidableEq C] {chan : C} {s s' : ServerConnection C}

/-- What a step that destroys nothing adds to the queue. -/
def Pushes (s s' : ServerConnection C) : Prop :=
  s'.destroyed = s.destroyed ∧ ∃ new, s'.pendingFunctors = s.pendingFunctors ++ new ∧
    (∀ f ∈ new, f.bare = true → s.conn.state ≠ .kDisconnected ∧ .connectDestroyed ∉ new)

omit [DecidableEq C] in
theorem pushes_none (hdestroyed : s'.destroyed = s.destroyed)
    (hpending : s'.pendingFunctors = s.pendingFunctors) : Pushes s s' :=
  ⟨hdestroyed, [], hpending.trans (List.append_nil _).symm, nofun⟩

omit [DecidableEq C] in
theorem pushes_one {f : IoFunctor} (hbare : f.bare = false)
    (hdestroyed : s'.destroyed = s.destroyed)
    (hpending : s'.pendingFunctors = s.pendingFunctors ++ [f]) : Pushes s s' := by
  refine ⟨hdestroyed, [f], hpending, ?_⟩
  intro g hg hgbare
  obtain rfl := List.mem_singleton.mp hg
  cases hbare.symm.trans hgbare

theorem pushes_adopt {c : TcpConnection} (hqueue : s.conn.pendingFunctors = [])
    (hopen : s.conn.QueuesOpen c) (hs : s.adopt chan c = .ok s') : Pushes s s' := by
  obtain ⟨p, -, rfl⟩ := adopt_inv hs
  refine ⟨rfl, c.pendingFunctors.map .own, rfl, ?_⟩
  intro f hf _
  constructor
  · intro hdown
    rw [hopen hdown, hqueue] at hf
    cases hf
  · simp

theorem pushes_handleClose (hs : s.handleClose chan = .ok s') : Pushes s s' := by
  obtain ⟨-, p, -, rfl⟩ := handleClose_inv hs
  exact pushes_none rfl rfl

theorem pushes_connectEstablished (hs : s.connectEstablished chan = .ok s') : Pushes s s' := by
  obtain ⟨-, p, -, rfl⟩ := connectEstablished_inv hs
  exact pushes_none rfl rfl

omit [DecidableEq C] in
theorem pushes_removeConnectionInLoop (hs : s.removeConnectionInLoop = .ok s') : Pushes s s' := by
  obtain rfl := removeConnectionInLoop_inv hs
  exact pushes_one (f := .connectDestroyed) rfl rfl rfl

omit [DecidableEq C] in
theorem pushes_closeCallback {oneLoop : Bool} (hs : s.closeCallback oneLoop = .ok s') :
    Pushes s s' := by
  cases oneLoop with
  | true =>
      have hpushes := pushes_removeConnectionInLoop hs
      exact hpushes
  | false =>
      cases hs
      exact pushes_none rfl rfl

theorem pushes_handleRead {r : Buffer.ReadResult} (hs : s.handleRead chan r = .ok s') :
    Pushes s s' := by
  obtain ⟨⟨n, input⟩, -, hrest⟩ := bind_ok_inv hs
  dsimp only at hrest
  split at hrest
  · cases hrest
    exact pushes_none rfl rfl
  · split at hrest
    · have hpushes := pushes_handleClose hrest
      exact hpushes
    · cases hrest
      exact pushes_none rfl rfl

theorem pushes_runFrame (hwf : s.conn.WF) (hqueue : s.conn.pendingFunctors = [])
    {oneLoop : Bool} {read : Buffer.ReadResult} {write : WriteResult}
    (hwrite : write.Within s.conn.outputBuffer.readableBytes) {f : Frame}
    (hs : s.runFrame chan oneLoop read write f = .ok s') : Pushes s s' := by
  cases f with
  | close => exact pushes_handleClose hs
  | read => exact pushes_handleRead hs
  | write =>
      obtain ⟨c, hc, hs⟩ := bind_ok_inv hs
      exact pushes_adopt hqueue (TcpConnection.queuesOpen_handleWrite hwf hwrite hc) hs
  | closeCallback => exact pushes_closeCallback hs
  | remove =>
      obtain ⟨p, -, rfl⟩ := removeChannel_inv hs
      exact pushes_none rfl rfl
  | error | connectionCallback | messageCallback =>
      cases hs
      exact pushes_none rfl rfl

theorem pushes_runFunctor (hqueue : s.conn.pendingFunctors = []) {r : WriteResult} {f : IoFunctor}
    (hf : f ≠ .connectDestroyed) (hs : s.runFunctor chan r f = .ok s') : Pushes s s' := by
  cases f with
  | connectEstablished => exact pushes_connectEstablished hs
  | connectDestroyed => exact absurd rfl hf
  | other =>
      cases hs
      exact pushes_none rfl rfl
  | own f =>
      cases f with
      | forceCloseInLoop =>
          simp only [runFunctor] at hs
          split at hs
          · exact pushes_handleClose hs
          · cases hs
            exact pushes_none rfl rfl
      | sendInLoop message =>
          obtain ⟨c, hc, hs⟩ := bind_ok_inv hs
          exact pushes_adopt hqueue (TcpConnection.queuesOpen_sendInLoop hc) hs
      | shutdownInLoop => exact pushes_adopt hqueue TcpConnection.queuesOpen_shutdownInLoop hs

theorem connectDestroyed_pending (hs : s.connectDestroyed chan = .ok s') :
    s'.pendingFunctors = s.pendingFunctors := by
  rw [connectDestroyed] at hs
  split at hs
  · obtain ⟨s₁, hs₁, hrest⟩ := bind_ok_inv hs
    obtain ⟨p, -, rfl⟩ := interestOp_inv hs₁
    cases hrest
    rfl
  · cases hs
    rfl

/-- The steps of the connection, of its server and of the poll. -/
theorem pushes_exec (hwf : s.conn.WF) (hqueue : s.conn.pendingFunctors = []) {oneLoop : Bool}
    {e : Event C} (he : e.ofQueue = false) (hexec : Exec chan oneLoop s e (.ok s')) :
    Pushes s s' := by
  generalize hr : Except.ok s' = result at hexec
  cases hexec with
  | newConnection _ _ _ =>
      cases oneLoop with
      | true =>
          have hpushes := pushes_connectEstablished hr.symm
          exact hpushes
      | false =>
          cases hr
          exact pushes_one (f := .connectEstablished) rfl rfl rfl
  | send _ _ _ =>
      obtain ⟨⟨c, b⟩, hc, hs⟩ := bind_ok_inv hr.symm
      exact pushes_adopt hqueue (TcpConnection.queuesOpen_send hc) hs
  | shutdown _ => exact pushes_adopt hqueue (TcpConnection.queuesOpen_shutdown _) hr.symm
  | forceClose _ => exact pushes_adopt hqueue TcpConnection.queuesOpen_forceClose hr.symm
  | retrieve _ _ =>
      obtain ⟨input, -, hs⟩ := bind_ok_inv hr.symm
      cases hs
      exact pushes_none rfl rfl
  | poll _ _ _ =>
      obtain ⟨active, -, hs⟩ := bind_ok_inv hr.symm
      cases hs
      exact pushes_none rfl rfl
  | handleEvent _ _ _ =>
      cases hr
      exact pushes_none rfl rfl
  | @frame f rest read write _ hwrite =>
      have hpushes := pushes_runFrame (s := { s with todo := rest }) hwf hqueue hwrite hr.symm
      exact hpushes
  | removeConnectionInLoop _ =>
      have hpushes := pushes_removeConnectionInLoop hr.symm
      exact hpushes
  | otherFunctor =>
      cases hr
      exact pushes_one (f := .other) rfl rfl rfl
  | otherChannel _ _ _ =>
      obtain ⟨p, -, hs⟩ := bind_ok_inv hr.symm
      cases hs
      exact pushes_none rfl rfl
  | doPendingFunctors | functor | endBatch => cases he

end ServerConnection

namespace Connection
open Transition

variable {C : Type} [DecidableEq C] {chan : C} {oneLoop : Bool} {w w' : Connection C}

/-- Nothing bare is behind `connectDestroyed`. -/
structure Trails (w : Connection C) : Prop where
  order : w.queued.Pairwise fun t u => t = .io .connectDestroyed → u.bare = false
  drained : 0 < w.server.destroyed → ∀ t ∈ w.queued, t.bare = false
  collected : w.server.pendingFunctors = []

omit [DecidableEq C] in
theorem Trails.moved (h : Trails w) (hqueued : w'.queued = w.queued)
    (hdestroyed : w'.server.destroyed = w.server.destroyed)
    (hcollected : w'.server.pendingFunctors = []) : Trails w' := by
  refine ⟨?_, ?_, hcollected⟩
  · rw [hqueued]
    exact h.order
  · rw [hqueued, hdestroyed]
    exact h.drained

theorem Trails.startReadInLoop (h : Trails w) (hs : w.startReadInLoop chan = .ok w') :
    Trails w' := by
  rcases startReadInLoop_inv hs with ⟨-, p, -, rfl⟩ | ⟨-, rfl⟩
  · exact h.moved rfl rfl h.collected
  · exact h

theorem Trails.stopReadInLoop (h : Trails w) (hs : w.stopReadInLoop chan = .ok w') :
    Trails w' := by
  rcases stopReadInLoop_inv hs with ⟨-, p, -, rfl⟩ | ⟨-, rfl⟩
  · exact h.moved rfl rfl h.collected
  · exact h

/-- An open connection is not being destroyed. -/
def Undestroyed (w : Connection C) : Prop :=
  w.server.conn.state ≠ .kDisconnected →
    .io .connectDestroyed ∉ w.queued ∧ w.server.destroyed = 0

theorem Inv.undestroyed (h : Inv chan w) : Undestroyed w := by
  intro hup
  have hstays : ¬ w.Leaving := fun hleaving => hup (h.chores.leaving hleaving)
  refine ⟨fun hmem => hstays (Or.inr (Or.inr (Or.inr (Or.inl hmem)))), ?_⟩
  by_contra hdestroyed
  exact hstays (Or.inr (Or.inr (Or.inr (Or.inr (Nat.pos_of_ne_zero hdestroyed)))))

omit [DecidableEq C] in
theorem Trails.append (h : Trails w) (hw : w.Undestroyed) (new : List ConnTask)
    (hqueued : w'.queued = w.queued ++ new)
    (hdestroyed : w'.server.destroyed = w.server.destroyed)
    (hnew : ∀ t ∈ new, t.bare = true → w.server.conn.state ≠ .kDisconnected ∧
      .io .connectDestroyed ∉ new)
    (hcollected : w'.server.pendingFunctors = []) : Trails w' := by
  refine ⟨?_, ?_, hcollected⟩
  · rw [hqueued, List.pairwise_append]
    refine ⟨h.order, List.pairwise_iff_forall_sublist.mpr ?_, ?_⟩
    · rintro t u hsub rfl
      by_contra hbare
      have hmem := hsub.subset
      refine (hnew u (hmem (by simp)) (Bool.eq_true_of_not_eq_false hbare)).2 (hmem (by simp))
    · rintro t ht u hu rfl
      by_contra hbare
      have hup := (hnew u hu (Bool.eq_true_of_not_eq_false hbare)).1
      exact (hw hup).1 ht
  · intro hpos t ht
    rw [hdestroyed] at hpos
    rw [hqueued, List.mem_append] at ht
    rcases ht with hold | hadded
    · exact h.drained hpos t hold
    · by_contra hbare
      have hup := (hnew t hadded (Bool.eq_true_of_not_eq_false hbare)).1
      exact absurd (hw hup).2 (Nat.ne_of_gt hpos)

omit [DecidableEq C] in
theorem Trails.collect (h : Trails w) (hw : w.Undestroyed) {s : ServerConnection C}
    (hpushes : w.server.Pushes s) : Trails (w.collect s) := by
  obtain ⟨hdestroyed, new, hpending, hnew⟩ := hpushes
  refine h.append hw (new.map .io) ?_ hdestroyed ?_ rfl
  · rw [queued_collect]
    simp [queued, hpending]
  · rintro t ht hbare
    obtain ⟨f, hf, rfl⟩ := List.mem_map.mp ht
    obtain ⟨hup, hnone⟩ := hnew f hf hbare
    exact ⟨hup, by simpa using hnone⟩

section
variable {t : ConnTask} {rest : List ConnTask}

omit [DecidableEq C] in
theorem queued_popTask (htasks : w.tasks = t :: rest) :
    w.queued = t :: queued { w with tasks := rest } := by
  rw [queued, htasks]
  rfl

omit [DecidableEq C] in
theorem Undestroyed.popTask (hw : w.Undestroyed) (htasks : w.tasks = t :: rest) :
    Undestroyed { w with tasks := rest } := by
  intro hup
  obtain ⟨hnone, hdestroyed⟩ := hw hup
  rw [queued_popTask htasks] at hnone
  exact ⟨fun hmem => hnone (List.mem_cons_of_mem _ hmem), hdestroyed⟩

omit [DecidableEq C] in
theorem Trails.popTask (h : Trails w) (htasks : w.tasks = t :: rest) :
    Trails { w with tasks := rest } := by
  have horder := h.order
  rw [queued_popTask htasks] at horder
  refine ⟨horder.of_cons, ?_, h.collected⟩
  intro hpos u hu
  refine h.drained hpos u ?_
  rw [queued_popTask htasks]
  exact List.mem_cons_of_mem _ hu

/-- What comes after `connectDestroyed` is not bare. -/
theorem Trails.connectDestroyed (h : Trails w) (htasks : w.tasks = .io .connectDestroyed :: rest)
    {s : ServerConnection C} (hs : w.server.connectDestroyed chan = .ok s) :
    Trails (Connection.collect { w with tasks := rest } s) := by
  have horder := h.order
  rw [queued_popTask htasks, List.pairwise_cons] at horder
  have hqueued : (Connection.collect { w with tasks := rest } s).queued =
      queued { w with tasks := rest } := by
    rw [queued_collect, queued, queued, ServerConnection.connectDestroyed_pending hs]
  refine ⟨?_, ?_, rfl⟩
  · rw [hqueued]
    exact horder.2
  · rw [hqueued]
    exact fun _ u hu => horder.1 u hu rfl

theorem Trails.task (h : Trails w) (hw : w.Undestroyed) (hqueue : w.server.conn.pendingFunctors = [])
    {r : WriteResult} (htasks : w.tasks = t :: rest)
    (hrun : runTask chan { w with tasks := rest } r t = .ok w') : Trails w' := by
  have hpopped := h.popTask htasks
  cases t with
  | startReadInLoop => exact hpopped.startReadInLoop hrun
  | stopReadInLoop => exact hpopped.stopReadInLoop hrun
  | io f =>
      obtain ⟨s, hs, hw'⟩ := bind_ok_inv hrun
      cases hw'
      by_cases hf : f = .connectDestroyed
      · subst hf
        exact h.connectDestroyed htasks hs
      · exact hpopped.collect (hw.popTask htasks) (ServerConnection.pushes_runFunctor hqueue hf hs)

end

theorem Trails.exec (h : Trails w) (hinv : Inv chan w) {e : Event C}
    (hexec : Exec chan oneLoop w e (.ok w')) : Trails w' := by
  have hw := hinv.undestroyed
  have hqueue := hinv.wired.queue
  have hread : ∀ {t : ConnTask}, t.bare = false → Trails (w.queueInLoop t) := by
    intro t hbare
    refine h.append hw [t] ?_ rfl ?_ h.collected
    · simp [queueInLoop, queued, h.collected]
    · intro u hu hubare
      obtain rfl := List.mem_singleton.mp hu
      cases hbare.symm.trans hubare
  generalize hr : Except.ok w' = result at hexec
  cases hexec with
  | server he hexec =>
      obtain ⟨s, rfl, hw'⟩ := bind_ok_inv hr.symm
      cases hw'
      exact h.collect hw (ServerConnection.pushes_exec hinv.wired.wf hqueue he hexec)
  | startRead =>
      rename_i own _ _
      cases own with
      | true => exact h.startReadInLoop hr.symm
      | false =>
          cases hr
          exact hread rfl
  | stopRead =>
      rename_i own _ _
      cases own with
      | true => exact h.stopReadInLoop hr.symm
      | false =>
          cases hr
          exact hread rfl
  | forceCloseWithDelay =>
      obtain ⟨s, hs, hw'⟩ := bind_ok_inv hr.symm
      cases hw'
      exact h.collect hw
        (ServerConnection.pushes_adopt hqueue TcpConnection.queuesOpen_forceCloseWithDelay hs)
  | doPendingFunctors hphase _ _ =>
      cases hr
      refine h.moved ?_ rfl h.collected
      rw [queued, queued, hinv.batch (by rw [hphase]; decide)]
      simp
  | task _ _ htasks _ => exact h.task hw hqueue htasks hr.symm
  | endBatch _ _ _ =>
      cases hr
      exact h.moved rfl rfl h.collected

theorem trails_of_run {cond : Connection C → Event C → Prop} {fd : C → Int}
    {events : List (Event C)}
    (hrun : Run (Guarded (Step chan oneLoop) cond) (new fd) events w) : Trails w := by
  suffices h : Inv chan w ∧ Trails w from h.2
  refine hrun.invariant (I := fun w => Inv chan w ∧ Trails w)
    ⟨inv_new fd, ⟨.nil, nofun, rfl⟩⟩ ?_
  rintro w e w' ⟨hinv, h⟩ ⟨-, hstep⟩
  exact ⟨hinv.exec hstep rfl, h.exec hinv hstep⟩

end Connection
end ProtoRpc
