import ProtoRpc.Network.LifeCycle

/-!
What can happen to a connection keeps the table of its stages. For each event of
`ServerConnection.Exec` there is one lemma, that from the invariant the event has a
result, with the invariant again; every run is an induction over them.
-/
namespace ProtoRpc.ServerConnection
open Transition

variable {C : Type} [DecidableEq C] {chan : C} {w : ServerConnection C} {stage : Stage}

theorem Inv.newConnection (h : Inv chan w stage) {oneLoop : Bool} (haccepted : w.accepted = false)
    (hsole : w.poller.Sole chan) (htodo : oneLoop = true → w.todo = []) :
    Advances chan w (w.newConnection chan oneLoop) := by
  have hstage : stage = .unborn := by
    have hshape : w.accepted = _ := congrArg Shape.accepted h.staged
    rw [haccepted] at hshape
    cases stage with
    | unborn => rfl
    | _ => cases hshape
  subst hstage
  have hshape : shape chan { w with accepted := true, listed := true } =
      { shape chan w with accepted := true, listed := true } := rfl
  rw [h.staged] at hshape
  cases oneLoop with
  | true =>
      exact h.established (Or.inl rfl) rfl rfl hsole (htodo rfl) rfl rfl h.control.functors hshape
  | false =>
      refine ⟨_, rfl, ⟨.queued, ?_, h.state, fun _ => h.idle nofun, h.wf, h.queue, h.agrees,
        fun _ => hsole, ?_⟩, Nat.le_refl _⟩
      · calc shape chan
              { w with
                accepted := true
                listed := true
                pendingFunctors := w.pendingFunctors ++ [.connectEstablished] }
            = { shape chan { w with
                  pendingFunctors := w.pendingFunctors ++ [.connectEstablished] } with
                accepted := true
                listed := true } := rfl
          _ = Stage.queued.shape w.conn.isWriting := by
              rw [shape_push, h.staged]
              rfl
      · have hpush := h.control.push (g := .connectEstablished) nofun
        exact ⟨hpush.closes, hpush.bits, hpush.remaining, hpush.functors, hpush.detaching,
          hpush.owned⟩

theorem Inv.functorEstablished (h : Inv chan w stage) {rest : List IoFunctor}
    (hphase : w.phase = .functors) (htodo : w.todo = [])
    (hfunctors : w.functors = .connectEstablished :: rest) :
    Advances chan w (ServerConnection.connectEstablished chan { w with functors := rest }) := by
  have hcount : (w.functors ++ w.pendingFunctors).count .connectEstablished = _ :=
    congrArg Shape.establishing h.staged
  rw [hfunctors, List.cons_append, List.count_cons_self] at hcount
  have hstage : stage = .queued := by
    cases stage with
    | queued => rfl
    | _ => exact absurd hcount (Nat.succ_ne_zero _)
  subst hstage
  refine h.established (Or.inr rfl) rfl rfl (h.sole rfl) htodo rfl rfl
    (fun hnot => absurd hphase hnot) ?_
  calc shape chan { w with functors := rest }
      = { shape chan w with
          establishing := (rest ++ w.pendingFunctors).count .connectEstablished
          destroying := (rest ++ w.pendingFunctors).count .connectDestroyed } := rfl
    _ = _ := by
        have hdestroyed : (w.functors ++ w.pendingFunctors).count .connectDestroyed = 0 :=
          congrArg Shape.destroying h.staged
        rw [hfunctors, List.cons_append, List.count_cons_of_ne (by decide)] at hdestroyed
        rw [h.staged, Nat.succ.inj hcount, hdestroyed]
        rfl

theorem Inv.functorDestroyed (h : Inv chan w stage) {rest : List IoFunctor}
    (hphase : w.phase = .functors) (htodo : w.todo = [])
    (hfunctors : w.functors = .connectDestroyed :: rest) :
    Advances chan w (ServerConnection.connectDestroyed chan { w with functors := rest }) := by
  have hcount : (w.functors ++ w.pendingFunctors).count .connectDestroyed = _ :=
    congrArg Shape.destroying h.staged
  rw [hfunctors, List.cons_append, List.count_cons_self] at hcount
  have hstage : stage = .destroying := by
    cases stage with
    | destroying => rfl
    | _ => exact absurd hcount (Nat.succ_ne_zero _)
  subst hstage
  have hstate : w.conn.state = .kDisconnected := h.state
  have hdown : w.conn.state ≠ .kConnected := by
    rw [hstate]
    decide
  refine ⟨_, if_neg hdown, ⟨.detaching, ?_, hstate, fun _ => h.idle (by decide), h.wf,
    h.queue, h.agrees, fun hqueued => absurd hqueued (by decide), ?_⟩, Nat.le_refl _⟩
  · calc shape chan
          { w with
            functors := rest
            destroyed := w.destroyed + 1
            todo := .remove :: w.todo }
        = { shape chan w with
            establishing := (rest ++ w.pendingFunctors).count .connectEstablished
            closing := (Frame.remove :: w.todo).count .closeCallback
            destroying := (rest ++ w.pendingFunctors).count .connectDestroyed
            detaching := (Frame.remove :: w.todo).count .remove
            destroyed := w.destroyed + 1 } := rfl
      _ = Stage.detaching.shape w.conn.isWriting := by
          have hestablished : (w.functors ++ w.pendingFunctors).count .connectEstablished = 0 :=
            congrArg Shape.establishing h.staged
          have hdestroyed : w.destroyed = 0 := congrArg Shape.destroyed h.staged
          rw [hfunctors, List.cons_append, List.count_cons_of_ne (by decide)] at hestablished
          rw [h.staged, hestablished, Nat.succ.inj hcount, hdestroyed, htodo]
          rfl
  · have hcontrol := h.control.popFunctor hfunctors
    refine ⟨?_, hcontrol.bits, hcontrol.remaining, hcontrol.functors, fun _ => hphase,
      hcontrol.owned⟩
    change (Frame.remove :: w.todo).countP mayClose + _ ≤ 0
    rw [List.countP_cons_of_neg (by simp [mayClose])]
    exact hcontrol.closes

/-- The functors that the connection queues, whatever has become of it since. -/
theorem Inv.functorOwn (h : Inv chan w stage) {f : Functor} {rest : List IoFunctor}
    {r : WriteResult} (hphase : w.phase = .functors) (htodo : w.todo = [])
    (hfunctors : w.functors = .own f :: rest) :
    Advances chan w ({ w with functors := rest }.runFunctor chan r (.own f)) := by
  have hpop := h.popFunctor hfunctors (by simp) (by simp)
  have hexposed : w.notices ≠ [] := by
    refine h.control.owned f ?_
    rw [hfunctors]
    exact List.mem_cons_self
  cases f with
  | sendInLoop m =>
      by_cases hdown : w.conn.state = .kDisconnected
      · have hsend : w.conn.runFunctor r (.sendInLoop m) = .ok w.conn := if_pos hdown
        change Advances chan w (do
          let c ← w.conn.runFunctor r (.sendInLoop m)
          ServerConnection.adopt chan { w with functors := rest } c)
        rw [hsend, ok_bind]
        exact hpop.advances_same rfl
      · obtain ⟨c, hsend, hwf, hsame, -, -, -⟩ :=
          TcpConnection.sendInLoop_spec h.wf hdown m r
        obtain rfl := h.up_of_exposed hexposed hdown
        change Advances chan w (do
          let c ← w.conn.sendInLoop m r
          ServerConnection.adopt chan { w with functors := rest } c)
        rw [hsend, ok_bind]
        refine hpop.advances_up hwf ?_ ?_
        · rw [hsame.state]
          exact h.state
        · rw [hsame.state]
  | shutdownInLoop =>
      have hstate : w.conn.shutdownInLoop.state = w.conn.state := by
        rw [TcpConnection.shutdownInLoop]
        split <;> rfl
      have hwriting : w.conn.shutdownInLoop.isWriting = w.conn.isWriting := by
        rw [TcpConnection.shutdownInLoop]
        split <;> rfl
      have hwf : w.conn.shutdownInLoop.WF := by
        rw [TcpConnection.shutdownInLoop]
        split
        · exact h.wf
        · exact ⟨h.wf.input, h.wf.output⟩
      refine hpop.advances_adopt hwf ?_ ?_ (fun _ => hexposed) ?_
      · rw [hstate]
        exact h.state
      · rw [hwriting]
        exact h.idle
      · rw [hstate]
  | forceCloseInLoop =>
      change Advances chan w (if w.conn.state = .kConnected ∨ w.conn.state = .kDisconnecting then
        ServerConnection.handleClose chan { w with functors := rest }
        else .ok { w with functors := rest })
      split
      · rename_i hopen
        obtain rfl := h.up_of_state hopen
        have hremaining := h.control.remaining (by rw [hphase]; decide)
        refine hpop.advances_handleClose ?_ ?_
        · change w.todo.countP mayClose = 0
          rw [htodo]
          rfl
        · change (w.remaining.map Prod.fst).count chan = 0
          rw [hremaining]
          rfl
      · exact ⟨_, rfl, ⟨stage, hpop⟩, Nat.le_refl _⟩

theorem Inv.functor (h : Inv chan w stage) {f : IoFunctor} {rest : List IoFunctor}
    {r : WriteResult} (hphase : w.phase = .functors) (htodo : w.todo = [])
    (hfunctors : w.functors = f :: rest) :
    Advances chan w ({ w with functors := rest }.runFunctor chan r f) := by
  cases f with
  | connectEstablished => exact h.functorEstablished hphase htodo hfunctors
  | connectDestroyed => exact h.functorDestroyed hphase htodo hfunctors
  | own f => exact h.functorOwn hphase htodo hfunctors
  | other =>
      exact ⟨_, rfl, ⟨stage, h.popFunctor hfunctors (by decide) (by decide)⟩, Nat.le_refl _⟩

/-- The input buffer plays no part. -/
theorem Inv.setInput (h : Inv chan w stage) {input : Buffer} (hwf : input.WF) :
    Inv chan { w with conn := { w.conn with inputBuffer := input } } stage where
  staged := h.staged
  state := h.state
  idle := h.idle
  wf := ⟨hwf, h.wf.output⟩
  queue := h.queue
  agrees := h.agrees
  sole := h.sole
  control := ⟨h.control.closes, h.control.bits, h.control.remaining, h.control.functors,
    h.control.detaching, h.control.owned⟩

theorem Inv.pushMessage (h : Inv chan w stage) :
    Inv chan { w with todo := .messageCallback :: w.todo } stage := by
  refine h.moved rfl rfl ?_ ⟨?_, h.control.bits, h.control.remaining, h.control.functors, ?_,
    h.control.owned⟩
  · simp [shape]
  · rw [List.countP_cons_of_neg (by simp [mayClose])]
    exact h.control.closes
  · intro hmem
    refine h.control.detaching ?_
    simpa using hmem

/-- A frame that can close is the only thing that can. -/
theorem Inv.closable (h : Inv chan w stage) {f : Frame} {rest : List Frame}
    (htodo : w.todo = f :: rest) (hf : mayClose f = true) :
    stage = .up ∧ rest.countP mayClose = 0 ∧ (w.remaining.map Prod.fst).count chan = 0 := by
  have hcloses := h.control.closes
  rw [htodo, List.countP_cons_of_pos hf] at hcloses
  have hone : stage.reports ≤ 1 := by cases stage <;> decide
  refine ⟨?_, by omega, by omega⟩
  cases stage with
  | up => rfl
  | _ =>
      change _ ≤ 0 at hcloses
      omega

theorem Inv.frameRead (h : Inv chan w stage) {rest : List Frame} (htodo : w.todo = .read :: rest)
    (read : Buffer.ReadResult) :
    Advances chan w (ServerConnection.handleRead chan { w with todo := rest } read) := by
  have hpop := h.popFrame htodo nofun nofun
  obtain ⟨rfl, hrest, hremaining⟩ := h.closable htodo rfl
  cases read with
  | error errno => exact ⟨_, rfl, ⟨_, hpop⟩, Nat.le_refl _⟩
  | data bytes =>
      obtain ⟨input, hread, hwf, -⟩ := Buffer.readFd_spec h.wf.input bytes
      have hinput := hpop.setInput hwf
      simp only [ServerConnection.handleRead, hread, ok_bind]
      split
      · exact ⟨_, rfl, ⟨_, hinput.pushMessage⟩, Nat.le_refl _⟩
      · split
        · exact hinput.advances_handleClose hrest hremaining
        · exact ⟨_, rfl, ⟨_, hinput⟩, Nat.le_refl _⟩

theorem Inv.frameWrite (h : Inv chan w stage) {rest : List Frame} (htodo : w.todo = .write :: rest)
    {write : WriteResult} (hwrite : write.Within w.conn.outputBuffer.readableBytes) :
    Advances chan w (ServerConnection.handleWrite chan { w with todo := rest } write) := by
  have hpop := h.popFrame htodo nofun nofun
  change Advances chan w (do
    let c ← w.conn.handleWrite write
    ServerConnection.adopt chan { w with todo := rest } c)
  rcases TcpConnection.handleWrite_cases h.wf hwrite with
    ⟨hsame, -⟩ | ⟨hwriting, -, out, hwf, -, hmoved⟩
  · rw [hsame, ok_bind]
    exact hpop.advances_same rfl
  · have hup : stage = .up := by
      by_contra hdown
      rw [h.idle hdown] at hwriting
      cases hwriting
    subst hup
    rw [hmoved, ok_bind]
    exact hpop.advances_up ⟨h.wf.input, hwf⟩ h.state (Nat.le_refl _)

/-- `removeConnectionInLoop` of a connection that is closed, when nothing else is
to be done for it. -/
theorem advances_removed {w₀ : ServerConnection C} (hstate : w.conn.state = .kDisconnected)
    (hidle : w.conn.isWriting = false) (hwf : w.conn.WF) (hqueue : w.conn.pendingFunctors = [])
    (hagrees : w.poller.Agrees) (hcontrol : Control chan w 0)
    (hshape : shape chan w =
      ⟨true, true, 0, 0, 0, 0, 0, Stage.wentDown, 1, 0, .kDeleted, .noneEvent⟩) :
    Advances chan w₀ w.removeConnectionInLoop := by
  have hlisted : w.listed = true := congrArg Shape.listed hshape
  have hpush := hcontrol.push (g := .connectDestroyed) nofun
  refine ⟨{ w with
      listed := false
      pendingFunctors := w.pendingFunctors ++ [IoFunctor.connectDestroyed] }, ?_,
    ⟨.destroying, ?_, hstate, fun _ => hidle, hwf, hqueue, hagrees, nofun, ?_⟩, ?_⟩
  · rw [ServerConnection.removeConnectionInLoop, require_of_true hlisted]
    rfl
  · calc shape chan
          { w with
            listed := false
            pendingFunctors := w.pendingFunctors ++ [.connectDestroyed] }
        = { shape chan { w with
              pendingFunctors := w.pendingFunctors ++ [.connectDestroyed] } with
            listed := false } := rfl
      _ = Stage.destroying.shape w.conn.isWriting := by
          rw [shape_push, hshape]
          rfl
  · exact ⟨hpush.closes, hpush.bits, hpush.remaining, hpush.functors, hpush.detaching, hpush.owned⟩
  · change _ ≤ rank w.conn.state
    rw [hstate]
    cases w₀.conn.state <;> decide

theorem Inv.frameCloseCallback (h : Inv chan w stage) {rest : List Frame}
    (htodo : w.todo = .closeCallback :: rest) (oneLoop : Bool) :
    Advances chan w (ServerConnection.closeCallback oneLoop { w with todo := rest }) := by
  have hcount : w.todo.count .closeCallback = _ := congrArg Shape.closing h.staged
  rw [htodo, List.count_cons_self] at hcount
  have hstage : stage = .closing := by
    cases stage with
    | closing => rfl
    | _ => exact absurd hcount (Nat.succ_ne_zero _)
  subst hstage
  have hdetaching : w.todo.count .remove = 0 := congrArg Shape.detaching h.staged
  rw [htodo, List.count_cons_of_ne (by decide)] at hdetaching
  have hcallbacks : w.closeCallbacks = 0 := congrArg Shape.closeCallbacks h.staged
  have hcontrol : Control chan { w with todo := rest } 0 := h.control.popFrame htodo
  let w₁ : ServerConnection C := { w with todo := rest, closeCallbacks := w.closeCallbacks + 1 }
  have hshape : shape chan w₁ =
      { shape chan w with
        closing := rest.count .closeCallback
        detaching := rest.count .remove
        closeCallbacks := w.closeCallbacks + 1 } := rfl
  rw [h.staged, Nat.succ.inj hcount, hdetaching, hcallbacks] at hshape
  cases oneLoop with
  | true =>
      refine advances_removed (w := w₁) h.state (h.idle nofun) h.wf h.queue h.agrees ?_ hshape
      exact ⟨hcontrol.closes, hcontrol.bits, hcontrol.remaining, hcontrol.functors,
        hcontrol.detaching, hcontrol.owned⟩
  | false =>
      have hremovals : w.removals = 0 := congrArg Shape.removing h.staged
      refine ⟨_, rfl, ⟨.removing, ?_, h.state, fun _ => h.idle nofun, h.wf, h.queue, h.agrees,
        nofun, ?_⟩, Nat.le_refl _⟩
      · calc shape chan { w₁ with removals := w.removals + 1 }
            = { shape chan w₁ with removing := w.removals + 1 } := rfl
          _ = Stage.removing.shape w.conn.isWriting := by
              rw [hshape, hremovals]
              rfl
      · exact ⟨hcontrol.closes, hcontrol.bits, hcontrol.remaining, hcontrol.functors,
          hcontrol.detaching, hcontrol.owned⟩

theorem Inv.frameRemove (h : Inv chan w stage) {rest : List Frame}
    (htodo : w.todo = .remove :: rest) :
    Advances chan w (ServerConnection.removeChannel chan { w with todo := rest }) := by
  have hcount : w.todo.count .remove = _ := congrArg Shape.detaching h.staged
  rw [htodo, List.count_cons_self] at hcount
  have hstage : stage = .detaching := by
    cases stage with
    | detaching => rfl
    | _ => exact absurd hcount (Nat.succ_ne_zero _)
  subst hstage
  have hindex : (w.poller.table chan).index = .kDeleted := congrArg Shape.index h.staged
  have hevents : (w.poller.table chan).events = .noneEvent := congrArg Shape.events h.staged
  have hphase : w.phase = .functors := h.control.detaching (by
    rw [htodo]
    exact List.mem_cons_self)
  obtain ⟨p, hp, hagrees, hevents', hindex'⟩ := Poller.remove_spec h.agrees
    (c := chan) (by rw [hindex]; decide) (by rw [Channel.isNoneEvent, hevents]; rfl)
  have hcontrol := h.control.popFrame htodo
  refine ⟨{ w with todo := rest, poller := p }, ?_, ⟨.gone, ?_, h.state,
    fun _ => h.idle (by decide), h.wf, h.queue, hagrees,
    fun hqueued => absurd hqueued (by decide), ?_⟩, Nat.le_refl _⟩
  · rw [ServerConnection.removeChannel, require_of_true ?outside, ok_bind, hp]
    · rfl
    case outside =>
      intro hhandling
      cases hphase.symm.trans hhandling
  · calc shape chan { w with todo := rest, poller := p }
        = { shape chan w with
            closing := rest.count .closeCallback
            detaching := rest.count .remove
            index := (p.table chan).index
            events := (p.table chan).events } := rfl
      _ = Stage.gone.shape w.conn.isWriting := by
          have hclosing : w.todo.count .closeCallback = 0 := congrArg Shape.closing h.staged
          rw [htodo, List.count_cons_of_ne (by decide)] at hclosing
          rw [h.staged, hclosing, Nat.succ.inj hcount, hindex', hevents', hevents]
          rfl
  · exact ⟨hcontrol.closes, hcontrol.bits, hcontrol.remaining, hcontrol.functors,
      hcontrol.detaching, hcontrol.owned⟩

theorem Inv.frame (h : Inv chan w stage) {oneLoop : Bool} {f : Frame} {rest : List Frame}
    {read : Buffer.ReadResult} {write : WriteResult} (htodo : w.todo = f :: rest)
    (hwrite : write.Within w.conn.outputBuffer.readableBytes) :
    Advances chan w (runFrame chan oneLoop { w with todo := rest } read write f) := by
  cases f with
  | close =>
      have hpop := h.popFrame htodo nofun nofun
      obtain ⟨rfl, hrest, hremaining⟩ := h.closable htodo rfl
      exact hpop.advances_handleClose hrest hremaining
  | read => exact h.frameRead htodo read
  | write => exact h.frameWrite htodo hwrite
  | closeCallback => exact h.frameCloseCallback htodo oneLoop
  | remove => exact h.frameRemove htodo
  | error => exact ⟨_, rfl, ⟨stage, h.popFrame htodo nofun nofun⟩, Nat.le_refl _⟩
  | connectionCallback => exact ⟨_, rfl, ⟨stage, h.popFrame htodo nofun nofun⟩, Nat.le_refl _⟩
  | messageCallback => exact ⟨_, rfl, ⟨stage, h.popFrame htodo nofun nofun⟩, Nat.le_refl _⟩

theorem Inv.retrieve (h : Inv chan w stage) {n : Nat}
    (hn : n ≤ w.conn.inputBuffer.readableBytes) :
    Advances chan w (do
      let input ← w.conn.inputBuffer.retrieve n
      return { w with conn := { w.conn with inputBuffer := input } }) := by
  obtain ⟨input, hretrieve, hwf, -⟩ := Buffer.retrieve_spec h.wf.input hn
  rw [hretrieve, ok_bind]
  exact ⟨_, rfl, ⟨stage, h.setInput hwf⟩, Nat.le_refl _⟩

/-- The channel of the connection is reported at most once, and only while the
connection is up. -/
theorem Inv.reported (h : Inv chan w stage) {capacity : Nat} {reports : List (Poller.Report C)}
    (hreports : w.poller.Reports capacity reports) :
    (reports.map Poller.Report.ptr).count chan ≤ stage.reports := by
  by_cases hmem : chan ∈ reports.map Poller.Report.ptr
  · obtain ⟨r, hr, rfl⟩ := List.mem_map.mp hmem
    obtain ⟨fd, mask, hinterest, -⟩ := hreports.interested r hr
    obtain ⟨-, hadded, -⟩ := (h.agrees.polled _ _ _).mp hinterest
    obtain rfl := h.up_of_index hadded
    exact List.nodup_iff_count.mp hreports.once _
  · rw [List.count_eq_zero.mpr hmem]
    exact Nat.zero_le _

theorem Inv.poll (h : Inv chan w stage) {capacity : Nat} {reports : List (Poller.Report C)}
    (hphase : w.phase = .polling) (htodo : w.todo = [])
    (hreports : w.poller.Reports capacity reports) :
    Advances chan w (do
      let active ← w.poller.fillActiveChannels capacity reports
      return { w with phase := .handling, activeChannels := active, remaining := active }) := by
  rw [h.agrees.fillActiveChannels hreports, ok_bind]
  refine ⟨_, rfl, ⟨stage, h.moved rfl rfl rfl ?_⟩, Nat.le_refl _⟩
  refine ⟨?_, ?_, fun hnot => absurd rfl hnot, fun _ => h.control.functors (by rw [hphase]; decide),
    ?_, h.control.owned⟩
  · change w.todo.countP mayClose +
      ((reports.map fun r => (r.ptr, r.revents)).map Prod.fst).count chan ≤ _
    rw [htodo, List.countP_nil, Nat.zero_add, List.map_map]
    exact h.reported hreports
  · intro x hx
    obtain ⟨r, hr, rfl⟩ := List.mem_map.mp hx
    obtain ⟨-, mask, -, hwithin⟩ := hreports.interested r hr
    exact ⟨hwithin.pollpri, hwithin.pollrdhup⟩
  · intro hmem
    change Frame.remove ∈ w.todo at hmem
    rw [htodo] at hmem
    cases hmem

/-- With the bits that epoll reports, one part of `handleEvent` at most can
close. -/
theorem eventFrames_spec (r : Revents) (hpri : r.pollpri = false) (hrdhup : r.pollrdhup = false) :
    (eventFrames r).countP mayClose ≤ 1 ∧ (eventFrames r).count .closeCallback = 0 ∧
      (eventFrames r).count .remove = 0 := by
  obtain ⟨pollin, pollpri, pollout, pollerr, pollhup, pollnval, pollrdhup⟩ := r
  change pollpri = false at hpri
  change pollrdhup = false at hrdhup
  subst hpri hrdhup
  revert pollin pollout pollerr pollhup pollnval
  decide

theorem Inv.handleEvent (h : Inv chan w stage) {c : C} {r : Revents} {rest : List (C × Revents)}
    (hphase : w.phase = .handling) (htodo : w.todo = []) (hremaining : w.remaining = (c, r) :: rest) :
    Inv chan
      { w with
        currentActiveChannel := some c
        remaining := rest
        todo := if c = chan then eventFrames r else [] } stage := by
  obtain ⟨hpri, hrdhup⟩ := h.control.bits (c, r) (by rw [hremaining]; exact List.mem_cons_self)
  obtain ⟨hone, hclose, hremove⟩ := eventFrames_spec r hpri hrdhup
  have hcloses := h.control.closes
  rw [htodo, hremaining, List.countP_nil, Nat.zero_add, List.map_cons] at hcloses
  have hbits : ∀ x ∈ rest, x.2.pollpri = false ∧ x.2.pollrdhup = false := by
    intro x hx
    refine h.control.bits x ?_
    rw [hremaining]
    exact List.mem_cons_of_mem _ hx
  have hfunctors := h.control.functors (by rw [hphase]; decide)
  refine h.moved rfl rfl ?_
    ⟨?_, hbits, fun hnot => absurd hphase hnot, fun _ => hfunctors, ?_, h.control.owned⟩
  · by_cases hc : c = chan
    · simp [shape, hc, hclose, hremove, htodo]
    · simp [shape, hc, htodo]
  · by_cases hc : c = chan
    · simp only [hc, if_true]
      rw [hc, List.count_cons_self] at hcloses
      omega
    · simp only [hc, if_false]
      rw [List.count_cons_of_ne hc] at hcloses
      simpa using hcloses
  · intro hmem
    by_cases hc : c = chan
    · simp only [hc, if_true] at hmem
      exact absurd hmem (List.count_eq_zero.mp hremove)
    · simp [hc] at hmem

theorem Inv.doPendingFunctors (h : Inv chan w stage) (hphase : w.phase = .handling)
    (hremaining : w.remaining = []) :
    Inv chan
      { w with
        phase := .functors
        currentActiveChannel := none
        functors := w.pendingFunctors
        pendingFunctors := [] } stage := by
  have hfunctors := h.control.functors (by rw [hphase]; decide)
  refine h.moved rfl rfl ?_ ⟨h.control.closes, h.control.bits, fun _ => hremaining,
    fun hnot => absurd rfl hnot, fun _ => rfl, ?_⟩
  · simp [shape, hfunctors]
  · intro f hf
    refine h.control.owned f ?_
    simpa [hfunctors] using hf

theorem Inv.endBatch (h : Inv chan w stage) (hphase : w.phase = .functors) (htodo : w.todo = [])
    (hfunctors : w.functors = []) : Inv chan { w with phase := .polling } stage := by
  refine h.moved rfl rfl rfl ⟨h.control.closes, h.control.bits,
    fun _ => h.control.remaining (by rw [hphase]; decide), fun _ => hfunctors, ?_, h.control.owned⟩
  intro hmem
  change Frame.remove ∈ w.todo at hmem
  rw [htodo] at hmem
  cases hmem

theorem Inv.removeConnectionInLoop (h : Inv chan w stage) (hremovals : 0 < w.removals) :
    Advances chan w
      (ServerConnection.removeConnectionInLoop { w with removals := w.removals - 1 }) := by
  have hcount : w.removals = _ := congrArg Shape.removing h.staged
  have hstage : stage = .removing := by
    rw [hcount] at hremovals
    cases stage with
    | removing => rfl
    | _ => exact absurd hremovals (Nat.lt_irrefl 0)
  subst hstage
  refine advances_removed (w := { w with removals := w.removals - 1 }) h.state (h.idle nofun) h.wf
    h.queue h.agrees ?_ ?_
  · exact ⟨h.control.closes, h.control.bits, h.control.remaining, h.control.functors,
      h.control.detaching, h.control.owned⟩
  · calc shape chan { w with removals := w.removals - 1 }
        = { shape chan w with removing := w.removals - 1 } := rfl
      _ = _ := by
          rw [h.staged, hcount]
          rfl

theorem Inv.otherFunctor (h : Inv chan w stage) :
    Inv chan { w with pendingFunctors := w.pendingFunctors ++ [.other] } stage := by
  refine h.moved rfl rfl ?_ (h.control.push nofun)
  rw [shape_push]
  rfl

theorem Inv.otherChannel (h : Inv chan w stage) {call : Poller.Call C}
    (hother : call.channel ≠ chan) (hallowed : w.poller.Allowed call)
    (hfd : w.accepted = true → w.destroyed = 0 →
      (w.poller.table call.channel).fd ≠ (w.poller.table chan).fd) :
    Advances chan w (do
      let p ← w.poller.exec call
      return { w with poller := p }) := by
  obtain ⟨hsole, hsame, ctls, hctls, hexec⟩ := Poller.exec_eq h.agrees hallowed
  have hagrees := h.agrees.become hsole hsame hctls
  have hchannel : (call.after w.poller).1 = call.channel := by cases call <;> rfl
  rw [hchannel] at hsame hexec hagrees
  have htable : (w.poller.become call.channel (call.after w.poller).2 ctls).table chan =
      w.poller.table chan := Function.update_of_ne hother.symm _ _
  rw [hexec, ok_bind]
  refine ⟨_, rfl, ⟨stage, ?_, h.state, h.idle, h.wf, h.queue, hagrees, ?_, ?_⟩, Nat.le_refl _⟩
  · rw [← h.staged]
    simp only [shape, htable]
  · rintro rfl d hd hregistered
    change ((w.poller.become _ _ _).table d).fd ≠ ((w.poller.become _ _ _).table chan).fd
    rw [htable]
    by_cases hcall : d = call.channel
    · have hself : (w.poller.become call.channel (call.after w.poller).2 ctls).table call.channel =
          (call.after w.poller).2 := Function.update_self _ _ _
      rw [hcall, hself, hsame]
      exact hfd (congrArg Shape.accepted h.staged) (congrArg Shape.destroyed h.staged)
    · have hkept : (w.poller.become call.channel (call.after w.poller).2 ctls).table d =
          w.poller.table d := Function.update_of_ne hcall _ _
      rw [hkept]
      refine h.sole rfl d hd ?_
      rw [← hkept]
      exact hregistered
  · exact ⟨h.control.closes, h.control.bits, h.control.remaining, h.control.functors,
      h.control.detaching, h.control.owned⟩

/-- Whatever can happen next has a result, with the invariant. -/
theorem Inv.advances (h : Inv chan w stage) {oneLoop : Bool} {e : Event C}
    {r : Except Fault (ServerConnection C)} (hexec : Exec chan oneLoop w e r) :
    Advances chan w r := by
  cases hexec with
  | newConnection haccepted hsole htodo => exact h.newConnection haccepted hsole htodo
  | send _ hbuf _ => exact h.send hbuf _
  | shutdown _ => exact h.shutdown _
  | forceClose _ => exact h.forceClose
  | retrieve _ hn => exact h.retrieve hn
  | poll hphase htodo hreports => exact h.poll hphase htodo hreports
  | handleEvent hphase htodo hremaining =>
      exact ⟨_, rfl, ⟨stage, h.handleEvent hphase htodo hremaining⟩, Nat.le_refl _⟩
  | doPendingFunctors hphase _ hremaining =>
      exact ⟨_, rfl, ⟨stage, h.doPendingFunctors hphase hremaining⟩, Nat.le_refl _⟩
  | functor hphase htodo hfunctors _ => exact h.functor hphase htodo hfunctors
  | endBatch hphase htodo hfunctors =>
      exact ⟨_, rfl, ⟨stage, h.endBatch hphase htodo hfunctors⟩, Nat.le_refl _⟩
  | frame htodo hwrite => exact h.frame htodo hwrite
  | removeConnectionInLoop hremovals => exact h.removeConnectionInLoop hremovals
  | otherFunctor => exact ⟨_, rfl, ⟨stage, h.otherFunctor⟩, Nat.le_refl _⟩
  | otherChannel hother hallowed hfd => exact h.otherChannel hother hallowed hfd

theorem inv_of_run {oneLoop : Bool} {fd : C → Int} {events : List (Event C)}
    (hrun : Run (Step chan oneLoop) (new fd) events w) : ∃ stage, Inv chan w stage := by
  refine hrun.invariant (I := fun w => ∃ stage, Inv chan w stage) ⟨_, inv_new fd⟩ ?_
  rintro w e w' ⟨stage, h⟩ hstep
  obtain ⟨w₁, hw₁, hinv, -⟩ := h.advances hstep
  cases hw₁
  exact hinv

theorem Stage.shape_history (stage : Stage) (writing : Bool) :
    (stage.shape writing).notices <+: wentDown ∧ (stage.shape writing).closeCallbacks ≤ 1 ∧
      (stage.shape writing).destroyed ≤ 1 := by
  cases stage <;> cases writing <;> decide

/-- Nothing that can happen to the connection fails, and nothing takes its state
back; its callbacks come once each, the one with the connection up first. -/
theorem life_cycle {oneLoop : Bool} {fd : C → Int} {events : List (Event C)}
    (hrun : Run (Step chan oneLoop) (new fd) events w) :
    (∀ e r, Exec chan oneLoop w e r →
      ∃ w', r = .ok w' ∧ rank w.conn.state ≤ rank w'.conn.state) ∧
    w.notices <+: [⟨.connectEstablished, true⟩, ⟨.handleClose, false⟩] ∧
    w.closeCallbacks ≤ 1 ∧ w.destroyed ≤ 1 := by
  obtain ⟨stage, h⟩ := inv_of_run hrun
  refine ⟨?_, ?_⟩
  · intro e r hexec
    obtain ⟨w', hr, -, hrank⟩ := h.advances hexec
    exact ⟨w', hr, hrank⟩
  · have hhistory := stage.shape_history w.conn.isWriting
    rw [← h.staged] at hhistory
    exact hhistory

/-- The peer resets a connection, on a server with one loop. -/
theorem reset_run : ∃ w : ServerConnection Unit,
    Run (Step () true) (new fun _ => 7)
      [.newConnection, .frame (.data []) (.wrote 0),
        .poll 16 [⟨⟨false, false, false, false, true, false, false⟩, ()⟩], .handleEvent,
        .frame (.data []) (.wrote 0), .frame (.data []) (.wrote 0), .frame (.data []) (.wrote 0),
        .doPendingFunctors, .functor (.wrote 0), .frame (.data []) (.wrote 0)] w ∧
      w.closeCallbacks = 1 ∧ w.destroyed = 1 := by
  have hquiet : ∀ n, (WriteResult.wrote 0).Within n := Nat.zero_le
  have hsole : (Poller.new fun _ : Unit => 7).Sole () := fun _ hd => absurd rfl hd
  have hnew := run_then (.nil : Run (Step () true) (new fun _ : Unit => 7) [] _) .newConnection
    (.newConnection rfl hsole fun _ => rfl) rfl
  have hcalled := run_then hnew (.frame (.data []) (.wrote 0)) (.frame rfl (hquiet _)) rfl
  have hpolled := run_then hcalled
    (.poll 16 [⟨⟨false, false, false, false, true, false, false⟩, ()⟩])
    (.poll rfl rfl <| by
      refine ⟨by decide, by simp, ?_⟩
      intro r hr
      obtain rfl := List.mem_singleton.mp hr
      refine ⟨7, ⟨true, false⟩, rfl, ?_, ?_, rfl, rfl, rfl⟩
      · intro hin
        cases hin
      · intro hout
        cases hout) rfl
  have hhandled := run_then hpolled .handleEvent (.handleEvent rfl rfl rfl) rfl
  have hclosed := run_then hhandled (.frame (.data []) (.wrote 0)) (.frame rfl (hquiet _)) rfl
  have hnotified := run_then hclosed (.frame (.data []) (.wrote 0)) (.frame rfl (hquiet _)) rfl
  have hremoved := run_then hnotified (.frame (.data []) (.wrote 0)) (.frame rfl (hquiet _)) rfl
  have hswapped := run_then hremoved .doPendingFunctors (.doPendingFunctors rfl rfl rfl) rfl
  have hdestroyed := run_then hswapped (.functor (.wrote 0))
    (.functor rfl rfl rfl fun _ hf => by cases hf) rfl
  have hleft := run_then hdestroyed (.frame (.data []) (.wrote 0)) (.frame rfl (hquiet _)) rfl
  exact ⟨_, hleft, rfl, rfl⟩

theorem life_cycle_reset : ∃ (events : List (Event Unit)) (w : ServerConnection Unit),
    Run (Step () true) (new fun _ => 7) events w ∧ w.closeCallbacks = 1 ∧ w.destroyed = 1 ∧
      (∀ e r, Exec () true w e r →
        ∃ w', r = .ok w' ∧ rank w.conn.state ≤ rank w'.conn.state) ∧
      w.notices <+: [⟨.connectEstablished, true⟩, ⟨.handleClose, false⟩] := by
  obtain ⟨w, hrun, hcallbacks, hdestroyed⟩ := reset_run
  obtain ⟨hnext, hnotices, -, -⟩ := life_cycle hrun
  exact ⟨_, w, hrun, hcallbacks, hdestroyed, hnext, hnotices⟩

end ProtoRpc.ServerConnection
