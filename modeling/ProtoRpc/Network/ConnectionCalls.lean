import ProtoRpc.Network.HalfClose
import ProtoRpc.Network.ThreadCalls

/-!
A connection whose calls of other threads are cut where they look at the state, store it
and queue a functor. As long as none of them stores `kDisconnecting` in a connection that
has gone down since its test, everything is as with whole calls, but for the moments in
which a connection is disconnecting and the thread that made it so has yet to queue what
follows.
-/
namespace ProtoRpc
open Transition

/-- Calls of other threads that look at the state. -/
def ServerConnection.Event.foreign {C : Type} : ServerConnection.Event C → Bool
  | .send own _ _ | .shutdown own | .forceClose own => !own
  | _ => false

def Connection.Event.foreign {C : Type} : Connection.Event C → Bool
  | .server e => e.foreign
  | _ => false

/-- `calls` is what is left of the calls that other threads are in. -/
structure ConnectionCalls (C : Type) where
  conn : Connection C
  calls : List CallRest

namespace ConnectionCalls

variable {C : Type} [DecidableEq C] (chan : C) (oneLoop : Bool)

def new (fd : C → Int) : ConnectionCalls C := ⟨.new fd, []⟩

/-- The connection proper is left as `c`. -/
def withConn (s : ConnectionCalls C) (c : TcpConnection) : ConnectionCalls C :=
  { s with conn := { s.conn with server := { s.conn.server with conn := c } } }

inductive Event (C : Type) where
  | conn (e : Connection.Event C)
  | enter (call : ThreadCall)
  | store (next : Option Functor)
  | queue (f : Functor)

inductive Exec (s : ConnectionCalls C) : Event C → Except Fault (ConnectionCalls C) → Prop where
  | conn {e : Connection.Event C} {r : Except Fault (Connection C)} (he : e.foreign = false)
      (hexec : Connection.Exec chan oneLoop s.conn e r) :
      Exec s (.conn e) (do
        let w ← r
        return { s with conn := w })
  | enter {call : ThreadCall} (henters : call.enters s.conn.server.conn.state = true) :
      Exec s (.enter call) (.ok { s with calls := s.calls ++ [call.rest] })
  | store {next : Option Functor} (hcall : .store next ∈ s.calls) :
      Exec s (.store next) (.ok
        { s.withConn s.conn.server.conn.store with
          calls := s.calls.erase (.store next) ++ next.toList.map .queue })
  | queue {f : Functor} (hcall : .queue f ∈ s.calls) :
      Exec s (.queue f) (.ok
        { conn := s.conn.queueInLoop (.io (.own f)), calls := s.calls.erase (.queue f) })

def Step (s : ConnectionCalls C) (e : Event C) (s' : ConnectionCalls C) : Prop :=
  Exec chan oneLoop s e (.ok s')

/-- A call that stores `kDisconnecting` finds the connection still up. -/
def Timely (s : ConnectionCalls C) : Event C → Prop
  | .store _ => s.conn.isOpen
  | _ => True

def TimelyStep : ConnectionCalls C → Event C → ConnectionCalls C → Prop :=
  Guarded (Step chan oneLoop) Timely

end ConnectionCalls

namespace Connection

variable {C : Type} [DecidableEq C] {chan : C} {w : Connection C}

omit [DecidableEq C] in
theorem mem_queued_queueInLoop {t u : ConnTask} :
    u ∈ (w.queueInLoop t).queued ↔ u ∈ w.queued ∨ u = t := by
  simp only [queueInLoop, queued, List.mem_append, List.mem_singleton]
  tauto

theorem Inv.store (h : Inv chan w) (hopen : w.isOpen) :
    Inv chan { w with server := { w.server with conn := w.server.conn.store } } := by
  have hworks : w.server.conn.Works w.server.conn.store :=
    TcpConnection.works_disconnecting h.wired.wf h.wired.pending hopen (Or.inl rfl) _
  have hadopt : w.server.adopt chan w.server.conn.store =
      .ok { w.server with conn := w.server.conn.store } := by
    rw [ServerConnection.adopt, TcpConnection.store, if_pos rfl, h.wired.queue]
    simp
  exact h.adopt hworks hadopt

/-- What closes is queued for a connection that ends. -/
theorem Inv.queueClosing (h : Inv chan w) (hended : w.Ended) (f : Functor) :
    Inv chan (w.queueInLoop (.io (.own f))) where
  wired := h.wired
  chores :=
    { h.chores with
      leaving := by
        intro hleaving
        refine h.chores.leaving (hleaving.back (fun _ hf => Or.inl hf) rfl ?_ rfl)
        intro htask
        exact (mem_queued_queueInLoop.mp htask).resolve_right (by simp)
      unborn := by
        intro haccepted
        obtain ⟨hstate, hnone⟩ := h.chores.unborn haccepted
        exact ⟨hstate, fun htask => hnone
          ((mem_queued_queueInLoop.mp htask).resolve_right (by simp))⟩
      listed := by
        intro hlisted
        obtain ⟨hdestroyed, hnone⟩ := h.chores.listed hlisted
        exact ⟨hdestroyed, fun htask => hnone
          ((mem_queued_queueInLoop.mp htask).resolve_right (by simp))⟩
      known := fun htask =>
        h.chores.known ((mem_queued_queueInLoop.mp htask).resolve_right (by simp))
      fresh := by
        intro hnot hup
        rcases hended with hstate | hstate
        · exact absurd hstate hnot
        · exact absurd hstate hup }
  batch := h.batch
  polled := h.polled.moved rfl rfl (Nat.le_refl _)

theorem ended_forceCloseWithDelay (h : Inv chan w) {oneLoop : Bool} {w' : Connection C}
    (hstep : Step chan oneLoop w .forceCloseWithDelay w') (hended : w.Ended) : w'.Ended := by
  rw [Ended, (forceCloseWithDelay_inv h hstep).1]
  rcases w.server.conn.forceCloseWithDelay_keeps with hsame | ⟨-, hdisconnecting⟩
  · exact hsame.symm ▸ hended
  · exact Or.inl hdisconnecting

theorem ended_step (h : Inv chan w) {oneLoop : Bool} {e : Event C} {w' : Connection C}
    (hstep : Step chan oneLoop w e w') (hended : w.Ended) : w'.Ended := by
  by_cases he : e = .forceCloseWithDelay
  · subst he
    exact ended_forceCloseWithDelay h hstep hended
  · exact (turn_exec h hstep rfl he).ended hended

end Connection

namespace ConnectionCalls

variable {C : Type} [DecidableEq C] {chan : C} {oneLoop : Bool} {s s' : ConnectionCalls C}
  {e : Event C}

/-- What a call has yet to queue that closes follows its store. -/
structure Inv (chan : C) (s : ConnectionCalls C) : Prop where
  conn : Connection.Inv chan s.conn
  ended : ∀ f, .queue f ∈ s.calls → f.closes = true → s.conn.Ended

theorem inv_new (fd : C → Int) : Inv chan (new fd) :=
  ⟨Connection.inv_new fd, fun _ hcall => by cases hcall⟩

theorem Inv.enter (h : Inv chan s) (call : ThreadCall) :
    Inv chan { s with calls := s.calls ++ [call.rest] } := by
  refine ⟨h.conn, fun f hcall hcloses => ?_⟩
  rcases List.mem_append.mp hcall with hold | hnew
  · exact h.ended f hold hcloses
  · cases call with
    | send message =>
        cases List.mem_singleton.mp hnew
        cases hcloses
    | shutdown | forceClose | forceCloseWithDelay => cases List.mem_singleton.mp hnew

theorem Inv.store (h : Inv chan s) (hopen : s.conn.isOpen) (next : Option Functor) :
    Inv chan
      { s.withConn s.conn.server.conn.store with
        calls := s.calls.erase (.store next) ++ next.toList.map .queue } :=
  ⟨h.conn.store hopen, fun _ _ _ => Or.inl rfl⟩

theorem Inv.queue (h : Inv chan s) {f : Functor} (hcall : .queue f ∈ s.calls) :
    Inv chan { conn := s.conn.queueInLoop (.io (.own f)), calls := s.calls.erase (.queue f) } := by
  refine ⟨?_, fun g hmem hcloses => h.ended g (List.mem_of_mem_erase hmem) hcloses⟩
  cases hf : f.closes with
  | true => exact h.conn.queueClosing (h.ended f hcall hf) f
  | false => exact h.conn.queueInLoop hf

/-- A timely step keeps the invariant. -/
theorem Inv.step (h : Inv chan s) (hstep : TimelyStep chan oneLoop s e s') : Inv chan s' := by
  obtain ⟨htimely, hstep⟩ := hstep
  rw [Step] at hstep
  generalize hr : (Except.ok s' : Except Fault (ConnectionCalls C)) = r at hstep
  cases hstep with
  | conn he hexec =>
      obtain ⟨w, hw, hrest⟩ := bind_ok_inv hr.symm
      cases hrest
      subst hw
      exact ⟨h.conn.exec hexec rfl, fun f hcall hcloses =>
        Connection.ended_step h.conn hexec (h.ended f hcall hcloses)⟩
  | @enter call henters =>
      cases hr
      exact h.enter call
  | @store next hcall =>
      cases hr
      exact h.store htimely next
  | queue hcall =>
      cases hr
      exact h.queue hcall

theorem inv_of_run {fd : C → Int} {events : List (Event C)}
    (hrun : Run (TimelyStep chan oneLoop) (new fd) events s) : Inv chan s :=
  hrun.invariant (inv_new fd) fun _ _ _ h hstep => h.step hstep

/-- Where a connected connection is made disconnecting by `forceCloseWithDelay`, or by a
call of another thread, it has output. -/
def StoresWriting (s : ConnectionCalls C) (e : Event C) : Prop :=
  (e = .conn .forceCloseWithDelay ∨ ∃ next, e = .store next) →
    s.conn.server.conn.state = .kConnected → s.conn.server.conn.outputBuffer.content ≠ []

/-- The store decides whether the half-close is followed up, since nothing that closes is
queued before it. -/
theorem followed_store_iff (h : Inv chan s) (hfollowed : s.conn.Followed chan)
    (hopen : s.conn.isOpen) (next : Option Functor) :
    (s.withConn s.conn.server.conn.store).conn.Followed chan ↔ s.StoresWriting (.store next) := by
  have hcond : s.StoresWriting (.store next) ↔ (s.conn.server.conn.state = .kConnected →
      s.conn.server.conn.outputBuffer.content ≠ []) :=
    ⟨fun hwriting => hwriting (Or.inr ⟨next, rfl⟩), fun hwriting _ => hwriting⟩
  have hsame : (s.withConn s.conn.server.conn.store).conn.Followed chan ↔ s.conn.HalfCloses := by
    refine (Connection.followed_iff (h.conn.store hopen)).trans ?_
    exact ⟨fun hcloses => hcloses rfl, fun hcloses _ => hcloses⟩
  rw [hcond, hsame]
  rcases hopen with hconnected | hdisconnecting
  · rw [Connection.halfCloses_connected h.conn hconnected]
    exact ⟨fun hcontent _ => hcontent, fun hcontent => hcontent hconnected⟩
  · refine iff_of_true ((Connection.followed_iff h.conn).mp hfollowed hdisconnecting) ?_
    intro hconnected
    cases hdisconnecting.symm.trans hconnected

theorem followed_step_iff (h : Inv chan s) (hfollowed : s.conn.Followed chan)
    (hstep : TimelyStep chan oneLoop s e s') : s'.conn.Followed chan ↔ s.StoresWriting e := by
  have h' := h.step hstep
  obtain ⟨htimely, hstep⟩ := hstep
  rw [Step] at hstep
  generalize hr : (Except.ok s' : Except Fault (ConnectionCalls C)) = r at hstep
  cases hstep with
  | @conn e r he hexec =>
      obtain ⟨w, hw, hrest⟩ := bind_ok_inv hr.symm
      cases hrest
      subst hw
      rw [Connection.followed_step_iff h.conn hfollowed hexec]
      refine ⟨fun hdelays hstores => hdelays ?_, fun hwriting hdelayed => hwriting (Or.inl ?_)⟩
      · rcases hstores with hdelayed | ⟨next, hstore⟩
        · cases hdelayed
          rfl
        · cases hstore
      · rw [hdelayed]
  | enter henters =>
      cases hr
      refine iff_of_true hfollowed ?_
      rintro (hdelayed | ⟨next, hstore⟩)
      · cases hdelayed
      · cases hstore
  | @store next hcall =>
      cases hr
      exact followed_store_iff h hfollowed htimely next
  | queue hcall =>
      cases hr
      refine iff_of_true ?_ ?_
      · refine (Connection.followed_iff h'.conn).mpr fun hdisconnecting => ?_
        rcases (Connection.followed_iff h.conn).mp hfollowed hdisconnecting with
          hshut | hwriting | ⟨g, hg, hmem⟩
        · exact Or.inl hshut
        · exact Or.inr (Or.inl hwriting)
        · exact Or.inr (Or.inr ⟨g, hg, Connection.mem_queued_queueInLoop.mpr (Or.inl hmem)⟩)
      · rintro (hdelayed | ⟨next, hstore⟩)
        · cases hdelayed
        · cases hstore

/-- Among the runs in which no call stores `kDisconnecting` too late, the half-close is
followed up in every state of exactly those in which `forceCloseWithDelay` and the stores
of other threads find a connected connection with output. -/
theorem half_close_followed_iff (chan : C) (oneLoop : Bool) (fd : C → Int)
    (events : List (Event C)) (s : ConnectionCalls C) :
    Run (Through (TimelyStep chan oneLoop) fun s => s.conn.Followed chan) (new fd) events s ↔
      Run (Guarded (TimelyStep chan oneLoop) StoresWriting) (new fd) events s := by
  refine Run.through_iff_guarded (I := Inv chan) (inv_new fd) ?_ ?_
  · intro hstate
    cases hstate
  · intro s e s' h hfollowed hstep
    exact ⟨h.step hstep, followed_step_iff h hfollowed hstep⟩

/-- A run of whole calls of the loop thread. -/
theorem run_conn {fd : C → Int} {events : List (Connection.Event C)} {w : Connection C}
    (hrun : Run (Connection.Step chan oneLoop) (.new fd) events w)
    (hown : ∀ e ∈ events, e.foreign = false) :
    Run (TimelyStep chan oneLoop) (new fd) (events.map .conn) ⟨w, []⟩ := by
  induction hrun with
  | nil => exact .nil
  | @snoc events e w w' hrun hstep ih =>
      rw [List.map_append]
      refine (ih fun e he => hown e (List.mem_append_left _ he)).snoc ⟨trivial, ?_⟩
      exact .conn (r := .ok w') (hown e (List.mem_append_right _ List.mem_cons_self)) hstep

/-- A connection is established, and nobody calls it. -/
theorem idle_run : ∃ (events : List (Event Unit)) (s : ConnectionCalls Unit),
    Run (TimelyStep () true) (new fun _ => 7) events s ∧
    s.conn.server.conn = { TcpConnection.new with state := .kConnected } ∧ s.conn.queued = [] ∧
    s.conn.server.notices ≠ [] ∧ s.conn.server.listed = true ∧ s.conn.server.phase = .polling ∧
    s.calls = [] := by
  obtain ⟨w, hrun, hconn, hqueue, hnotices, hlisted, hphase⟩ := Connection.connected_run
  exact ⟨_, _, run_conn hrun (by simp [Connection.Event.foreign, ServerConnection.Event.foreign]),
    hconn, hqueue, hnotices, hlisted, hphase, rfl⟩

/-- `forceCloseWithDelay` on an idle connection, which then waits for its peer; and a
`shutdown` of another thread that has yet to queue `shutdownInLoop`. -/
theorem delayed_close_not_followed :
    (∃ (events : List (Event Unit)) (s : ConnectionCalls Unit),
      Run (Step () true) (new fun _ => 7) events s ∧
      s.conn.server.conn.state = .kDisconnecting ∧ s.conn.queued = [] ∧ s.calls = [] ∧
      ¬ s.conn.Followed ()) ∧
    ∃ (events : List (Event Unit)) (s : ConnectionCalls Unit),
      Run (Step () true) (new fun _ => 7) events s ∧
      s.conn.server.conn.state = .kDisconnecting ∧ s.calls = [.queue .shutdownInLoop] ∧
      ¬ s.conn.Followed () := by
  obtain ⟨events, s, hrun, hconn, hqueue, -, -, -, hcalls⟩ := idle_run
  have h := inv_of_run hrun
  have hstate : s.conn.server.conn.state = .kConnected := congrArg TcpConnection.state hconn
  have hidle : s.conn.server.conn.outputBuffer.content = [] := by
    rw [hconn]
    simp [TcpConnection.new]
  have hfollowed : s.conn.Followed () := fun hnot => by cases hstate.symm.trans hnot
  refine ⟨?_, ?_⟩
  · have hset : s.conn.server.conn.forceCloseWithDelay = s.conn.server.conn.store :=
      if_pos (Or.inl hstate)
    have hexec : Connection.Exec () true s.conn .forceCloseWithDelay _ := .forceCloseWithDelay
    have hadopt : s.conn.server.adopt () s.conn.server.conn.forceCloseWithDelay =
        .ok { s.conn.server with conn := s.conn.server.conn.store } := by
      rw [hset, ServerConnection.adopt, TcpConnection.store, if_pos rfl, h.conn.wired.queue]
      simp
    rw [hadopt] at hexec
    have hstep : TimelyStep () true s (.conn .forceCloseWithDelay) _ :=
      ⟨trivial, .conn (r := .ok _) rfl hexec⟩
    obtain ⟨-, hqueue'⟩ := Connection.forceCloseWithDelay_inv h.conn hexec
    refine ⟨_, _, (hrun.snoc hstep).unguarded, rfl, hqueue'.trans hqueue, hcalls, ?_⟩
    rw [followed_step_iff h hfollowed hstep]
    exact fun hwriting => hwriting (Or.inl rfl) hstate hidle
  · have henter : TimelyStep () true s (.enter .shutdown) _ :=
      ⟨trivial, .enter (by rw [hstate]; rfl)⟩
    have hentered := h.step henter
    have hmem : .store (some .shutdownInLoop) ∈ s.calls ++ [ThreadCall.shutdown.rest] := by
      rw [hcalls]
      exact List.mem_cons_self
    have hstore : TimelyStep () true { s with calls := s.calls ++ [ThreadCall.shutdown.rest] }
        (.store (some .shutdownInLoop)) _ := ⟨Or.inl hstate, .store hmem⟩
    refine ⟨_, _, ((hrun.snoc henter).snoc hstore).unguarded, rfl, by rw [hcalls]; rfl, ?_⟩
    rw [followed_step_iff hentered hfollowed hstore]
    exact fun hwriting => hwriting (Or.inr ⟨_, rfl⟩) hstate hidle

end ConnectionCalls
end ProtoRpc
