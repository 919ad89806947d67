import ProtoRpc.Network.ConnectionCalls

/-!
The destructor of `TcpServer` runs `connectDestroyed` on every connection of its
table, whatever the connection is doing. `connectDestroyed` takes only a connected
connection down: one that is disconnecting keeps its state and its interest, and
`Channel::remove` asserts that there is no interest. In front of `Channel::remove` the
user is told of a connection that was taken down, and can call it; and other threads
go on with their calls.
-/
namespace ProtoRpc.ConnectionCalls
open Transition

variable {C : Type} [DecidableEq C]

/-- `connectDestroyed`, with its last line and its callback left to be run. -/
def connectDestroyed (chan : C) (s : ConnectionCalls C) : Except Fault (ConnectionCalls C) := do
  let server ← s.conn.server.connectDestroyed chan
  return { s with conn := { s.conn with server := server } }

/-- `channel_->remove()` -/
def removeChannel (chan : C) (s : ConnectionCalls C) : Except Fault (ConnectionCalls C) := do
  let server ← { s.conn.server with todo := s.conn.server.todo.tail }.removeChannel chan
  return { s with conn := { s.conn with server := server } }

/-- What can happen in front of the last line. -/
def BeforeRemove (s : ConnectionCalls C) : Event C → Prop
  | .conn (.server (.frame _ _)) => s.conn.server.todo.head? ≠ some .remove
  | _ => True

/-- How `connectDestroyed` goes: what happens in it, and what comes of it. -/
inductive TearDown (chan : C) (oneLoop : Bool) (s : ConnectionCalls C) :
    List (Event C) → Except Fault (ConnectionCalls C) → Prop where
  | refused {fault : Fault} (hbegin : s.connectDestroyed chan = .error fault) :
      TearDown chan oneLoop s [] (.error fault)
  | removed {calls : List (Event C)} {s₁ s₂ : ConnectionCalls C}
      (hbegin : s.connectDestroyed chan = .ok s₁)
      (hcalls : Run (Guarded (Step chan oneLoop) BeforeRemove) s₁ calls s₂)
      (htodo : s₂.conn.server.todo.head? = some .remove) :
      TearDown chan oneLoop s calls (s₂.removeChannel chan)

/-- The assertions hold, the connection is down and its channel out of the poller, and
the user has been told once. -/
def TornDown (chan : C) (r : Except Fault (ConnectionCalls C)) : Prop :=
  ∃ s, r = .ok s ∧ s.conn.server.conn.state = .kDisconnected ∧
    (∀ fd, s.conn.server.poller.channels fd ≠ some chan) ∧
    (∀ fd mask, s.conn.server.poller.interest fd ≠ some (mask, chan)) ∧ s.conn.downs = 1

/-- What `EventLoop::removeChannel` asserts. -/
def NotWaiting (chan : C) (s : ConnectionCalls C) : Prop :=
  s.conn.server.phase = .handling →
    s.conn.server.currentActiveChannel = some chan ∨
      chan ∉ s.conn.server.activeChannels.map Prod.fst

/-- The connection is connected, or down and without interest. -/
def Removable (chan : C) (s : ConnectionCalls C) : Prop :=
  s.conn.server.conn.state = .kConnected ∨
    (s.conn.server.conn.state = .kDisconnected ∧
      (s.conn.server.poller.table chan).events = .noneEvent)

def Event.reading (reading : Bool) : Event C → Bool
  | .conn (.startRead true) => true
  | .conn (.stopRead true) => false
  | _ => reading

def Event.stores : Event C → Bool
  | .store _ => true
  | _ => false

/-- The callback has called `startRead`, and not `stopRead` after it. -/
def leavesReading (calls : List (Event C)) : Bool := calls.foldl Event.reading false

/-- The callback leaves reading off, and no other thread stores `kDisconnecting`. -/
def LeavesDown (calls : List (Event C)) : Prop :=
  leavesReading calls = false ∧ calls.any Event.stores = false

/-- In front of `Channel::remove`, as it was in `b` but for reading and the state. The
callback is run only for a connection that was taken down, without interest. -/
structure Tearing (chan : C) (rest : List Frame) (b : ServerConnection C)
    (calls : List (Event C)) (s : ConnectionCalls C) : Prop where
  todo : s.conn.server.todo = .remove :: rest ∨
    ((b.poller.table chan).events = .noneEvent ∧
      s.conn.server.todo = .connectionCallback :: .remove :: rest)
  agrees : s.conn.server.poller.Agrees
  index : (s.conn.server.poller.table chan).index ≠ .kNew
  events : (s.conn.server.poller.table chan).events =
    { (b.poller.table chan).events with
      read := (b.poller.table chan).events.read || leavesReading calls }
  state : s.conn.server.conn.state =
    if calls.any Event.stores then .kDisconnecting else b.conn.state
  phase : s.conn.server.phase = b.phase
  active : s.conn.server.activeChannels = b.activeChannels
  current : s.conn.server.currentActiveChannel = b.currentActiveChannel
  notices : s.conn.server.notices = b.notices
  accepted : s.conn.server.accepted = true

section
variable {chan : C} {oneLoop : Bool} {s s' : ConnectionCalls C} {e : Event C}
  {calls : List (Event C)} {rest : List Frame} {b : ServerConnection C}

omit [DecidableEq C] in
theorem leavesReading_snoc (calls : List (Event C)) (e : Event C) :
    leavesReading (calls ++ [e]) = e.reading (leavesReading calls) := by
  rw [leavesReading, List.foldl_append]
  rfl

omit [DecidableEq C] in
theorem Tearing.ended (h : Tearing chan rest b calls s)
    (hb : b.conn.state = .kDisconnecting ∨ b.conn.state = .kDisconnected) : s.conn.Ended := by
  rw [Connection.Ended, h.state]
  split
  · exact Or.inl rfl
  · exact hb

omit [DecidableEq C] in
/-- A step with no bearing on the tear-down. -/
theorem Tearing.same (h : Tearing chan rest b calls s)
    (he : e.reading (leavesReading calls) = leavesReading calls) (hstores : e.stores = false)
    (htodo : s'.conn.server.todo = s.conn.server.todo)
    (hpoller : s'.conn.server.poller = s.conn.server.poller)
    (hstate : s'.conn.server.conn.state = s.conn.server.conn.state)
    (hphase : s'.conn.server.phase = s.conn.server.phase)
    (hactive : s'.conn.server.activeChannels = s.conn.server.activeChannels)
    (hcurrent : s'.conn.server.currentActiveChannel = s.conn.server.currentActiveChannel)
    (hnotices : s'.conn.server.notices = s.conn.server.notices)
    (haccepted : s'.conn.server.accepted = s.conn.server.accepted) :
    Tearing chan rest b (calls ++ [e]) s' where
  todo := htodo ▸ h.todo
  agrees := hpoller ▸ h.agrees
  index := hpoller ▸ h.index
  events := by
    rw [hpoller, leavesReading_snoc, he]
    exact h.events
  state := by
    rw [hstate, List.any_append, List.any_cons, hstores, List.any_nil, Bool.or_self,
      Bool.or_false]
    exact h.state
  phase := hphase.trans h.phase
  active := hactive.trans h.active
  current := hcurrent.trans h.current
  notices := hnotices.trans h.notices
  accepted := haccepted.trans h.accepted

/-- A call of a connection that has ended does nothing to its channel. -/
theorem Tearing.adopt (h : Tearing chan rest b calls s) {c : TcpConnection}
    {t : ServerConnection C} (he : e.reading (leavesReading calls) = leavesReading calls)
    (hstores : e.stores = false) (hstate : c.state = s.conn.server.conn.state)
    (hwriting : c.isWriting = s.conn.server.conn.isWriting)
    (ht : s.conn.server.adopt chan c = .ok t) :
    Tearing chan rest b (calls ++ [e]) { s with conn := s.conn.collect t } := by
  rw [ServerConnection.adopt, if_pos hwriting] at ht
  cases ht
  exact h.same he hstores rfl rfl hstate rfl rfl rfl rfl rfl

omit [DecidableEq C] in
theorem ne_connected_of_ended (hended : s.conn.Ended) : s.conn.server.conn.state ≠ .kConnected := by
  rcases hended with hstate | hstate <;> rw [hstate] <;> decide

omit [DecidableEq C] in
theorem Tearing.todo_ne_nil (h : Tearing chan rest b calls s) : s.conn.server.todo ≠ [] := by
  rcases h.todo with htodo | ⟨-, htodo⟩
  · rw [htodo]
    exact List.cons_ne_nil _ _
  · rw [htodo]
    exact List.cons_ne_nil _ _

omit [DecidableEq C] in
/-- The only code of the user that runs is the callback. -/
theorem Tearing.called (h : Tearing chan rest b calls s) (huser : s.conn.server.userCode = true) :
    (b.poller.table chan).events = .noneEvent ∧
      s.conn.server.todo = .connectionCallback :: .remove :: rest := by
  rcases h.todo with htodo | hcalled
  · rw [ServerConnection.userCode, htodo] at huser
    cases huser
  · exact hcalled

omit [DecidableEq C] in
/-- The poller is changed, for the channel in its reading only. -/
theorem Tearing.setPoller (h : Tearing chan rest b calls s) {p : Poller C} {fs : List IoFunctor}
    (hstores : e.stores = false) (hagrees : p.Agrees) (hindex : (p.table chan).index ≠ .kNew)
    (hevents : (p.table chan).events =
      { (b.poller.table chan).events with
        read := (b.poller.table chan).events.read || e.reading (leavesReading calls) })
    (hserver : s'.conn.server = { s.conn.server with poller := p, pendingFunctors := fs }) :
    Tearing chan rest b (calls ++ [e]) s' where
  todo := by
    rw [hserver]
    exact h.todo
  agrees := by
    rw [hserver]
    exact hagrees
  index := by
    rw [hserver]
    exact hindex
  events := by
    rw [hserver, leavesReading_snoc]
    exact hevents
  state := by
    rw [hserver, List.any_append, List.any_cons, hstores, List.any_nil, Bool.or_self,
      Bool.or_false]
    exact h.state
  phase := by
    rw [hserver]
    exact h.phase
  active := by
    rw [hserver]
    exact h.active
  current := by
    rw [hserver]
    exact h.current
  notices := by
    rw [hserver]
    exact h.notices
  accepted := by
    rw [hserver]
    exact h.accepted

/-- The callback switches reading on or off. -/
theorem Tearing.setReading (h : Tearing chan rest b calls s)
    (huser : s.conn.server.userCode = true) {op : InterestOp} {p : Poller C} {on : Bool}
    (hop : ∀ events, op.apply events = { events with read := on })
    (he : e.reading (leavesReading calls) = on) (hstores : e.stores = false)
    (hp : s.conn.server.poller.interestOp chan op = .ok p)
    (hserver : s'.conn.server = { s.conn.server with poller := p }) :
    Tearing chan rest b (calls ++ [e]) s' := by
  obtain ⟨hagrees, hevents, -⟩ := Poller.interestOp_inv h.agrees hp
  refine h.setPoller hstores hagrees (Connection.registered_of_interestOp h.agrees hp) ?_ hserver
  rw [hevents, hop, h.events, he, (h.called huser).1]
  simp [EventMask.noneEvent]

theorem Tearing.startRead (h : Tearing chan rest b calls s)
    (huser : s.conn.server.userCode = true) {w : Connection C}
    (hw : s.conn.startReadInLoop chan = .ok w) :
    Tearing chan rest b (calls ++ [.conn (.startRead true)]) { s with conn := w } := by
  rcases Connection.startReadInLoop_inv hw with ⟨-, p, hp, rfl⟩ | ⟨⟨-, hreading⟩, rfl⟩
  · exact h.setReading huser (fun _ => rfl) rfl rfl hp rfl
  · refine h.setPoller rfl h.agrees h.index ?_ rfl
    have hleaves : leavesReading calls = true := by
      have hevents := h.events
      rw [(h.called huser).1] at hevents
      simpa [Connection.isReading, hevents, EventMask.noneEvent] using hreading
    rw [h.events, hleaves]
    rfl

theorem Tearing.stopRead (h : Tearing chan rest b calls s)
    (huser : s.conn.server.userCode = true) {w : Connection C}
    (hw : s.conn.stopReadInLoop chan = .ok w) :
    Tearing chan rest b (calls ++ [.conn (.stopRead true)]) { s with conn := w } := by
  rcases Connection.stopReadInLoop_inv hw with ⟨-, p, hp, rfl⟩ | ⟨hnot, rfl⟩
  · exact h.setReading huser (fun _ => rfl) rfl rfl hp rfl
  · refine h.setPoller rfl h.agrees h.index ?_ rfl
    have hleaves : leavesReading calls = false := by
      have hevents := h.events
      rw [(h.called huser).1] at hevents
      have hidle := (Bool.or_eq_false_iff.mp hnot).2
      simpa [Connection.isReading, hevents, EventMask.noneEvent] using hidle
    rw [h.events, hleaves]
    rfl

/-- The calls that are one step, and what else goes on in the loop. -/
theorem Tearing.server (h : Tearing chan rest b calls s) (hended : s.conn.Ended)
    {e : ServerConnection.Event C} {t : ServerConnection C} (he : e.ofQueue = false)
    (hbefore : s.BeforeRemove (.conn (.server e)))
    (ht : ServerConnection.Step chan oneLoop s.conn.server e t) :
    Tearing chan rest b (calls ++ [.conn (.server e)]) { s with conn := s.conn.collect t } := by
  have hconnected := ne_connected_of_ended hended
  rw [ServerConnection.Step] at ht
  generalize hr : (Except.ok t : Except Fault (ServerConnection C)) = r at ht
  cases ht with
  | newConnection haccepted _ _ => cases haccepted.symm.trans h.accepted
  | @send own buf r _ _ _ =>
      have hsend : s.conn.server.conn.send own buf r = .ok (s.conn.server.conn, buf) :=
        if_neg hconnected
      rw [hsend] at hr
      exact h.adopt rfl rfl rfl rfl hr.symm
  | @shutdown own _ =>
      have hshut : s.conn.server.conn.shutdown own = s.conn.server.conn := if_neg hconnected
      rw [hshut] at hr
      exact h.adopt rfl rfl rfl rfl hr.symm
  | forceClose _ =>
      refine h.adopt rfl rfl ?_ ?_ hr.symm
      · rw [TcpConnection.forceClose]
        split
        · rename_i hopen
          exact (hopen.resolve_left hconnected).symm
        · rfl
      · rw [TcpConnection.forceClose]
        split <;> rfl
  | retrieve htodo _ =>
      rcases h.todo with hremove | ⟨-, hcallback⟩
      · cases htodo.symm.trans hremove
      · cases htodo.symm.trans hcallback
  | poll _ htodo _ | handleEvent _ htodo _ => exact absurd htodo h.todo_ne_nil
  | @frame f rest' read write htodo _ =>
      rcases h.todo with hremove | ⟨hnone, hcallback⟩
      · exact absurd (by rw [hremove]; rfl) hbefore
      · cases htodo.symm.trans hcallback
        cases hr
        have hpopped : Tearing chan rest b calls
            { s with conn := { s.conn with server :=
              { s.conn.server with todo := .remove :: rest } } } :=
          { h with todo := Or.inl rfl }
        exact hpopped.same rfl rfl rfl rfl rfl rfl rfl rfl rfl rfl
  | removeConnectionInLoop _ =>
      obtain rfl := ServerConnection.removeConnectionInLoop_inv hr.symm
      exact h.same rfl rfl rfl rfl rfl rfl rfl rfl rfl rfl
  | otherFunctor =>
      cases hr
      exact h.same rfl rfl rfl rfl rfl rfl rfl rfl rfl rfl
  | otherChannel hother hallowed _ =>
      obtain ⟨p, hp, hrest⟩ := bind_ok_inv hr.symm
      cases hrest
      have htable := Poller.table_of_exec h.agrees hallowed hother hp
      refine h.setPoller rfl (Poller.Step.become h.agrees ⟨hallowed, hp⟩).1 ?_ ?_ rfl
      · rw [htable]
        exact h.index
      · rw [htable]
        exact h.events
  | doPendingFunctors | functor | endBatch => cases he

/-- Everything that happens in front of `Channel::remove`. -/
theorem Tearing.step (h : Tearing chan rest b calls s)
    (hb : b.conn.state = .kDisconnecting ∨ b.conn.state = .kDisconnected)
    (hstep : Guarded (Step chan oneLoop) BeforeRemove s e s') :
    Tearing chan rest b (calls ++ [e]) s' := by
  obtain ⟨hbefore, hstep⟩ := hstep
  have hended := h.ended hb
  rw [Step] at hstep
  generalize hr : (Except.ok s' : Except Fault (ConnectionCalls C)) = r at hstep
  cases hstep with
  | conn he hexec =>
      obtain ⟨w, hw, hrest⟩ := bind_ok_inv hr.symm
      cases hrest
      cases hexec with
      | server hqueue hserver =>
          obtain ⟨t, ht, hcollect⟩ := bind_ok_inv hw
          cases hcollect
          rw [ht] at hserver
          exact h.server hended hqueue hbefore hserver
      | @startRead own _ hown =>
          cases own with
          | true => exact h.startRead (hown rfl) hw
          | false =>
              cases hw
              exact h.same rfl rfl rfl rfl rfl rfl rfl rfl rfl rfl
      | @stopRead own _ hown =>
          cases own with
          | true => exact h.stopRead (hown rfl) hw
          | false =>
              cases hw
              exact h.same rfl rfl rfl rfl rfl rfl rfl rfl rfl rfl
      | forceCloseWithDelay =>
          obtain ⟨t, ht, hcollect⟩ := bind_ok_inv hw
          cases hcollect
          refine h.adopt rfl rfl ?_ ?_ ht
          · rw [TcpConnection.forceCloseWithDelay]
            split
            · rename_i hopen
              exact (hopen.resolve_left (ne_connected_of_ended hended)).symm
            · rfl
          · rw [TcpConnection.forceCloseWithDelay]
            split <;> rfl
      | doPendingFunctors _ htodo _ | task _ htodo _ _ | endBatch _ htodo _ =>
          exact absurd htodo h.todo_ne_nil
  | enter henters =>
      cases hr
      exact h.same rfl rfl rfl rfl rfl rfl rfl rfl rfl rfl
  | @store next hcall =>
      cases hr
      refine { h with state := ?_, events := ?_ }
      · rw [leavesReading_snoc]
        exact h.events
      · simp [Event.stores, withConn, TcpConnection.store]
  | queue hcall =>
      cases hr
      exact h.same rfl rfl rfl rfl rfl rfl rfl rfl rfl rfl

theorem withRead_eq_none_iff (mask : EventMask) (on : Bool) :
    { mask with read := mask.read || on } = EventMask.noneEvent ↔ mask = .noneEvent ∧ on = false := by
  obtain ⟨read, write⟩ := mask
  simp only [EventMask.noneEvent, EventMask.mk.injEq, Bool.or_eq_false_iff]
  tauto

omit [DecidableEq C] in
theorem Tearing.down_iff (h : Tearing chan rest b calls s) :
    s.conn.server.conn.state = .kDisconnected ↔
      b.conn.state = .kDisconnected ∧ calls.any Event.stores = false := by
  rw [h.state]
  cases calls.any Event.stores <;> simp

omit [DecidableEq C] in
theorem Tearing.none_iff (h : Tearing chan rest b calls s) :
    (s.conn.server.poller.table chan).events = .noneEvent ↔
      (b.poller.table chan).events = .noneEvent ∧ leavesReading calls = false := by
  rw [h.events]
  exact withRead_eq_none_iff _ _

/-- What comes of the last line. -/
theorem Tearing.tornDown_iff (h : Tearing chan rest b calls s)
    (htold : b.conn.state = .kDisconnected → b.notices.countP (fun n => !n.up) = 1) :
    TornDown chan (s.removeChannel chan) ↔
      (b.conn.state = .kDisconnected ∧ (b.poller.table chan).events = .noneEvent) ∧
      (b.phase = .handling → b.currentActiveChannel = some chan ∨
        chan ∉ b.activeChannels.map Prod.fst) ∧ LeavesDown calls := by
  constructor
  · rintro ⟨s', hs', hdown, -⟩
    obtain ⟨t, ht, hrest⟩ := bind_ok_inv hs'
    cases hrest
    obtain ⟨_, hrequired, -⟩ := bind_ok_inv ht
    obtain ⟨p, hp, rfl⟩ := ServerConnection.removeChannel_inv ht
    have hwaiting := require_inv hrequired
    simp only [h.phase, h.current, h.active] at hwaiting
    obtain ⟨hnone, hreading⟩ := h.none_iff.mp (Poller.remove_inv h.agrees hp).1
    obtain ⟨hstate, hstores⟩ := h.down_iff.mp hdown
    exact ⟨⟨hstate, hnone⟩, hwaiting, hreading, hstores⟩
  · rintro ⟨⟨hstate, hnone⟩, hwaiting, hreading, hstores⟩
    have hevents := h.none_iff.mpr ⟨hnone, hreading⟩
    obtain ⟨p, hp, hagrees, -, hgone⟩ := Poller.remove_spec h.agrees h.index
      (by rw [Channel.isNoneEvent, hevents]; rfl)
    obtain ⟨hchannels, hinterest⟩ := hagrees.out_of_poller hgone
    have hrequired : s.conn.server.phase = .handling →
        s.conn.server.currentActiveChannel = some chan ∨
          chan ∉ s.conn.server.activeChannels.map Prod.fst := by
      rw [h.phase, h.current, h.active]
      exact hwaiting
    refine ⟨{ s with conn := { s.conn with server :=
      { s.conn.server with todo := s.conn.server.todo.tail, poller := p } } }, ?_,
      h.down_iff.mpr ⟨hstate, hstores⟩, hchannels, hinterest, ?_⟩
    · rw [removeChannel, ServerConnection.removeChannel_ok
        (s := { s.conn.server with todo := s.conn.server.todo.tail }) hrequired hp]
      rfl
    · change s.conn.server.notices.countP _ = 1
      rw [h.notices]
      exact htold hstate

/-- A connected connection is taken down first. -/
theorem connectDestroyed_connected (hstate : s.conn.server.conn.state = .kConnected) {p : Poller C}
    (hp : s.conn.server.poller.interestOp chan .disableAll = .ok p) :
    s.connectDestroyed chan = .ok { s with conn := { s.conn with server :=
      { s.conn.server with
        conn := { s.conn.server.conn with state := .kDisconnected, isWriting := false }
        poller := p
        notices := s.conn.server.notices ++ [⟨.connectDestroyed, false⟩]
        todo := .connectionCallback :: .remove :: s.conn.server.todo
        destroyed := s.conn.server.destroyed + 1 } } } := by
  let t : ServerConnection C :=
    { s.conn.server with
      conn := { s.conn.server.conn with state := .kDisconnected, isWriting := false }
      todo := .remove :: s.conn.server.todo
      destroyed := s.conn.server.destroyed + 1 }
  have ht : t.interestOp chan .disableAll = .ok { t with poller := p } :=
    ServerConnection.interestOp_ok hp
  have hdestroy : s.conn.server.connectDestroyed chan =
      .ok (ServerConnection.notify { t with poller := p } .connectDestroyed) := by
    rw [ServerConnection.connectDestroyed, if_pos hstate]
    change (do
      let t ← t.interestOp chan .disableAll
      pure (t.notify .connectDestroyed)) = _
    rw [ht]
    rfl
  rw [connectDestroyed, hdestroy]
  rfl

/-- One that is not connected is only removed. -/
theorem connectDestroyed_other (hstate : s.conn.server.conn.state ≠ .kConnected) :
    s.connectDestroyed chan = .ok { s with conn := { s.conn with server :=
      { s.conn.server with
        todo := .remove :: s.conn.server.todo
        destroyed := s.conn.server.destroyed + 1 } } } := by
  rw [connectDestroyed, ServerConnection.connectDestroyed, if_neg hstate]
  rfl

/-- From the beginning of `connectDestroyed` to its last line. -/
theorem tearing_of_run {s₁ : ConnectionCalls C} (rest : List Frame)
    (hbegin : Tearing chan rest s₁.conn.server [] s₁)
    (hb : s₁.conn.server.conn.state = .kDisconnecting ∨ s₁.conn.server.conn.state = .kDisconnected)
    (hcalls : Run (Guarded (Step chan oneLoop) BeforeRemove) s₁ calls s) :
    Tearing chan rest s₁.conn.server calls s :=
  hcalls.trace_invariant hbegin fun _ _ _ _ h hstep => h.step hb hstep

/-- The destructor of the server takes a connection of its table down, in whatever
state it is after its establishment, exactly where it is connected, or down and without
interest, its channel does not wait to be handled, the callback does not leave reading
on, and no other thread stores `kDisconnecting` meanwhile. -/
theorem torn_down_iff {fd : C → Int} {events : List (Event C)}
    {r : Except Fault (ConnectionCalls C)} (hrun : Run (TimelyStep chan oneLoop) (new fd) events s)
    (hlisted : s.conn.server.listed = true) (hestablished : s.conn.server.notices ≠ [])
    (htear : TearDown chan oneLoop s calls r) :
    TornDown chan r ↔ s.Removable chan ∧ s.NotWaiting chan ∧ LeavesDown calls := by
  have h := (inv_of_run hrun).conn
  have hindex := h.chores.registered hestablished (h.chores.listed hlisted).1
  have hdowns := h.chores.downs
  have hconnecting : s.conn.server.conn.state ≠ .kConnecting :=
    fun hstate => hestablished (h.chores.connecting hstate)
  have haccepted : s.conn.server.accepted = true := by
    cases haccepted : s.conn.server.accepted with
    | true => rfl
    | false => exact absurd (h.chores.unborn haccepted).1 hconnecting
  by_cases hstate : s.conn.server.conn.state = .kConnected
  · obtain ⟨p, hp, hagrees, hevents, -⟩ :=
      Poller.interestOp_spec h.wired.agrees (h.wired.agrees.sole hindex) .disableAll
    have hnone : (p.table chan).events = .noneEvent := hevents
    rw [if_neg (by rw [hstate]; decide), Connection.downs] at hdowns
    cases htear with
    | refused hbegin => cases hbegin.symm.trans (connectDestroyed_connected hstate hp)
    | removed hbegin hcalls htodo =>
        cases hbegin.symm.trans (connectDestroyed_connected hstate hp)
        have htearing := tearing_of_run s.conn.server.todo ?_ (Or.inr rfl) hcalls
        · rw [htearing.tornDown_iff fun _ => by simp [hdowns]]
          simp [Removable, NotWaiting, hstate, hnone]
        · exact
            { todo := Or.inr ⟨hnone, rfl⟩
              agrees := hagrees
              index := Connection.registered_of_interestOp h.wired.agrees hp
              events := by simp [leavesReading]
              state := rfl
              phase := rfl
              active := rfl
              current := rfl
              notices := rfl
              accepted := haccepted }
  · cases htear with
    | refused hbegin => cases hbegin.symm.trans (connectDestroyed_other hstate)
    | removed hbegin hcalls htodo =>
        cases hbegin.symm.trans (connectDestroyed_other hstate)
        have hended : s.conn.server.conn.state = .kDisconnecting ∨
            s.conn.server.conn.state = .kDisconnected := by
          cases hc : s.conn.server.conn.state with
          | kConnecting => exact absurd hc hconnecting
          | kConnected => exact absurd hc hstate
          | kDisconnecting => exact Or.inl rfl
          | kDisconnected => exact Or.inr rfl
        have htearing := tearing_of_run s.conn.server.todo ?_ (by exact hended) hcalls
        · rw [htearing.tornDown_iff fun hdown => hdowns.trans (if_pos hdown)]
          simp [Removable, NotWaiting, hstate]
        · exact
            { todo := Or.inl rfl
              agrees := h.wired.agrees
              index := hindex
              events := by simp [leavesReading]
              state := rfl
              phase := rfl
              active := rfl
              current := rfl
              notices := rfl
              accepted := haccepted }

end

/-- What happens in `connectDestroyed` at the end of a run begins where it has begun. -/
theorem begun {chan : C} {oneLoop : Bool} {s₀ s s₁ : ConnectionCalls C} {events : List (Event C)}
    (_hrun : Run (TimelyStep chan oneLoop) s₀ events s) (_hbegin : s.connectDestroyed chan = .ok s₁) :
    Run (Guarded (fun s e s' => Exec chan oneLoop s e (.ok s')) BeforeRemove) s₁ [] s₁ := .nil

/-- The callback of a connection that is taken down starts and stops reading. -/
theorem torn_down_connected : ∃ (events calls : List (Event Unit)) (s : ConnectionCalls Unit)
    (r : Except Fault (ConnectionCalls Unit)), Run (TimelyStep () true) (new fun _ => 7) events s ∧
      s.conn.server.conn.state = .kConnected ∧ calls.length = 3 ∧ TearDown () true s calls r ∧
      TornDown () r := by
  have hsole : (Poller.new fun _ : Unit => 7).Sole () := fun _ hd => absurd rfl hd
  have hnew := run_then
    (.nil : Run (Connection.Step () true) (Connection.new fun _ : Unit => 7) [] _)
    (.server .newConnection) (.server rfl (.newConnection rfl hsole fun _ => rfl)) rfl
  have hcalled := run_then hnew (.server (.frame (.data []) (.wrote 0)))
    (.server rfl (.frame rfl (Nat.zero_le _))) rfl
  have hrun := run_conn hcalled
    (by simp [Connection.Event.foreign, ServerConnection.Event.foreign])
  have hstarts := guarded_then (begun hrun rfl) (.conn (.startRead true)) trivial
    (.conn rfl (.startRead (List.cons_ne_nil _ _) fun _ => rfl)) rfl
  have hstops := guarded_then hstarts (.conn (.stopRead true)) trivial
    (.conn rfl (.stopRead (List.cons_ne_nil _ _) fun _ => rfl)) rfl
  have hreturns := guarded_then hstops (.conn (.server (.frame (.data []) (.wrote 0))))
    (fun hremove => by cases hremove) (.conn rfl (.server rfl (.frame rfl (Nat.zero_le _)))) rfl
  refine ⟨_, _, _, _, hrun, rfl, rfl, .removed rfl hreturns rfl,
    (torn_down_iff hrun rfl (List.cons_ne_nil _ _) (.removed rfl hreturns rfl)).mpr ?_⟩
  exact ⟨Or.inl rfl, fun hhandling => (by cases hhandling), rfl, rfl⟩

/-- The connection has called `shutdown`, and its peer has not closed yet; or the callback
of a connected one starts reading again. -/
theorem tear_down_half_closed :
    (∃ (events : List (Event Unit)) (s : ConnectionCalls Unit)
      (r : Except Fault (ConnectionCalls Unit)), Run (Step () true) (new fun _ => 7) events s ∧
        s.conn.server.listed = true ∧ s.conn.server.notices ≠ [] ∧ s.conn.downs = 0 ∧
        s.conn.server.conn.state = .kDisconnecting ∧ TearDown () true s [] r ∧
        r = .error .assertion ∧ ¬ TornDown () r) ∧
    ∃ (events calls : List (Event Unit)) (s : ConnectionCalls Unit)
      (r : Except Fault (ConnectionCalls Unit)), Run (Step () true) (new fun _ => 7) events s ∧
        s.conn.server.listed = true ∧ s.conn.server.notices ≠ [] ∧
        s.conn.server.conn.state = .kConnected ∧ TearDown () true s calls r ∧
        r = .error .assertion ∧ ¬ TornDown () r := by
  have hsole : (Poller.new fun _ : Unit => 7).Sole () := fun _ hd => absurd rfl hd
  have hnew := run_then
    (.nil : Run (Connection.Step () true) (Connection.new fun _ : Unit => 7) [] _)
    (.server .newConnection) (.server rfl (.newConnection rfl hsole fun _ => rfl)) rfl
  have hcalled := run_then hnew (.server (.frame (.data []) (.wrote 0)))
    (.server rfl (.frame rfl (Nat.zero_le _))) rfl
  have hfaulty : ∀ r : Except Fault (ConnectionCalls Unit),
      r = .error .assertion → ¬ TornDown () r := by
    rintro r rfl ⟨s, hs, -⟩
    cases hs
  refine ⟨?_, ?_⟩
  · have hrun := run_conn
      (run_then hcalled (.server (.shutdown true)) (.server rfl (.shutdown fun _ => rfl)) rfl)
      (by simp [Connection.Event.foreign, ServerConnection.Event.foreign])
    exact ⟨_, _, _, hrun.unguarded, rfl, List.cons_ne_nil _ _, rfl, rfl,
      .removed rfl (begun hrun rfl) rfl, rfl, hfaulty _ rfl⟩
  · have hrun := run_conn hcalled
      (by simp [Connection.Event.foreign, ServerConnection.Event.foreign])
    have hstarts := guarded_then (begun hrun rfl) (.conn (.startRead true)) trivial
      (.conn rfl (.startRead (List.cons_ne_nil _ _) fun _ => rfl)) rfl
    have hreturns := guarded_then hstarts (.conn (.server (.frame (.data []) (.wrote 0))))
      (fun hremove => by cases hremove) (.conn rfl (.server rfl (.frame rfl (Nat.zero_le _)))) rfl
    exact ⟨_, _, _, _, hrun.unguarded, rfl, List.cons_ne_nil _ _, rfl,
      .removed rfl hreturns rfl, rfl, hfaulty _ rfl⟩

end ProtoRpc.ConnectionCalls
