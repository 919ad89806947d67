import ProtoRpc.Network.IoLoop
import ProtoRpc.Network.ReadInterest

/-!
`stopRead` and the round of active channels. `stopReadInLoop` takes reading out of the
interest of the channel, so no later poll reports the channel readable. It does not take
back what this poll has reported: `handleEvent` goes by `revents_`, and `handleRead`
does not ask whether reading was stopped, as `handleWrite` asks `isWriting`. So the
message callback of a connection is quiet after `stopReadInLoop` unless the channel was
reported readable in the round under way and has not had its turn.
-/
namespace ProtoRpc
open Transition

/-- With the bits that epoll reports, reading comes first or not at all. -/
theorem eventFrames_read (r : Revents) (hpri : r.pollpri = false) (hrdhup : r.pollrdhup = false) :
    .read ∉ (eventFrames r).tail ∧ (r.pollin = false → .read ∉ eventFrames r) := by
  obtain ⟨pollin, pollpri, pollout, pollerr, pollhup, pollnval, pollrdhup⟩ := r
  change pollpri = false at hpri
  change pollrdhup = false at hrdhup
  subst hpri hrdhup
  revert pollin pollout pollerr pollhup pollnval
  decide

namespace IoLoop
variable {C : Type} [DecidableEq C] {oneLoop : C → Bool} {w w' : IoLoop C} {c : C}
  {v : Connection C}

/-- The event runs `startReadInLoop` for `c`. -/
def RunsStartRead (w : IoLoop C) (c : C) : Event C → Prop
  | .member d (.startRead own) => d = c ∧ own = true
  | .task _ => w.tasks.head? = some (c, .startReadInLoop)
  | _ => False

/-- The event runs `stopReadInLoop` for `c`. -/
def RunsStopRead (w : IoLoop C) (c : C) : Event C → Prop
  | .member d (.stopRead own) => d = c ∧ own = true
  | .task _ => w.tasks.head? = some (c, .stopReadInLoop)
  | _ => False

/-- `handleRead` has read something for `c`, and calls the message callback. -/
def InvokesMessageCallback (w : IoLoop C) (c : C) (w' : IoLoop C) : Prop :=
  ∃ rest, (w.members c).todo = .read :: rest ∧ (w'.members c).todo = .messageCallback :: rest

/-- The channel has yet to be handled in this round, and will be read. -/
def Awaits (w : IoLoop C) (c : C) : Prop :=
  ∃ r, (c, r) ∈ w.remaining ∧ (r.pollin || r.pollpri || r.pollrdhup) = true

/-- The invariant of the loop: what the poller, the stacks and the queue allow. -/
structure Sound (w : IoLoop C) : Prop where
  agrees : w.poller.Agrees
  known : ∀ c, (w.view c).server.Known
  todo : ∀ c, .read ∉ (w.members c).todo.tail
  bits : ∀ x ∈ w.remaining, x.2.pollpri = false ∧ x.2.pollrdhup = false
  queued : ∀ x ∈ w.tasks ++ w.pendingTasks, x.2.Ready (w.view x.1).server

/-- Nothing is left that would read for `c`. -/
structure Stopped (w : IoLoop C) (c : C) : Prop where
  established : (w.members c).conn.state ≠ .kConnecting
  unread : (w.poller.table c).events.read = false
  todo : .read ∉ (w.members c).todo
  remaining : ∀ r, (c, r) ∈ w.remaining → r.pollin = false

theorem put_members_self : (w.put c v).members c =
    { conn := v.server.conn
      reading := v.reading
      todo := v.server.todo
      removals := v.server.removals
      accepted := v.server.accepted
      listed := v.server.listed
      notices := v.server.notices
      closeCallbacks := v.server.closeCallbacks
      destroyed := v.server.destroyed } :=
  Function.update_self _ _ _

theorem put_members_of_ne {d : C} (hd : d ≠ c) : (w.put c v).members d = w.members d :=
  Function.update_of_ne hd _ _

omit [DecidableEq C] in
/-- What a connection shares has no part in this. -/
theorem known_view : (w.view c).server.Known ↔
    ((w.members c).conn.state ≠ .kConnecting → (w.members c).accepted = true) ∧
      ((w.members c).notices ≠ [] → (w.members c).conn.state ≠ .kConnecting) :=
  ⟨fun h => ⟨h.accepted, h.established⟩, fun h => ⟨h.1, h.2⟩⟩

omit [DecidableEq C] in
theorem ready_view {s : ServerConnection C} {t : ConnTask} (h : t.Ready s)
    (haccepted : s.accepted = true → (w.members c).accepted = true)
    (hestablished : s.conn.state ≠ .kConnecting → (w.members c).conn.state ≠ .kConnecting) :
    t.Ready (w.view c).server :=
  h.stays haccepted hestablished

/-- A step of connection `c`. -/
theorem Sound.put (h : Sound w) {up : Prop} (hmoves : Connection.Moves c up (w.view c) v) :
    Sound (w.put c v) where
  agrees := (hmoves.poller h.agrees).agrees
  known := by
    intro d
    rw [known_view]
    by_cases hd : d = c
    · subst hd
      have hknown := hmoves.known (h.known d)
      rw [put_members_self]
      exact ⟨hknown.accepted, hknown.established⟩
    · rw [put_members_of_ne hd, ← known_view]
      exact h.known d
  todo := by
    intro d
    by_cases hd : d = c
    · subst hd
      rw [put_members_self]
      rcases hmoves.todo (h.todo d) with hsame | hnone
      · change .read ∉ v.server.todo.tail
        rw [hsame]
        exact h.todo d
      · exact fun hmem => hnone (List.mem_of_mem_tail hmem)
    · rw [put_members_of_ne hd]
      exact h.todo d
  bits := h.bits
  queued := by
    -- a task that was ready is ready still
    have hready : ∀ x ∈ w.tasks ++ w.pendingTasks, x.2.Ready ((w.put c v).view x.1).server := by
      rintro ⟨d, t⟩ hx
      by_cases hd : d = c
      · subst hd
        refine ready_view (h.queued (d, t) hx) ?_ ?_
        · rw [put_members_self]
          exact hmoves.accepted
        · rw [put_members_self]
          exact hmoves.established
      · refine ready_view (h.queued (d, t) hx) ?_ ?_
        · rw [put_members_of_ne hd]
          exact id
        · rw [put_members_of_ne hd]
          exact id
    intro x hx
    rcases List.mem_append.mp hx with htask | hpending
    · exact hready x (List.mem_append_left _ htask)
    · rcases List.mem_append.mp hpending with hold | hnew
      · exact hready x (List.mem_append_right _ hold)
      · obtain ⟨t, ht, rfl⟩ := List.mem_map.mp hnew
        rcases hmoves.queued (h.known c) rfl t ht with hnone | ht'
        · cases hnone
        · refine ready_view ht' ?_ ?_
          · rw [put_members_self]
            exact id
          · rw [put_members_self]
            exact id

/-- What the server and the clients of a connection do. -/
theorem moves_server {e : ServerConnection.Event C} {r : Except Fault (ServerConnection C)}
    {s : ServerConnection C} {up : Prop} (hpermits : w.Permits oneLoop c (.server e))
    (hexec : ServerConnection.Exec c (oneLoop c) (w.view c).server e r) (hr : r = .ok s) :
    Connection.Moves c up (w.view c) ((w.view c).collect s) := by
  cases hexec with
  | newConnection _ _ htodo =>
      have hacts := ServerConnection.acts_newConnection hr
      cases hone : oneLoop c with
      | true =>
          refine Connection.moves_acts hacts ?_
          rw [htodo hone]
          exact List.not_mem_nil
      | false =>
          rw [hone] at hr
          cases hr
          exact Connection.moves_collect hacts fun _ => Or.inl rfl
  | send _ _ _ =>
      obtain ⟨⟨conn, b⟩, hconn, hs⟩ := bind_ok_inv hr
      exact Connection.moves_adopt (Or.inl (TcpConnection.send_state hconn)) hs
  | shutdown _ => exact Connection.moves_adopt (TcpConnection.shutdown_keeps _ _) hr
  | forceClose _ => exact Connection.moves_adopt (TcpConnection.forceClose_keeps _) hr
  | retrieve _ _ =>
      obtain ⟨input, -, hs⟩ := bind_ok_inv hr
      cases hs
      exact Connection.moves_collect (ServerConnection.acts_setInput _ input) fun _ => Or.inl rfl
  | frame htodo _ => exact Connection.moves_frame htodo hr
  | removeConnectionInLoop _ =>
      have hfewer : ServerConnection.Acts c (w.view c).server
          { (w.view c).server with removals := (w.view c).server.removals - 1 } :=
        ServerConnection.acts_called [] List.not_mem_nil rfl rfl rfl rfl rfl id
      refine Connection.moves_collect
        (hfewer.trans (ServerConnection.acts_removeConnectionInLoop hr)) fun _ => Or.inl ?_
      rw [ServerConnection.removeConnectionInLoop_inv hr]
  | _ => exact hpermits.elim

theorem moves_member {e : Connection.Event C} {r : Except Fault (Connection C)}
    (hpermits : w.Permits oneLoop c e)
    (hexec : Connection.Exec c (oneLoop c) (w.view c) e r) (hr : r = .ok v) :
    Connection.Moves c (w.RunsStartRead c (.member c e)) (w.view c) v := by
  cases hexec with
  | server _ hexec =>
      obtain ⟨s, hs, hcollect⟩ := bind_ok_inv hr
      cases hcollect
      exact moves_server hpermits hexec hs
  | startRead hexposed hown =>
      rename_i own
      cases own with
      | true => exact Connection.moves_startReadInLoop ⟨rfl, rfl⟩ hr
      | false =>
          cases hr
          exact Connection.moves_queueInLoop fun _ => trivial
  | stopRead hexposed hown =>
      rename_i own
      cases own with
      | true => exact Connection.moves_stopReadInLoop hr
      | false =>
          cases hr
          exact Connection.moves_queueInLoop fun hknown => hknown.established hexposed
  | forceCloseWithDelay =>
      obtain ⟨s, hs, hcollect⟩ := bind_ok_inv hr
      cases hcollect
      exact Connection.moves_adopt (TcpConnection.forceCloseWithDelay_keeps _) hs
  | _ => exact hpermits.elim

theorem moves_task (h : Sound w) {t : ConnTask} {rest : List (C × ConnTask)} {r : WriteResult}
    (hidle : w.Idle) (htasks : w.tasks = (c, t) :: rest) (hv : (w.view c).runTask c r t = .ok v) :
    Connection.Moves c (w.RunsStartRead c (.task r)) (w.view c) v := by
  refine Connection.moves_runTask (hidle c) ?_ ?_ hv
  · refine h.queued (c, t) ?_
    rw [htasks]
    exact List.mem_append_left _ List.mem_cons_self
  · rintro rfl
    simp [RunsStartRead, htasks]

omit [DecidableEq C] in
/-- A step of the loop, which may only put frames on a stack. -/
theorem Sound.moved (h : Sound w)
    (hmembers : ∀ c, w'.members c = { w.members c with todo := (w'.members c).todo })
    (hagrees : w'.poller.Agrees) (htodo : ∀ c, .read ∉ (w'.members c).todo.tail)
    (hbits : ∀ x ∈ w'.remaining, x.2.pollpri = false ∧ x.2.pollrdhup = false)
    (hqueued : ∀ x ∈ w'.tasks ++ w'.pendingTasks, x ∈ w.tasks ++ w.pendingTasks) : Sound w' where
  agrees := hagrees
  known := by
    intro c
    rw [known_view, hmembers c]
    exact known_view.mp (h.known c)
  todo := htodo
  bits := hbits
  queued := by
    intro x hx
    refine ready_view (h.queued x (hqueued x hx)) ?_ ?_
    · rw [hmembers x.1]
      exact id
    · rw [hmembers x.1]
      exact id

theorem Sound.handleEvent (h : Sound w) {r : Revents} {rest : List (C × Revents)}
    (hremaining : w.remaining = (c, r) :: rest) :
    Sound
      { w with
        currentActiveChannel := some c
        remaining := rest
        members := Function.update w.members c
          { w.members c with
            todo := if (w.members c).accepted then eventFrames r else [] } } := by
  obtain ⟨hpri, hrdhup⟩ := h.bits (c, r) (by rw [hremaining]; exact List.mem_cons_self)
  refine h.moved ?_ h.agrees ?_ ?_ fun _ hx => hx
  · intro d
    by_cases hd : d = c
    · subst hd
      simp only [Function.update_self]
    · simp only [Function.update_of_ne hd]
  · intro d
    by_cases hd : d = c
    · subst hd
      simp only [Function.update_self]
      split
      · exact (eventFrames_read r hpri hrdhup).1
      · exact List.not_mem_nil
    · simp only [Function.update_of_ne hd]
      exact h.todo d
  · intro x hx
    refine h.bits x ?_
    rw [hremaining]
    exact List.mem_cons_of_mem _ hx

omit [DecidableEq C] in
theorem Sound.popTask (h : Sound w) {x : C × ConnTask} {rest : List (C × ConnTask)}
    (htasks : w.tasks = x :: rest) : Sound { w with tasks := rest } := by
  refine h.moved (fun _ => rfl) h.agrees h.todo h.bits fun y hy => ?_
  rw [htasks]
  exact List.mem_cons_of_mem _ hy

theorem Sound.exec (h : Sound w) {e : Event C} {r : Except Fault (IoLoop C)}
    (hexec : Exec oneLoop w e r) (hr : r = .ok w') : Sound w' := by
  cases hexec with
  | member hpermits hexec =>
      obtain ⟨v, hv, hput⟩ := bind_ok_inv hr
      cases hput
      exact h.put (moves_member hpermits hexec hv)
  | poll _ _ hreports =>
      rw [h.agrees.fillActiveChannels hreports] at hr
      cases hr
      refine h.moved (fun _ => rfl) h.agrees h.todo ?_ fun _ hx => hx
      intro x hx
      obtain ⟨r, hr, rfl⟩ := List.mem_map.mp hx
      obtain ⟨-, mask, -, hwithin⟩ := hreports.interested r hr
      exact ⟨hwithin.pollpri, hwithin.pollrdhup⟩
  | handleEvent _ _ hremaining =>
      cases hr
      exact h.handleEvent hremaining
  | doPendingFunctors _ _ _ =>
      cases hr
      refine h.moved (fun _ => rfl) h.agrees h.todo h.bits fun x hx => ?_
      rw [List.append_nil] at hx
      exact List.mem_append_right _ hx
  | task _ hidle htasks _ =>
      obtain ⟨v, hv, hput⟩ := bind_ok_inv hr
      cases hput
      exact (h.popTask htasks).put (moves_task h hidle htasks hv)
  | endBatch _ _ _ =>
      cases hr
      exact h.moved (fun _ => rfl) h.agrees h.todo h.bits fun _ hx => hx
  | otherChannel _ hallowed _ =>
      obtain ⟨p, hp, hrest⟩ := bind_ok_inv hr
      cases hrest
      exact h.moved (fun _ => rfl) (Poller.Step.become h.agrees ⟨hallowed, hp⟩).1 h.todo h.bits
        fun _ hx => hx

theorem sound_of_run {fd : C → Int} {events : List (Event C)}
    (hrun : Run (Step oneLoop) (new fd) events w) : Sound w := by
  refine hrun.invariant ?_ fun _ _ _ h hstep => h.exec hstep rfl
  exact
    { agrees := Poller.agrees_new fd
      known := fun _ => ⟨fun hup => absurd rfl hup, fun hsome => absurd rfl hsome⟩
      todo := fun _ => List.not_mem_nil
      bits := fun _ hx => absurd hx List.not_mem_nil
      queued := fun _ hx => absurd hx List.not_mem_nil }

/-- A step of a connection, which is not `startReadInLoop` of `c`. -/
theorem Stopped.put (h : w.Stopped c) (hsound : Sound w) {d : C} {up : Prop}
    (hmoves : Connection.Moves d up (w.view d) v) (hup : d = c → ¬ up) :
    (w.put d v).Stopped c := by
  have hsteers := hmoves.poller hsound.agrees
  by_cases hd : d = c
  · subst hd
    refine ⟨?_, ?_, ?_, h.remaining⟩
    · rw [put_members_self]
      exact hmoves.established h.established
    · refine hsteers.read ?_ h.unread
      rintro (hstarts | hconnecting)
      · exact hup rfl hstarts
      · exact h.established hconnecting
    · rw [put_members_self]
      rcases hmoves.todo (hsound.todo d) with hsame | hnone
      · change .read ∉ v.server.todo
        rw [hsame]
        exact h.todo
      · exact hnone
  · have hc : c ≠ d := fun hc => hd hc.symm
    refine ⟨?_, ?_, ?_, h.remaining⟩
    · rw [put_members_of_ne hc]
      exact h.established
    · change (v.server.poller.table c).events.read = false
      rw [hsteers.others c hc]
      exact h.unread
    · rw [put_members_of_ne hc]
      exact h.todo

omit [DecidableEq C] in
/-- The poll reports what the channel asks for. -/
theorem Stopped.poll (h : w.Stopped c) (hsound : Sound w) {capacity : Nat}
    {reports : List (Poller.Report C)} (hreports : w.poller.Reports capacity reports) :
    Stopped
      { w with
        phase := .handling
        activeChannels := reports.map fun r => (r.ptr, r.revents)
        remaining := reports.map fun r => (r.ptr, r.revents) } c where
  established := h.established
  unread := h.unread
  todo := h.todo
  remaining := by
    intro r hr
    obtain ⟨report, hreport, heq⟩ := List.mem_map.mp hr
    obtain ⟨rfl, rfl⟩ := Prod.mk.inj heq
    obtain ⟨fd, mask, hinterest, hwithin⟩ := hreports.interested report hreport
    obtain ⟨-, -, rfl⟩ := (hsound.agrees.polled _ _ _).mp hinterest
    by_contra hpollin
    have hread := hwithin.pollin (by simpa using hpollin)
    rw [h.unread] at hread
    cases hread

theorem Stopped.handleEvent (h : w.Stopped c) (hsound : Sound w) {d : C} {r : Revents}
    {rest : List (C × Revents)} (hremaining : w.remaining = (d, r) :: rest) :
    Stopped
      { w with
        currentActiveChannel := some d
        remaining := rest
        members := Function.update w.members d
          { w.members d with
            todo := if (w.members d).accepted then eventFrames r else [] } } c := by
  have hmem : ∀ x ∈ rest, x ∈ w.remaining := by
    rw [hremaining]
    exact fun x hx => List.mem_cons_of_mem _ hx
  have hhead : (d, r) ∈ w.remaining := by
    rw [hremaining]
    exact List.mem_cons_self
  by_cases hd : c = d
  · subst hd
    refine ⟨?_, h.unread, ?_, fun r' hr' => h.remaining r' (hmem _ hr')⟩
    · simp only [Function.update_self]
      exact h.established
    · simp only [Function.update_self]
      split
      · obtain ⟨hpri, hrdhup⟩ := hsound.bits (c, r) hhead
        exact (eventFrames_read r hpri hrdhup).2 (h.remaining r hhead)
      · exact List.not_mem_nil
  · refine ⟨?_, h.unread, ?_, fun r' hr' => h.remaining r' (hmem _ hr')⟩
    · simp only [Function.update_of_ne hd]
      exact h.established
    · simp only [Function.update_of_ne hd]
      exact h.todo

theorem Stopped.exec (h : w.Stopped c) (hsound : Sound w) {e : Event C}
    {r : Except Fault (IoLoop C)} (hstarts : ¬ w.RunsStartRead c e)
    (hexec : Exec oneLoop w e r) (hr : r = .ok w') : w'.Stopped c := by
  cases hexec with
  | member hpermits hexec =>
      obtain ⟨v, hv, hput⟩ := bind_ok_inv hr
      cases hput
      refine h.put hsound (moves_member hpermits hexec hv) ?_
      rintro rfl
      exact hstarts
  | poll _ _ hreports =>
      rw [hsound.agrees.fillActiveChannels hreports] at hr
      cases hr
      exact h.poll hsound hreports
  | handleEvent _ _ hremaining =>
      cases hr
      exact h.handleEvent hsound hremaining
  | doPendingFunctors _ _ _ =>
      cases hr
      exact ⟨h.established, h.unread, h.todo, h.remaining⟩
  | task hphase hidle htasks hwithin =>
      rename_i d t rest result
      obtain ⟨v, hv, hput⟩ := bind_ok_inv hr
      cases hput
      have hpop : Stopped { w with tasks := rest } c :=
        ⟨h.established, h.unread, h.todo, h.remaining⟩
      refine hpop.put (hsound.popTask htasks) (moves_task hsound hidle htasks hv) ?_
      rintro rfl
      exact hstarts
  | endBatch _ _ _ =>
      cases hr
      exact ⟨h.established, h.unread, h.todo, h.remaining⟩
  | otherChannel hother hallowed hfresh =>
      obtain ⟨p, hp, hrest⟩ := bind_ok_inv hr
      cases hrest
      refine ⟨h.established, ?_, h.todo, h.remaining⟩
      rename_i call
      have hne : call.channel ≠ c := by
        rintro rfl
        have haccepted := (known_view.mp (hsound.known _)).1 h.established
        rw [hother] at haccepted
        cases haccepted
      change (p.table c).events.read = false
      rw [Poller.table_of_exec hsound.agrees hallowed hne hp]
      exact h.unread

theorem Stopped.of_stopReadInLoop (hsound : Sound w)
    (hestablished : (w.members c).conn.state ≠ .kConnecting) (htodo : .read ∉ (w.members c).todo)
    (hawaits : ¬ w.Awaits c) (hv : (w.view c).stopReadInLoop c = .ok v) :
    (w.put c v).Stopped c := by
  have hremaining : ∀ r, (c, r) ∈ w.remaining → r.pollin = false := by
    intro r hr
    by_contra hpollin
    exact hawaits ⟨r, hr, by simp [show r.pollin = true by simpa using hpollin]⟩
  rcases Connection.stopReadInLoop_inv hv with ⟨-, p, hp, rfl⟩ | ⟨hnot, rfl⟩
  · refine ⟨?_, ?_, ?_, hremaining⟩
    · rw [put_members_self]
      exact hestablished
    · change (p.table c).events.read = false
      rw [(Poller.interestOp_inv hsound.agrees hp).2.1]
      rfl
    · rw [put_members_self]
      exact htodo
  · refine ⟨?_, ?_, ?_, hremaining⟩
    · rw [put_members_self]
      exact hestablished
    · exact (Bool.or_eq_false_iff.mp hnot).2
    · rw [put_members_self]
      exact htodo

omit [DecidableEq C] in
/-- In the code of a user there is nothing left to read. -/
theorem read_of_userCode (hsound : Sound w) (huser : (w.view c).server.userCode = true) :
    .read ∉ (w.members c).todo := by
  have htail := hsound.todo c
  simp only [ServerConnection.userCode, view] at huser
  intro hmem
  cases htodo : (w.members c).todo with
  | nil =>
      rw [htodo] at hmem
      cases hmem
  | cons f rest =>
      rw [htodo] at hmem htail huser
      rcases List.mem_cons.mp hmem with rfl | hrest
      · cases huser
      · exact htail hrest

theorem stopped_of_stop (hsound : Sound w) {e : Event C} {r : Except Fault (IoLoop C)}
    (hstop : w.RunsStopRead c e) (hawaits : ¬ w.Awaits c) (hexec : Exec oneLoop w e r)
    (hr : r = .ok w') : w'.Stopped c := by
  cases hexec with
  | member _ hexec =>
      obtain ⟨v, hv, hput⟩ := bind_ok_inv hr
      cases hput
      cases hexec with
      | stopRead hexposed hown =>
          obtain ⟨rfl, rfl⟩ := hstop
          exact .of_stopReadInLoop hsound ((hsound.known _).established hexposed)
            (read_of_userCode hsound (hown rfl)) hawaits hv
      | _ => exact hstop.elim
  | task hphase hidle htasks hwithin =>
      rename_i d t rest result
      obtain ⟨v, hv, hput⟩ := bind_ok_inv hr
      cases hput
      simp only [RunsStopRead, htasks, List.head?_cons, Option.some.injEq] at hstop
      obtain ⟨rfl, rfl⟩ := Prod.mk.inj hstop
      have hready := hsound.queued (d, .stopReadInLoop)
        (by rw [htasks]; exact List.mem_append_left _ List.mem_cons_self)
      refine .of_stopReadInLoop (hsound.popTask htasks) hready ?_ hawaits hv
      rw [hidle d]
      exact List.not_mem_nil
  | _ => exact hstop.elim

def pollin : Revents := ⟨true, false, false, false, false, false, false⟩

theorem pollin_within {mask : EventMask} (hread : mask.read = true) : pollin.Within mask where
  pollin := fun _ => hread
  pollout := fun h => by cases h
  pollpri := rfl
  pollnval := rfl
  pollrdhup := rfl

/-- There is something to read, and `handleRead` calls the message callback. -/
theorem step_read {bytes : List UInt8} {input : Buffer} {rest : List Frame}
    (hothers : ∀ d, d ≠ c → (w.members d).todo = []) (htodo : (w.members c).todo = .read :: rest)
    (hbytes : 0 < bytes.length)
    (hread : (w.members c).conn.inputBuffer.readFd (.data bytes) = .ok (bytes.length, input)) :
    Step oneLoop w (.member c (.server (.frame (.data bytes) (.wrote 0))))
      (w.put c ((w.view c).collect
        { (w.view c).server with
          conn := { (w.members c).conn with inputBuffer := input }
          todo := .messageCallback :: rest })) := by
  have hframe : Exec oneLoop w (.member c (.server (.frame (.data bytes) (.wrote 0)))) _ :=
    .member hothers (.server rfl (.frame htodo (Nat.zero_le _)))
  have hcalled : ServerConnection.handleRead c { (w.view c).server with todo := rest }
      (.data bytes) = .ok
        { (w.view c).server with
          conn := { (w.members c).conn with inputBuffer := input }
          todo := .messageCallback :: rest } := by
    have hfd : (w.view c).server.conn.inputBuffer.readFd (.data bytes) =
      .ok (bytes.length, input) := hread
    simp only [ServerConnection.handleRead, hfd, ok_bind]
    rw [if_pos (by exact_mod_cast hbytes)]
    rfl
  simp only [ServerConnection.runFrame, hcalled, ok_bind] at hframe
  exact hframe

omit [DecidableEq C] in
theorem Stopped.quiet (h : w.Stopped c) : ¬ w.InvokesMessageCallback c w' := by
  rintro ⟨rest, htodo, -⟩
  refine h.todo ?_
  rw [htodo]
  exact List.mem_cons_self

/-- `stopReadInLoop` runs for a connection whose channel is not to be read in the round
under way. Then its message callback is not called until `startReadInLoop` has run. -/
theorem stop_read_takes_effect {fd : C → Int} {before after : List (Event C)} {stop : Event C}
    {w₁ w₂ : IoLoop C} (hbefore : Run (Step oneLoop) (new fd) before w)
    (hstop : w.RunsStopRead c stop) (hawaits : ¬ w.Awaits c) (hstep : Step oneLoop w stop w₁)
    (hafter : Run (Guarded (Step oneLoop) fun w e => ¬ w.RunsStartRead c e) w₁ after w₂) :
    ∀ e w₃, Step oneLoop w₂ e w₃ → ¬ w₂.InvokesMessageCallback c w₃ := by
  have hsound := sound_of_run hbefore
  have hstopped : Sound w₂ ∧ w₂.Stopped c := by
    refine hafter.invariant (I := fun w => Sound w ∧ w.Stopped c)
      ⟨hsound.exec hstep rfl, stopped_of_stop hsound hstop hawaits hstep rfl⟩ ?_
    rintro w e w' ⟨hsound, hstopped⟩ ⟨hstarts, hstep⟩
    exact ⟨hsound.exec hstep rfl, hstopped.exec hsound hstarts hstep rfl⟩
  exact fun _ _ _ => hstopped.2.quiet

/-- A connection stops reading in its own message callback, and a round goes by. -/
theorem stop_read_takes_effect_own : ∃ w w₁ w₂ : IoLoop Unit,
    Run (Step fun _ => true) (new fun _ => 7)
      [.member () (.server .newConnection),
        .member () (.server (.frame (.data []) (.wrote 0))),
        .poll 16 [⟨pollin, ()⟩], .handleEvent,
        .member () (.server (.frame (.data [1]) (.wrote 0)))] w ∧
    Step (fun _ => true) w (.member () (.stopRead true)) w₁ ∧
    Run (Guarded (Step fun _ => true) fun w e => ¬ w.RunsStartRead () e) w₁
      [.member () (.server (.frame (.data []) (.wrote 0))), .doPendingFunctors, .endBatch,
        .poll 16 []] w₂ ∧
    ∀ e w₃, Step (fun _ => true) w₂ e w₃ → ¬ w₂.InvokesMessageCallback () w₃ := by
  have hquiet : ∀ n, (WriteResult.wrote 0).Within n := Nat.zero_le
  have hothers : ∀ {w : IoLoop Unit} (d : Unit), d ≠ () → (w.members d).todo = [] :=
    fun _ hd => absurd rfl hd
  have hnew := run_then (.nil : Run (Step fun _ => true) (new fun _ : Unit => 7) [] _)
    (.member () (.server .newConnection))
    (.member ⟨fun _ hd => absurd rfl hd, fun _ _ => rfl⟩
      (.server rfl (.newConnection rfl (fun _ hd => absurd rfl hd) fun _ => rfl))) rfl
  have hcalled := run_then hnew (.member () (.server (.frame (.data []) (.wrote 0))))
    (.member hothers (.server rfl (.frame rfl (hquiet _)))) rfl
  have hpolled := run_then hcalled (.poll 16 [⟨pollin, ()⟩])
    (.poll rfl (fun _ => rfl) ⟨by decide, by decide,
      List.forall_mem_singleton.mpr ⟨7, _, rfl, pollin_within rfl⟩⟩) rfl
  have hhandled := run_then hpolled .handleEvent (.handleEvent rfl (fun _ => rfl) rfl) rfl
  obtain ⟨input, hfd, -⟩ := Buffer.readFd_spec (Buffer.new_wf Buffer.kInitialSize) [1]
  have hread := hhandled.snoc (step_read (c := ()) hothers rfl (by decide) hfd)
  have hstop := step_then hread (.member () (.stopRead true))
    (.member (fun _ _ => rfl) (.stopRead (List.cons_ne_nil _ _) fun _ => rfl)) rfl
  have hreturn := step_then (hread.snoc hstop)
    (.member () (.server (.frame (.data []) (.wrote 0))))
    (.member hothers (.server rfl (.frame rfl (hquiet _)))) rfl
  have hswap := step_then ((hread.snoc hstop).snoc hreturn) .doPendingFunctors
    (.doPendingFunctors rfl (fun _ => rfl) rfl) rfl
  have hend := step_then (((hread.snoc hstop).snoc hreturn).snoc hswap) .endBatch
    (.endBatch rfl (fun _ => rfl) rfl) rfl
  have hpoll := step_then ((((hread.snoc hstop).snoc hreturn).snoc hswap).snoc hend) (.poll 16 [])
    (.poll rfl (fun _ => rfl) ⟨by decide, by decide, fun _ hr => absurd hr List.not_mem_nil⟩) rfl
  have hafter : Run (Guarded (Step fun _ => true) fun w e => ¬ w.RunsStartRead () e) _ _ _ :=
    (((Run.nil.snoc ⟨id, hreturn⟩).snoc ⟨id, hswap⟩).snoc ⟨id, hend⟩).snoc ⟨id, hpoll⟩
  have hruns : ∀ w : IoLoop Unit, w.RunsStopRead () (.member () (.stopRead true)) :=
    fun _ => ⟨rfl, rfl⟩
  refine ⟨_, _, _, hread, hstop, hafter,
    stop_read_takes_effect hread (hruns _) ?_ hstop hafter⟩
  rintro ⟨r, hr, -⟩
  cases hr

/-- Two connections are readable, and the message callback of the first stops the second.
The second is handled all the same. -/
theorem stop_read_missed : ∃ w w₁ w₂ w₃ : IoLoop Bool,
    Run (Step fun _ => true) (new fun c => if c then 8 else 7)
      [.member false (.server .newConnection),
        .member false (.server (.frame (.data []) (.wrote 0))),
        .member true (.server .newConnection),
        .member true (.server (.frame (.data []) (.wrote 0))),
        .poll 16 [⟨pollin, false⟩, ⟨pollin, true⟩], .handleEvent,
        .member false (.server (.frame (.data [1]) (.wrote 0)))] w ∧
    w.RunsStopRead true (.member true (.stopRead true)) ∧
    Step (fun _ => true) w (.member true (.stopRead true)) w₁ ∧
    Run (Guarded (Step fun _ => true) fun w e => ¬ w.RunsStartRead true e) w₁
      [.member false (.server (.frame (.data []) (.wrote 0))), .handleEvent] w₂ ∧
    Step (fun _ => true) w₂ (.member true (.server (.frame (.data [1]) (.wrote 0)))) w₃ ∧
    w₂.InvokesMessageCallback true w₃ := by
  have hquiet : ∀ n, (WriteResult.wrote 0).Within n := Nat.zero_le
  have hother : ∀ {P : Bool → Prop} (c : Bool), P (!c) → ∀ d, d ≠ c → P d := by
    intro P c h d hd
    rw [Bool.eq_not_of_ne hd]
    exact h
  have hfirst := run_then
    (.nil : Run (Step fun _ => true) (new fun c : Bool => if c then 8 else 7) [] _)
    (.member false (.server .newConnection))
    (.member ⟨fun _ _ h => (by cases h), fun _ _ => rfl⟩
      (.server rfl (.newConnection rfl (fun _ _ h => absurd rfl h) fun _ => rfl))) rfl
  have hfirst' := run_then hfirst (.member false (.server (.frame (.data []) (.wrote 0))))
    (.member (hother false rfl) (.server rfl (.frame rfl (hquiet _)))) rfl
  have hsecond := run_then hfirst' (.member true (.server .newConnection))
    (.member ⟨hother true fun _ _ => by decide, fun _ => Bool.forall_bool.mpr ⟨rfl, rfl⟩⟩
      (.server rfl (.newConnection rfl (hother true fun _ => by decide) fun _ => rfl))) rfl
  have hsecond' := run_then hsecond (.member true (.server (.frame (.data []) (.wrote 0))))
    (.member (hother true rfl) (.server rfl (.frame rfl (hquiet _)))) rfl
  have hagrees := (sound_of_run hsecond').agrees
  have hreported := (hagrees.polled 7 ⟨true, false⟩ false).mpr ⟨rfl, rfl, rfl⟩
  have hreported' := (hagrees.polled 8 ⟨true, false⟩ true).mpr ⟨rfl, rfl, rfl⟩
  have hpolled := run_then hsecond' (.poll 16 [⟨pollin, false⟩, ⟨pollin, true⟩])
    (.poll rfl (Bool.forall_bool.mpr ⟨rfl, rfl⟩) ⟨by decide, by decide,
      List.forall_mem_cons.mpr ⟨⟨7, _, hreported, pollin_within rfl⟩,
        List.forall_mem_singleton.mpr ⟨8, _, hreported', pollin_within rfl⟩⟩⟩) rfl
  have hhandled := run_then hpolled .handleEvent
    (.handleEvent rfl (Bool.forall_bool.mpr ⟨rfl, rfl⟩) rfl) rfl
  obtain ⟨input, hfd, -⟩ := Buffer.readFd_spec (Buffer.new_wf Buffer.kInitialSize) [1]
  have hread := hhandled.snoc
    (step_read (c := false) (hother false rfl) rfl (by decide) hfd)
  have hstop := step_then hread (.member true (.stopRead true))
    (.member (fun _ => Bool.forall_bool.mpr ⟨rfl, rfl⟩)
      (.stopRead (List.cons_ne_nil _ _) fun _ => rfl)) rfl
  have hreturn := step_then (hread.snoc hstop)
    (.member false (.server (.frame (.data []) (.wrote 0))))
    (.member (hother false rfl) (.server rfl (.frame rfl (hquiet _)))) rfl
  have hturn := step_then ((hread.snoc hstop).snoc hreturn) .handleEvent
    (.handleEvent rfl (Bool.forall_bool.mpr ⟨rfl, rfl⟩) rfl) rfl
  exact ⟨_, _, _, _, hread, ⟨rfl, rfl⟩, hstop, (Run.nil.snoc ⟨id, hreturn⟩).snoc ⟨id, hturn⟩,
    step_read (hother true rfl) rfl (by decide) hfd, [], rfl, rfl⟩

end IoLoop
end ProtoRpc
