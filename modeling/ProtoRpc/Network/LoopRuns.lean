import ProtoRpc.Network.HalfClose
import ProtoRpc.Network.LoopProjection
import ProtoRpc.Network.Unarmed

/-!
The runs of a loop, as each of its connections goes through them. An event of the
connection is its own event; one of another connection is one call for another channel at
most, and functors of others in the queue; and an event of the loop is the same event of the
loop of the connection. For this the fd of a connection has to be its own until the
connection is gone, and its channel the channel of nothing else.
-/
namespace ProtoRpc.IoLoop
open Transition

variable {C : Type} [DecidableEq C] {oneLoop : C → Bool} {c d : C} {w w' : IoLoop C}
  {cond : Connection C → Connection.Event C → Prop}

/-- What is left of a connection after `connectDestroyed` has begun still holds its fd. -/
def HoldsFd (w : IoLoop C) (d : C) : Prop :=
  (w.members d).destroyed ≠ 0 → w.Fresh d

/-- A connection is made by `newConnection` and holds its fd to its end, and the channel of
`c` is used for nothing else. -/
def Owned (c : C) (w : IoLoop C) : Event C → Prop
  | .member _ (.server .newConnection) => True
  | .member d _ => (w.members d).accepted = true ∧ w.HoldsFd d
  | .task _ => ∀ x ∈ w.tasks.head?, w.HoldsFd x.1
  | .otherChannel call => call.channel ≠ c
  | _ => True

/-- The events of the connection on channel `c` and of the loop meet `cond` as well. -/
def OwnedUnder (c : C) (cond : Connection C → Connection.Event C → Prop) (w : IoLoop C)
    (e : Event C) : Prop :=
  w.Owned c e ∧ ∀ e' ∈ e.inside c, cond (w.project c) e'

structure Housed (c : C) (w : IoLoop C) : Prop where
  agrees : w.poller.Agrees
  apart : ∀ d, (w.members d).accepted = true → (w.members d).destroyed = 0 → w.Fresh d
  registered : (w.poller.table c).index ≠ .kNew → (w.members c).accepted = true
  reported : ∀ x ∈ w.remaining, x.1 = c → (w.members c).accepted = true
  queued : ∀ x ∈ w.tasks ++ w.pendingTasks, (w.members x.1).accepted = true

omit [DecidableEq C] in
theorem housed_new (c : C) (fd : C → Int) : Housed c (new fd) where
  agrees := Poller.agrees_new fd
  apart := fun _ haccepted => by cases haccepted
  registered := fun hindex => absurd rfl hindex
  reported := fun _ hx => by cases hx
  queued := fun _ hx => by cases hx

omit [DecidableEq C] in
theorem Housed.fresh (h : Housed c w) (haccepted : (w.members d).accepted = true)
    (hholds : w.HoldsFd d) : w.Fresh d := by
  by_cases hdestroyed : (w.members d).destroyed = 0
  · exact h.apart d haccepted hdestroyed
  · exact hholds hdestroyed

/-- A connection with an fd of its own has done something. -/
theorem Housed.put (h : Housed c w) {v : Connection C}
    (hlocal : ServerConnection.Local d (w.view d).server v.server)
    (haccepted : v.server.accepted = true) (hfresh : w.Fresh d) : Housed c (w.put d v) := by
  obtain ⟨hagrees, hfd, hframe⟩ := (hlocal.poller h.agrees).frame h.agrees
  have hmember : ∀ e, e ≠ d → (w.put d v).members e = w.members e :=
    fun e he => Function.update_of_ne he _ _
  have hself : ((w.put d v).members d).accepted = true := by
    simp only [IoLoop.put, Function.update_self]
    exact haccepted
  have hmono : ∀ e, (w.members e).accepted = true → ((w.put d v).members e).accepted = true := by
    intro e he
    by_cases hed : e = d
    · rw [hed]
      exact hself
    · rw [hmember e hed]
      exact he
  refine ⟨hagrees, ?_, ?_, ?_, ?_⟩
  · intro x hx hxdestroyed y hy hyaccepted hydestroyed
    change (v.server.poller.table y).fd ≠ (v.server.poller.table x).fd
    rw [hfd, hfd]
    by_cases hxd : x = d
    · subst hxd
      rw [hmember y hy] at hyaccepted hydestroyed
      exact hfresh y hy hyaccepted hydestroyed
    · rw [hmember x hxd] at hx hxdestroyed
      by_cases hyd : y = d
      · subst hyd
        exact (hfresh x hxd hx hxdestroyed).symm
      · rw [hmember y hyd] at hyaccepted hydestroyed
        exact h.apart x hx hxdestroyed y hy hyaccepted hydestroyed
  · intro hindex
    by_cases hcd : c = d
    · rw [hcd]
      exact hself
    · change (v.server.poller.table c).index ≠ .kNew at hindex
      rw [hframe c hcd] at hindex
      exact hmono c (h.registered hindex)
  · intro x hx hxc
    exact hmono c (h.reported x hx hxc)
  · intro x hx
    rcases List.mem_append.mp hx with htask | hpending
    · exact hmono _ (h.queued x (List.mem_append_left _ htask))
    · rcases List.mem_append.mp hpending with hold | hnew
      · exact hmono _ (h.queued x (List.mem_append_right _ hold))
      · obtain ⟨t, -, rfl⟩ := List.mem_map.mp hnew
        exact hself

omit [DecidableEq C] in
/-- The loop thread has moved on. -/
theorem Housed.moved (h : Housed c w) (hpoller : w'.poller = w.poller)
    (haccepted : ∀ e, (w'.members e).accepted = (w.members e).accepted)
    (hdestroyed : ∀ e, (w'.members e).destroyed = (w.members e).destroyed)
    (hremaining : ∀ x ∈ w'.remaining, x ∈ w.remaining)
    (hqueued : ∀ x ∈ w'.tasks ++ w'.pendingTasks, x ∈ w.tasks ++ w.pendingTasks) :
    Housed c w' where
  agrees := hpoller ▸ h.agrees
  apart := by
    intro x hx hxdestroyed y hy hyaccepted hydestroyed
    rw [haccepted] at hx hyaccepted
    rw [hdestroyed] at hxdestroyed hydestroyed
    rw [hpoller]
    exact h.apart x hx hxdestroyed y hy hyaccepted hydestroyed
  registered := by
    rw [hpoller, haccepted]
    exact h.registered
  reported := by
    intro x hx
    rw [haccepted]
    exact h.reported x (hremaining x hx)
  queued := by
    intro x hx
    rw [haccepted]
    exact h.queued x (hqueued x hx)

omit [DecidableEq C] in
theorem Housed.popTask (h : Housed c w) {x : C × ConnTask} {rest : List (C × ConnTask)}
    (htasks : w.tasks = x :: rest) : Housed c { w with tasks := rest } := by
  refine h.moved rfl (fun _ => rfl) (fun _ => rfl) (fun _ hy => hy) ?_
  intro y hy
  rw [htasks]
  exact List.mem_cons_of_mem _ hy

/-- The fd of `c` is no other's that does something. -/
theorem fd_apart (hd : d ≠ c) (hfresh : w.Fresh d) :
    (w.project c).server.accepted = true → (w.project c).server.destroyed = 0 →
      ((w.project c).server.poller.table d).fd ≠ ((w.project c).server.poller.table c).fd :=
  fun haccepted hdestroyed => (hfresh c hd.symm haccepted hdestroyed).symm

theorem project_run_put (hcond : Connection.Overlooks cond) (hagrees : w.poller.Agrees)
    (hd : d ≠ c) {v : Connection C} (hlocal : ServerConnection.Local d (w.view d).server v.server)
    (hfresh : w.Fresh d) :
    ∃ events, Run (Guarded (Connection.Step c (oneLoop c)) cond) (w.project c) events
        ((w.put d v).project c) ∧
      events.filterMap Connection.Event.inside = [] := by
  have hcalled : Poller.Called d (w.project c).server.poller v.server.poller :=
    hlocal.poller hagrees
  rw [project_put_of_ne hd]
  exact Connection.elsewhere_run hcond rfl hd hcalled (fd_apart hd hfresh) _

omit [DecidableEq C] in
theorem ofMember_of_permits {e : Connection.Event C} (hpermits : w.Permits oneLoop c e) :
    e.ofMember = true := by
  cases e with
  | server e => cases e <;> first | rfl | exact hpermits.elim
  | startRead | stopRead | forceCloseWithDelay => rfl
  | _ => exact hpermits.elim

theorem accepted_of_newConnection {v v' : Connection C} {b : Bool}
    (hexec : Connection.Exec c b v (.server .newConnection) (.ok v')) :
    v'.server.accepted = true := by
  generalize hr : Except.ok v' = result at hexec
  cases hexec with
  | server hqueue hexec =>
      obtain ⟨s, rfl, hv'⟩ := bind_ok_inv hr.symm
      cases hv'
      generalize hs : Except.ok s = result at hexec
      cases hexec with
      | newConnection =>
          cases b with
          | true =>
              obtain ⟨-, p, -, rfl⟩ := ServerConnection.connectEstablished_inv hs.symm
              rfl
          | false =>
              cases hs
              rfl

omit [DecidableEq C] in
theorem owned_member {e : Connection.Event C} (howned : w.Owned c (.member d e))
    (hnew : e ≠ .server .newConnection) : (w.members d).accepted = true ∧ w.HoldsFd d := by
  cases e with
  | server e => cases e <;> first | exact howned | exact absurd rfl hnew
  | _ => exact howned

/-- What the guard gives for an event of a connection. -/
theorem Housed.acts (h : Housed c w) {e : Connection.Event C} {v : Connection C}
    (hpermits : w.Permits oneLoop d e) (howned : w.Owned c (.member d e))
    (hexec : Connection.Exec d (oneLoop d) (w.view d) e (.ok v)) :
    ServerConnection.Local d (w.view d).server v.server ∧ v.server.accepted = true ∧ w.Fresh d := by
  have hlocal := hexec.local (ofMember_of_permits hpermits)
  by_cases hnew : e = .server .newConnection
  · subst hnew
    exact ⟨hlocal, accepted_of_newConnection hexec, hpermits.1⟩
  · obtain ⟨haccepted, hholds⟩ := owned_member howned hnew
    exact ⟨hlocal, hlocal.accepted haccepted, h.fresh haccepted hholds⟩

/-- An event of a connection, as the connection on channel `c` goes through it. -/
theorem Housed.member (h : Housed c w) (hcond : Connection.Overlooks cond)
    {e : Connection.Event C} {v : Connection C} (hmeets : d = c → cond (w.project c) e)
    (hpermits : w.Permits oneLoop d e) (howned : w.Owned c (.member d e))
    (hexec : Connection.Exec d (oneLoop d) (w.view d) e (.ok v)) :
    Housed c (w.put d v) ∧ Seen oneLoop c cond w (.member d e) (w.put d v) := by
  obtain ⟨hlocal, haccepted, hfresh⟩ := h.acts hpermits howned hexec
  refine ⟨h.put hlocal haccepted hfresh, ?_⟩
  by_cases hd : d = c
  · subst hd
    have hmember := ofMember_of_permits hpermits
    rw [Seen, project_put_self hlocal (hexec.collected hmember rfl), Event.inside, if_pos rfl]
    refine ⟨[e], .snoc .nil ⟨hmeets rfl, hexec.behind hmember _ _⟩, ?_⟩
    rw [filterMap_single, Connection.Event.inside_of_member hmember]
  · rw [Seen, Event.inside, if_neg hd]
    exact project_run_put hcond h.agrees hd hlocal hfresh

omit [DecidableEq C] in
theorem Housed.poll (h : Housed c w) {capacity : Nat} {reports : List (Poller.Report C)}
    (hreports : w.poller.Reports capacity reports) :
    Housed c
      { w with
        phase := .handling
        activeChannels := reports.map fun r => (r.ptr, r.revents)
        remaining := reports.map fun r => (r.ptr, r.revents) } where
  agrees := h.agrees
  apart := h.apart
  registered := h.registered
  reported := by
    intro x hx hxc
    obtain ⟨r, hr, rfl⟩ := List.mem_map.mp hx
    obtain ⟨fd, mask, hinterest, -⟩ := hreports.interested r hr
    obtain ⟨-, hadded, -⟩ := (h.agrees.polled _ _ _).mp hinterest
    refine h.registered ?_
    rw [← hxc, hadded]
    decide
  queued := h.queued

theorem Housed.handleEvent (h : Housed c w) {r : Revents} {rest : List (C × Revents)}
    (hremaining : w.remaining = (d, r) :: rest) (todo : List Frame) :
    Housed c
      { w with
        currentActiveChannel := some d
        remaining := rest
        members := Function.update w.members d { w.members d with todo := todo } } := by
  refine h.moved rfl ?_ ?_ ?_ (fun _ hx => hx)
  · intro e
    by_cases he : e = d
    · subst he
      simp
    · simp [Function.update_of_ne he]
  · intro e
    by_cases he : e = d
    · subst he
      simp
    · simp [Function.update_of_ne he]
  · intro x hx
    rw [hremaining]
    exact List.mem_cons_of_mem _ hx

theorem Housed.otherChannel (h : Housed c w) {call : Poller.Call C} {p : Poller C}
    (hstep : Poller.Step w.poller call p) (hother : call.channel ≠ c) :
    Housed c { w with poller := p } := by
  obtain ⟨hagrees, hfd, hframe⟩ := hstep.frame h.agrees
  refine ⟨hagrees, ?_, ?_, h.reported, h.queued⟩
  · intro x hx hxdestroyed y hy hyaccepted hydestroyed
    change (p.table y).fd ≠ (p.table x).fd
    rw [hfd, hfd]
    exact h.apart x hx hxdestroyed y hy hyaccepted hydestroyed
  · intro hindex
    change (p.table c).index ≠ .kNew at hindex
    rw [hframe c hother.symm] at hindex
    exact h.registered hindex

/-- A task of the loop is one of the connection, or one of another connection. -/
theorem Housed.task (h : Housed c w) (hcond : Connection.Overlooks cond) {t : ConnTask}
    {rest : List (C × ConnTask)} {r : WriteResult} (hmeets : cond (w.project c) (.task r))
    (hphase : w.phase = .functors) (hidle : w.Idle) (htasks : w.tasks = (d, t) :: rest)
    (hr : ∀ m, t = .io (.own (.sendInLoop m)) → r.Within m.length) (hholds : w.HoldsFd d)
    {v : Connection C} (hv : (w.view d).runTask d r t = .ok v) :
    Housed c ({ w with tasks := rest }.put d v) ∧
      Seen oneLoop c cond w (.task r) ({ w with tasks := rest }.put d v) := by
  have hlocal : ServerConnection.Local d (view { w with tasks := rest } d).server v.server :=
    Connection.local_runTask hv
  have haccepted : (w.members d).accepted = true := h.queued (d, t) (by simp [htasks])
  have hfresh : Fresh { w with tasks := rest } d := h.fresh haccepted hholds
  have hpopped := h.popTask htasks
  refine ⟨hpopped.put hlocal (hlocal.accepted haccepted) hfresh, ?_⟩
  by_cases hd : d = c
  · subst hd
    rw [Seen, project_put_self hlocal (Connection.collected_runTask rfl hv)]
    have hhead : (w.project d).tasks = t :: rest.map (share d) := by
      simp [project, Connection.behind, htasks, share]
    have hexec : Connection.Exec d (oneLoop d) (w.project d) (.task r) _ :=
      .task hphase (hidle d) hhead hr
    have hresult : (project { w with tasks := rest } d).runTask d r t =
        .ok (v.behind (rest.map (share d)) (w.pendingTasks.map (share d))) := by
      refine (Connection.behind_runTask r t _ _).trans ?_
      rw [show (view { w with tasks := rest } d).runTask d r t = .ok v from hv]
      rfl
    refine ⟨[.task r], .snoc .nil ⟨hmeets, ?_⟩, rfl⟩
    exact hexec.trans hresult
  · have hother : Connection.Step c (oneLoop c) (w.project c) (.task r)
        (project { w with tasks := rest } c) := by
      have hhead : (w.project c).tasks = .io .other :: rest.map (share c) := by
        simp [project, Connection.behind, htasks, share, hd]
      have hexec : Connection.Exec c (oneLoop c) (w.project c) (.task r) _ :=
        .task hphase (hidle c) hhead (fun _ ht => by cases ht)
      have hresult : ({ w.project c with tasks := rest.map (share c) } : Connection C).runTask c r
          (.io .other) = .ok (project { w with tasks := rest } c) := by
        simp [Connection.runTask, ServerConnection.runFunctor, Connection.collect, project,
          Connection.behind, view, ok_bind]
      exact hexec.trans hresult
    obtain ⟨events, hrun, hseen⟩ := project_run_put hcond hpopped.agrees hd hlocal hfresh
    refine ⟨_, Run.append (.snoc .nil ⟨hmeets, hother⟩) hrun, ?_⟩
    rw [List.filterMap_append, hseen]
    rfl

theorem Housed.step (h : Housed c w) (hcond : Connection.Overlooks cond) {e : Event C}
    (hstep : Guarded (Step oneLoop) (OwnedUnder c cond) w e w') :
    Housed c w' ∧ Seen oneLoop c cond w e w' := by
  obtain ⟨⟨howned, hmeets⟩, hexec⟩ := hstep
  rw [Step] at hexec
  generalize hr : Except.ok w' = result at hexec
  cases hexec with
  | member hpermits hexec =>
      obtain ⟨v, rfl, hw'⟩ := bind_ok_inv hr.symm
      cases hw'
      exact h.member hcond (fun hd => hmeets _ (if_pos hd)) hpermits howned hexec
  | poll hphase hidle hreports =>
      rw [h.agrees.fillActiveChannels hreports] at hr
      rename_i capacity reports
      cases hr
      have hexec : Connection.Exec c (oneLoop c) (w.project c) (.server (.poll capacity reports)) _ :=
        .server rfl (.poll hphase (hidle c) hreports)
      have hfill : (w.project c).server.poller.fillActiveChannels capacity reports =
          .ok (reports.map fun r => (r.ptr, r.revents)) := h.agrees.fillActiveChannels hreports
      rw [hfill] at hexec
      refine ⟨h.poll hreports, [.server (.poll capacity reports)],
        .snoc .nil ⟨hmeets _ rfl, ?_⟩, rfl⟩
      refine Connection.step_of_eq hexec ?_
      simp [project, Connection.behind, Connection.collect, view]
  | handleEvent hphase hidle hremaining =>
      rename_i d r rest
      cases hr
      refine ⟨h.handleEvent hremaining _, [.server .handleEvent],
        .snoc .nil ⟨hmeets _ rfl, ?_⟩, rfl⟩
      have hexec : Connection.Exec c (oneLoop c) (w.project c) (.server .handleEvent) _ :=
        .server rfl (.handleEvent hphase (hidle c) hremaining)
      refine Connection.step_of_eq hexec ?_
      by_cases hd : d = c
      · subst hd
        have haccepted := h.reported (d, r) (by simp [hremaining]) rfl
        simp [project, Connection.behind, Connection.collect, view, haccepted]
      · simp [project, Connection.behind, Connection.collect, view, hd, Function.update_of_ne (Ne.symm hd),
          hidle c]
  | doPendingFunctors hphase hidle hremaining =>
      cases hr
      have hexec : Connection.Exec c (oneLoop c) (w.project c) .doPendingFunctors _ :=
        .doPendingFunctors hphase (hidle c) hremaining
      refine ⟨h.moved rfl (fun _ => rfl) (fun _ => rfl) (fun _ hx => hx) ?_,
        [.doPendingFunctors], .snoc .nil ⟨hmeets _ rfl, ?_⟩, rfl⟩
      · intro x hx
        simp only [List.append_nil] at hx
        exact List.mem_append_right _ hx
      · refine Connection.step_of_eq hexec ?_
        simp [project, Connection.behind, view]
  | task hphase hidle htasks hwithin =>
      obtain ⟨v, hv, hw'⟩ := bind_ok_inv hr.symm
      cases hw'
      rename_i d t rest r
      have hholds : w.HoldsFd d := howned (d, t) (by rw [htasks]; rfl)
      exact h.task hcond (hmeets _ rfl) hphase hidle htasks hwithin hholds hv
  | endBatch hphase hidle htasks =>
      cases hr
      have hexec : Connection.Exec c (oneLoop c) (w.project c) .endBatch _ :=
        .endBatch hphase (hidle c) (by simp [project, Connection.behind, htasks])
      refine ⟨h.moved rfl (fun _ => rfl) (fun _ => rfl) (fun _ hx => hx) (fun _ hx => hx),
        [.endBatch], .snoc .nil ⟨hmeets _ rfl, hexec⟩, rfl⟩
  | otherChannel hother hallowed hfresh =>
      rename_i call
      obtain ⟨p, hp, hw'⟩ := bind_ok_inv hr.symm
      cases hw'
      refine ⟨h.otherChannel ⟨hallowed, hp⟩ howned, ?_⟩
      have helsewhere : project { w with poller := p } c = (w.project c).elsewhere p 0 := by
        simp [project, Connection.behind, Connection.elsewhere, view]
      rw [Seen, helsewhere]
      exact Connection.elsewhere_run hcond rfl howned (Or.inr ⟨call, rfl, hallowed, hp⟩)
        (fd_apart howned hfresh) 0

theorem project_run (hcond : Connection.Overlooks cond) {fd : C → Int} {events : List (Event C)}
    (hrun : Run (Guarded (Step oneLoop) (OwnedUnder c cond)) (new fd) events w) :
    Housed c w ∧ ∃ events',
      Run (Guarded (Connection.Step c (oneLoop c)) cond) (Connection.new fd) events'
        (w.project c) ∧
      events'.filterMap Connection.Event.inside = events.filterMap (Event.inside c) :=
  hrun.simulates (fun w => w.project c) (housed_new c fd) fun _ _ _ h hstep => h.step hcond hstep

/-- What a connection goes through in a run of the loop is a run of its own, with the same
events of the connection and of the loop in the same order; and where these meet a
condition, so do the steps of that run. -/
theorem runs_as_connection (hcond : Connection.Overlooks cond) {fd : C → Int}
    {events : List (Event C)}
    (hrun : Run (Guarded (Step oneLoop) (OwnedUnder c cond)) (new fd) events w) :
    ∃ events', Run (Guarded (Connection.Step c (oneLoop c)) cond) (Connection.new fd) events'
        (w.project c) ∧
      events'.filterMap Connection.Event.inside = events.filterMap (Event.inside c) :=
  (project_run hcond hrun).2

/-- A delayed close is asked for with output left only, and nothing arms a connection that is
down. -/
def Keeps (c : C) (v : Connection C) (e : Connection.Event C) : Prop :=
  v.DelaysWriting e ∧ v.Orderly c e

omit [DecidableEq C] in
theorem overlooks_keeps (c : C) : Connection.Overlooks (Keeps c) := by
  intro v e he
  have hruns : ¬ v.RunsStartRead e ∧ ¬ v.RunsStopRead e ∧ ¬ v.RunsHandleClose e ∧
      e ≠ .forceCloseWithDelay := by
    cases e with
    | server e => cases e <;> first | exact ⟨id, id, id, nofun⟩ | cases he
    | _ => cases he
  exact ⟨fun h => absurd h hruns.2.2.2,
    Connection.orderly_of_none hruns.1 hruns.2.1 hruns.2.2.1⟩

/-- Two connections on one loop, and the callback of the second finds the first shut down. -/
theorem two_connections_run : ∃ w : IoLoop Bool,
    Run (Guarded (Step fun _ => true) (OwnedUnder true (Keeps true)))
      (new fun c => if c then 8 else 7)
      [.member false (.server .newConnection),
        .member false (.server (.frame (.data []) (.wrote 0))),
        .member true (.server .newConnection),
        .member false (.server (.shutdown false)),
        .member true (.server (.frame (.data []) (.wrote 0)))] w ∧
      (w.members true).conn.state = .kConnected := by
  have hquiet : ∀ n, (WriteResult.wrote 0).Within n := Nat.zero_le
  have hother : ∀ {P : Bool → Prop} (c : Bool), P (!c) → ∀ d, d ≠ c → P d := by
    intro P c h d hd
    rw [Bool.eq_not_of_ne hd]
    exact h
  have helse : ∀ {w : IoLoop Bool} {e : Connection.Event Bool},
      ∀ e' ∈ (Event.member false e).inside true, Keeps true (w.project true) e' := nofun
  have hfirst := guarded_then (.nil : Run (Guarded (Step fun _ => true)
      (OwnedUnder true (Keeps true))) (new fun c : Bool => if c then 8 else 7) [] _)
    (.member false (.server .newConnection)) ⟨trivial, helse⟩
    (.member ⟨fun _ _ h => (by cases h), fun _ _ => rfl⟩
      (.server rfl (.newConnection rfl (fun _ _ h => absurd rfl h) fun _ => rfl))) rfl
  have hfirst' := guarded_then hfirst (.member false (.server (.frame (.data []) (.wrote 0))))
    ⟨⟨rfl, fun h => absurd rfl h⟩, helse⟩
    (.member (hother false rfl) (.server rfl (.frame rfl (hquiet _)))) rfl
  have hsecond := guarded_then hfirst' (.member true (.server .newConnection))
    ⟨trivial, fun e he => by
      cases he
      exact ⟨nofun, Connection.orderly_of_none id id id⟩⟩
    (.member ⟨hother true fun _ _ => by decide, fun _ => Bool.forall_bool.mpr ⟨rfl, rfl⟩⟩
      (.server rfl (.newConnection rfl (hother true fun _ => by decide) fun _ => rfl))) rfl
  have hshutdown := guarded_then hsecond (.member false (.server (.shutdown false)))
    ⟨⟨rfl, fun h => absurd rfl h⟩, helse⟩
    (.member (fun h => by cases h) (.server rfl (.shutdown fun h => by cases h))) rfl
  have hsecond' := guarded_then hshutdown (.member true (.server (.frame (.data []) (.wrote 0))))
    ⟨⟨rfl, fun h => absurd rfl h⟩, fun e he => by
      cases he
      refine ⟨nofun, Connection.orderly_of_none id id ?_⟩
      rintro (h | ⟨h, -⟩) <;> cases h⟩
    (.member (hother true rfl) (.server rfl (.frame rfl (hquiet _)))) rfl
  exact ⟨_, hsecond', rfl⟩

theorem runs_as_connection_second : ∃ (events : List (Event Bool)) (w : IoLoop Bool),
    Run (Guarded (Step fun _ => true) (OwnedUnder true (Keeps true)))
      (new fun c => if c then 8 else 7) events w ∧
      ∃ events', Run (Guarded (Connection.Step true true) (Keeps true))
        (Connection.new fun c => if c then 8 else 7) events' (w.project true) ∧
        events'.filterMap Connection.Event.inside = events.filterMap (Event.inside true) := by
  obtain ⟨w, hrun, -⟩ := two_connections_run
  exact ⟨_, w, hrun, runs_as_connection (overlooks_keeps true) hrun⟩

theorem kept_of_run {b : Bool} {fd : C → Int} {events : List (Connection.Event C)}
    {v : Connection C} (hrun : Run (Guarded (Connection.Step c b) (Keeps c)) (.new fd) events v) :
    Connection.Inv c v ∧ v.Followed c ∧ v.Unarmed c := by
  refine hrun.invariant (I := fun v => Connection.Inv c v ∧ v.Followed c ∧ v.Unarmed c)
    ⟨Connection.inv_new fd, (fun hstate => by cases hstate), fun hstate => by cases hstate⟩ ?_
  rintro v e v' ⟨h, hfollowed, hunarmed⟩ ⟨⟨hdelays, horderly⟩, hstep⟩
  have h' := h.exec hstep rfl
  refine ⟨h', (Connection.followed_step_iff h hfollowed hstep).mpr hdelays, ?_⟩
  rw [Connection.unarmed_iff h']
  exact (h.disarmed_exec_iff ((Connection.unarmed_iff h).mp hunarmed) hstep rfl).mpr horderly

/-- Each connection of a loop is registered for writing exactly while it has output that it may
still write, never stays half-closed with nothing to go on with it, and is unarmed once it is
down; however many others share the poller and the queue with it. Each public operation is one
step. -/
theorem connections_kept {fd : C → Int} {events : List (Event C)}
    (hrun : Run (Guarded (Step oneLoop) (OwnedUnder c (Keeps c))) (new fd) events w) :
    ((w.members c).conn.state ≠ .kConnecting →
      ((∃ mask, mask.write = true ∧ w.poller.interest (w.poller.table c).fd = some (mask, c)) ↔
        (w.members c).conn.state ≠ .kDisconnected ∧
          (w.members c).conn.outputBuffer.content ≠ [])) ∧
      (w.project c).Followed c ∧ (w.project c).Unarmed c := by
  obtain ⟨-, events', hrun', -⟩ := project_run (overlooks_keeps c) hrun
  obtain ⟨h, hkept⟩ := kept_of_run hrun'
  refine ⟨?_, hkept⟩
  intro hestablished
  refine (Connection.registeredForWriting_iff h).trans ?_
  by_cases hdown : (w.members c).conn.state = .kDisconnected
  · have hidle := h.wired.idle hdown
    exact ⟨fun hwriting => (by cases hidle.symm.trans hwriting), fun hup => absurd hdown hup.1⟩
  · have hpending := h.wired.pending hdown
    exact ⟨fun hwriting => ⟨hdown, hpending.mp hwriting⟩, fun hup => hpending.mpr hup.2⟩

theorem connections_kept_second : ∃ (events : List (Event Bool)) (w : IoLoop Bool),
    Run (Guarded (Step fun _ => true) (OwnedUnder true (Keeps true)))
      (new fun c => if c then 8 else 7) events w ∧
      (w.project true).Followed true ∧ (w.project true).Unarmed true := by
  obtain ⟨w, hrun, -⟩ := two_connections_run
  exact ⟨_, w, hrun, (connections_kept hrun).2⟩

end ProtoRpc.IoLoop
