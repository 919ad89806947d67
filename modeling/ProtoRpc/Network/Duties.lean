import ProtoRpc.Network.LoopProjection
import ProtoRpc.Network.Unarmed

/-!
What is still to be done for a connection, under all of its operations. It is accepted once,
established once and, when it is down, closed, removed from the table and destroyed once
each; and what waits for one of these waits in one place, a frame, a removal or a task in the
queue. So an accepted connection that has not been destroyed has its fd to itself, and what
asserts something finds it true.
-/
namespace ProtoRpc

/-- The functors that are queued for a call of the user. -/
def ConnTask.called : ConnTask → Bool
  | .io (.own _) | .startReadInLoop | .stopReadInLoop => true
  | .io _ => false

theorem Poller.sole_of_called {C : Type} [DecidableEq C] {chan c : C} {p p' : Poller C}
    (h : p.Agrees) (hsole : p.Sole chan) (hcalled : Called c p p')
    (hfd : c ≠ chan → (p.table c).fd ≠ (p.table chan).fd) : p'.Sole chan := by
  obtain ⟨-, hfds, hframe⟩ := hcalled.frame h
  intro d hd hregistered
  rw [hfds, hfds]
  by_cases hdc : d = c
  · subst hdc
    exact hfd hd
  · rw [hframe d hdc] at hregistered
    exact hsole d hd hregistered

namespace Connection
open Transition

variable {C : Type} [DecidableEq C] {chan : C} {w w' : Connection C} {s : ServerConnection C}

structure Duties (chan : C) (w : Connection C) : Prop where
  established : w.queued.count (.io .connectEstablished) +
    (if w.server.conn.state = .kConnecting then 0 else 1) = if w.server.accepted then 1 else 0
  closed : w.server.closeCallbacks + w.server.todo.count .closeCallback =
    if w.server.conn.state = .kDisconnected then 1 else 0
  removed : w.server.removals + w.queued.count (.io .connectDestroyed) + w.server.destroyed =
    w.server.closeCallbacks
  listed : (if w.server.listed then 1 else 0) + w.queued.count (.io .connectDestroyed) +
    w.server.destroyed = if w.server.accepted then 1 else 0
  detached : w.server.todo.count .remove ≤ 1
  detaching : .remove ∈ w.server.todo → w.server.phase = .functors ∧
    (w.server.poller.table chan).index ≠ .kNew
  unborn : w.server.conn.state = .kConnecting → (w.server.poller.table chan).index = .kNew ∧
    w.server.conn.isWriting = false ∧ w.server.Polled chan 0
  called : ∀ t ∈ w.queued, t.called = true → w.server.conn.state ≠ .kConnecting
  sole : w.server.accepted = true → w.server.destroyed = 0 → w.server.poller.Sole chan
  ended : 0 < w.server.destroyed → ∀ f ∈ w.server.todo, f = .remove

theorem duties_new (fd : C → Int) : Duties chan (new fd) where
  established := rfl
  closed := rfl
  removed := rfl
  listed := rfl
  detached := Nat.zero_le _
  detaching := nofun
  unborn := fun _ => ⟨rfl, rfl, Nat.le_refl _, nofun, fun _ => rfl⟩
  called := nofun
  sole := nofun
  ended := nofun

namespace Duties

theorem accepted (h : Duties chan w) (hstate : w.server.conn.state ≠ .kConnecting) :
    w.server.accepted = true := by
  have hestablished := h.established
  rw [if_neg hstate] at hestablished
  by_contra hnot
  rw [if_neg hnot] at hestablished
  omega

theorem not_destroyed (h : Duties chan w) (hstate : w.server.conn.state ≠ .kDisconnected) :
    w.server.closeCallbacks = 0 ∧ w.server.removals = 0 ∧
      w.queued.count (.io .connectDestroyed) = 0 ∧ w.server.destroyed = 0 := by
  have hclosed := h.closed
  have hremoved := h.removed
  rw [if_neg hstate] at hclosed
  omega

/-- An open connection has its fd to itself. -/
theorem sole_of_open (h : Duties chan w) (hconnecting : w.server.conn.state ≠ .kConnecting)
    (hdown : w.server.conn.state ≠ .kDisconnected) : w.server.poller.Sole chan :=
  h.sole (h.accepted hconnecting) (h.not_destroyed hdown).2.2.2

end Duties

/-- A step that does nothing of what is to be done. -/
structure Idles (chan : C) (w w' : Connection C) : Prop where
  keeps : w.server.conn.Keeps w'.server.conn
  accepted : w'.server.accepted = w.server.accepted
  listed : w'.server.listed = w.server.listed
  closeCallbacks : w'.server.closeCallbacks = w.server.closeCallbacks
  removals : w'.server.removals = w.server.removals
  destroyed : w'.server.destroyed = w.server.destroyed
  todo : ∀ f, f = .closeCallback ∨ f = .remove →
    w'.server.todo.count f = w.server.todo.count f
  phase : .remove ∈ w.server.todo → w'.server.phase = w.server.phase
  queued : ∀ g, g = .connectEstablished ∨ g = .connectDestroyed →
    w'.queued.count (.io g) = w.queued.count (.io g)
  called : ∀ t ∈ w'.queued, t.called = true →
    t ∈ w.queued ∨ w.server.conn.state ≠ .kConnecting
  index : (w.server.poller.table chan).index ≠ .kNew →
    (w'.server.poller.table chan).index ≠ .kNew
  unborn : w.server.conn.state = .kConnecting →
    (w'.server.poller.table chan).index = (w.server.poller.table chan).index ∧
    w'.server.conn.isWriting = w.server.conn.isWriting ∧
    (w.server.Polled chan 0 → w'.server.Polled chan 0)
  sole : w.server.accepted = true → w.server.destroyed = 0 → w.server.poller.Sole chan →
    w'.server.poller.Sole chan
  frames : 0 < w.server.destroyed → ∀ f ∈ w'.server.todo, f ∈ w.server.todo

theorem Duties.idles (h : Duties chan w) (hidles : Idles chan w w') : Duties chan w' := by
  have hconnecting := hidles.keeps.connecting_iff
  have hdown := hidles.keeps.down_iff
  refine ⟨?_, ?_, ?_, ?_, ?_, ?_, ?_, ?_, ?_, ?_⟩
  · simp only [hconnecting, hidles.accepted, hidles.queued _ (Or.inl rfl)]
    exact h.established
  · simp only [hdown, hidles.closeCallbacks, hidles.todo _ (Or.inl rfl)]
    exact h.closed
  · rw [hidles.removals, hidles.queued _ (Or.inr rfl), hidles.destroyed, hidles.closeCallbacks]
    exact h.removed
  · rw [hidles.listed, hidles.queued _ (Or.inr rfl), hidles.destroyed, hidles.accepted]
    exact h.listed
  · rw [hidles.todo _ (Or.inr rfl)]
    exact h.detached
  · intro hmem
    have hold : .remove ∈ w.server.todo := by
      rw [← List.count_pos_iff, ← hidles.todo _ (Or.inr rfl)]
      exact List.count_pos_iff.mpr hmem
    obtain ⟨hphase, hindex⟩ := h.detaching hold
    exact ⟨(hidles.phase hold).trans hphase, hidles.index hindex⟩
  · intro hstate
    obtain ⟨hindex, hwriting, hpolled⟩ := h.unborn (hconnecting.mp hstate)
    obtain ⟨hindex', hwriting', hpolled'⟩ := hidles.unborn (hconnecting.mp hstate)
    exact ⟨hindex'.trans hindex, hwriting'.trans hwriting, hpolled' hpolled⟩
  · intro t ht hcalled hstate
    rcases hidles.called t ht hcalled with hold | hup
    · exact h.called t hold hcalled (hconnecting.mp hstate)
    · exact hup (hconnecting.mp hstate)
  · rw [hidles.accepted, hidles.destroyed]
    exact fun haccepted hdestroyed =>
      hidles.sole haccepted hdestroyed (h.sole haccepted hdestroyed)
  · rw [hidles.destroyed]
    exact fun hdestroyed f hf => h.ended hdestroyed f (hidles.frames hdestroyed f hf)

/-- The connection, its channel and the poller stay. -/
theorem idles_moved (hconn : w'.server.conn = w.server.conn)
    (hpoller : w'.server.poller = w.server.poller)
    (haccepted : w'.server.accepted = w.server.accepted)
    (hlisted : w'.server.listed = w.server.listed)
    (hcloseCallbacks : w'.server.closeCallbacks = w.server.closeCallbacks)
    (hremovals : w'.server.removals = w.server.removals)
    (hdestroyed : w'.server.destroyed = w.server.destroyed)
    (htodo : ∀ f, f = .closeCallback ∨ f = .remove →
      w'.server.todo.count f = w.server.todo.count f)
    (hphase : .remove ∈ w.server.todo → w'.server.phase = w.server.phase)
    (hqueued : ∀ t, w'.queued.count t = w.queued.count t ∨
      (t ≠ .io .connectEstablished ∧ t ≠ .io .connectDestroyed ∧
        (t.called = true → t ∈ w'.queued → t ∈ w.queued ∨ w.server.conn.state ≠ .kConnecting)))
    (hpolled : w.server.conn.state = .kConnecting → w.server.Polled chan 0 →
      w'.server.Polled chan 0)
    (hframes : 0 < w.server.destroyed → ∀ f ∈ w'.server.todo, f ∈ w.server.todo) :
    Idles chan w w' where
  keeps := Or.inl (by rw [hconn])
  accepted := haccepted
  listed := hlisted
  closeCallbacks := hcloseCallbacks
  removals := hremovals
  destroyed := hdestroyed
  todo := htodo
  phase := hphase
  queued := by
    intro g hg
    rcases hqueued (.io g) with hsame | ⟨hestablished, hdestroyed, -⟩
    · exact hsame
    · rcases hg with rfl | rfl
      · exact absurd rfl hestablished
      · exact absurd rfl hdestroyed
  called := by
    intro t ht hcalled
    rcases hqueued t with hsame | ⟨-, -, hnew⟩
    · refine Or.inl (List.count_pos_iff.mp ?_)
      rw [← hsame]
      exact List.count_pos_iff.mpr ht
    · exact hnew hcalled ht
  index := by
    rw [hpoller]
    exact id
  unborn := by
    rw [hpoller, hconn]
    exact fun hstate => ⟨rfl, rfl, hpolled hstate⟩
  sole := by
    rw [hpoller]
    exact fun _ _ => id
  frames := hframes

theorem idles_collect (w : Connection C) (s : ServerConnection C) :
    Idles chan { w with server := s } (w.collect s) := by
  refine idles_moved rfl rfl rfl rfl rfl rfl rfl (fun _ _ => rfl) (fun _ => rfl) ?_ ?_
    fun _ _ hf => hf
  · intro t
    rw [queued_collect]
    exact Or.inl rfl
  · intro _ hpolled
    exact hpolled.moved rfl rfl (Nat.le_refl _)

theorem idles_popFrame {f : Frame} {rest : List Frame} (htodo : w.server.todo = f :: rest)
    (hclose : f ≠ .closeCallback) (hremove : f ≠ .remove) :
    Idles chan w { w with server := { w.server with todo := rest } } := by
  refine idles_moved rfl rfl rfl rfl rfl rfl rfl ?_ (fun _ => rfl) (fun _ => Or.inl rfl) ?_
    fun _ _ hg => htodo ▸ List.mem_cons_of_mem _ hg
  · rintro g (rfl | rfl)
    · rw [htodo, List.count_cons_of_ne hclose]
    · rw [htodo, List.count_cons_of_ne hremove]
  · exact fun _ hpolled => hpolled.popFrame htodo

theorem idles_popTask {t : ConnTask} {rest : List ConnTask} (htasks : w.tasks = t :: rest)
    (hestablished : t ≠ .io .connectEstablished) (hdestroyed : t ≠ .io .connectDestroyed) :
    Idles chan w { w with tasks := rest } := by
  refine idles_moved rfl rfl rfl rfl rfl rfl rfl (fun _ _ => rfl) (fun _ => rfl) ?_ ?_
    fun _ _ hf => hf
  · intro u
    by_cases hu : t = u
    · subst hu
      refine Or.inr ⟨hestablished, hdestroyed, fun _ _ => Or.inl ?_⟩
      exact mem_queued_head htasks
    · refine Or.inl ?_
      rw [queued, queued, htasks, List.cons_append, List.count_cons_of_ne hu]
  · exact fun _ hpolled => hpolled.moved rfl rfl (Nat.le_refl _)

theorem idles_queueInLoop {t : ConnTask} (hestablished : t ≠ .io .connectEstablished)
    (hdestroyed : t ≠ .io .connectDestroyed)
    (hcalled : t.called = true → w.server.conn.state ≠ .kConnecting) :
    Idles chan w (w.queueInLoop t) := by
  refine idles_moved rfl rfl rfl rfl rfl rfl rfl (fun _ _ => rfl) (fun _ => rfl) ?_ ?_
    fun _ _ hf => hf
  · intro u
    by_cases hu : t = u
    · subst hu
      exact Or.inr ⟨hestablished, hdestroyed, fun hcalls _ => Or.inr (hcalled hcalls)⟩
    · refine Or.inl ?_
      simp [queueInLoop, queued, List.count_cons_of_ne hu]
  · exact fun _ hpolled => hpolled.moved rfl rfl (Nat.le_refl _)

theorem idles_setInput {input : Buffer} {called : List Frame}
    (hcalled : called = [] ∨ (called = [.messageCallback] ∧ w.server.destroyed = 0)) :
    Idles chan w { w with server :=
      { w.server with
        conn := { w.server.conn with inputBuffer := input }
        todo := called ++ w.server.todo } } where
  keeps := Or.inl rfl
  accepted := rfl
  listed := rfl
  closeCallbacks := rfl
  removals := rfl
  destroyed := rfl
  todo := by
    rintro f (rfl | rfl)
    · rcases hcalled with rfl | ⟨rfl, -⟩ <;> simp
    · rcases hcalled with rfl | ⟨rfl, -⟩ <;> simp
  phase := fun _ => rfl
  queued := fun _ _ => rfl
  called := fun _ ht _ => Or.inl ht
  index := id
  unborn := by
    refine fun _ => ⟨rfl, rfl, fun hpolled => hpolled.moved rfl rfl ?_⟩
    rcases hcalled with rfl | ⟨rfl, -⟩ <;> simp [ServerConnection.mayClose]
  sole := fun _ _ => id
  frames := by
    rcases hcalled with rfl | ⟨rfl, hzero⟩
    · exact fun _ _ hf => hf
    · exact fun hdestroyed => absurd hzero (Nat.ne_of_gt hdestroyed)

theorem idles_poll (h : Inv chan w) (hd : Duties chan w)
    (htodo : w.server.todo = []) {capacity : Nat} {reports : List (Poller.Report C)}
    (hreports : w.server.poller.Reports capacity reports) :
    Idles chan w { w with server :=
      { w.server with
        phase := .handling
        activeChannels := reports.map fun r => (r.ptr, r.revents)
        remaining := reports.map fun r => (r.ptr, r.revents) } } := by
  refine idles_moved rfl rfl rfl rfl rfl rfl rfl (fun _ _ => rfl) ?_ (fun _ => Or.inl rfl) ?_
    fun _ _ hf => hf
  · rw [htodo]
    exact fun hmem => (by cases hmem)
  · intro hstate _
    refine .poll h.wired.agrees htodo hreports ?_
    intro hadded
    cases (hd.unborn hstate).1.symm.trans hadded

theorem idles_handleEvent {c : C} {r : Revents} {rest : List (C × Revents)}
    (hphase : w.server.phase = .handling) (htodo : w.server.todo = [])
    (hremaining : w.server.remaining = (c, r) :: rest)
    (hended : 0 < w.server.destroyed → c ≠ chan) : Idles chan w { w with server :=
      { w.server with
        currentActiveChannel := some c
        remaining := rest
        todo := if c = chan then eventFrames r else [] } } := by
  refine idles_moved rfl rfl rfl rfl rfl rfl rfl ?_ (fun _ => rfl) (fun _ => Or.inl rfl) ?_ ?_
  · intro f hf
    rw [htodo, List.count_nil, List.count_eq_zero]
    intro hmem
    dsimp only at hmem
    split at hmem
    · simp only [eventFrames] at hmem
      rcases hf with rfl | rfl
      · simp at hmem
      · simp at hmem
    · cases hmem
  · exact fun _ hpolled => hpolled.handleEvent hphase htodo hremaining
  · intro hdestroyed f hf
    dsimp only at hf
    rw [if_neg (hended hdestroyed)] at hf
    cases hf

theorem idles_push {g : IoFunctor} (hestablished : g ≠ .connectEstablished)
    (hdestroyed : g ≠ .connectDestroyed) (hg : ∀ f, g ≠ .own f) :
    Idles chan w { w with server :=
      { w.server with pendingFunctors := w.server.pendingFunctors ++ [g] } } := by
  refine idles_moved rfl rfl rfl rfl rfl rfl rfl (fun _ _ => rfl) (fun _ => rfl) ?_ ?_
    fun _ _ hf => hf
  · intro u
    by_cases hu : .io g = u
    · subst hu
      refine Or.inr ⟨by simpa using hestablished, by simpa using hdestroyed, ?_⟩
      intro hcalled _
      cases g with
      | own f => exact absurd rfl (hg f)
      | _ => cases hcalled
    · refine Or.inl ?_
      simp [queued, List.count_cons_of_ne hu]
  · exact fun _ hpolled => hpolled.moved rfl rfl (Nat.le_refl _)

/-- A call for the channel of the connection, or for another one. -/
theorem idles_poller (h : Inv chan w) {c : C} {p : Poller C} (reading : Bool)
    (hcalled : Poller.Called c w.server.poller p)
    (hfd : w.server.accepted = true → w.server.destroyed = 0 → c ≠ chan →
      (w.server.poller.table c).fd ≠ (w.server.poller.table chan).fd)
    (hindex : (w.server.poller.table chan).index ≠ .kNew → (p.table chan).index ≠ .kNew)
    (hunborn : w.server.conn.state = .kConnecting →
      (p.table chan).index = (w.server.poller.table chan).index) :
    Idles chan w { w with server := { w.server with poller := p }, reading := reading } where
  keeps := Or.inl rfl
  accepted := rfl
  listed := rfl
  closeCallbacks := rfl
  removals := rfl
  destroyed := rfl
  todo := fun _ _ => rfl
  phase := fun _ => rfl
  queued := fun _ _ => rfl
  called := fun _ ht _ => Or.inl ht
  index := hindex
  unborn := fun hstate => ⟨hunborn hstate, rfl, fun hpolled =>
    hpolled.moved rfl rfl (Nat.le_refl _)⟩
  sole := fun haccepted hdestroyed hsole =>
    Poller.sole_of_called h.wired.agrees hsole hcalled (hfd haccepted hdestroyed)
  frames := fun _ _ hf => hf

theorem idles_interestOp (h : Inv chan w) {op : InterestOp} {p : Poller C} {reading : Bool}
    (hp : w.server.poller.interestOp chan op = .ok p)
    (hstate : w.server.conn.state ≠ .kConnecting) :
    Idles chan w { w with server := { w.server with poller := p }, reading := reading } :=
  idles_poller h reading (Poller.called_interestOp h.wired.agrees hp) (fun _ _ hnot => absurd rfl hnot)
    (fun _ => registered_of_interestOp h.wired.agrees hp) (fun hnot => absurd hnot hstate)

theorem idles_otherChannel (h : Inv chan w) {call : Poller.Call C} (hother : call.channel ≠ chan)
    (hallowed : w.server.poller.Allowed call) {p : Poller C}
    (hp : w.server.poller.exec call = .ok p)
    (hfd : w.server.accepted = true → w.server.destroyed = 0 →
      (w.server.poller.table call.channel).fd ≠ (w.server.poller.table chan).fd) :
    Idles chan w { w with server := { w.server with poller := p } } := by
  have htable := Poller.table_of_exec h.wired.agrees hallowed hother hp
  refine idles_poller h w.reading (Or.inr ⟨call, rfl, hallowed, hp⟩)
    (fun haccepted hdestroyed _ => hfd haccepted hdestroyed) ?_ ?_
  · rw [htable]
    exact id
  · exact fun _ => congrArg Channel.index htable

theorem count_called (fs : List Functor) {g : IoFunctor} (hg : ∀ f, g ≠ .own f) :
    ((fs.map IoFunctor.own).map ConnTask.io).count (.io g) = 0 := by
  rw [List.count_eq_zero, List.map_map, List.mem_map]
  rintro ⟨f, -, hf⟩
  exact hg f (ConnTask.io.inj hf).symm

omit [DecidableEq C] in
theorem queued_adopt (w : Connection C) (c : TcpConnection) (p : Poller C) :
    queued { w with server :=
      { w.server with
        conn := { c with pendingFunctors := [] }
        poller := p
        pendingFunctors := w.server.pendingFunctors ++ c.pendingFunctors.map .own } } =
      w.queued ++ (c.pendingFunctors.map IoFunctor.own).map .io := by
  simp [queued]

/-- An operation. On a connection that is still to be established it does nothing. -/
theorem idles_adopt (h : Inv chan w) {c : TcpConnection} (hworks : w.server.conn.Works c)
    (hunborn : w.server.conn.state = .kConnecting →
      c.isWriting = w.server.conn.isWriting ∧ c.pendingFunctors = [])
    (hs : w.server.adopt chan c = .ok s) : Idles chan w { w with server := s } := by
  obtain ⟨p, hfollows, rfl⟩ := ServerConnection.adopt_inv hs
  have hcalled : Poller.Called chan w.server.poller p := by
    rcases hfollows with ⟨-, rfl⟩ | ⟨-, hp⟩
    · exact Or.inl rfl
    · exact Poller.called_interestOp h.wired.agrees hp
  refine ⟨hworks.keeps, rfl, rfl, rfl, rfl, rfl, fun _ _ => rfl, fun _ => rfl, ?_, ?_, ?_, ?_, ?_,
    fun _ _ hf => hf⟩
  · intro g hg
    rw [queued_adopt, List.count_append, count_called]
    · rfl
    · rintro f rfl
      rcases hg with hg | hg <;> cases hg
  · intro t ht _
    rw [queued_adopt] at ht
    rcases List.mem_append.mp ht with hold | hnew
    · exact Or.inl hold
    · refine Or.inr fun hstate => ?_
      rw [(hunborn hstate).2] at hnew
      cases hnew
  · rcases hfollows with ⟨-, rfl⟩ | ⟨-, hp⟩
    · exact id
    · exact fun _ => registered_of_interestOp h.wired.agrees hp
  · intro hstate
    have hsame := (hunborn hstate).1
    rcases hfollows with ⟨-, rfl⟩ | ⟨hdiffer, -⟩
    · exact ⟨rfl, hsame, fun hpolled => hpolled.moved rfl rfl (Nat.le_refl _)⟩
    · exact absurd hsame hdiffer
  · exact fun _ _ hsole =>
      Poller.sole_of_called h.wired.agrees hsole hcalled fun hnot => absurd rfl hnot

namespace Duties

theorem unborn_moved (h : Duties chan w) {s : ServerConnection C} (hconn : s.conn = w.server.conn)
    (hpoller : s.poller = w.server.poller) (hphase : s.phase = w.server.phase)
    (hremaining : s.remaining = w.server.remaining) (htodo : s.todo = w.server.todo) :
    s.conn.state = .kConnecting → (s.poller.table chan).index = .kNew ∧
      s.conn.isWriting = false ∧ s.Polled chan 0 := by
  rw [hconn, hpoller]
  intro hstate
  obtain ⟨hindex, hwriting, hpolled⟩ := h.unborn hstate
  exact ⟨hindex, hwriting, hpolled.moved hremaining hphase (by rw [htodo])⟩

theorem handleClose (h : Duties chan w) (hagrees : w.server.poller.Agrees)
    (hs : w.server.handleClose chan = .ok s) : Duties chan { w with server := s } := by
  obtain ⟨hopen, p, hp, rfl⟩ := ServerConnection.handleClose_inv hs
  have hup := TcpConnection.ne_down_of_open hopen
  have hknown : w.server.conn.state ≠ .kConnecting := by
    rcases hopen with hstate | hstate <;> rw [hstate] <;> decide
  have hestablished := h.established
  have hclosed := h.closed
  rw [if_neg hknown] at hestablished
  rw [if_neg hup] at hclosed
  refine ⟨hestablished, ?_, h.removed, h.listed, ?_, ?_, ?_, fun _ _ _ hnot => (by cases hnot), ?_,
    fun hdestroyed => absurd (h.not_destroyed hup).2.2.2 (Nat.ne_of_gt hdestroyed)⟩
  · rw [if_pos rfl]
    simp only [List.count_cons_of_ne (show Frame.connectionCallback ≠ .closeCallback by decide),
      List.count_cons_self]
    omega
  · rw [List.count_cons_of_ne (by decide), List.count_cons_of_ne (by decide)]
    exact h.detached
  · intro hmem
    have hold : .remove ∈ w.server.todo := by simpa using hmem
    exact ⟨(h.detaching hold).1, registered_of_interestOp hagrees hp⟩
  · exact fun hnot => by cases hnot
  · exact fun haccepted hdestroyed => Poller.sole_of_called hagrees
      (h.sole haccepted hdestroyed) (Poller.called_interestOp hagrees hp)
      fun hnot => absurd rfl hnot

omit [DecidableEq C] in
theorem count_push (w : Connection C) (g f : IoFunctor) :
    (queued { w with server :=
      { w.server with pendingFunctors := w.server.pendingFunctors ++ [g] } }).count (.io f) =
      w.queued.count (.io f) + if g = f then 1 else 0 := by
  simp [queued, List.count_cons, Nat.add_assoc]

/-- The connection is accepted, and `connectEstablished` is queued. -/
theorem newConnection (h : Duties chan w) (haccepted : w.server.accepted = false)
    (hsole : w.server.poller.Sole chan) :
    Duties chan { w with server :=
      { w.server with
        accepted := true
        listed := true
        pendingFunctors := w.server.pendingFunctors ++ [.connectEstablished] } } := by
  have hestablished := h.established
  have hlisted := h.listed
  rw [haccepted, if_neg Bool.false_ne_true] at hestablished hlisted
  have hstate : w.server.conn.state = .kConnecting := by
    by_contra hnot
    rw [if_neg hnot] at hestablished
    omega
  have hpush := fun f => count_push w .connectEstablished f
  refine ⟨?_, h.closed, ?_, ?_, h.detached, h.detaching, h.unborn_moved rfl rfl rfl rfl rfl, ?_,
    fun _ _ => hsole, h.ended⟩
  · refine Eq.trans (congrArg (· + _) (hpush .connectEstablished)) ?_
    rw [if_pos rfl, if_pos hstate]
    rw [if_pos hstate] at hestablished
    simp only [if_true]
    omega
  · refine Eq.trans ?_ h.removed
    exact congrArg (fun n => w.server.removals + n + w.server.destroyed) (hpush .connectDestroyed)
  · refine Eq.trans (congrArg (fun n => _ + n + w.server.destroyed) (hpush .connectDestroyed)) ?_
    change 1 + (w.queued.count (.io .connectDestroyed) + 0) + w.server.destroyed = 1
    omega
  · intro t ht hcalled
    have hmem : t ∈ w.queued ∨ t = .io .connectEstablished := by
      simpa [queued, or_assoc] using ht
    rcases hmem with hold | rfl
    · exact h.called t hold hcalled
    · cases hcalled

/-- `connectEstablished` has been taken out of the queue. -/
theorem connectEstablished (h : Duties chan w) (hagrees : w.server.poller.Agrees)
    (fs : List IoFunctor) (tasks : List ConnTask)
    (hqueued : w.queued.Perm (.io .connectEstablished :: queued
      { w with server := { w.server with pendingFunctors := fs }, tasks := tasks }))
    (hs : ServerConnection.connectEstablished chan { w.server with pendingFunctors := fs } =
      .ok s) : Duties chan { w with server := s, tasks := tasks } := by
  obtain ⟨hstate, p, hp, rfl⟩ := ServerConnection.connectEstablished_inv hs
  have hestablished := h.established
  have hclosed := h.closed
  have hremoved := h.removed
  have hlisted := h.listed
  rw [hqueued.count_eq, List.count_cons_self, if_pos hstate] at hestablished
  rw [hqueued.count_eq, List.count_cons_of_ne (by decide)] at hremoved hlisted
  rw [if_neg (by rw [hstate]; decide)] at hclosed
  have hnone := (h.not_destroyed (by rw [hstate]; decide)).2.2.2
  refine ⟨hestablished, ?_, hremoved, hlisted, ?_, ?_, fun hnot => (by cases hnot),
    fun _ _ _ hnot => (by cases hnot), ?_, fun hdestroyed => absurd hnone (Nat.ne_of_gt hdestroyed)⟩
  · rw [List.count_cons_of_ne (by decide)]
    exact hclosed
  · rw [List.count_cons_of_ne (by decide)]
    exact h.detached
  · intro hmem
    have hold : .remove ∈ w.server.todo := by simpa using hmem
    exact ⟨(h.detaching hold).1, registered_of_interestOp hagrees hp⟩
  · exact fun haccepted hdestroyed => Poller.sole_of_called hagrees
      (h.sole haccepted hdestroyed) (Poller.called_interestOp hagrees hp)
      fun hnot => absurd rfl hnot

/-- A connection that is still to be removed from the table is in it. -/
theorem removable (h : Duties chan w) (hremovals : 0 < w.server.removals) :
    w.server.listed = true ∧ w.server.removals = 1 ∧ w.server.accepted = true ∧
      w.queued.count (.io .connectDestroyed) = 0 ∧ w.server.destroyed = 0 := by
  have hclosed := h.closed
  have hremoved := h.removed
  have hlisted := h.listed
  have hdown : w.server.conn.state = .kDisconnected := by
    by_contra hnot
    rw [if_neg hnot] at hclosed
    omega
  have haccepted := h.accepted (by rw [hdown]; decide)
  rw [if_pos hdown] at hclosed
  rw [if_pos haccepted] at hlisted
  refine ⟨?_, by omega, haccepted, by omega, by omega⟩
  by_contra hnot
  rw [if_neg hnot] at hlisted
  omega

theorem removeConnectionInLoop (h : Duties chan w) {n : Nat} (hn : w.server.removals = n + 1) :
    Duties chan { w with server :=
      { w.server with
        removals := n
        listed := false
        pendingFunctors := w.server.pendingFunctors ++ [.connectDestroyed] } } := by
  obtain ⟨-, hone, haccepted, hnone, hdestroyed⟩ := h.removable (by omega)
  have hremoved := h.removed
  have hpush := fun f => count_push w .connectDestroyed f
  refine ⟨?_, h.closed, ?_, ?_, h.detached, h.detaching, h.unborn_moved rfl rfl rfl rfl rfl, ?_,
    h.sole, h.ended⟩
  · refine Eq.trans (congrArg (· + _) (hpush .connectEstablished)) ?_
    exact h.established
  · refine Eq.trans (congrArg (fun k => n + k + w.server.destroyed) (hpush .connectDestroyed)) ?_
    rw [if_pos rfl]
    change n + (w.queued.count (.io .connectDestroyed) + 1) + w.server.destroyed =
      w.server.closeCallbacks
    omega
  · refine Eq.trans (congrArg (fun k => _ + k + w.server.destroyed) (hpush .connectDestroyed)) ?_
    rw [if_pos rfl, if_pos haccepted, hnone, hdestroyed]
    rfl
  · intro t ht hcalled
    have hmem : t ∈ w.queued ∨ t = .io .connectDestroyed := by
      simpa [queued, or_assoc] using ht
    rcases hmem with hold | rfl
    · exact h.called t hold hcalled
    · cases hcalled

/-- The close callback is called, and is to remove the connection from the table. -/
theorem closeCallback (h : Duties chan w) {rest : List Frame}
    (htodo : w.server.todo = .closeCallback :: rest) :
    Duties chan { w with server :=
      { w.server with
        todo := rest
        closeCallbacks := w.server.closeCallbacks + 1
        removals := w.server.removals + 1 } } := by
  have hclosed := h.closed
  have hremoved := h.removed
  have hdetached := h.detached
  rw [htodo, List.count_cons_self] at hclosed
  rw [htodo, List.count_cons_of_ne (by decide)] at hdetached
  refine ⟨h.established, ?_, ?_, h.listed, hdetached, ?_, ?_, h.called, h.sole, ?_⟩
  · exact (Nat.add_right_comm _ _ _).trans hclosed
  · change w.server.removals + 1 + w.queued.count (.io .connectDestroyed) + w.server.destroyed =
      w.server.closeCallbacks + 1
    omega
  · intro hmem
    refine h.detaching ?_
    rw [htodo]
    exact List.mem_cons_of_mem _ hmem
  · intro hstate
    obtain ⟨hindex, hwriting, hpolled⟩ := h.unborn hstate
    exact ⟨hindex, hwriting, (hpolled.popFrame htodo).moved rfl rfl (Nat.le_refl _)⟩
  · intro hdestroyed f hf
    refine h.ended hdestroyed f ?_
    rw [htodo]
    exact List.mem_cons_of_mem _ hf

/-- A connection that is destroyed is down, is destroyed for the first time, and is known to
the poller. -/
theorem destroyable (h : Duties chan w) (hinv : Inv chan w)
    (hmem : .io .connectDestroyed ∈ w.queued) :
    w.server.conn.state = .kDisconnected ∧ w.queued.count (.io .connectDestroyed) = 1 ∧
      w.server.destroyed = 0 ∧ (w.server.poller.table chan).index ≠ .kNew := by
  have hclosed := h.closed
  have hremoved := h.removed
  have hcount := List.count_pos_iff.mpr hmem
  have hdown := hinv.chores.down_of_task hmem
  rw [if_pos hdown] at hclosed
  have hdestroyed : w.server.destroyed = 0 := by omega
  refine ⟨hdown, by omega, hdestroyed, hinv.chores.registered ?_ hdestroyed⟩
  intro hnone
  have hdowns := hinv.chores.downs
  rw [if_pos hdown, downs, hnone] at hdowns
  cases hdowns

theorem connectDestroyed (h : Duties chan w) (hinv : Inv chan w) {rest : List ConnTask}
    (hphase : w.server.phase = .functors) (htodo : w.server.todo = [])
    (htasks : w.tasks = .io .connectDestroyed :: rest) :
    Duties chan
      { w with
        server :=
          { w.server with destroyed := w.server.destroyed + 1, todo := .remove :: w.server.todo }
        tasks := rest } := by
  rw [htodo]
  obtain ⟨hdown, hone, hdestroyed, hindex⟩ := h.destroyable hinv (mem_queued_head htasks)
  have hqueued : w.queued = .io .connectDestroyed :: queued { w with tasks := rest } := by
    rw [queued, htasks]
    rfl
  have hestablished := h.established
  have hclosed := h.closed
  have hremoved := h.removed
  have hlisted := h.listed
  rw [hqueued, List.count_cons_of_ne (by decide)] at hestablished
  rw [hqueued, List.count_cons_self] at hremoved hlisted
  rw [htodo] at hclosed
  refine ⟨hestablished, hclosed, ?_, ?_, Nat.le_refl _, fun _ => ⟨hphase, hindex⟩, ?_, ?_, ?_,
    fun _ f hf => List.mem_singleton.mp hf⟩
  · refine Eq.trans ?_ hremoved
    change w.server.removals + (queued { w with tasks := rest }).count _ +
      (w.server.destroyed + 1) = _
    omega
  · refine Eq.trans ?_ hlisted
    change (if w.server.listed then 1 else 0) + (queued { w with tasks := rest }).count _ +
      (w.server.destroyed + 1) = _
    omega
  · exact fun hnot => by cases hdown.symm.trans hnot
  · intro t ht hcalled
    refine h.called t ?_ hcalled
    rw [hqueued]
    exact List.mem_cons_of_mem _ ht
  · exact fun _ hnone => absurd hnone (Nat.succ_ne_zero _)

theorem removeChannel (h : Duties chan w) (hinv : Inv chan w) {rest : List Frame}
    (htodo : w.server.todo = .remove :: rest) {p : Poller C} :
    Duties chan { w with server := { w.server with todo := rest, poller := p } } := by
  have hmem : .remove ∈ w.server.todo := by
    rw [htodo]
    exact List.mem_cons_self
  have hdown := hinv.chores.leaving (Or.inr (Or.inl hmem))
  have hdestroyed := hinv.chores.removing hmem
  have hclosed := h.closed
  have hdetached := h.detached
  rw [htodo, List.count_cons_of_ne (by decide)] at hclosed
  rw [htodo, List.count_cons_self] at hdetached
  have hnone : .remove ∉ rest := List.count_eq_zero.mp (by omega)
  exact ⟨h.established, hclosed, h.removed, h.listed, Nat.le_of_succ_le hdetached,
    fun hnot => absurd hnot hnone,
    fun hnot => (by cases hdown.symm.trans hnot), h.called,
    fun _ hzero => absurd hzero (Nat.ne_of_gt hdestroyed),
    fun hdone f hf => h.ended hdone f (by rw [htodo]; exact List.mem_cons_of_mem _ hf)⟩

end Duties

end Connection
end ProtoRpc
