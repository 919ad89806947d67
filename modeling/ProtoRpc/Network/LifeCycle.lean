import ProtoRpc.Network.ServerConnection

/-!
The life of a connection that a living `TcpServer` owns. It goes through stages,
from one to the next: whatever is still to be done for the connection by the loops
is there once, as a functor, a removal or a frame, and the stage tells which. The
table of the stages is the invariant; every step of the two loops and of the
callers keeps the stage or moves to the next one.
-/
namespace ProtoRpc.ServerConnection
open Transition

inductive Stage where
  | unborn
  /-- `connectEstablished` is queued -/
  | queued
  /-- `kConnected` or `kDisconnecting` -/
  | up
  /-- `handleClose` has yet to call `closeCallback_` -/
  | closing
  /-- `removeConnectionInLoop` is queued -/
  | removing
  /-- `connectDestroyed` is queued -/
  | destroying
  /-- `connectDestroyed` has yet to remove the channel -/
  | detaching
  | gone
  deriving DecidableEq, Repr

/-- What the stage of a connection is read off: what waits, and what was done. -/
structure Shape where
  accepted : Bool
  listed : Bool
  establishing : Nat
  closing : Nat
  removing : Nat
  destroying : Nat
  detaching : Nat
  notices : List Notice
  closeCallbacks : Nat
  destroyed : Nat
  index : PollerIndex
  events : EventMask
  deriving DecidableEq, Repr

namespace Stage

def wasUp : List Notice := [⟨.connectEstablished, true⟩]

def wentDown : List Notice := [⟨.connectEstablished, true⟩, ⟨.handleClose, false⟩]

def shape (writing : Bool) : Stage → Shape
  | .unborn => ⟨false, false, 0, 0, 0, 0, 0, [], 0, 0, .kNew, .noneEvent⟩
  | .queued => ⟨true, true, 1, 0, 0, 0, 0, [], 0, 0, .kNew, .noneEvent⟩
  | .up => ⟨true, true, 0, 0, 0, 0, 0, wasUp, 0, 0, .kAdded, ⟨true, writing⟩⟩
  | .closing => ⟨true, true, 0, 1, 0, 0, 0, wentDown, 0, 0, .kDeleted, .noneEvent⟩
  | .removing => ⟨true, true, 0, 0, 1, 0, 0, wentDown, 1, 0, .kDeleted, .noneEvent⟩
  | .destroying => ⟨true, false, 0, 0, 0, 1, 0, wentDown, 1, 0, .kDeleted, .noneEvent⟩
  | .detaching => ⟨true, false, 0, 0, 0, 0, 1, wentDown, 1, 1, .kDeleted, .noneEvent⟩
  | .gone => ⟨true, false, 0, 0, 0, 0, 0, wentDown, 1, 1, .kNew, .noneEvent⟩

/-- How often the connection can still be closed by what was reported. -/
def reports : Stage → Nat
  | .up => 1
  | _ => 0

def Admits : Stage → StateE → Prop
  | .unborn, state | .queued, state => state = .kConnecting
  | .up, state => state = .kConnected ∨ state = .kDisconnecting
  | _, state => state = .kDisconnected

end Stage

/-- The order of the states. -/
def rank : StateE → Nat
  | .kConnecting => 0
  | .kConnected => 1
  | .kDisconnecting => 2
  | .kDisconnected => 3

/-- The frames that can call `handleClose`. -/
def mayClose : Frame → Bool
  | .close | .read => true
  | _ => false

variable {C : Type} [DecidableEq C] (chan : C)

def shape (w : ServerConnection C) : Shape :=
  { accepted := w.accepted
    listed := w.listed
    establishing := (w.functors ++ w.pendingFunctors).count .connectEstablished
    closing := w.todo.count .closeCallback
    removing := w.removals
    destroying := (w.functors ++ w.pendingFunctors).count .connectDestroyed
    detaching := w.todo.count .remove
    notices := w.notices
    closeCallbacks := w.closeCallbacks
    destroyed := w.destroyed
    index := (w.poller.table chan).index
    events := (w.poller.table chan).events }

/-- Where the I/O loop is. The connection can be closed by a frame, or by a report
of its channel that has yet to be handled. -/
structure Control (w : ServerConnection C) (reports : Nat) : Prop where
  closes : w.todo.countP mayClose + (w.remaining.map Prod.fst).count chan ≤ reports
  bits : ∀ x ∈ w.remaining, x.2.pollpri = false ∧ x.2.pollrdhup = false
  remaining : w.phase ≠ .handling → w.remaining = []
  functors : w.phase ≠ .functors → w.functors = []
  detaching : .remove ∈ w.todo → w.phase = .functors
  owned : ∀ f, .own f ∈ w.functors ++ w.pendingFunctors → w.notices ≠ []

structure Inv (w : ServerConnection C) (stage : Stage) : Prop where
  staged : w.shape chan = stage.shape w.conn.isWriting
  state : stage.Admits w.conn.state
  idle : stage ≠ .up → w.conn.isWriting = false
  wf : w.conn.WF
  queue : w.conn.pendingFunctors = []
  agrees : w.poller.Agrees
  sole : stage = .queued → w.poller.Sole chan
  control : Control chan w stage.reports

variable {chan} {w w' : ServerConnection C} {stage : Stage}

theorem inv_new (fd : C → Int) : Inv chan (new fd) .unborn where
  staged := rfl
  state := rfl
  idle := fun _ => rfl
  wf := TcpConnection.new_wf
  queue := rfl
  agrees := Poller.agrees_new fd
  sole := nofun
  control := ⟨Nat.le_refl _, nofun, fun _ => rfl, fun _ => rfl, nofun, nofun⟩

/-- A stage without a waiting `connectEstablished` and with a callback behind it. -/
theorem Inv.exposed (h : Inv chan w stage) (hexposed : w.notices ≠ []) :
    stage ≠ .unborn ∧ stage ≠ .queued := by
  have hnotices : w.notices = _ := congrArg Shape.notices h.staged
  rw [hnotices] at hexposed
  refine ⟨?_, ?_⟩
  · rintro rfl
    exact hexposed rfl
  · rintro rfl
    exact hexposed rfl

theorem Inv.up_of_index (h : Inv chan w stage) (hindex : (w.poller.table chan).index = .kAdded) :
    stage = .up := by
  have hshape : (w.poller.table chan).index = _ := congrArg Shape.index h.staged
  rw [hindex] at hshape
  cases stage with
  | up => rfl
  | _ => cases hshape

theorem Inv.up_of_state (h : Inv chan w stage)
    (hstate : w.conn.state = .kConnected ∨ w.conn.state = .kDisconnecting) : stage = .up := by
  have hadmits := h.state
  cases stage with
  | up => rfl
  | _ =>
      change w.conn.state = _ at hadmits
      rw [hadmits] at hstate
      simp at hstate

theorem Inv.up_of_exposed (h : Inv chan w stage) (hexposed : w.notices ≠ [])
    (hstate : w.conn.state ≠ .kDisconnected) : stage = .up := by
  have hadmits := h.state
  cases stage with
  | unborn => exact absurd rfl (h.exposed hexposed).1
  | queued => exact absurd rfl (h.exposed hexposed).2
  | up => rfl
  | _ => exact absurd hadmits hstate

theorem Inv.registered (h : Inv chan w stage) (hup : stage = .up) :
    w.poller.Sole chan ∧ (w.poller.table chan).index = .kAdded ∧
      (w.poller.table chan).events = ⟨true, w.conn.isWriting⟩ := by
  subst hup
  have hindex : (w.poller.table chan).index = .kAdded := congrArg Shape.index h.staged
  refine ⟨h.agrees.sole (by rw [hindex]; exact nofun), hindex, ?_⟩
  exact congrArg Shape.events h.staged

theorem indexAfter_reading (index : PollerIndex) (writing : Bool) :
    Poller.indexAfter index ⟨true, writing⟩ = .kAdded := by
  simp [Poller.indexAfter, EventMask.noneEvent]

theorem interestOp_ok {op : InterestOp} {p : Poller C} (hp : w.poller.interestOp chan op = .ok p) :
    w.interestOp chan op = .ok { w with poller := p } := by
  rw [interestOp, hp]
  rfl

theorem count_own (l : List Functor) {f : IoFunctor} (hf : ∀ g, f ≠ .own g) :
    (l.map IoFunctor.own).count f = 0 := by
  rw [List.count_eq_zero, List.mem_map]
  rintro ⟨g, -, rfl⟩
  exact hf g rfl

omit [DecidableEq C] in
/-- Functors of the connection in the queue do not change the stage. -/
theorem shape_append (w : ServerConnection C) (c : TcpConnection) (l : List Functor) :
    shape chan { w with conn := c, pendingFunctors := w.pendingFunctors ++ l.map .own } =
      w.shape chan := by
  have hestablished := count_own l (f := .connectEstablished) nofun
  have hdestroyed := count_own l (f := .connectDestroyed) nofun
  simp [shape, hestablished, hdestroyed]

omit [DecidableEq C] in
theorem shape_push (w : ServerConnection C) (g : IoFunctor) :
    shape chan { w with pendingFunctors := w.pendingFunctors ++ [g] } =
      { w.shape chan with
        establishing := (w.shape chan).establishing + [g].count .connectEstablished
        destroying := (w.shape chan).destroying + [g].count .connectDestroyed } := by
  simp only [shape, List.count_append, Nat.add_assoc]

theorem Control.append {n : Nat} (h : Control chan w n) {c : TcpConnection} {l : List Functor}
    (hexposed : l ≠ [] → w.notices ≠ []) :
    Control chan { w with conn := c, pendingFunctors := w.pendingFunctors ++ l.map .own } n where
  closes := h.closes
  bits := h.bits
  remaining := h.remaining
  functors := h.functors
  detaching := h.detaching
  owned := by
    intro f hf
    change .own f ∈ w.functors ++ (w.pendingFunctors ++ l.map .own) at hf
    rw [← List.append_assoc] at hf
    cases List.mem_append.mp hf with
    | inl hold => exact h.owned f hold
    | inr hnew =>
        refine hexposed ?_
        rintro rfl
        cases hnew

theorem Control.push {n : Nat} (h : Control chan w n) {g : IoFunctor} (hg : ∀ f, g ≠ .own f) :
    Control chan { w with pendingFunctors := w.pendingFunctors ++ [g] } n where
  closes := h.closes
  bits := h.bits
  remaining := h.remaining
  functors := h.functors
  detaching := h.detaching
  owned := by
    intro f hf
    change .own f ∈ w.functors ++ (w.pendingFunctors ++ [g]) at hf
    rw [← List.append_assoc] at hf
    cases List.mem_append.mp hf with
    | inl hold => exact h.owned f hold
    | inr hnew => exact absurd (List.mem_singleton.mp hnew).symm (hg f)

/-- An operation that keeps the stage. -/
theorem Inv.adopt (h : Inv chan w stage) {c : TcpConnection} (hwf : c.WF)
    (hstate : stage.Admits c.state) (hidle : stage ≠ .up → c.isWriting = false)
    (hexposed : c.pendingFunctors ≠ [] → w.notices ≠ []) :
    ∃ w', w.adopt chan c = .ok w' ∧ Inv chan w' stage ∧ w'.conn.state = c.state := by
  rw [ServerConnection.adopt]
  by_cases hsame : c.isWriting = w.conn.isWriting
  · refine ⟨_, if_pos hsame, ⟨?_, hstate, hidle, ⟨hwf.input, hwf.output⟩, rfl, h.agrees, h.sole,
      h.control.append hexposed⟩, rfl⟩
    rw [shape_append, h.staged, hsame]
  · have hup : stage = .up := by
      by_contra hdown
      exact hsame ((hidle hdown).trans (h.idle hdown).symm)
    subst hup
    obtain ⟨hsole, hindex, hevents⟩ := h.registered rfl
    obtain ⟨op, hop, happly⟩ : ∃ op : InterestOp,
        (if c.isWriting = true then InterestOp.enableWriting else .disableWriting) = op ∧
        op.apply ⟨true, w.conn.isWriting⟩ = ⟨true, c.isWriting⟩ := by
      refine ⟨_, rfl, ?_⟩
      cases c.isWriting <;> rfl
    obtain ⟨p, hp, hagrees, hevents', hindex'⟩ := Poller.interestOp_spec h.agrees hsole op
    rw [hevents, happly] at hevents' hindex'
    rw [indexAfter_reading] at hindex'
    let w₁ : ServerConnection C :=
      { w with
        conn := { c with pendingFunctors := [] }
        pendingFunctors := w.pendingFunctors ++ c.pendingFunctors.map .own }
    have hw₁ : w₁.interestOp chan op = .ok { w₁ with poller := p } := interestOp_ok hp
    refine ⟨{ w₁ with poller := p }, ?_, ⟨?_, hstate, fun hdown => absurd rfl hdown,
      ⟨hwf.input, hwf.output⟩, rfl, hagrees, nofun, ?_⟩, rfl⟩
    · rw [if_neg hsame, ← hw₁, ← hop]
      split <;> rfl
    · calc shape chan { w₁ with poller := p }
          = { shape chan w₁ with
              index := (p.table chan).index
              events := (p.table chan).events } := rfl
        _ = Stage.up.shape c.isWriting := by
            rw [shape_append, h.staged, hindex', hevents']
            rfl
    · exact ⟨h.control.closes, h.control.bits, h.control.remaining, h.control.functors,
        h.control.detaching, (h.control.append (c := c) hexposed).owned⟩

/-- All that `handleClose` does. -/
theorem handleClose_spec (hopen : w.conn.state = .kConnected ∨ w.conn.state = .kDisconnecting)
    (hagrees : w.poller.Agrees) (hindex : (w.poller.table chan).index = .kAdded) :
    ∃ p : Poller C, p.Agrees ∧ (p.table chan).index = .kDeleted ∧
      (p.table chan).events = .noneEvent ∧
      w.handleClose chan = .ok
        { w with
          conn := { w.conn with state := .kDisconnected, isWriting := false }
          poller := p
          notices := w.notices ++ [⟨.handleClose, false⟩]
          todo := .connectionCallback :: .closeCallback :: w.todo } := by
  have hsole : w.poller.Sole chan := hagrees.sole (by rw [hindex]; exact nofun)
  obtain ⟨p, hp, hagrees', hevents', hindex'⟩ := Poller.interestOp_spec hagrees hsole .disableAll
  rw [hindex] at hindex'
  have hconn : w.conn.handleClose =
      .ok { w.conn with state := .kDisconnected, isWriting := false } := by
    rw [TcpConnection.handleClose, require_of_true hopen]
    rfl
  let w₁ : ServerConnection C :=
    { w with conn := { w.conn with state := .kDisconnected, isWriting := false } }
  have hw₁ : w₁.interestOp chan .disableAll = .ok { w₁ with poller := p } := interestOp_ok hp
  refine ⟨p, hagrees', hindex'.trans rfl, hevents', ?_⟩
  rw [ServerConnection.handleClose, hconn]
  change (do
    let w ← w₁.interestOp chan .disableAll
    pure (({ w with todo := .closeCallback :: w.todo } : ServerConnection C).notify
      .handleClose)) = _
  rw [hw₁]
  rfl

/-- `handleClose` of a connection that is up, when nothing else can close it. -/
theorem Inv.handleClose (h : Inv chan w .up) (htodo : w.todo.countP mayClose = 0)
    (hremaining : (w.remaining.map Prod.fst).count chan = 0) :
    ∃ w', w.handleClose chan = .ok w' ∧ Inv chan w' .closing ∧
      w'.conn.state = .kDisconnected := by
  obtain ⟨-, hadded, -⟩ := h.registered rfl
  obtain ⟨p, hagrees, hindex, hevents, hw'⟩ := handleClose_spec h.state h.agrees hadded
  refine ⟨_, hw', ⟨?_, rfl, fun _ => rfl, ⟨h.wf.input, h.wf.output⟩, h.queue, hagrees, nofun, ?_⟩,
    rfl⟩
  · calc shape chan
          { w with
            conn := { w.conn with state := .kDisconnected, isWriting := false }
            poller := p
            notices := w.notices ++ [⟨.handleClose, false⟩]
            todo := .connectionCallback :: .closeCallback :: w.todo }
        = { shape chan w with
            closing := (Frame.connectionCallback :: .closeCallback :: w.todo).count .closeCallback
            detaching := (Frame.connectionCallback :: .closeCallback :: w.todo).count .remove
            notices := w.notices ++ [⟨.handleClose, false⟩]
            index := (p.table chan).index
            events := (p.table chan).events } := rfl
      _ = Stage.closing.shape false := by
          have hclosing : w.todo.count .closeCallback = 0 := congrArg Shape.closing h.staged
          have hdetaching : w.todo.count .remove = 0 := congrArg Shape.detaching h.staged
          have hnotices : w.notices = Stage.wasUp := congrArg Shape.notices h.staged
          rw [h.staged, hindex, hevents, hnotices]
          simp [hclosing, hdetaching, Stage.shape, Stage.wasUp, Stage.wentDown]
  · refine ⟨?_, h.control.bits, h.control.remaining, h.control.functors, ?_, ?_⟩
    · change (Frame.connectionCallback :: .closeCallback :: w.todo).countP mayClose +
        (w.remaining.map Prod.fst).count chan ≤ 0
      rw [hremaining]
      simpa [mayClose] using htodo
    · intro hmem
      refine h.control.detaching ?_
      simpa using hmem
    · intro f hf
      simp

/-- An event has a result, with the invariant, and the state has not gone back. -/
def Advances (chan : C) (w : ServerConnection C) (r : Except Fault (ServerConnection C)) : Prop :=
  ∃ w', r = .ok w' ∧ (∃ stage, Inv chan w' stage) ∧ rank w.conn.state ≤ rank w'.conn.state

theorem Inv.advances_adopt (h : Inv chan w stage) {w₀ : ServerConnection C} {c : TcpConnection}
    (hwf : c.WF) (hstate : stage.Admits c.state) (hidle : stage ≠ .up → c.isWriting = false)
    (hexposed : c.pendingFunctors ≠ [] → w.notices ≠ [])
    (hrank : rank w₀.conn.state ≤ rank c.state) : Advances chan w₀ (w.adopt chan c) := by
  obtain ⟨w', hw', hinv, hc⟩ := h.adopt hwf hstate hidle hexposed
  exact ⟨w', hw', ⟨stage, hinv⟩, hc ▸ hrank⟩

/-- An operation that does nothing. -/
theorem Inv.advances_same (h : Inv chan w stage) {w₀ : ServerConnection C}
    (hconn : w.conn = w₀.conn) : Advances chan w₀ (w.adopt chan w₀.conn) := by
  rw [← hconn]
  refine h.advances_adopt h.wf h.state h.idle (fun hnot => absurd h.queue hnot) ?_
  rw [hconn]

/-- An operation on a connection that is up, and stays up. -/
theorem Inv.advances_up (h : Inv chan w .up) {w₀ : ServerConnection C} {c : TcpConnection}
    (hwf : c.WF) (hstate : Stage.up.Admits c.state) (hrank : rank w₀.conn.state ≤ rank c.state) :
    Advances chan w₀ (w.adopt chan c) := by
  have hnotices : w.notices = Stage.wasUp := congrArg Shape.notices h.staged
  refine h.advances_adopt hwf hstate (fun hdown => absurd rfl hdown) (fun _ => ?_) hrank
  rw [hnotices]
  exact nofun

theorem Inv.advances_handleClose (h : Inv chan w .up) {w₀ : ServerConnection C}
    (htodo : w.todo.countP mayClose = 0)
    (hremaining : (w.remaining.map Prod.fst).count chan = 0) :
    Advances chan w₀ (w.handleClose chan) := by
  obtain ⟨w', hw', hinv, hstate⟩ := h.handleClose htodo hremaining
  refine ⟨w', hw', ⟨_, hinv⟩, ?_⟩
  rw [hstate]
  cases w₀.conn.state <;> decide

theorem Inv.send (h : Inv chan w stage) {own : Bool} {buf : Buffer} (hbuf : buf.WF)
    (r : WriteResult) :
    Advances chan w (do
      let (c, _) ← w.conn.send own buf r
      w.adopt chan c) := by
  by_cases hconnected : w.conn.state = .kConnected
  · obtain rfl := h.up_of_state (Or.inl hconnected)
    obtain ⟨c, buf', hsend, hwf, hsame, -, -⟩ :=
      TcpConnection.send_connected h.wf hconnected hbuf own r
    rw [hsend, ok_bind]
    refine h.advances_up hwf ?_ ?_
    · rw [hsame.state]
      exact h.state
    · rw [hsame.state]
  · rw [TcpConnection.send_notConnected hconnected, ok_bind]
    exact h.advances_same rfl

theorem Inv.shutdown (h : Inv chan w stage) (own : Bool) :
    Advances chan w (w.adopt chan (w.conn.shutdown own)) := by
  rw [TcpConnection.shutdown]
  split
  · rename_i hconnected
    obtain rfl := h.up_of_state (Or.inl hconnected)
    have hrank : rank w.conn.state ≤ rank .kDisconnecting := by
      rw [hconnected]
      decide
    cases own with
    | true =>
        simp only [if_true, TcpConnection.shutdownInLoop]
        split
        · exact h.advances_up ⟨h.wf.input, h.wf.output⟩ (Or.inr rfl) hrank
        · exact h.advances_up ⟨h.wf.input, h.wf.output⟩ (Or.inr rfl) hrank
    | false => exact h.advances_up ⟨h.wf.input, h.wf.output⟩ (Or.inr rfl) hrank
  · exact h.advances_same rfl

theorem Inv.forceClose (h : Inv chan w stage) :
    Advances chan w (w.adopt chan w.conn.forceClose) := by
  rw [TcpConnection.forceClose]
  split
  · rename_i hopen
    obtain rfl := h.up_of_state hopen
    refine h.advances_up ⟨h.wf.input, h.wf.output⟩ (Or.inr rfl) ?_
    change rank w.conn.state ≤ rank .kDisconnecting
    rcases hopen with hstate | hstate
    · rw [hstate]
      decide
    · rw [hstate]
  · exact h.advances_same rfl

/-- The loop moves on, and the connection, its channel and what waits for it stay. -/
theorem Inv.moved (h : Inv chan w stage) {w' : ServerConnection C} (hconn : w'.conn = w.conn)
    (hpoller : w'.poller = w.poller) (hshape : w'.shape chan = w.shape chan)
    (hcontrol : Control chan w' stage.reports) : Inv chan w' stage where
  staged := by rw [hshape, hconn, h.staged]
  state := hconn ▸ h.state
  idle := hconn ▸ h.idle
  wf := hconn ▸ h.wf
  queue := hconn ▸ h.queue
  agrees := hpoller ▸ h.agrees
  sole := hpoller ▸ h.sole
  control := hcontrol

theorem Control.popFunctor {n : Nat} (h : Control chan w n) {f : IoFunctor}
    {rest : List IoFunctor} (hfunctors : w.functors = f :: rest) :
    Control chan { w with functors := rest } n where
  closes := h.closes
  bits := h.bits
  remaining := h.remaining
  functors := by
    intro hphase
    have hnone := h.functors hphase
    rw [hfunctors] at hnone
    cases hnone
  detaching := h.detaching
  owned := fun g hg => h.owned g (by
    rw [hfunctors]
    exact List.mem_cons_of_mem _ hg)

/-- A functor that is neither `connectEstablished` nor `connectDestroyed` leaves
the batch. -/
theorem Inv.popFunctor (h : Inv chan w stage) {f : IoFunctor} {rest : List IoFunctor}
    (hfunctors : w.functors = f :: rest) (hestablished : f ≠ .connectEstablished)
    (hdestroyed : f ≠ .connectDestroyed) : Inv chan { w with functors := rest } stage := by
  refine h.moved rfl rfl ?_ (h.control.popFunctor hfunctors)
  simp [shape, hfunctors, hestablished, hdestroyed]

theorem Control.popFrame {n : Nat} (h : Control chan w n) {f : Frame} {rest : List Frame}
    (htodo : w.todo = f :: rest) : Control chan { w with todo := rest } n where
  closes := by
    have hcloses := h.closes
    rw [htodo, List.countP_cons] at hcloses
    exact Nat.le_trans (Nat.add_le_add_right (Nat.le_add_right _ _) _) hcloses
  bits := h.bits
  remaining := h.remaining
  functors := h.functors
  detaching := fun hmem => h.detaching (by
    rw [htodo]
    exact List.mem_cons_of_mem _ hmem)
  owned := h.owned

/-- So does a frame that is neither `closeCallback` nor `remove`. -/
theorem Inv.popFrame (h : Inv chan w stage) {f : Frame} {rest : List Frame}
    (htodo : w.todo = f :: rest) (hclose : f ≠ .closeCallback) (hremove : f ≠ .remove) :
    Inv chan { w with todo := rest } stage := by
  refine h.moved rfl rfl ?_ (h.control.popFrame htodo)
  simp [shape, htodo, hclose, hremove]

/-- All that `connectEstablished` does. -/
theorem connectEstablished_spec (hstate : w.conn.state = .kConnecting) (hagrees : w.poller.Agrees)
    (hsole : w.poller.Sole chan) (hevents : (w.poller.table chan).events = .noneEvent) :
    ∃ p : Poller C, p.Agrees ∧ (p.table chan).index = .kAdded ∧
      (p.table chan).events = ⟨true, false⟩ ∧
      w.connectEstablished chan = .ok
        { w with
          conn := { w.conn with state := .kConnected }
          poller := p
          notices := w.notices ++ [⟨.connectEstablished, true⟩]
          todo := .connectionCallback :: w.todo } := by
  obtain ⟨p, hp, hagrees', hevents', hindex'⟩ :=
    Poller.interestOp_spec hagrees hsole .enableReading
  rw [hevents] at hevents' hindex'
  have hconn : w.conn.connectEstablished = .ok { w.conn with state := .kConnected } := by
    rw [TcpConnection.connectEstablished, require_of_true hstate]
    rfl
  let w₁ : ServerConnection C := { w with conn := { w.conn with state := .kConnected } }
  have hw₁ : w₁.interestOp chan .enableReading = .ok { w₁ with poller := p } := interestOp_ok hp
  refine ⟨p, hagrees', hindex'.trans (indexAfter_reading _ _), hevents', ?_⟩
  rw [ServerConnection.connectEstablished, hconn]
  change (do
    let w ← w₁.interestOp chan .enableReading
    pure (w.notify .connectEstablished)) = _
  rw [hw₁]
  rfl

/-- The connection has come up, from whatever was to establish it. -/
theorem Inv.established (h : Inv chan w stage) (hstage : stage = .unborn ∨ stage = .queued)
    {w₁ : ServerConnection C} (hconn : w₁.conn = w.conn) (hpoller : w₁.poller = w.poller)
    (hsole : w.poller.Sole chan) (htodo : w₁.todo = []) (hremaining : w₁.remaining = w.remaining)
    (hphase : w₁.phase = w.phase) (hfunctors : w.phase ≠ .functors → w₁.functors = [])
    (hshape : shape chan w₁ =
      ⟨true, true, 0, 0, 0, 0, 0, [], 0, 0, .kNew, .noneEvent⟩) :
    Advances chan w (w₁.connectEstablished chan) := by
  have hstate : w.conn.state = .kConnecting := by
    rcases hstage with rfl | rfl
    · exact h.state
    · exact h.state
  have hidle : w.conn.isWriting = false := by
    rcases hstage with rfl | rfl
    · exact h.idle nofun
    · exact h.idle nofun
  have hagrees₁ : w₁.poller.Agrees := hpoller ▸ h.agrees
  have hsole₁ : w₁.poller.Sole chan := hpoller ▸ hsole
  obtain ⟨p, hagrees, hindex, hevents, hw'⟩ := connectEstablished_spec (hconn ▸ hstate) hagrees₁
    hsole₁ (congrArg Shape.events hshape)
  refine ⟨_, hw', ⟨.up, ?_, Or.inl rfl, fun hdown => absurd rfl hdown, ?_, ?_, hagrees, nofun, ?_⟩, ?_⟩
  · have hnotices : w₁.notices = [] := congrArg Shape.notices hshape
    calc shape chan
          { w₁ with
            conn := { w₁.conn with state := .kConnected }
            poller := p
            notices := w₁.notices ++ [⟨.connectEstablished, true⟩]
            todo := .connectionCallback :: w₁.todo }
        = { shape chan w₁ with
            closing := (Frame.connectionCallback :: w₁.todo).count .closeCallback
            detaching := (Frame.connectionCallback :: w₁.todo).count .remove
            notices := w₁.notices ++ [⟨.connectEstablished, true⟩]
            index := (p.table chan).index
            events := (p.table chan).events } := rfl
      _ = Stage.up.shape w₁.conn.isWriting := by
          rw [hshape, htodo, hnotices, hindex, hevents, hconn, hidle]
          rfl
  · rw [hconn]
    exact ⟨h.wf.input, h.wf.output⟩
  · rw [hconn]
    exact h.queue
  · have hcloses : w.todo.countP mayClose + (w.remaining.map Prod.fst).count chan ≤ 0 := by
      rcases hstage with rfl | rfl
      · exact h.control.closes
      · exact h.control.closes
    refine ⟨?_, ?_, ?_, ?_, ?_, ?_⟩
    · change (Frame.connectionCallback :: w₁.todo).countP mayClose +
        (w₁.remaining.map Prod.fst).count chan ≤ 1
      rw [htodo, hremaining]
      simp only [List.countP_cons, List.countP_nil, mayClose]
      simp
      omega
    · rw [hremaining]
      exact h.control.bits
    · rw [hremaining, hphase]
      exact h.control.remaining
    · rw [hphase]
      exact hfunctors
    · rw [htodo]
      simp
    · intro f _
      simp
  · rw [hstate]
    exact Nat.zero_le _

end ProtoRpc.ServerConnection
