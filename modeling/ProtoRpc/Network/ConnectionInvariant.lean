import ProtoRpc.Network.Connection
import ProtoRpc.Network.LifeCycleRuns
import ProtoRpc.Network.WriteInterest

/-!
The invariant of a connection under all of its operations. The channel is in the
poller what the connection takes it for; what is under way for a close finds the
connection down; and no more than one report or frame can still close it. Each
operation has an inversion lemma, which gives the state that it leaves, and a lemma
that the invariant is kept.
-/
namespace ProtoRpc

/-- A call on another channel leaves a channel as it is. -/
theorem Poller.table_of_exec {C : Type} [DecidableEq C] {p p' : Poller C} (h : p.Agrees)
    {call : Poller.Call C} (hallowed : p.Allowed call) {c : C} (hother : call.channel ≠ c)
    (hp : p.exec call = .ok p') : p'.table c = p.table c := by
  obtain ⟨-, ctls, rfl⟩ := Poller.Step.become h ⟨hallowed, hp⟩
  have hchannel : (call.after p).1 = call.channel := by cases call <;> rfl
  rw [hchannel]
  exact Function.update_of_ne hother.symm _ _

namespace ServerConnection

variable {C : Type} [DecidableEq C] {chan : C} {s s' : ServerConnection C}

theorem interestOp_inv {op : InterestOp} (h : s.interestOp chan op = .ok s') :
    ∃ p, s.poller.interestOp chan op = .ok p ∧ s' = { s with poller := p } := by
  obtain ⟨p, hp, hs'⟩ := bind_ok_inv h
  cases hs'
  exact ⟨p, hp, rfl⟩

theorem adopt_inv {c : TcpConnection} (h : s.adopt chan c = .ok s') :
    ∃ p, Wired.Follows chan s.poller s.conn c p ∧
      s' = { s with
        conn := { c with pendingFunctors := [] }
        poller := p
        pendingFunctors := s.pendingFunctors ++ c.pendingFunctors.map .own } := by
  rw [adopt] at h
  by_cases hsame : c.isWriting = s.conn.isWriting
  · rw [if_pos hsame] at h
    cases h
    exact ⟨s.poller, Or.inl ⟨hsame, rfl⟩, rfl⟩
  · rw [if_neg hsame] at h
    by_cases hwriting : c.isWriting = true
    · rw [if_pos hwriting] at h
      obtain ⟨p, hp, rfl⟩ := interestOp_inv h
      exact ⟨p, Or.inr ⟨hsame, by rw [if_pos hwriting]; exact hp⟩, rfl⟩
    · rw [if_neg hwriting] at h
      obtain ⟨p, hp, rfl⟩ := interestOp_inv h
      exact ⟨p, Or.inr ⟨hsame, by rw [if_neg hwriting]; exact hp⟩, rfl⟩

theorem handleClose_inv (h : s.handleClose chan = .ok s') :
    (s.conn.state = .kConnected ∨ s.conn.state = .kDisconnecting) ∧
      ∃ p, s.poller.interestOp chan .disableAll = .ok p ∧
        s' = { s with
          conn := { s.conn with state := .kDisconnected, isWriting := false }
          poller := p
          notices := s.notices ++ [⟨.handleClose, false⟩]
          todo := .connectionCallback :: .closeCallback :: s.todo } := by
  obtain ⟨c, hc, hrest⟩ := bind_ok_inv h
  obtain ⟨hopen, rfl⟩ := TcpConnection.handleClose_inv hc
  obtain ⟨s₁, hs₁, hs'⟩ := bind_ok_inv hrest
  obtain ⟨p, hp, rfl⟩ := interestOp_inv hs₁
  cases hs'
  exact ⟨hopen, p, hp, rfl⟩

theorem connectEstablished_inv (h : s.connectEstablished chan = .ok s') :
    s.conn.state = .kConnecting ∧ ∃ p, s.poller.interestOp chan .enableReading = .ok p ∧
      s' = { s with
        conn := { s.conn with state := .kConnected }
        poller := p
        notices := s.notices ++ [⟨.connectEstablished, true⟩]
        todo := .connectionCallback :: s.todo } := by
  obtain ⟨c, hc, hrest⟩ := bind_ok_inv h
  obtain ⟨hconnecting, rfl⟩ := TcpConnection.connectEstablished_inv hc
  obtain ⟨s₁, hs₁, hs'⟩ := bind_ok_inv hrest
  obtain ⟨p, hp, rfl⟩ := interestOp_inv hs₁
  cases hs'
  exact ⟨hconnecting, p, hp, rfl⟩

omit [DecidableEq C] in
theorem removeConnectionInLoop_inv (h : s.removeConnectionInLoop = .ok s') :
    s' = { s with
      listed := false
      pendingFunctors := s.pendingFunctors ++ [.connectDestroyed] } := by
  obtain ⟨_, -, hs'⟩ := bind_ok_inv h
  cases hs'
  rfl

theorem removeChannel_inv (h : s.removeChannel chan = .ok s') :
    ∃ p, s.poller.remove chan = .ok p ∧ s' = { s with poller := p } := by
  obtain ⟨_, -, hrest⟩ := bind_ok_inv h
  obtain ⟨p, hp, hs'⟩ := bind_ok_inv hrest
  cases hs'
  exact ⟨p, hp, rfl⟩

theorem removeChannel_ok {p : Poller C} (hwaiting : s.phase = .handling →
      s.currentActiveChannel = some chan ∨ chan ∉ s.activeChannels.map Prod.fst)
    (hp : s.poller.remove chan = .ok p) : s.removeChannel chan = .ok { s with poller := p } := by
  rw [removeChannel, require_of_true hwaiting, ok_bind, hp]
  rfl

/-- `handleRead` fills the input buffer, and closes at the end of the stream. -/
theorem handleRead_inv (hwf : s.conn.inputBuffer.WF) {r : Buffer.ReadResult}
    (h : s.handleRead chan r = .ok s') :
    ∃ input : Buffer, input.WF ∧
      ((r = .data [] ∧
        handleClose chan { s with conn := { s.conn with inputBuffer := input } } = .ok s') ∨
      (r ≠ .data [] ∧ ∃ called : List Frame, (called = [] ∨ called = [.messageCallback]) ∧
        s' = { s with
          conn := { s.conn with inputBuffer := input }
          todo := called ++ s.todo })) := by
  cases r with
  | error errno =>
      cases h
      exact ⟨s.conn.inputBuffer, hwf, Or.inr ⟨by simp, [], Or.inl rfl, rfl⟩⟩
  | data bytes =>
      obtain ⟨input, hread, hinput, -⟩ := Buffer.readFd_spec hwf bytes
      refine ⟨input, hinput, ?_⟩
      simp only [handleRead, hread, ok_bind] at h
      cases bytes with
      | nil =>
          rw [if_neg (by decide), if_pos (by decide)] at h
          exact Or.inl ⟨rfl, h⟩
      | cons b bytes =>
          rw [if_pos (by simp only [List.length_cons]; omega)] at h
          cases h
          exact Or.inr ⟨by simp, [.messageCallback], Or.inr rfl, rfl⟩

/-- How many reports and frames can still close the connection. -/
structure Polled (chan : C) (n : Nat) (s : ServerConnection C) : Prop where
  closes : s.todo.countP mayClose + (s.remaining.map Prod.fst).count chan ≤ n
  bits : ∀ x ∈ s.remaining, x.2.pollpri = false ∧ x.2.pollrdhup = false
  remaining : s.phase ≠ .handling → s.remaining = []

namespace Polled
variable {n : Nat}

/-- What is not about the loop, and frames that cannot close. -/
theorem moved (h : s.Polled chan n) (hremaining : s'.remaining = s.remaining)
    (hphase : s'.phase = s.phase) (htodo : s'.todo.countP mayClose ≤ s.todo.countP mayClose) :
    s'.Polled chan n where
  closes := by
    rw [hremaining]
    exact Nat.le_trans (Nat.add_le_add_right htodo _) h.closes
  bits := hremaining ▸ h.bits
  remaining := by
    rw [hremaining, hphase]
    exact h.remaining

theorem popFrame (h : s.Polled chan n) {f : Frame} {rest : List Frame}
    (htodo : s.todo = f :: rest) : Polled chan n { s with todo := rest } := by
  refine h.moved rfl rfl ?_
  rw [htodo, List.countP_cons]
  exact Nat.le_add_right _ _

/-- A frame that can close is the only thing that can. -/
theorem closable (h : s.Polled chan 1) {f : Frame} {rest : List Frame}
    (htodo : s.todo = f :: rest) (hf : mayClose f = true) :
    Polled chan 0 { s with todo := rest } where
  closes := by
    have hcloses := h.closes
    rw [htodo, List.countP_cons_of_pos hf] at hcloses
    change rest.countP mayClose + (s.remaining.map Prod.fst).count chan ≤ 0
    omega
  bits := h.bits
  remaining := h.remaining

theorem idle (hphase : s.phase = .functors) (htodo : s.todo = []) (h : s.Polled chan 1) :
    s.Polled chan 0 where
  closes := by
    rw [htodo, h.remaining (by rw [hphase]; decide)]
    exact Nat.le_refl 0
  bits := h.bits
  remaining := h.remaining

/-- The channel is reported at most once, and only while it is registered. -/
theorem reported (hagrees : s.poller.Agrees) {capacity : Nat} {reports : List (Poller.Report C)}
    (hreports : s.poller.Reports capacity reports)
    (hn : (s.poller.table chan).index = .kAdded → 0 < n) :
    (reports.map Poller.Report.ptr).count chan ≤ n := by
  by_cases hmem : chan ∈ reports.map Poller.Report.ptr
  · obtain ⟨r, hr, rfl⟩ := List.mem_map.mp hmem
    obtain ⟨fd, mask, hinterest, -⟩ := hreports.interested r hr
    obtain ⟨-, hadded, -⟩ := (hagrees.polled _ _ _).mp hinterest
    exact Nat.le_trans (List.nodup_iff_count.mp hreports.once _) (hn hadded)
  · rw [List.count_eq_zero.mpr hmem]
    exact Nat.zero_le _

theorem poll (hagrees : s.poller.Agrees) (htodo : s.todo = []) {capacity : Nat}
    {reports : List (Poller.Report C)} (hreports : s.poller.Reports capacity reports)
    (hn : (s.poller.table chan).index = .kAdded → 0 < n) :
    Polled chan n
      { s with
        phase := .handling
        activeChannels := reports.map fun r => (r.ptr, r.revents)
        remaining := reports.map fun r => (r.ptr, r.revents) } where
  closes := by
    change s.todo.countP mayClose +
      ((reports.map fun r => (r.ptr, r.revents)).map Prod.fst).count chan ≤ n
    rw [htodo, List.countP_nil, Nat.zero_add, List.map_map]
    exact reported hagrees hreports hn
  bits := by
    intro x hx
    obtain ⟨r, hr, rfl⟩ := List.mem_map.mp hx
    obtain ⟨-, mask, -, hwithin⟩ := hreports.interested r hr
    exact ⟨hwithin.pollpri, hwithin.pollrdhup⟩
  remaining := fun hnot => absurd rfl hnot

theorem handleEvent (h : s.Polled chan n) {c : C} {r : Revents} {rest : List (C × Revents)}
    (hphase : s.phase = .handling) (htodo : s.todo = []) (hremaining : s.remaining = (c, r) :: rest) :
    Polled chan n
      { s with
        currentActiveChannel := some c
        remaining := rest
        todo := if c = chan then eventFrames r else [] } where
  closes := by
    obtain ⟨hpri, hrdhup⟩ := h.bits (c, r) (by rw [hremaining]; exact List.mem_cons_self)
    obtain ⟨hone, -, -⟩ := eventFrames_spec r hpri hrdhup
    have hcloses := h.closes
    rw [htodo, hremaining, List.countP_nil, Nat.zero_add, List.map_cons] at hcloses
    by_cases hc : c = chan
    · simp only [hc, if_true]
      rw [hc, List.count_cons_self] at hcloses
      omega
    · simp only [hc, if_false]
      rw [List.count_cons_of_ne hc] at hcloses
      simpa using hcloses
  bits := by
    intro x hx
    refine h.bits x ?_
    rw [hremaining]
    exact List.mem_cons_of_mem _ hx
  remaining := fun hnot => absurd hphase hnot

end Polled
end ServerConnection

namespace Connection
open Transition

variable {C : Type} [DecidableEq C]

section
variable {chan : C} {w w' : Connection C}

theorem startReadInLoop_inv (h : w.startReadInLoop chan = .ok w') :
    ((w.reading = false ∨ w.isReading chan = false) ∧
      ∃ p, w.server.poller.interestOp chan .enableReading = .ok p ∧
        w' = { w with server := { w.server with poller := p }, reading := true }) ∨
    ((w.reading = true ∧ w.isReading chan = true) ∧ w' = w) := by
  rw [startReadInLoop] at h
  split at h
  · rename_i htest
    obtain ⟨s, hs, hrest⟩ := bind_ok_inv h
    obtain ⟨p, hp, rfl⟩ := ServerConnection.interestOp_inv hs
    cases hrest
    exact Or.inl ⟨by simpa using htest, p, hp, rfl⟩
  · rename_i htest
    cases h
    exact Or.inr ⟨by simpa using htest, rfl⟩

theorem stopReadInLoop_inv (h : w.stopReadInLoop chan = .ok w') :
    ((w.reading || w.isReading chan) = true ∧
      ∃ p, w.server.poller.interestOp chan .disableReading = .ok p ∧
        w' = { w with server := { w.server with poller := p }, reading := false }) ∨
    ((w.reading || w.isReading chan) = false ∧ w' = w) := by
  rw [stopReadInLoop] at h
  split at h
  · rename_i htest
    obtain ⟨s, hs, hrest⟩ := bind_ok_inv h
    obtain ⟨p, hp, rfl⟩ := ServerConnection.interestOp_inv hs
    cases hrest
    exact Or.inl ⟨htest, p, hp, rfl⟩
  · rename_i htest
    cases h
    exact Or.inr ⟨by simpa using htest, rfl⟩

end

/-- Something is under way for a close, or done. -/
def Leaving (w : Connection C) : Prop :=
  .closeCallback ∈ w.server.todo ∨ .remove ∈ w.server.todo ∨ 0 < w.server.removals ∨
    .io .connectDestroyed ∈ w.queued ∨ 0 < w.server.destroyed

/-- How often the user was told that the connection is down. -/
def downs (w : Connection C) : Nat := w.server.notices.countP fun n => !n.up

/-- Where the connection is in its life. -/
structure Chores (chan : C) (w : Connection C) : Prop where
  connecting : w.server.conn.state = .kConnecting → w.server.notices = []
  leaving : w.Leaving → w.server.conn.state = .kDisconnected
  unborn : w.server.accepted = false →
    w.server.conn.state = .kConnecting ∧ .io .connectEstablished ∉ w.queued
  listed : w.server.listed = true → w.server.destroyed = 0 ∧ .io .connectDestroyed ∉ w.queued
  known : .stopReadInLoop ∈ w.queued → w.server.conn.state ≠ .kConnecting
  removing : .remove ∈ w.server.todo → 0 < w.server.destroyed
  downs : w.downs = if w.server.conn.state = .kDisconnected then 1 else 0
  registered : w.server.notices ≠ [] → w.server.destroyed = 0 →
    (w.server.poller.table chan).index ≠ .kNew
  fresh : w.server.conn.state ≠ .kDisconnecting → w.server.conn.state ≠ .kDisconnected →
    w.server.conn.writeShutdown = false ∧ ∀ f, .io (.own f) ∈ w.queued → f.closes = false

structure Inv (chan : C) (w : Connection C) : Prop where
  wired : Wired chan w.server.poller w.server.conn w.reading
  chores : Chores chan w
  polled : w.server.Polled chan 1
  batch : w.server.phase ≠ .functors → w.tasks = []

section
variable {chan : C} {w : Connection C}

omit [DecidableEq C] in
theorem mem_queued_head {t : ConnTask} {rest : List ConnTask} (htasks : w.tasks = t :: rest) :
    t ∈ w.queued := by
  rw [queued, htasks]
  exact List.mem_cons_self

omit [DecidableEq C] in
theorem Chores.down_of_task (h : Chores chan w) (hmem : .io .connectDestroyed ∈ w.queued) :
    w.server.conn.state = .kDisconnected :=
  h.leaving (Or.inr (Or.inr (Or.inr (Or.inl hmem))))

omit [DecidableEq C] in
theorem Chores.not_destroyed (h : Chores chan w) (hup : w.server.conn.state ≠ .kDisconnected) :
    w.server.destroyed = 0 := by
  by_contra hdestroyed
  exact hup (h.leaving (Or.inr (Or.inr (Or.inr (Or.inr (Nat.pos_of_ne_zero hdestroyed))))))

omit [DecidableEq C] in
/-- Only a connection that ends has its half-close queued. -/
theorem Chores.ended (h : Chores chan w) (hmem : .io (.own .shutdownInLoop) ∈ w.queued) :
    w.server.conn.state = .kDisconnecting ∨ w.server.conn.state = .kDisconnected := by
  by_contra hup
  rw [not_or] at hup
  cases (h.fresh hup.1 hup.2).2 _ hmem

end

/-- The task can be queued as the connection is. -/
def Fits (w : Connection C) : ConnTask → Prop
  | .io .connectEstablished => w.server.accepted = true
  | .io .connectDestroyed => w.server.conn.state = .kDisconnected ∧ w.server.listed = false
  | .io (.own f) => f.closes = false
  | .stopReadInLoop => w.server.conn.state ≠ .kConnecting
  | .io .other | .startReadInLoop => True

/-- A step that takes the connection nowhere. -/
structure Stays (chan : C) (w w' : Connection C) : Prop where
  state : w'.server.conn.state = w.server.conn.state
  shut : w'.server.conn.writeShutdown = w.server.conn.writeShutdown
  notices : w'.server.notices = w.server.notices
  accepted : w'.server.accepted = w.server.accepted
  listed : w'.server.listed = w.server.listed
  destroyed : w'.server.destroyed = w.server.destroyed
  removals : w'.server.removals = w.server.removals
  todo : ∀ f ∈ w'.server.todo, f ∈ w.server.todo ∨ (f ≠ .closeCallback ∧ f ≠ .remove)
  queued : ∀ t ∈ w'.queued, t ∈ w.queued ∨ w.Fits t
  index : (w'.server.poller.table chan).index = (w.server.poller.table chan).index

variable {chan : C} {w w' : Connection C}

omit [DecidableEq C] in
theorem Leaving.back (h : w'.Leaving)
    (htodo : ∀ f ∈ w'.server.todo, f ∈ w.server.todo ∨ (f ≠ .closeCallback ∧ f ≠ .remove))
    (hremovals : w'.server.removals = w.server.removals)
    (hqueued : .io .connectDestroyed ∈ w'.queued → .io .connectDestroyed ∈ w.queued)
    (hdestroyed : w'.server.destroyed = w.server.destroyed) : w.Leaving := by
  rcases h with hclose | hremove | hremoval | htask | hdone
  · rcases htodo _ hclose with hmem | ⟨hnot, -⟩
    · exact Or.inl hmem
    · exact absurd rfl hnot
  · rcases htodo _ hremove with hmem | ⟨-, hnot⟩
    · exact Or.inr (Or.inl hmem)
    · exact absurd rfl hnot
  · exact Or.inr (Or.inr (Or.inl (hremovals ▸ hremoval)))
  · exact Or.inr (Or.inr (Or.inr (Or.inl (hqueued htask))))
  · exact Or.inr (Or.inr (Or.inr (Or.inr (hdestroyed ▸ hdone))))

omit [DecidableEq C] in
theorem Chores.stays (h : Chores chan w) (hstays : Stays chan w w') : Chores chan w' where
  connecting := by
    rw [hstays.state, hstays.notices]
    exact h.connecting
  leaving := by
    rw [hstays.state]
    intro hleaving
    by_cases hdown : w.server.conn.state = .kDisconnected
    · exact hdown
    · refine h.leaving (hleaving.back hstays.todo hstays.removals ?_ hstays.destroyed)
      intro htask
      rcases hstays.queued _ htask with hold | hfits
      · exact hold
      · exact absurd hfits.1 hdown
  unborn := by
    rw [hstays.accepted, hstays.state]
    intro haccepted
    obtain ⟨hstate, hnone⟩ := h.unborn haccepted
    refine ⟨hstate, ?_⟩
    intro htask
    rcases hstays.queued _ htask with hold | hfits
    · exact hnone hold
    · cases haccepted.symm.trans hfits
  listed := by
    rw [hstays.listed, hstays.destroyed]
    intro hlisted
    obtain ⟨hdestroyed, hnone⟩ := h.listed hlisted
    refine ⟨hdestroyed, ?_⟩
    intro htask
    rcases hstays.queued _ htask with hold | hfits
    · exact hnone hold
    · cases hlisted.symm.trans hfits.2
  known := by
    rw [hstays.state]
    intro htask
    rcases hstays.queued _ htask with hold | hfits
    · exact h.known hold
    · exact hfits
  removing := by
    rw [hstays.destroyed]
    intro hmem
    rcases hstays.todo _ hmem with hold | ⟨-, hnot⟩
    · exact h.removing hold
    · exact absurd rfl hnot
  downs := by
    rw [Connection.downs, hstays.notices, hstays.state]
    exact h.downs
  registered := by
    rw [hstays.notices, hstays.destroyed, hstays.index]
    exact h.registered
  fresh := by
    rw [hstays.state, hstays.shut]
    intro hnot hup
    obtain ⟨hshut, hnone⟩ := h.fresh hnot hup
    refine ⟨hshut, ?_⟩
    intro f htask
    rcases hstays.queued _ htask with hold | hfits
    · exact hnone f hold
    · exact hfits

end Connection
end ProtoRpc
