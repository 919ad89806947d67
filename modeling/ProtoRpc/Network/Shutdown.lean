import ProtoRpc.Network.Session

/-!
When a graceful shutdown loses nothing. While the channel does not write, the
output buffer is empty, so what `sendInLoop` has seen is written when the write
side is shut down; but `shutdownInLoop` does not look at the queue of the loop.
A run is safe when no send is on its way at that moment, and a send that is can
always be lost.
-/
namespace ProtoRpc.Session
open Transition

variable {s s' : Session} {a : Act}

/-- The state has left `kConnected` for good. -/
def Ended (c : TcpConnection) : Prop := c.state = .kDisconnecting ∨ c.state = .kDisconnected

/-- The numbers in the queue are those of the messages in it. -/
structure Numbered (s : Session) : Prop where
  queue : s.conn.queued = s.queue.map s.message
  nodup : s.queue.Nodup
  queued : ∀ t, t ∈ s.queue ↔ s.place t = .queued
  fresh : ∀ t, s.next ≤ t → s.place t = .unborn
  covered : ∀ t, s.covered t = true → (s.place t).returned = true

/-- What the connection has done with the bytes, while nothing excuses it. -/
structure Carried (s : Session) : Prop where
  wf : s.conn.WF
  down : s.conn.state = .kDisconnected → s.excused = true
  flushed : s.excused = false → s.conn.isWriting = false → s.conn.outputBuffer.content = []
  sent : s.excused = false → ∀ t length, s.place t = .sent length → length ≤ s.conn.outgoing.length
  dropped : ∀ t, s.place t = .dropped → s.excused = true

/-- `shutdownInLoop` is called only after the state has left `kConnected`. -/
structure Past (s : Session) : Prop where
  called : s.loopCall = some .shutdownInLoop ∨ .shutdownInLoop ∈ s.calls ∨
    .shutdownInLoop ∈ s.conn.pendingFunctors → Ended s.conn
  ended : s.conn.writeShutdown = true → Ended s.conn

/-- Once the write side is shut down nothing is left to write. -/
def Emptied (s : Session) : Prop :=
  s.conn.writeShutdown = true → s.excused = false →
    s.conn.outputBuffer.content = [] ∧ ∀ t, (s.place t).onTheWay = true → s.message t = []

theorem losesNothing_of (hn : s.Numbered) (hc : s.Carried) (hs : s.Emptied) : s.LosesNothing := by
  intro hshut hexcused t hcovered
  obtain ⟨hempty, hmessage⟩ := hs hshut hexcused
  have hreturned := hn.covered t hcovered
  cases hplace : s.place t with
  | unborn | entered =>
      rw [hplace] at hreturned
      cases hreturned
  | queued => exact Or.inl (hmessage t (by rw [hplace]; rfl))
  | sent length =>
      have hlength := hc.sent hexcused t length hplace
      rw [TcpConnection.outgoing, hempty, List.append_nil] at hlength
      exact Or.inr ⟨length, rfl, hlength⟩
  | dropped =>
      rw [hc.dropped t hplace] at hexcused
      cases hexcused

/-- A step of the loop thread that sends nothing leaves the connection as `c`. -/
structure Unsent (s : Session) (a : Act) (c : TcpConnection) : Prop where
  wf : c.WF
  queued : c.queued = s.conn.queued
  pending : ∀ f ∈ c.pendingFunctors, f ∈ s.conn.pendingFunctors
  outgoing : c.outgoing = s.conn.outgoing
  ended : Ended s.conn → Ended c
  empty : s.conn.outputBuffer.content = [] → c.outputBuffer.content = []
  flushed : c.state ≠ .kDisconnected → c.isWriting = false →
    s.conn.isWriting = false ∨ c.outputBuffer.content = []
  shut : c.writeShutdown = true → s.conn.writeShutdown = true ∨
    (s.shuts a = true ∧ Ended c ∧ (c.state ≠ .kDisconnected → c.isWriting = false))

section
variable {c : TcpConnection} {k : Option PendingCall}

theorem not_excused (h : (s.withConn c).excused = false) :
    s.excused = false ∧ c.state ≠ .kDisconnected := by
  have h' : (s.excused || c.state == .kDisconnected) = false := h
  rw [Bool.or_eq_false_iff] at h'
  exact ⟨h'.1, fun hdown => by simp [hdown] at h'⟩

theorem Numbered.unsent (h : s.Numbered) (hu : s.Unsent a c) :
    ({ s.withConn c with loopCall := k } : Session).Numbered :=
  ⟨hu.queued.trans h.queue, h.nodup, h.queued, h.fresh, h.covered⟩

theorem Carried.unsent (h : s.Carried) (hu : s.Unsent a c) :
    ({ s.withConn c with loopCall := k } : Session).Carried where
  wf := hu.wf
  down := fun hdown => by
    change (s.excused || c.state == .kDisconnected) = true
    rw [show c.state = .kDisconnected from hdown]
    simp
  flushed := fun hexcused hwriting => by
    obtain ⟨hold, hup⟩ := not_excused hexcused
    rcases hu.flushed hup hwriting with hidle | hempty
    · exact hu.empty (h.flushed hold hidle)
    · exact hempty
  sent := fun hexcused t length hplace => by
    have hlength := h.sent (not_excused hexcused).1 t length hplace
    change length ≤ c.outgoing.length
    rwa [hu.outgoing]
  dropped := fun t hplace => by
    change (s.excused || _) = true
    rw [h.dropped t hplace, Bool.true_or]

theorem Past.unsent (h : s.Past) (hu : s.Unsent a c)
    (hk : k = some .shutdownInLoop → s.loopCall = some .shutdownInLoop) :
    ({ s.withConn c with loopCall := k } : Session).Past where
  called := by
    intro hcalled
    refine hu.ended (h.called ?_)
    rcases hcalled with hown | hother | hpending
    · exact Or.inl (hk hown)
    · exact Or.inr (Or.inl hother)
    · exact Or.inr (Or.inr (hu.pending _ hpending))
  ended := by
    intro hshut
    rcases hu.shut hshut with hold | ⟨-, hended, -⟩
    · exact hu.ended (h.ended hold)
    · exact hended

theorem Emptied.unsent (h : s.Emptied) (hc : s.Carried) (hu : s.Unsent a c)
    (hlast : s.ShutsLast a) : ({ s.withConn c with loopCall := k } : Session).Emptied := by
  intro hshut hexcused
  obtain ⟨hclean, hup⟩ := not_excused hexcused
  rcases hu.shut hshut with hold | ⟨hshuts, -, hidle⟩
  · obtain ⟨hempty, hmessage⟩ := h hold hclean
    exact ⟨hu.empty hempty, hmessage⟩
  · exact ⟨(hc.unsent (k := k) hu).flushed hexcused (hidle hup), hlast hshuts hclean⟩

theorem unsent_shutdownInLoop (hwf : s.conn.WF) (hended : Ended s.conn) {pending : List Functor}
    (hqueued : ({ s.conn with pendingFunctors := pending } : TcpConnection).queued = s.conn.queued)
    (hpending : ∀ f ∈ pending, f ∈ s.conn.pendingFunctors)
    (hshuts : s.conn.isWriting = false → s.shuts a = true) :
    s.Unsent a ({ s.conn with pendingFunctors := pending } : TcpConnection).shutdownInLoop := by
  rw [TcpConnection.shutdownInLoop]
  split
  · rename_i hwriting
    exact ⟨⟨hwf.input, hwf.output⟩, hqueued, hpending, rfl, id, id, fun _ hidle => Or.inl hidle,
      fun hshut => Or.inl hshut⟩
  · rename_i hwriting
    have hidle : s.conn.isWriting = false := by simpa using hwriting
    exact ⟨⟨hwf.input, hwf.output⟩, hqueued, hpending, rfl, id, id, fun _ _ => Or.inl hidle,
      fun _ => Or.inr ⟨hshuts hidle, hended, fun _ => hidle⟩⟩

theorem unsent_handleClose (hwf : s.conn.WF) {input : Buffer} (hinput : input.WF)
    {pending : List Functor}
    (hqueued : ({ s.conn with pendingFunctors := pending } : TcpConnection).queued = s.conn.queued)
    (hpending : ∀ f ∈ pending, f ∈ s.conn.pendingFunctors)
    (hclose : { s.conn with inputBuffer := input, pendingFunctors := pending }.handleClose = .ok c) :
    s.Unsent a c := by
  obtain ⟨-, rfl⟩ := TcpConnection.handleClose_inv hclose
  exact ⟨⟨hinput, hwf.output⟩, hqueued, hpending, rfl, fun _ => Or.inr rfl, id,
    fun hup => absurd rfl hup, fun hshut => Or.inl hshut⟩

theorem unsent_handleWrite (hwf : s.conn.WF) {r : WriteResult}
    (hr : r.Within s.conn.outputBuffer.readableBytes) (hwrite : s.conn.handleWrite r = .ok c) :
    s.Unsent (.handleWrite r) c := by
  rcases TcpConnection.handleWrite_cases hwf hr with
    ⟨hsame, -⟩ | ⟨hwriting, hcount, out, hout, hcontent, hc⟩
  · cases hsame.symm.trans hwrite
    exact ⟨hwf, rfl, fun _ hf => hf, rfl, id, id, fun _ hidle => Or.inl hidle,
      fun hshut => Or.inl hshut⟩
  · cases hc.symm.trans hwrite
    refine ⟨⟨hwf.input, hout⟩, rfl, fun _ hf => hf, ?_, id, ?_, ?_, ?_⟩
    · simp only [TcpConnection.outgoing, hcontent, List.append_assoc, List.take_append_drop]
    · intro hempty
      rw [hcontent, hempty, List.drop_nil]
    · intro _ hidle
      exact Or.inr (by simpa using hidle)
    · intro hshut
      rcases Bool.or_eq_true_iff.mp hshut with hold | hnew
      · exact Or.inl hold
      · obtain ⟨hlength, hstate⟩ := Bool.and_eq_true_iff.mp hnew
        have hend : out.content.length = 0 := by simpa using hlength
        have hdisconnecting : s.conn.state = .kDisconnecting := by simpa using hstate
        have hall : r.count = s.conn.outputBuffer.readableBytes := by
          have hle := WriteResult.count_le hr
          rw [hcontent, List.length_drop, Buffer.length_content hwf.output] at hend
          omega
        refine Or.inr ⟨?_, Or.inl hdisconnecting, fun _ => by simp [hend]⟩
        simp [shuts, hwriting, hall, hdisconnecting]
        omega

theorem unsent_handleRead (hwf : s.conn.WF) {r : Buffer.ReadResult}
    (hread : TcpConnection.handleRead (fun _ c => .ok ((), c)) () s.conn r = .ok ((), c)) :
    s.Unsent a c := by
  obtain ⟨input, hinput, rfl | hclose⟩ := TcpConnection.handleRead_inv hwf.input hread
  · exact ⟨⟨hinput, hwf.output⟩, rfl, fun _ hf => hf, rfl, id, id, fun _ hidle => Or.inl hidle,
      fun hshut => Or.inl hshut⟩
  · exact unsent_handleClose hwf hinput rfl (fun _ hf => hf) hclose

/-- `sendInLoop` with the functors `rest` left in the queue makes `c` of the
connection `c₀`. -/
structure Executed (c₀ : TcpConnection) (rest : List Functor) (m : List UInt8)
    (c : TcpConnection) : Prop where
  wf : c.WF
  state : c.state = c₀.state
  writeShutdown : c.writeShutdown = c₀.writeShutdown
  pending : c.pendingFunctors = rest
  outgoing : c₀.outgoing.length ≤ c.outgoing.length
  flushed : c.isWriting = false →
    c₀.isWriting = false ∧ c.outputBuffer.content = c₀.outputBuffer.content
  empty : m = [] → c.outputBuffer.content = c₀.outputBuffer.content

section
variable {t : Nat} {r : WriteResult} {rest : List Functor} {q : List Nat}

theorem executed_of {c₀ : TcpConnection} {m : List UInt8} (h : c₀.WF)
    (hsend : { c₀ with pendingFunctors := rest }.sendInLoop m r = .ok c) :
    Executed c₀ rest m c := by
  rcases TcpConnection.sendInLoop_inv (c := { c₀ with pendingFunctors := rest })
    ⟨h.input, h.output⟩ hsend with ⟨-, rfl⟩ | ⟨hup, out, hout, hcontent, rfl⟩
  · exact ⟨⟨h.input, h.output⟩, rfl, rfl, rfl, Nat.le_refl _, fun hidle => ⟨hidle, rfl⟩,
      fun _ => rfl⟩
  · refine ⟨⟨h.input, hout⟩, rfl, rfl, rfl, ?_, ?_, ?_⟩
    · simp only [TcpConnection.outgoing, hcontent, List.length_append]
      omega
    · intro hidle
      obtain ⟨hwriting, hnone⟩ := Bool.or_eq_false_iff.mp hidle
      have hremaining : TcpConnection.remaining { c₀ with pendingFunctors := rest } m r = [] := by
        simpa using hnone
      exact ⟨hwriting, by rw [hcontent, hremaining, List.append_nil]⟩
    · rintro rfl
      simp [hcontent, TcpConnection.remaining]

theorem not_excused_execute (t : Nat) (h : (s.execute t r c).excused = false) :
    s.excused = false := by
  have h' : (s.excused || c.state == .kDisconnected || s.conn.leavesOut r) = false := h
  rw [Bool.or_eq_false_iff, Bool.or_eq_false_iff] at h'
  exact h'.1.1

theorem Carried.execute (h : s.Carried) (he : Executed s.conn rest (s.message t) c) :
    ({ s.execute t r c with loopCall := k, queue := q } : Session).Carried where
  wf := he.wf
  down := fun hdown => by
    change (s.excused || c.state == .kDisconnected || s.conn.leavesOut r) = true
    rw [show c.state = .kDisconnected from hdown]
    simp
  flushed := fun hclean hidle => by
    obtain ⟨hwriting, hcontent⟩ := he.flushed hidle
    exact hcontent.trans (h.flushed (not_excused_execute t hclean) hwriting)
  sent := by
    intro hclean t' length hplace
    have hold := not_excused_execute t hclean
    by_cases ht : t' = t
    · subst ht
      simp only [Session.execute, Function.update_self] at hplace
      split at hplace
      · cases hplace
      · cases hplace
        exact Nat.le_refl _
    · simp only [Session.execute, Function.update_of_ne ht] at hplace
      exact Nat.le_trans (h.sent hold t' length hplace) he.outgoing
  dropped := by
    intro t' hplace
    change (s.excused || c.state == .kDisconnected || s.conn.leavesOut r) = true
    by_cases ht : t' = t
    · subst ht
      simp only [Session.execute, Function.update_self] at hplace
      split at hplace
      · rename_i hlost
        rcases hlost with hdown | hleaves
        · simp [h.down hdown]
        · simp [hleaves]
      · cases hplace
    · simp only [Session.execute, Function.update_of_ne ht] at hplace
      simp [h.dropped t' hplace]

theorem Past.execute (h : s.Past) (he : Executed s.conn rest (s.message t) c)
    (hrest : ∀ f ∈ rest, f ∈ s.conn.pendingFunctors) (hk : k ≠ some .shutdownInLoop) :
    ({ s.execute t r c with loopCall := k, queue := q } : Session).Past where
  called := by
    intro hcalled
    have hended : Ended s.conn := by
      refine h.called ?_
      rcases hcalled with hown | hother | hqueue
      · exact absurd hown hk
      · exact Or.inr (Or.inl hother)
      · exact Or.inr (Or.inr (hrest _ (he.pending ▸ hqueue)))
    exact hended.imp he.state.trans he.state.trans
  ended := fun hshut =>
    (h.ended (he.writeShutdown ▸ hshut)).imp he.state.trans he.state.trans

theorem Emptied.execute (h : s.Emptied) (he : Executed s.conn rest (s.message t) c)
    (hway : (s.place t).onTheWay = true) :
    ({ s.execute t r c with loopCall := k, queue := q } : Session).Emptied := by
  intro hshut hclean
  obtain ⟨hempty, hmessage⟩ := h (he.writeShutdown ▸ hshut) (not_excused_execute t hclean)
  refine ⟨(he.empty (hmessage t hway)).trans hempty, ?_⟩
  intro t' hway'
  by_cases ht : t' = t
  · exact ht ▸ hmessage t hway
  · simp only [Session.execute, Function.update_of_ne ht] at hway'
    exact hmessage t' hway'

/-- A send that has returned, and left the queue if it was there. -/
theorem Numbered.settle (h : s.Numbered) {x : SendPlace} (hborn : s.place t ≠ .unborn)
    (hx : x.returned = true) (hx' : x ≠ .queued) (hq : ∀ t', t' ∈ q ↔ t' ∈ s.queue ∧ t' ≠ t)
    (hnodup : q.Nodup) (hqueue : c.queued = q.map s.message) {excused : Bool} :
    ({ s with
        conn := c
        place := Function.update s.place t x
        queue := q
        loopCall := k
        excused := excused } : Session).Numbered where
  queue := hqueue
  nodup := hnodup
  queued := by
    intro t'
    change t' ∈ q ↔ Function.update s.place t x t' = .queued
    rw [hq, h.queued]
    by_cases ht : t' = t
    · subst ht
      simp [hx']
    · simp [ht]
  fresh := by
    intro t' ht'
    change Function.update s.place t x t' = .unborn
    by_cases ht : t' = t
    · exact absurd (ht ▸ h.fresh t' ht') hborn
    · rw [Function.update_of_ne ht]
      exact h.fresh t' ht'
  covered := by
    intro t' hcovered
    change (Function.update s.place t x t').returned = true
    by_cases ht : t' = t
    · rw [ht, Function.update_self]
      exact hx
    · rw [Function.update_of_ne ht]
      exact h.covered t' hcovered

theorem returned_execute {b : Prop} [Decidable b] {n : Nat} :
    (if b then SendPlace.dropped else .sent n).returned = true ∧
      (if b then SendPlace.dropped else .sent n) ≠ .queued := by
  split
  · exact ⟨rfl, nofun⟩
  · exact ⟨rfl, nofun⟩

end
end

/-- What holds in every run, and what holds if the run is `last`: if every step of
it meets `ShutsLast`. -/
structure Inv (last : Prop) (s : Session) : Prop where
  numbered : s.Numbered
  carried : s.Carried
  past : s.Past
  emptied : last → s.Emptied

variable {last : Prop}

theorem inv_new : Inv last new where
  numbered := ⟨rfl, .nil, fun t => by simp [new], fun _ _ => rfl, nofun⟩
  carried := ⟨TcpConnection.new_wf, nofun, fun _ _ => Buffer.new_content _, nofun, nofun⟩
  past := ⟨fun h => by simp [new, TcpConnection.new] at h, nofun⟩
  emptied := fun _ => nofun

theorem queued_append {c : TcpConnection} {f : Functor} (hf : ∀ m, f ≠ .sendInLoop m) :
    ({ c with pendingFunctors := c.pendingFunctors ++ [f] } : TcpConnection).queued = c.queued := by
  cases f with
  | sendInLoop m => exact absurd rfl (hf m)
  | shutdownInLoop | forceCloseInLoop => simp [TcpConnection.queued]

theorem queued_rest {c : TcpConnection} {f : Functor} {rest : List Functor}
    (hpending : c.pendingFunctors = f :: rest) (hf : ∀ m, f ≠ .sendInLoop m) :
    ({ c with pendingFunctors := rest } : TcpConnection).queued = c.queued := by
  cases f with
  | sendInLoop m => exact absurd rfl (hf m)
  | shutdownInLoop | forceCloseInLoop => simp [TcpConnection.queued, hpending]

/-- A send that is where the step did not move one to has not moved. -/
theorem place_of_update {place : Nat → SendPlace} {t t' : Nat} (x : SendPlace) {y : SendPlace}
    (hy : y ≠ x) (h : Function.update place t x t' = y) : place t' = y := by
  by_cases ht : t' = t
  · rw [ht, Function.update_self] at h
    exact absurd h.symm hy
  · rwa [Function.update_of_ne ht] at h

/-- The steps of a call that move no bytes. -/
theorem Inv.client (h : Inv last s) {state : StateE} {pending : List Functor} {k : Option PendingCall}
    {calls : List PendingCall} {covered : Nat → Bool}
    (hstate : state = s.conn.state ∨ state = .kDisconnecting)
    (hqueued : ({ s.conn with pendingFunctors := pending } : TcpConnection).queued = s.conn.queued)
    (hcalled : k = some .shutdownInLoop ∨ .shutdownInLoop ∈ calls ∨ .shutdownInLoop ∈ pending →
      state = .kDisconnecting ∨ Ended s.conn)
    (hcovered : ∀ t, covered t = true → (s.place t).returned = true) :
    Inv last
      { s with
        conn := { s.conn with state := state, pendingFunctors := pending }
        loopCall := k
        calls := calls
        covered := covered } := by
  have hended : Ended s.conn → state = .kDisconnecting ∨ state = .kDisconnected := by
    intro hended
    rcases hstate with rfl | hset
    · exact hended
    · exact Or.inl hset
  refine ⟨⟨hqueued.trans h.numbered.queue, h.numbered.nodup, h.numbered.queued, h.numbered.fresh,
    hcovered⟩, ⟨⟨h.carried.wf.input, h.carried.wf.output⟩, ?_, h.carried.flushed, h.carried.sent,
    h.carried.dropped⟩, ⟨?_, fun hshut => hended (h.past.ended hshut)⟩, h.emptied⟩
  · intro hdown
    change state = .kDisconnected at hdown
    rcases hstate with rfl | hset
    · exact h.carried.down hdown
    · rw [hset] at hdown
      cases hdown
  · intro hpast
    rcases hcalled hpast with hset | hold
    · exact Or.inl hset
    · exact hended hold

theorem Inv.unsent (h : Inv last s) {c : TcpConnection} {k : Option PendingCall}
    (hu : s.Unsent a c) (hlast : last → s.ShutsLast a)
    (hk : k = some .shutdownInLoop → s.loopCall = some .shutdownInLoop) :
    Inv last { s.withConn c with loopCall := k } :=
  ⟨h.numbered.unsent hu, h.carried.unsent hu, h.past.unsent hu hk,
    fun hl => (h.emptied hl).unsent h.carried hu (hlast hl)⟩

theorem Inv.sendBegin (h : Inv last s) {own : Bool} {m : List UInt8}
    (hstate : s.conn.state = .kConnected) :
    Inv last
      { s with
        loopCall := if own then some (.send s.next) else s.loopCall
        place := Function.update s.place s.next .entered
        message := Function.update s.message s.next m
        next := s.next + 1 } := by
  have hnext := h.numbered.fresh s.next (Nat.le_refl _)
  have hnot : s.next ∉ s.queue := by
    rw [h.numbered.queued, hnext]
    exact nofun
  have hne : ∀ {t}, t ∈ s.queue → t ≠ s.next := fun ht heq => hnot (heq ▸ ht)
  refine ⟨⟨?_, h.numbered.nodup, ?_, ?_, ?_⟩, ⟨h.carried.wf, h.carried.down, h.carried.flushed, ?_, ?_⟩,
    ⟨?_, h.past.ended⟩, ?_⟩
  · refine h.numbered.queue.trans (List.map_congr_left ?_)
    intro t ht
    exact (Function.update_of_ne (hne ht) _ _).symm
  · intro t
    constructor
    · intro ht
      exact (Function.update_of_ne (hne ht) _ _).trans ((h.numbered.queued t).mp ht)
    · intro hplace
      exact (h.numbered.queued t).mpr (place_of_update .entered nofun hplace)
  · intro t ht
    change s.next + 1 ≤ t at ht
    exact (Function.update_of_ne (by omega) _ _).trans (h.numbered.fresh t (by omega))
  · intro t hcovered
    have hreturned := h.numbered.covered t hcovered
    by_cases ht : t = s.next
    · rw [ht, hnext] at hreturned
      cases hreturned
    · change (Function.update s.place s.next .entered t).returned = true
      rwa [Function.update_of_ne ht]
  · intro hclean t length hplace
    exact h.carried.sent hclean t length (place_of_update .entered nofun hplace)
  · intro t hplace
    exact h.carried.dropped t (place_of_update .entered nofun hplace)
  · intro hcalled
    refine h.past.called ?_
    rcases hcalled with hown | hrest
    · cases own with
      | true => cases hown
      | false => exact Or.inl hown
    · exact Or.inr hrest
  · intro _ hshut
    rcases h.past.ended hshut with hend | hend
    · rw [hstate] at hend
      cases hend
    · rw [hstate] at hend
      cases hend

theorem Inv.sendQueue (h : Inv last s) {t : Nat} (hplace : s.place t = .entered) :
    Inv last
      { s.queueInLoop (.sendInLoop (s.message t)) with
        queue := s.queue ++ [t]
        place := Function.update s.place t .queued } := by
  have hnot : t ∉ s.queue := by
    rw [h.numbered.queued, hplace]
    exact nofun
  refine ⟨⟨?_, ?_, ?_, ?_, ?_⟩, ⟨⟨h.carried.wf.input, h.carried.wf.output⟩, h.carried.down,
    h.carried.flushed, ?_, ?_⟩, ⟨?_, h.past.ended⟩, ?_⟩
  · have hqueue := h.numbered.queue
    simp only [TcpConnection.queued] at hqueue
    simp [TcpConnection.queued, queueInLoop, hqueue]
  · refine List.nodup_append.mpr ⟨h.numbered.nodup, by simp, ?_⟩
    intro t' ht' t'' ht'' heq
    rw [List.mem_singleton.mp ht''] at heq
    exact hnot (heq ▸ ht')
  · intro t'
    change t' ∈ s.queue ++ [t] ↔ Function.update s.place t .queued t' = .queued
    by_cases ht : t' = t
    · simp [ht]
    · simp [ht, h.numbered.queued]
  · intro t' ht'
    by_cases ht : t' = t
    · have hunborn := h.numbered.fresh t (ht ▸ ht')
      rw [hplace] at hunborn
      cases hunborn
    · exact (Function.update_of_ne ht _ _).trans (h.numbered.fresh t' ht')
  · intro t' hcovered
    change (Function.update s.place t .queued t').returned = true
    by_cases ht : t' = t
    · rw [ht, Function.update_self]
      rfl
    · rw [Function.update_of_ne ht]
      exact h.numbered.covered t' hcovered
  · intro hclean t' length hplace'
    exact h.carried.sent hclean t' length (place_of_update .queued nofun hplace')
  · intro t' hplace'
    exact h.carried.dropped t' (place_of_update .queued nofun hplace')
  · intro hcalled
    refine h.past.called ?_
    rcases hcalled with hown | hcall | hpending
    · exact Or.inl hown
    · exact Or.inr (Or.inl hcall)
    · refine Or.inr (Or.inr ?_)
      simpa [queueInLoop] using hpending
  · intro hl hshut hclean
    obtain ⟨hempty, hmessage⟩ := h.emptied hl hshut hclean
    refine ⟨hempty, ?_⟩
    intro t' hway
    by_cases ht : t' = t
    · exact ht ▸ hmessage t (by rw [hplace]; rfl)
    · refine hmessage t' ?_
      change (Function.update s.place t .queued t').onTheWay = true at hway
      rwa [Function.update_of_ne ht] at hway

theorem Inv.sendInLoop (h : Inv last s) {t : Nat} {r : WriteResult} {c : TcpConnection}
    (hplace : s.place t = .entered) (hsend : s.conn.sendInLoop (s.message t) r = .ok c) :
    Inv last { s.execute t r c with loopCall := none } := by
  have he : Executed s.conn s.conn.pendingFunctors (s.message t) c :=
    executed_of h.carried.wf hsend
  have hway : (s.place t).onTheWay = true := by rw [hplace]; rfl
  refine ⟨h.numbered.settle (by rw [hplace]; exact nofun) returned_execute.1 returned_execute.2
    ?_ h.numbered.nodup ?_, h.carried.execute he,
    h.past.execute he (fun _ hf => hf) nofun, fun hl => (h.emptied hl).execute he hway⟩
  · intro t'
    refine ⟨fun ht' => ⟨ht', ?_⟩, fun hboth => hboth.1⟩
    rintro rfl
    have hqueued := (h.numbered.queued _).mp ht'
    rw [hplace] at hqueued
    cases hqueued
  · change TcpConnection.queued c = _
    rw [TcpConnection.queued, he.pending]
    exact h.numbered.queue

/-- The number at the head of the queue is that of the message that runs. -/
theorem Inv.runSend (h : Inv last s) {m : List UInt8} {rest : List Functor} {r : WriteResult}
    {c : TcpConnection} (hfree : s.loopCall = none)
    (hpending : s.conn.pendingFunctors = .sendInLoop m :: rest)
    (hrun : { s.conn with pendingFunctors := rest }.runFunctor r (.sendInLoop m) = .ok c) :
    Inv last { s.execute (s.queue.headD 0) r c with queue := s.queue.tail } := by
  have hqueued := h.numbered.queue
  rw [TcpConnection.queued, hpending] at hqueued
  cases hqueue : s.queue with
  | nil =>
      rw [hqueue] at hqueued
      cases hqueued
  | cons t ts =>
      rw [hqueue] at hqueued
      obtain ⟨rfl, hts⟩ := List.cons.inj hqueued
      have hplace : s.place t = .queued :=
        (h.numbered.queued t).mp (by rw [hqueue]; exact List.mem_cons_self)
      have hway : (s.place t).onTheWay = true := by rw [hplace]; rfl
      have hnodup := h.numbered.nodup
      rw [hqueue, List.nodup_cons] at hnodup
      have he := executed_of h.carried.wf hrun
      change Inv last { s.execute t r c with queue := ts }
      refine ⟨h.numbered.settle (by rw [hplace]; exact nofun) returned_execute.1 returned_execute.2
        ?_ hnodup.2 ?_, h.carried.execute (k := s.loopCall) he,
        h.past.execute (k := s.loopCall) he ?_ (by rw [hfree]; exact nofun),
        fun hl => (h.emptied hl).execute (k := s.loopCall) he hway⟩
      · intro t'
        rw [hqueue, List.mem_cons]
        constructor
        · intro ht'
          exact ⟨Or.inr ht', fun heq => hnodup.1 (heq ▸ ht')⟩
        · rintro ⟨heq | ht', hne⟩
          · exact absurd heq hne
          · exact ht'
      · change TcpConnection.queued c = _
        rw [TcpConnection.queued, he.pending]
        exact hts
      · intro f hf
        rw [hpending]
        exact List.mem_cons_of_mem _ hf

theorem Inv.enter (h : Inv last s) {k : PendingCall} (hk : k ≠ .shutdownInLoop) (own : Bool)
    {covered : Nat → Bool} (hcovered : ∀ t, covered t = true → (s.place t).returned = true) :
    Inv last { s.enter k own with covered := covered } := by
  cases own with
  | true =>
      refine h.client (Or.inl rfl) rfl ?_ hcovered
      rintro (hown | hrest)
      · exact absurd (Option.some.inj hown) hk
      · exact Or.inr (h.past.called (Or.inr hrest))
  | false =>
      refine h.client (Or.inl rfl) rfl ?_ hcovered
      rintro (hown | hcall | hpending)
      · exact Or.inr (h.past.called (Or.inl hown))
      · exact Or.inr (h.past.called (Or.inr (Or.inl
          ((List.mem_cons.mp hcall).resolve_left fun heq => hk heq.symm))))
      · exact Or.inr (h.past.called (Or.inr (Or.inr hpending)))

theorem Inv.forceCloseQueue (h : Inv last s) {own : Bool} :
    Inv last ((s.leave .forceCloseInLoop own).queueInLoop .forceCloseInLoop) := by
  have hpending : Functor.shutdownInLoop ∈ s.conn.pendingFunctors ++ [.forceCloseInLoop] →
      .shutdownInLoop ∈ s.conn.pendingFunctors :=
    fun hf => (List.mem_append.mp hf).resolve_right (by simp)
  cases own with
  | true =>
      refine h.client (Or.inl rfl) (queued_append nofun) ?_ h.numbered.covered
      rintro (hown | hcall | hf)
      · cases hown
      · exact Or.inr (h.past.called (Or.inr (Or.inl hcall)))
      · exact Or.inr (h.past.called (Or.inr (Or.inr (hpending hf))))
  | false =>
      refine h.client (Or.inl rfl) (queued_append nofun) ?_ h.numbered.covered
      rintro (hown | hcall | hf)
      · exact Or.inr (h.past.called (Or.inl hown))
      · exact Or.inr (h.past.called (Or.inr (Or.inl (List.mem_of_mem_erase hcall))))
      · exact Or.inr (h.past.called (Or.inr (Or.inr (hpending hf))))

theorem Inv.step (h : Inv last s) (hlast : last → s.ShutsLast a) (hstep : Step s a s') :
    Inv last s' := by
  cases hstep with
  | connectEstablished hfree hc =>
      obtain ⟨hconnecting, rfl⟩ := TcpConnection.connectEstablished_inv hc
      refine h.unsent (k := s.loopCall) ⟨⟨h.carried.wf.input, h.carried.wf.output⟩, rfl,
        fun _ hf => hf, rfl, ?_, id, fun _ hidle => Or.inl hidle, fun hshut => Or.inl hshut⟩ hlast id
      rintro (hend | hend)
      · rw [hconnecting] at hend
        cases hend
      · rw [hconnecting] at hend
        cases hend
  | sendBegin hfree hstate => exact h.sendBegin hstate
  | sendInLoop hcall hplace hr hc => exact h.sendInLoop hplace hc
  | sendQueue hcall hplace => exact h.sendQueue hplace
  | shutdownBegin hfree hstate => exact h.enter (k := .setShutdown) nofun _ fun _ => id
  | shutdownNot hfree hstate =>
      exact h.client (Or.inl rfl) rfl (fun hpast => Or.inr (h.past.called hpast)) fun _ => id
  | shutdownSet hcall | forceCloseSet hcall =>
      rename_i own
      cases own with
      | true => exact h.client (Or.inr rfl) rfl (fun _ => Or.inl rfl) h.numbered.covered
      | false => exact h.client (Or.inr rfl) rfl (fun _ => Or.inl rfl) h.numbered.covered
  | shutdownInLoop hcall =>
      refine h.unsent (unsent_shutdownInLoop h.carried.wf (h.past.called (Or.inl hcall)) rfl
        (fun _ hf => hf) ?_) hlast nofun
      intro hidle
      simp [shuts, hidle]
  | shutdownQueue hcall =>
      exact h.client (Or.inl rfl) (queued_append nofun)
        (fun _ => Or.inr (h.past.called (Or.inr (Or.inl hcall)))) h.numbered.covered
  | forceCloseBegin hfree hstate =>
      rename_i own
      cases own with
      | true => exact h.enter (k := .setForceClose) nofun true h.numbered.covered
      | false => exact h.enter (k := .setForceClose) nofun false h.numbered.covered
  | forceCloseQueue hcall => exact h.forceCloseQueue
  | runSend hfree hpending hr hc => exact h.runSend hfree hpending hc
  | runOther hfree hpending hf hc =>
      rename_i f rest r c
      have hrest : ∀ g ∈ rest, g ∈ s.conn.pendingFunctors := by
        intro g hg
        rw [hpending]
        exact List.mem_cons_of_mem _ hg
      have hqueued := queued_rest hpending hf
      cases f with
      | sendInLoop m => exact absurd rfl (hf m)
      | shutdownInLoop =>
          cases hc
          have hended := h.past.called
            (Or.inr (Or.inr (by rw [hpending]; exact List.mem_cons_self)))
          refine h.unsent (k := s.loopCall)
            (unsent_shutdownInLoop h.carried.wf hended hqueued hrest ?_) hlast id
          intro hidle
          simp [shuts, hidle, hpending]
      | forceCloseInLoop =>
          change TcpConnection.forceCloseInLoop _ = .ok c at hc
          rw [TcpConnection.forceCloseInLoop] at hc
          split at hc
          · exact h.unsent (k := s.loopCall)
              (unsent_handleClose h.carried.wf h.carried.wf.input hqueued hrest hc) hlast id
          · cases hc
            exact h.unsent (k := s.loopCall) ⟨⟨h.carried.wf.input, h.carried.wf.output⟩, hqueued,
              hrest, rfl, id, id, fun _ hidle => Or.inl hidle, fun hshut => Or.inl hshut⟩ hlast id
  | handleWrite hfree hr hc =>
      exact h.unsent (k := s.loopCall) (unsent_handleWrite h.carried.wf hr hc) hlast id
  | handleRead hfree hc =>
      exact h.unsent (k := s.loopCall) (unsent_handleRead h.carried.wf hc) hlast id
  | handleClose hfree hc =>
      exact h.unsent (k := s.loopCall) (unsent_handleClose h.carried.wf h.carried.wf.input rfl
        (fun _ hf => hf) hc) hlast id

/-- What a step that shuts the write side down leaves as it was. -/
structure ShutBy (s s' : Session) : Prop where
  writeShutdown : s'.conn.writeShutdown = true
  loopCall : s'.loopCall = none
  place : s'.place = s.place
  message : s'.message = s.message
  excused : s.excused = false → s'.excused = false

theorem ShutBy.withConn (h : s.Carried) {c : TcpConnection} {k : Option PendingCall}
    (hk : k = none) (hc : c.writeShutdown = true) (hstate : c.state = s.conn.state) :
    s.ShutBy { s.withConn c with loopCall := k } := by
  refine ⟨hc, hk, rfl, rfl, ?_⟩
  intro hclean
  change (s.excused || c.state == .kDisconnected) = false
  rw [hclean, hstate, Bool.false_or, beq_eq_false_iff_ne]
  intro hdown
  rw [h.down hdown] at hclean
  cases hclean

theorem shutdownInLoop_of_idle {c : TcpConnection} (h : c.isWriting = false) :
    c.shutdownInLoop = { c with writeShutdown := true } := by
  rw [TcpConnection.shutdownInLoop, h]
  rfl

theorem shutBy_of_shuts (h : s.Carried) (hstep : Step s a s') (hshuts : s.shuts a = true) :
    s.ShutBy s' := by
  cases hstep with
  | shutdownInLoop hcall =>
      have hidle : s.conn.isWriting = false := by simpa [shuts] using hshuts
      rw [shutdownInLoop_of_idle hidle]
      exact .withConn h rfl rfl rfl
  | runSend hfree hpending hr hc => simp [shuts, hpending] at hshuts
  | runOther hfree hpending hf hc =>
      rename_i f rest r c
      simp only [shuts, hpending, List.head?_cons, Bool.and_eq_true, beq_iff_eq,
        Bool.not_eq_true', Option.some.injEq] at hshuts
      obtain ⟨rfl, hidle⟩ := hshuts
      rw [TcpConnection.runFunctor,
        shutdownInLoop_of_idle (c := { s.conn with pendingFunctors := rest }) hidle] at hc
      cases hc
      exact .withConn (k := s.loopCall) h hfree rfl rfl
  | handleWrite hfree hr hc =>
      simp only [shuts, Bool.and_eq_true, beq_iff_eq, decide_eq_true_eq] at hshuts
      obtain ⟨⟨⟨hwriting, hcount⟩, hall⟩, hstate⟩ := hshuts
      rcases TcpConnection.handleWrite_cases h.wf hr with
        ⟨-, hzero⟩ | ⟨-, -, out, hout, hcontent, heq⟩
      · have := hzero hwriting
        omega
      · cases heq.symm.trans hc
        refine .withConn (k := s.loopCall) h hfree ?_ rfl
        have hempty : out.content = [] := by
          rw [hcontent, hall, ← Buffer.length_content h.wf.output, List.drop_length]
        simp [hempty, hstate]
  | _ => cases hshuts

/-- A `shutdown` that begins after a queued send has returned covers it. -/
theorem not_losesNothing_of_queued {t : Nat} (hshut : s.conn.writeShutdown = true)
    (hended : Ended s.conn) (hclean : s.excused = false) (hplace : s.place t = .queued)
    (hmessage : s.message t ≠ []) :
    ∃ s', Step s (.shutdownBegin false) s' ∧ ¬ s'.LosesNothing := by
  refine ⟨_, .shutdownNot nofun ?_, ?_⟩
  · intro hconnected
    rcases hended with hend | hend
    · rw [hconnected] at hend
      cases hend
    · rw [hconnected] at hend
      cases hend
  · intro hkept
    have hcovered : (s.place t).returned = true := by rw [hplace]; rfl
    rcases hkept hshut hclean t hcovered with hnone | ⟨length, hsent, -⟩
    · exact hmessage hnone
    · change s.place t = .sent length at hsent
      rw [hplace] at hsent
      cases hsent

/-- A graceful shutdown loses nothing in every run in which no send is on its way
when the write side is shut down; with one on its way, the run can go on to lose
it. -/
theorem shutdown_loses_nothing_exactly (acts : List Act) (s : Session) :
    (Run (Guarded Step ShutsLast) new acts s → LosesNothing s) ∧
    (Run Step new acts s → ∀ a s', Step s a s' → ¬ ShutsLast s a →
      ∃ acts' s'', Run Step s' acts' s'' ∧ ¬ LosesNothing s'') := by
  constructor
  · intro hrun
    have h : Inv True s :=
      hrun.invariant inv_new fun _ _ _ h hstep => h.step (fun _ => hstep.1) hstep.2
    exact losesNothing_of h.numbered h.carried (h.emptied trivial)
  · intro hrun a s' hstep hearly
    have h : Inv False s := hrun.invariant inv_new fun _ _ _ h hstep => h.step nofun hstep
    have h' : Inv False s' := h.step nofun hstep
    simp only [ShutsLast, not_forall] at hearly
    obtain ⟨hshuts, hclean, t, hway, hmessage⟩ := hearly
    have hshut := shutBy_of_shuts h.carried hstep hshuts
    have hended := h'.past.ended hshut.writeShutdown
    cases hplace : s.place t with
    | queued =>
        obtain ⟨s'', hbegin, hlost⟩ := not_losesNothing_of_queued hshut.writeShutdown hended
          (hshut.excused hclean) (by rw [hshut.place, hplace]) (by rwa [hshut.message])
        exact ⟨_, s'', Run.nil.snoc hbegin, hlost⟩
    | entered =>
        -- the send is not one of the loop thread, which is in no call: it is queued first
        have hpush : Step s' (.sendQueue t) _ :=
          .sendQueue (by rw [hshut.loopCall]; exact nofun) (by rw [hshut.place, hplace])
        obtain ⟨s'', hbegin, hlost⟩ := not_losesNothing_of_queued
          (s := { s'.queueInLoop (.sendInLoop (s'.message t)) with
                  queue := s'.queue ++ [t]
                  place := Function.update s'.place t .queued })
          hshut.writeShutdown hended (hshut.excused hclean) (Function.update_self _ _ _)
          (by rwa [← hshut.message] at hmessage)
        exact ⟨_, s'', (Run.nil.snoc hpush).snoc hbegin, hlost⟩
    | unborn | sent length | dropped =>
        rw [hplace] at hway
        cases hway

/-- Another thread has sent, and its message is queued; then the loop thread calls
`shutdown`, which shuts the write side down at once. -/
theorem queued_send_lost : ∃ s : Session, Run Step new
    [.connectEstablished, .sendBegin false [1, 2], .sendQueue 0, .shutdownBegin true,
      .shutdownSet true, .shutdownInLoop] s ∧
    s.covered 0 = true ∧ s.conn.writeShutdown = true ∧ s.conn.written = [] ∧
    s.excused = false ∧ ¬ LosesNothing s := by
  refine ⟨_, (((((Run.nil.snoc (.connectEstablished rfl rfl)).snoc (.sendBegin nofun rfl)).snoc
    (.sendQueue nofun rfl)).snoc (.shutdownBegin (fun _ => rfl) rfl)).snoc (.shutdownSet rfl)).snoc
    (.shutdownInLoop rfl), rfl, rfl, rfl, rfl, ?_⟩
  intro hkept
  rcases hkept rfl rfl 0 rfl with hnone | ⟨length, hsent, -⟩
  · cases hnone
  · cases hsent

end ProtoRpc.Session
