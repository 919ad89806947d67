import ProtoRpc.Network.PollerInterest
import ProtoRpc.Network.TcpConnection

/-!
What the operations of a connection do to its output and to the interest of its
channel. An operation that moves bytes or half-closes keeps the two in step: the
connection writes while it has output. The channel follows it in the poller, and
the copies of the registration there agree.
-/
namespace ProtoRpc

/-- The functors that go on with a half-close or a close. -/
def Functor.closes : Functor → Bool
  | .shutdownInLoop | .forceCloseInLoop => true
  | .sendInLoop _ => false

namespace TcpConnection

/-- Unless the connection is down it is writing exactly while it has output. -/
def Pending (c : TcpConnection) : Prop :=
  c.state ≠ .kDisconnected → (c.isWriting = true ↔ c.outputBuffer.content ≠ [])

/-- What the operations of a connection have in common, the closing ones apart. -/
structure Works (c c' : TcpConnection) : Prop where
  wf : c'.WF
  keeps : c.Keeps c'
  pending : c'.Pending
  closed : c.state = .kDisconnected → c'.isWriting = c.isWriting
  shut : c.writeShutdown = true → c'.writeShutdown = true
  emptied : c.writeShutdown = false → c'.writeShutdown = true → c'.state ≠ .kDisconnected →
    c'.outputBuffer.content = []
  /-- only an operation that ends the connection half-closes it, or has that queued -/
  fresh : c'.state ≠ .kDisconnecting → c'.state ≠ .kDisconnected →
    c'.writeShutdown = c.writeShutdown ∧ ∀ f ∈ c'.pendingFunctors, f.closes = false

/-- The operation sees to the half-close of a connection that it leaves
disconnecting, or found one that was not writing. -/
def SeesTo (c c' : TcpConnection) : Prop :=
  c'.state = .kDisconnecting →
    (c'.writeShutdown = true ∨ c'.isWriting = true ∨ ∃ f ∈ c'.pendingFunctors, f.closes = true) ∨
    (c.state = .kDisconnecting ∧ c.isWriting = false)

section
variable {c c' : TcpConnection}

theorem works_refl (hwf : c.WF) (hpending : c.Pending) (hqueue : c.pendingFunctors = []) :
    c.Works c where
  wf := hwf
  keeps := Or.inl rfl
  pending := hpending
  closed := fun _ => rfl
  shut := id
  emptied := by
    intro hnot hshut
    cases hnot.symm.trans hshut
  fresh := fun _ _ => ⟨rfl, by simp [hqueue]⟩

theorem seesTo_refl (c : TcpConnection) : c.SeesTo c := by
  intro hstate
  cases hwriting : c.isWriting with
  | true => exact Or.inl (Or.inr (Or.inl rfl))
  | false => exact Or.inr ⟨hstate, rfl⟩

theorem Pending.content_eq_nil (h : c.Pending) (hup : c.state ≠ .kDisconnected)
    (hidle : ¬ c.isWriting = true) : c.outputBuffer.content = [] := by
  by_contra hcontent
  exact hidle ((h hup).mpr hcontent)

theorem sendInLoop_works (hwf : c.WF) (hpending : c.Pending) (hqueue : c.pendingFunctors = [])
    {data : List UInt8} {r : WriteResult} (hsend : c.sendInLoop data r = .ok c') :
    c.Works c' ∧ c.SeesTo c' := by
  rcases sendInLoop_inv hwf hsend with ⟨-, rfl⟩ | ⟨hup, out, hout, hcontent, rfl⟩
  · exact ⟨works_refl hwf hpending hqueue, seesTo_refl _⟩
  · refine ⟨⟨⟨hwf.input, hout⟩, Or.inl rfl, ?_, fun hdown => absurd hdown hup, id, ?_, ?_⟩, ?_⟩
    · intro _
      change (c.isWriting || (c.remaining data r).length != 0) = true ↔ out.content ≠ []
      rw [hcontent, Bool.or_eq_true, hpending hup, bne_iff_ne]
      simp [imp_iff_not_or]
    · intro hnot hshut
      cases hnot.symm.trans hshut
    · intro _ _
      exact ⟨rfl, by simp [hqueue]⟩
    · intro hstate
      cases hwriting : c.isWriting with
      | true => exact Or.inl (Or.inr (Or.inl (by simp)))
      | false => exact Or.inr ⟨hstate, rfl⟩

theorem send_works (hwf : c.WF) (hpending : c.Pending) (hqueue : c.pendingFunctors = [])
    {own : Bool} {buf buf' : Buffer} {r : WriteResult} (hsend : c.send own buf r = .ok (c', buf')) :
    c.Works c' ∧ c.SeesTo c' := by
  rw [send] at hsend
  split at hsend
  · rename_i hconnected
    cases own with
    | true =>
        obtain ⟨c₁, hinLoop, hrest⟩ := bind_ok_inv hsend
        cases hrest
        obtain ⟨hworks, hsees⟩ :=
          sendInLoop_works (c := { c with handed := c.handed ++ [buf.content] })
            ⟨hwf.input, hwf.output⟩ hpending hqueue hinLoop
        exact ⟨⟨hworks.wf, hworks.keeps, hworks.pending, hworks.closed, hworks.shut, hworks.emptied,
          hworks.fresh⟩, hsees⟩
    | false =>
        obtain ⟨⟨message, b⟩, -, hrest⟩ := bind_ok_inv hsend
        cases hrest
        refine ⟨⟨⟨hwf.input, hwf.output⟩, Or.inl rfl, hpending, fun _ => rfl, id, ?_, ?_⟩, ?_⟩
        · intro hnot hshut
          cases hnot.symm.trans hshut
        · intro _ _
          exact ⟨rfl, by simp [hqueue, Functor.closes]⟩
        · intro hstate
          change c.state = .kDisconnecting at hstate
          rw [hconnected] at hstate
          cases hstate
  · cases hsend
    exact ⟨works_refl hwf hpending hqueue, c.seesTo_refl⟩

/-- A connection that the operation leaves disconnecting, with its buffers. -/
theorem works_disconnecting (hwf : c.WF) (hpending : c.Pending)
    (hopen : c.state = .kConnected ∨ c.state = .kDisconnecting) {shut : Bool}
    (hshut : shut = c.writeShutdown ∨ (shut = true ∧ c.outputBuffer.content = []))
    (pending : List Functor) :
    c.Works { c with
      state := .kDisconnecting, writeShutdown := shut, pendingFunctors := pending } where
  wf := ⟨hwf.input, hwf.output⟩
  keeps := Or.inr ⟨hopen, rfl⟩
  pending := fun _ => hpending (ne_down_of_open hopen)
  closed := fun _ => rfl
  shut := by
    intro hold
    rcases hshut with hsame | ⟨hset, -⟩
    · exact hsame.trans hold
    · exact hset
  emptied := by
    intro hnot hset _
    rcases hshut with hsame | ⟨-, hempty⟩
    · cases hnot.symm.trans (hsame.symm.trans hset)
    · exact hempty
  fresh := fun hnot _ => absurd rfl hnot

theorem shutdown_works (hwf : c.WF) (hpending : c.Pending) (hqueue : c.pendingFunctors = [])
    (own : Bool) : c.Works (c.shutdown own) ∧ c.SeesTo (c.shutdown own) := by
  rw [shutdown]
  split
  · rename_i hconnected
    cases own with
    | true =>
        simp only [if_true, shutdownInLoop]
        split
        · rename_i hwriting
          exact ⟨works_disconnecting hwf hpending (Or.inl hconnected) (Or.inl rfl) _,
            fun _ => Or.inl (Or.inr (Or.inl hwriting))⟩
        · rename_i hidle
          have hempty := hpending.content_eq_nil (by rw [hconnected]; decide) hidle
          exact ⟨works_disconnecting hwf hpending (Or.inl hconnected) (Or.inr ⟨rfl, hempty⟩) _,
            fun _ => Or.inl (Or.inl rfl)⟩
    | false =>
        refine ⟨works_disconnecting hwf hpending (Or.inl hconnected) (Or.inl rfl) _, ?_⟩
        exact fun _ => Or.inl (Or.inr (Or.inr ⟨.shutdownInLoop, by simp, rfl⟩))
  · exact ⟨works_refl hwf hpending hqueue, c.seesTo_refl⟩

theorem forceClose_works (hwf : c.WF) (hpending : c.Pending) (hqueue : c.pendingFunctors = []) :
    c.Works c.forceClose ∧ c.SeesTo c.forceClose := by
  rw [forceClose]
  split
  · rename_i hopen
    refine ⟨works_disconnecting hwf hpending hopen (Or.inl rfl) _, ?_⟩
    exact fun _ => Or.inl (Or.inr (Or.inr ⟨.forceCloseInLoop, by simp, rfl⟩))
  · exact ⟨works_refl hwf hpending hqueue, c.seesTo_refl⟩

theorem forceCloseWithDelay_works (hwf : c.WF) (hpending : c.Pending)
    (hqueue : c.pendingFunctors = []) : c.Works c.forceCloseWithDelay := by
  rw [forceCloseWithDelay]
  split
  · rename_i hopen
    exact works_disconnecting hwf hpending hopen (Or.inl rfl) _
  · exact works_refl hwf hpending hqueue

theorem shutdownInLoop_works (hwf : c.WF) (hpending : c.Pending) (hqueue : c.pendingFunctors = [])
    (hended : c.state = .kDisconnecting ∨ c.state = .kDisconnected) :
    c.Works c.shutdownInLoop ∧
      (c.shutdownInLoop.writeShutdown = true ∨ c.shutdownInLoop.isWriting = true) := by
  rw [shutdownInLoop]
  split
  · rename_i hwriting
    exact ⟨works_refl hwf hpending hqueue, Or.inr hwriting⟩
  · rename_i hidle
    refine ⟨⟨⟨hwf.input, hwf.output⟩, Or.inl rfl, hpending, fun _ => rfl, fun _ => rfl,
      fun _ _ hup => hpending.content_eq_nil hup hidle, ?_⟩, Or.inl rfl⟩
    intro hnot hup
    rcases hended with hstate | hstate
    · exact absurd hstate hnot
    · exact absurd hstate hup

theorem handleWrite_works (hwf : c.WF) (hpending : c.Pending) (hqueue : c.pendingFunctors = [])
    {r : WriteResult} (hr : r.Within c.outputBuffer.readableBytes) (hwrite : c.handleWrite r = .ok c')
    (hidle : c.state = .kDisconnected → c.isWriting = false) : c.Works c' ∧ c.SeesTo c' := by
  rcases handleWrite_cases hwf hr with ⟨hsame, -⟩ | ⟨hwriting, -, out, hout, -, heq⟩
  · cases hsame.symm.trans hwrite
    exact ⟨works_refl hwf hpending hqueue, c.seesTo_refl⟩
  · cases heq.symm.trans hwrite
    refine ⟨⟨⟨hwf.input, hout⟩, Or.inl rfl, ?_, ?_, ?_, ?_, ?_⟩, ?_⟩
    · intro _
      simp
    · intro hdown
      rw [hidle hdown] at hwriting
      cases hwriting
    · intro hshut
      simp [hshut]
    · intro hnot hshut _
      change out.content = []
      simp only [hnot, Bool.false_or, Bool.and_eq_true, beq_iff_eq] at hshut
      exact List.length_eq_zero_iff.mp hshut.1
    · intro hnot _
      change c.state ≠ .kDisconnecting at hnot
      exact ⟨by simp [hnot], by simp [hqueue]⟩
    · intro hstate
      change c.state = .kDisconnecting at hstate
      refine Or.inl ?_
      by_cases hempty : out.content = []
      · exact Or.inl (by simp [hempty, hstate])
      · exact Or.inr (Or.inl (by simp [hempty]))

end
end TcpConnection

variable {C : Type}

/-- The channel of a connection is in the poller what the connection takes it for.
`reading` is `reading_`. -/
structure Wired (chan : C) (p : Poller C) (c : TcpConnection) (reading : Bool) : Prop where
  agrees : p.Agrees
  wf : c.WF
  queue : c.pendingFunctors = []
  pending : c.Pending
  idle : c.state = .kDisconnected → c.isWriting = false
  writing : (p.table chan).events.write = c.isWriting
  added : (p.table chan).events ≠ .noneEvent → (p.table chan).index = .kAdded
  deleted : c.state ≠ .kDisconnected → (p.table chan).events = .noneEvent →
    (p.table chan).index ≠ .kAdded
  unread : c.state = .kConnecting → reading = true
  read : c.state = .kConnected ∨ c.state = .kDisconnecting → (p.table chan).events.read = reading

namespace Wired
variable {chan : C} {p p' : Poller C} {c c' : TcpConnection} {reading : Bool}

theorem setInput (h : Wired chan p c reading) {input : Buffer} (hinput : input.WF) :
    Wired chan p { c with inputBuffer := input } reading :=
  { h with wf := ⟨hinput, h.wf.output⟩ }

/-- An operation on another channel. -/
theorem other (h : Wired chan p c reading) (hagrees : p'.Agrees)
    (htable : p'.table chan = p.table chan) : Wired chan p' c reading where
  agrees := hagrees
  wf := h.wf
  queue := h.queue
  pending := h.pending
  idle := h.idle
  writing := htable ▸ h.writing
  added := htable ▸ h.added
  deleted := htable ▸ h.deleted
  unread := h.unread
  read := htable ▸ h.read

variable [DecidableEq C]

/-- The channel that an interest operation leaves, where the operation does not
find the interest empty that it leaves empty. -/
theorem interestOp_index (h : Wired chan p c reading) {op : InterestOp}
    (hp : p.interestOp chan op = .ok p') :
    ((p'.table chan).events ≠ .noneEvent → (p'.table chan).index = .kAdded) ∧
      ((p.table chan).events ≠ .noneEvent → (p'.table chan).events = .noneEvent →
        (p'.table chan).index ≠ .kAdded) := by
  obtain ⟨-, hevents, hindex⟩ := Poller.interestOp_inv h.agrees hp
  rw [hindex, ← hevents]
  refine ⟨?_, ?_⟩
  · intro hsome
    exact (Poller.indexAfter_eq_added _ _).mpr fun hnone => absurd hnone hsome
  · intro hsome hnone hadded
    exact (Poller.indexAfter_eq_added _ _).mp hadded hnone (h.added hsome)

/-- Where an operation has switched writing on or off, so has the channel. -/
def Follows (chan : C) (p : Poller C) (c c' : TcpConnection) (p' : Poller C) : Prop :=
  (c'.isWriting = c.isWriting ∧ p' = p) ∨
    (c'.isWriting ≠ c.isWriting ∧ p.interestOp chan
      (if c'.isWriting then .enableWriting else .disableWriting) = .ok p')

theorem adopt (h : Wired chan p c reading) (hworks : c.Works c')
    (hfollows : Follows chan p c c' p') :
    Wired chan p' { c' with pendingFunctors := [] } reading := by
  have hopen := hworks.keeps.open_iff
  have hdown := hworks.keeps.down_iff
  have hunread : c'.state = .kConnecting → reading = true :=
    fun hconnecting => h.unread (hworks.keeps.connecting_iff.mp hconnecting)
  have hidle : c'.state = .kDisconnected → c'.isWriting = false := by
    intro hstate
    rw [hworks.closed (hdown.mp hstate), h.idle (hdown.mp hstate)]
  rcases hfollows with ⟨hsame, rfl⟩ | ⟨hdiffer, hp⟩
  · exact
      { agrees := h.agrees
        wf := ⟨hworks.wf.input, hworks.wf.output⟩
        queue := rfl
        pending := hworks.pending
        idle := hidle
        writing := h.writing.trans hsame.symm
        added := h.added
        deleted := fun hup => h.deleted fun hnot => hup (hdown.mpr hnot)
        unread := hunread
        read := fun hopen' => h.read (hopen.mp hopen') }
  · obtain ⟨hagrees, hevents, -⟩ := Poller.interestOp_inv h.agrees hp
    obtain ⟨hadded, hdeleted⟩ := h.interestOp_index hp
    have hwriting : (p'.table chan).events.write = c'.isWriting := by
      rw [hevents]
      cases c'.isWriting <;> rfl
    have hread : (p'.table chan).events.read = (p.table chan).events.read := by
      rw [hevents]
      cases c'.isWriting <;> rfl
    exact
      { agrees := hagrees
        wf := ⟨hworks.wf.input, hworks.wf.output⟩
        queue := rfl
        pending := hworks.pending
        idle := hidle
        writing := hwriting
        added := hadded
        deleted := by
          intro _ hnone
          refine hdeleted ?_ hnone
          -- writing has changed, and it is off now
          intro hempty
          refine hdiffer ?_
          rw [← hwriting, ← h.writing, hnone, hempty]
        unread := hunread
        read := fun hopen' => hread.trans (h.read (hopen.mp hopen')) }

theorem close (h : Wired chan p c reading) (hp : p.interestOp chan .disableAll = .ok p') :
    Wired chan p' { c with state := .kDisconnected, isWriting := false } reading := by
  obtain ⟨hagrees, hevents, -⟩ := Poller.interestOp_inv h.agrees hp
  exact
    { agrees := hagrees
      wf := ⟨h.wf.input, h.wf.output⟩
      queue := h.queue
      pending := fun hup => absurd rfl hup
      idle := fun _ => rfl
      writing := congrArg EventMask.write hevents
      added := fun hsome => absurd hevents hsome
      deleted := fun hup => absurd rfl hup
      unread := fun hconnecting => by cases hconnecting
      read := fun hopen => by simp at hopen }

theorem establish (h : Wired chan p c reading) (hstate : c.state = .kConnecting)
    (hp : p.interestOp chan .enableReading = .ok p') :
    Wired chan p' { c with state := .kConnected } reading := by
  obtain ⟨hagrees, hevents, -⟩ := Poller.interestOp_inv h.agrees hp
  have hread : (p'.table chan).events.read = true := congrArg EventMask.read hevents
  exact
    { agrees := hagrees
      wf := ⟨h.wf.input, h.wf.output⟩
      queue := h.queue
      pending := fun _ => h.pending (by rw [hstate]; decide)
      idle := fun hdown => by cases hdown
      writing := (congrArg EventMask.write hevents).trans h.writing
      added := (h.interestOp_index hp).1
      deleted := by
        intro _ hnone
        rw [hnone] at hread
        cases hread
      unread := fun hconnecting => by cases hconnecting
      read := fun _ => hread.trans (h.unread hstate).symm }

theorem startRead (h : Wired chan p c reading)
    (hp : p.interestOp chan .enableReading = .ok p') : Wired chan p' c true := by
  obtain ⟨hagrees, hevents, -⟩ := Poller.interestOp_inv h.agrees hp
  have hread : (p'.table chan).events.read = true := congrArg EventMask.read hevents
  exact
    { h with
      agrees := hagrees
      writing := (congrArg EventMask.write hevents).trans h.writing
      added := (h.interestOp_index hp).1
      deleted := by
        intro _ hnone
        rw [hnone] at hread
        cases hread
      unread := fun _ => rfl
      read := fun _ => hread }

/-- While the connection is open the test of `stopReadInLoop` finds the channel
reading. -/
theorem stopRead (h : Wired chan p c reading) (hstate : c.state ≠ .kConnecting)
    (htest : (reading || (p.table chan).events.read) = true)
    (hp : p.interestOp chan .disableReading = .ok p') : Wired chan p' c false := by
  obtain ⟨hagrees, hevents, -⟩ := Poller.interestOp_inv h.agrees hp
  exact
    { h with
      agrees := hagrees
      writing := (congrArg EventMask.write hevents).trans h.writing
      added := (h.interestOp_index hp).1
      deleted := by
        intro hup
        refine (h.interestOp_index hp).2 ?_
        intro hempty
        have hopen : c.state = .kConnected ∨ c.state = .kDisconnecting := by
          cases hc : c.state with
          | kDisconnected => exact absurd hc hup
          | kConnecting => exact absurd hc hstate
          | kConnected => exact Or.inl rfl
          | kDisconnecting => exact Or.inr rfl
        rw [← h.read hopen, hempty] at htest
        cases htest
      unread := fun hconnecting => absurd hconnecting hstate
      read := fun _ => congrArg EventMask.read hevents }

theorem remove (h : Wired chan p c reading) (hp : p.remove chan = .ok p') :
    Wired chan p' c reading := by
  obtain ⟨hnone, hagrees, hevents, hindex⟩ := Poller.remove_inv h.agrees hp
  exact
    { h with
      agrees := hagrees
      writing := hevents ▸ h.writing
      added := fun hsome => absurd (hevents.trans hnone) hsome
      deleted := fun _ _ => by rw [hindex]; decide
      read := hevents ▸ h.read }

end Wired
end ProtoRpc
