import ProtoRpc.Network.Poller

/-!
The three copies of a registration agree. An operation on a channel leaves it
registered in one way in its index, in `channels_` and in the kernel's list, and
touches no other channel; so the agreement is kept by every sequence of
operations on channels that do not share an fd.
-/
namespace ProtoRpc.Poller

variable {C : Type}

structure Agrees (p : Poller C) : Prop where
  listed : ∀ fd c, p.channels fd = some c ↔ (p.table c).fd = fd ∧ (p.table c).index ≠ .kNew
  polled : ∀ fd mask c, p.interest fd = some (mask, c) ↔
    (p.table c).fd = fd ∧ (p.table c).index = .kAdded ∧ mask = (p.table c).events
  legal : ∀ r ∈ p.issued, r.accepted = true

/-- No other channel is registered with the fd of `c`. -/
def Sole (p : Poller C) (c : C) : Prop :=
  ∀ d, d ≠ c → (p.table d).index ≠ .kNew → (p.table d).fd ≠ (p.table c).fd

/-- Channel `c` becomes `ch`, in all three copies. -/
def become [DecidableEq C] (p : Poller C) (c : C) (ch : Channel) (ctls : List Ctl) : Poller C :=
  { table := Function.update p.table c ch
    channels := Function.update p.channels ch.fd (if ch.index = .kNew then none else some c)
    interest := Function.update p.interest ch.fd
      (if ch.index = .kAdded then some (ch.events, c) else none)
    issued := ctls ++ p.issued }

section
variable {p : Poller C} {c : C} {ch : Channel} {ctls : List Ctl}

theorem Agrees.out_of_poller (h : p.Agrees) (hindex : (p.table c).index = .kNew) :
    (∀ fd, p.channels fd ≠ some c) ∧ ∀ fd mask, p.interest fd ≠ some (mask, c) := by
  refine ⟨?_, ?_⟩
  · intro fd hlisted
    exact ((h.listed _ _).mp hlisted).2 hindex
  · intro fd mask hinterest
    cases hindex.symm.trans ((h.polled _ _ _).mp hinterest).2.1

theorem agrees_new (fd : C → Int) : Agrees (new fd) where
  listed := fun _ _ => by simp [new, Channel.new]
  polled := fun _ _ _ => by simp [new, Channel.new]
  legal := fun _ hr => absurd hr List.not_mem_nil

theorem Agrees.sole (h : Agrees p) (hindex : (p.table c).index ≠ .kNew) : Sole p c := by
  intro d hd hregistered hfd
  have hc := (h.listed _ c).mpr ⟨rfl, hindex⟩
  have hd' := (h.listed _ d).mpr ⟨hfd, hregistered⟩
  exact hd (Option.some.inj (hd'.symm.trans hc))

theorem Agrees.interest_of_not_added (h : Agrees p) (hsole : Sole p c)
    (hindex : (p.table c).index ≠ .kAdded) : p.interest (p.table c).fd = none := by
  cases hinterest : p.interest (p.table c).fd with
  | none => rfl
  | some entry =>
      obtain ⟨hfd, hadded, -⟩ := (h.polled _ entry.1 entry.2).mp hinterest
      by_cases hc : entry.2 = c
      · exact absurd (hc ▸ hadded) hindex
      · exact absurd hfd (hsole entry.2 hc (by rw [hadded]; simp))

theorem Agrees.channels_of_new (h : Agrees p) (hsole : Sole p c)
    (hindex : (p.table c).index = .kNew) : p.channels (p.table c).fd = none := by
  cases hchannels : p.channels (p.table c).fd with
  | none => rfl
  | some d =>
      obtain ⟨hfd, hregistered⟩ := (h.listed _ d).mp hchannels
      by_cases hd : d = c
      · exact absurd hindex (hd ▸ hregistered)
      · exact absurd hfd (hsole d hd hregistered)

variable [DecidableEq C]

theorem Agrees.become (h : Agrees p) (hsole : Sole p c) (hch : ch.fd = (p.table c).fd)
    (hctls : ∀ r ∈ ctls, r.accepted = true) : Agrees (p.become c ch ctls) where
  listed := by
    intro fd d
    simp only [Poller.become]
    by_cases hd : d = c
    · subst hd
      rw [Function.update_self]
      by_cases hfd : fd = ch.fd
      · subst hfd
        by_cases hindex : ch.index = .kNew
        · simp [hindex]
        · simp [hindex]
      · rw [Function.update_of_ne hfd, h.listed, ← hch]
        simp [Ne.symm hfd]
    · rw [Function.update_of_ne hd]
      by_cases hfd : fd = ch.fd
      · subst hfd
        rw [Function.update_self, hch]
        constructor
        · intro hsome
          split at hsome
          · cases hsome
          · exact absurd (Option.some.inj hsome).symm hd
        · rintro ⟨hsame, hindex⟩
          exact absurd hsame (hsole d hd hindex)
      · rw [Function.update_of_ne hfd, h.listed]
  polled := by
    intro fd mask d
    simp only [Poller.become]
    by_cases hd : d = c
    · subst hd
      rw [Function.update_self]
      by_cases hfd : fd = ch.fd
      · subst hfd
        by_cases hindex : ch.index = .kAdded
        · simp [hindex, eq_comm]
        · simp [hindex]
      · rw [Function.update_of_ne hfd, h.polled, ← hch]
        simp [Ne.symm hfd]
    · rw [Function.update_of_ne hd]
      by_cases hfd : fd = ch.fd
      · subst hfd
        rw [Function.update_self, hch]
        constructor
        · intro hsome
          split at hsome
          · exact absurd (Prod.mk.inj (Option.some.inj hsome)).2.symm hd
          · cases hsome
        · rintro ⟨hsame, hindex, -⟩
          exact absurd hsame (hsole d hd (by rw [hindex]; simp))
      · rw [Function.update_of_ne hfd, h.polled]
  legal := by
    intro r hr
    cases List.mem_append.mp hr with
    | inl hnew => exact hctls r hnew
    | inr hold => exact h.legal r hold

/-- The index that an interest operation leaves. -/
def indexAfter (index : PollerIndex) (events : EventMask) : PollerIndex :=
  if index = .kAdded ∧ events = .noneEvent then .kDeleted else .kAdded

/-- The `epoll_ctl` that an interest operation issues. -/
def ctlFor (index : PollerIndex) (events : EventMask) : CtlOp :=
  if index ≠ .kAdded then .add else if events = .noneEvent then .del else .mod

theorem interestOp_eq (h : Agrees p) (hsole : Sole p c) (op : InterestOp) :
    p.interestOp c op = .ok (p.become c
      { fd := (p.table c).fd
        events := op.apply (p.table c).events
        index := indexAfter (p.table c).index (op.apply (p.table c).events)
        addedToLoop := true }
      [⟨ctlFor (p.table c).index (op.apply (p.table c).events), (p.table c).fd, true⟩]) := by
  have hlisted : (p.table c).index ≠ .kNew → p.channels (p.table c).fd = some c :=
    fun hindex => (h.listed _ c).mpr ⟨rfl, hindex⟩
  have hkeep : p.channels (p.table c).fd = some c →
      Function.update p.channels (p.table c).fd (some c) = p.channels := by
    intro hchannels
    rw [← hchannels, Function.update_eq_self]
  cases hindex : (p.table c).index with
  | kNew =>
      have hchannels := h.channels_of_new hsole hindex
      have hinterest := h.interest_of_not_added hsole (by rw [hindex]; simp)
      simp [interestOp, updateChannel, setChannel, setIndex, update, epollCtl, hindex, hchannels,
        hinterest, Poller.become, indexAfter, ctlFor]
  | kDeleted =>
      have hchannels := hlisted (by rw [hindex]; simp)
      have hinterest := h.interest_of_not_added hsole (by rw [hindex]; simp)
      simp [interestOp, updateChannel, setChannel, setIndex, update, epollCtl, hindex, hchannels,
        hinterest, Poller.become, indexAfter, ctlFor, hkeep]
  | kAdded =>
      have hchannels := hlisted (by rw [hindex]; simp)
      have hinterest := (h.polled (p.table c).fd _ c).mpr ⟨rfl, hindex, rfl⟩
      by_cases hnone : op.apply (p.table c).events = .noneEvent
      · simp [interestOp, updateChannel, setChannel, setIndex, update, epollCtl, hindex, hchannels,
          hinterest, Poller.become, indexAfter, ctlFor, hkeep, Channel.isNoneEvent, hnone]
      · simp [interestOp, updateChannel, setChannel, update, epollCtl, hindex, hchannels,
          hinterest, Poller.become, indexAfter, ctlFor, hkeep, Channel.isNoneEvent, hnone]

theorem remove_eq (h : Agrees p) (hindex : (p.table c).index ≠ .kNew)
    (hnone : (p.table c).isNoneEvent = true) :
    p.remove c = .ok (p.become c
      { fd := (p.table c).fd
        events := (p.table c).events
        index := .kNew
        addedToLoop := false }
      (if (p.table c).index = .kAdded then [⟨.del, (p.table c).fd, true⟩] else [])) := by
  have hchannels := (h.listed (p.table c).fd c).mpr ⟨rfl, hindex⟩
  have hevents : (p.table c).events = .noneEvent := by
    simpa [Channel.isNoneEvent] using hnone
  cases hold : (p.table c).index with
  | kNew => exact absurd hold hindex
  | kAdded =>
      have hinterest := (h.polled (p.table c).fd _ c).mpr ⟨rfl, hold, rfl⟩
      simp [remove, removeChannel, setChannel, setIndex, update, epollCtl, hold, hchannels,
        hinterest, Channel.isNoneEvent, hevents, Poller.become]
  | kDeleted =>
      have hinterest : Function.update p.interest (p.table c).fd none = p.interest := by
        rw [← h.interest_of_not_added (h.sole hindex) (by rw [hold]; simp),
          Function.update_eq_self]
      simp [remove, removeChannel, setChannel, setIndex, hold, hchannels, hinterest,
        Channel.isNoneEvent, hevents, Poller.become]

/-- What the owner of a channel sees of its operations. -/
theorem interestOp_spec (h : Agrees p) (hsole : Sole p c) (op : InterestOp) :
    ∃ p', p.interestOp c op = .ok p' ∧ Agrees p' ∧
      (p'.table c).events = op.apply (p.table c).events ∧
      (p'.table c).index = indexAfter (p.table c).index (op.apply (p.table c).events) := by
  refine ⟨_, interestOp_eq h hsole op, h.become hsole rfl ?_, ?_, ?_⟩
  · simp
  · simp [Poller.become]
  · simp [Poller.become]

theorem remove_spec (h : Agrees p) (hindex : (p.table c).index ≠ .kNew)
    (hnone : (p.table c).isNoneEvent = true) :
    ∃ p', p.remove c = .ok p' ∧ Agrees p' ∧ (p'.table c).events = (p.table c).events ∧
      (p'.table c).index = .kNew := by
  refine ⟨_, remove_eq h hindex hnone, h.become (h.sole hindex) rfl ?_, ?_, ?_⟩
  · split <;> simp
  · simp [Poller.become]
  · simp [Poller.become]

theorem sole_of_interestOp (h : Agrees p) {op : InterestOp} {p' : Poller C}
    (hp : p.interestOp c op = .ok p') : Sole p c := by
  by_cases hindex : (p.table c).index = .kNew
  · have hchannels : p.channels (p.table c).fd = none := by
      by_contra hlisted
      simp [interestOp, updateChannel, setChannel, hindex, hlisted] at hp
    intro d hd hregistered hfd
    rw [← hfd, (h.listed _ d).mpr ⟨rfl, hregistered⟩] at hchannels
    cases hchannels
  · exact h.sole hindex

theorem interestOp_inv (h : Agrees p) {op : InterestOp} {p' : Poller C}
    (hp : p.interestOp c op = .ok p') :
    Agrees p' ∧ (p'.table c).events = op.apply (p.table c).events ∧
      (p'.table c).index = indexAfter (p.table c).index (op.apply (p.table c).events) := by
  obtain ⟨q, hq, hspec⟩ := interestOp_spec h (sole_of_interestOp h hp) op
  cases hq.symm.trans hp
  exact hspec

theorem registered_of_remove (h : Agrees p) {p' : Poller C} (hp : p.remove c = .ok p') :
    (p.table c).index ≠ .kNew ∧ (p.table c).isNoneEvent = true := by
  obtain ⟨_, hrequired, hremove⟩ := bind_ok_inv hp
  obtain ⟨_, -, hremove⟩ := bind_ok_inv hremove
  obtain ⟨_, hlisted, -⟩ := bind_ok_inv hremove
  have hchannels := require_inv hlisted
  simp only [setChannel, Function.update_self] at hchannels
  exact ⟨((h.listed _ c).mp hchannels).2, require_inv hrequired⟩

theorem remove_inv (h : Agrees p) {p' : Poller C} (hp : p.remove c = .ok p') :
    (p.table c).events = .noneEvent ∧ Agrees p' ∧ (p'.table c).events = (p.table c).events ∧
      (p'.table c).index = .kNew := by
  obtain ⟨hindex, hnone⟩ := registered_of_remove h hp
  obtain ⟨q, hq, hspec⟩ := remove_spec h hindex hnone
  cases hq.symm.trans hp
  exact ⟨by simpa [Channel.isNoneEvent] using hnone, hspec⟩

end

/-- A call on a channel of the loop. -/
inductive Call (C : Type) where
  | interest (c : C) (op : InterestOp)
  | remove (c : C)

section
variable [DecidableEq C]

def exec (p : Poller C) : Call C → Except Fault (Poller C)
  | .interest c op => p.interestOp c op
  | .remove c => p.remove c

/-- A channel is registered only while no other has its fd, and removed only
where the assertions allow it. -/
def Allowed (p : Poller C) : Call C → Prop
  | .interest c _ => (p.table c).index = .kNew → Sole p c
  | .remove c => (p.table c).index ≠ .kNew ∧ (p.table c).isNoneEvent = true

def Step (p : Poller C) (call : Call C) (p' : Poller C) : Prop :=
  Allowed p call ∧ p.exec call = .ok p'

variable {p p' : Poller C} {call : Call C}

/-- The state that a call leaves a channel in. -/
def Call.after (p : Poller C) : Call C → C × Channel
  | .interest c op =>
      (c, { fd := (p.table c).fd
            events := op.apply (p.table c).events
            index := indexAfter (p.table c).index (op.apply (p.table c).events)
            addedToLoop := true })
  | .remove c => (c, { p.table c with index := .kNew, addedToLoop := false })

/-- What a call does, in one line for all of them. -/
theorem exec_eq (h : Agrees p) (hallowed : Allowed p call) :
    Sole p (call.after p).1 ∧ (call.after p).2.fd = (p.table (call.after p).1).fd ∧
      ∃ ctls, (∀ r ∈ ctls, r.accepted = true) ∧
        p.exec call = .ok (p.become (call.after p).1 (call.after p).2 ctls) := by
  cases call with
  | interest c op =>
      have hsole : Sole p c := by
        by_cases hindex : (p.table c).index = .kNew
        · exact hallowed hindex
        · exact h.sole hindex
      refine ⟨hsole, rfl, _, ?_, interestOp_eq h hsole op⟩
      simp
  | remove c =>
      refine ⟨h.sole hallowed.1, rfl, _, ?_, remove_eq h hallowed.1 hallowed.2⟩
      split <;> simp

theorem Step.become (h : Agrees p) (hstep : Step p call p') :
    Agrees p' ∧ ∃ ctls, p' = p.become (call.after p).1 (call.after p).2 ctls := by
  obtain ⟨hsole, hfd, ctls, hctls, hexec⟩ := exec_eq h hstep.1
  rw [hstep.2] at hexec
  cases hexec
  exact ⟨h.become hsole hfd hctls, ctls, rfl⟩

theorem Agrees.fillActiveChannels (h : Agrees p) {capacity : Nat} {reports : List (Report C)}
    (hreports : Reports p capacity reports) :
    p.fillActiveChannels capacity reports = .ok (reports.map fun r => (r.ptr, r.revents)) := by
  have hactive : ∀ r ∈ reports, p.activeChannel r = .ok (r.ptr, r.revents) := by
    intro r hr
    obtain ⟨fd, mask, hinterest, -⟩ := hreports.interested r hr
    obtain ⟨rfl, hadded, -⟩ := (h.polled _ _ _).mp hinterest
    have hlisted := (h.listed _ r.ptr).mpr ⟨rfl, by rw [hadded]; simp⟩
    simp [activeChannel, hlisted]
  rw [Poller.fillActiveChannels, require_of_true hreports.fits, ok_bind]
  clear hreports
  induction reports with
  | nil => rfl
  | cons r rest ih =>
      rw [List.mapM_cons, hactive r List.mem_cons_self, ok_bind,
        ih fun r' hr' => hactive r' (List.mem_cons_of_mem r hr')]
      rfl

/-- After every call the three copies of every registration say the same, and
neither the next call nor the next poll can fail. -/
theorem bookkeeping_agrees {fd : C → Int} {calls : List (Call C)}
    (hrun : Transition.Run Step (new fd) calls p) :
    (∀ c, ((p.table c).index = .kNew ↔ ∀ fd, p.channels fd ≠ some c) ∧
      ((p.table c).index = .kAdded ↔ p.channels (p.table c).fd = some c ∧
        p.interest (p.table c).fd = some ((p.table c).events, c)) ∧
      ((p.table c).index = .kDeleted ↔ p.channels (p.table c).fd = some c ∧
        p.interest (p.table c).fd = none)) ∧
    (∀ r ∈ p.issued, r.accepted = true) ∧
    (∀ call, Allowed p call → ∃ p', p.exec call = .ok p') ∧
    ∀ capacity reports, Reports p capacity reports →
      ∃ active, p.fillActiveChannels capacity reports = .ok active := by
  have h : Agrees p := hrun.invariant (agrees_new fd) fun _ _ _ h hstep => (hstep.become h).1
  refine ⟨?_, h.legal, ?_, ?_⟩
  · intro c
    have hadded : p.interest (p.table c).fd = some ((p.table c).events, c) ↔
        (p.table c).index = .kAdded := by
      simp [h.polled]
    refine ⟨?_, ?_, ?_⟩
    · simp [h.listed]
    · rw [hadded, h.listed]
      constructor
      · intro hindex
        simp [hindex]
      · exact fun hboth => hboth.2
    · rw [h.listed]
      constructor
      · intro hindex
        have hregistered : (p.table c).index ≠ .kNew := by rw [hindex]; simp
        exact ⟨⟨rfl, hregistered⟩,
          h.interest_of_not_added (h.sole hregistered) (by rw [hindex]; simp)⟩
      · rintro ⟨⟨-, hregistered⟩, hnone⟩
        cases hindex : (p.table c).index with
        | kNew => exact absurd hindex hregistered
        | kAdded => simp [hadded.mpr hindex] at hnone
        | kDeleted => rfl
  · intro call hallowed
    obtain ⟨-, -, ctls, -, hexec⟩ := exec_eq h hallowed
    exact ⟨_, hexec⟩
  · intro capacity reports hreports
    exact ⟨_, h.fillActiveChannels hreports⟩

/-- The channel of a `Connector`, and then that of the connection on its fd. -/
theorem reused_fd_run : ∃ p : Poller Bool,
    Transition.Run Step (new fun _ => 7) [.interest true .enableWriting, .interest true .disableAll,
      .remove true, .interest false .enableReading] p ∧
    p.table false = ⟨7, ⟨true, false⟩, .kAdded, true⟩ := by
  refine ⟨_, (((Transition.Run.nil.snoc ⟨?add, rfl⟩).snoc ⟨?disable, rfl⟩).snoc
    ⟨?remove, rfl⟩).snoc ⟨?reuse, rfl⟩, ?_⟩
  case add => exact fun _ _ _ hd => absurd rfl hd
  case disable => exact fun hnew => nomatch hnew
  case remove => exact ⟨by decide, rfl⟩
  case reuse =>
    intro _ d hne hd
    cases d with
    | false => exact absurd rfl hne
    | true => exact absurd rfl hd
  rfl

theorem bookkeeping_agrees_reused_fd : ∃ p : Poller Bool,
    Transition.Run Step (new fun _ => 7) [.interest true .enableWriting, .interest true .disableAll,
      .remove true, .interest false .enableReading] p ∧
    p.channels 7 = some false ∧ p.interest 7 = some (⟨true, false⟩, false) := by
  obtain ⟨p, hrun, htable⟩ := reused_fd_run
  have hagrees := ((bookkeeping_agrees hrun).1 false).2.1
  rw [htable] at hagrees
  exact ⟨p, hrun, hagrees.mp rfl⟩

end
end ProtoRpc.Poller
