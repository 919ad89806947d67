import Mathlib.Data.BitVec
import ProtoRpc.Rpc.Endpoint
import ProtoRpc.Rpc.MonitorProto

/-!
The calls of one end against an arbitrary peer. Ids are issued in sequence, so
fewer than `2 ^ 64` calls have distinct ones; `outstandings_` agrees with the
ledger of registrations and responses; and a call that a response settles is
run and released by the handler, while the destructor releases the others.
-/
namespace ProtoRpc

/-- The ids of `n` calls on a channel that started from `id`, the latest first. -/
def issuedIds (id : BitVec 64) : Nat → List (BitVec 64)
  | 0 => []
  | n + 1 => (id + BitVec.ofNat 64 (n + 1)) :: issuedIds id n

theorem mem_issuedIds {id x : BitVec 64} {n : Nat} (h : x ∈ issuedIds id n) :
    ∃ i, i < n ∧ x = id + BitVec.ofNat 64 (i + 1) := by
  induction n with
  | zero => exact absurd h (by simp [issuedIds])
  | succ n ih =>
      cases List.mem_cons.mp h with
      | inl hx => exact ⟨n, Nat.lt_succ_self n, hx⟩
      | inr hx =>
          obtain ⟨i, hi, hx⟩ := ih hx
          exact ⟨i, Nat.lt_succ_of_lt hi, hx⟩

/-- `2 ^ 64` increments are needed to come back to an id. -/
theorem issuedIds_nodup (id : BitVec 64) {n : Nat} (h : n < 2 ^ 64) : (issuedIds id n).Nodup := by
  induction n with
  | zero => exact List.nodup_nil
  | succ n ih =>
      refine List.nodup_cons.mpr ⟨?_, ih (Nat.lt_of_succ_lt h)⟩
      intro hmem
      obtain ⟨i, hi, hx⟩ := mem_issuedIds hmem
      have heq := congrArg BitVec.toNat (add_left_cancel hx)
      rw [BitVec.toNat_ofNat, BitVec.toNat_ofNat, Nat.mod_eq_of_lt h,
        Nat.mod_eq_of_lt (by omega)] at heq
      omega

namespace Endpoint
variable {M : Type}

/-- The calls that have an id and are not registered yet. -/
def unregistered (calling : List (Calling M)) : List (BitVec 64 × OutstandingCall M) :=
  (calling.filter fun a => !a.registered).map fun a => (a.id, a.out)

/-- What holds of ids and `outstandings_` in every reachable state. -/
structure CallInvariant (id : BitVec 64) (e : Endpoint M) : Prop where
  nextId : e.channel.id = id + BitVec.ofNat 64 (enteredCalls e.history).length
  issued : (enteredCalls e.history).map Prod.fst = issuedIds id (enteredCalls e.history).length
  entered : (enteredCalls e.history).Perm
    (unregistered e.calling ++ Ledger.opened (ledger e.history))
  lookup : ∀ k, e.channel.outstandings.lookup k = Ledger.current (ledger e.history) k

theorem ledger_response {m : RpcMessage} (htype : m.type = .response) (h : List (Event M)) :
    ledger (.received m :: h) = .closed m.id :: ledger h := by
  simp [ledger, htype]

theorem ledger_other {m : RpcMessage} (htype : m.type ≠ .response) (h : List (Event M)) :
    ledger (.received m :: h) = ledger h := by
  simp [ledger, htype]

section
variable (freed : List (BitVec 64 × OutstandingCall M)) (h : List (Event M))

/-- What the destructor adds to the history. -/
theorem ledger_freed : ledger (freed.map (fun p => .released p.1 p.2) ++ h) = ledger h := by
  simp [ledger, List.filterMap_map]

theorem ranCalls_freed : ranCalls (freed.map (fun p => .released p.1 p.2) ++ h) = ranCalls h := by
  simp [ranCalls, List.filterMap_map]

theorem releasedCalls_freed :
    releasedCalls (freed.map (fun p => .released p.1 p.2) ++ h) = freed ++ releasedCalls h := by
  simp [releasedCalls, List.filterMap_map]

end

theorem ne_response {m : RpcMessage} (htype : m.type = .request) : m.type ≠ .response := by
  rw [htype]
  simp

section
variable {w : Wire} {lib : Protobuf M} {id : BitVec 64} {e e' : Endpoint M}

theorem callInvariant_new (conn : Option TcpConnection) (services : Option (ServiceTable M)) :
    CallInvariant id (new ((RpcChannel.new conn id).setServices services)) where
  nextId := by
    change id = id + BitVec.ofNat 64 0
    simp
  issued := rfl
  entered := List.Perm.refl _
  lookup := fun k => Finmap.lookup_empty k

/-- Only ids, the table, and the events about them matter. -/
theorem CallInvariant.congr (h : CallInvariant id e) (hid : e'.channel.id = e.channel.id)
    (hout : e'.channel.outstandings = e.channel.outstandings)
    (hcalling : unregistered e'.calling = unregistered e.calling)
    (hentered : enteredCalls e'.history = enteredCalls e.history)
    (hledger : ledger e'.history = ledger e.history) : CallInvariant id e' where
  nextId := by rw [hid, hentered, h.nextId]
  issued := by rw [hentered, h.issued]
  entered := by rw [hentered, hcalling, hledger]; exact h.entered
  lookup := by rw [hout, hledger]; exact h.lookup

theorem lookup_takeOutstanding (ch : RpcChannel M) (id k : BitVec 64) :
    (ch.takeOutstanding id).2.outstandings.lookup k =
      if k = id then none else ch.outstandings.lookup k := by
  rw [RpcChannel.takeOutstanding]
  by_cases hk : k = id
  · subst hk
    rw [if_pos rfl]
    split
    · exact Finmap.lookup_erase _ _
    · assumption
  · rw [if_neg hk]
    split
    · exact Finmap.lookup_erase_ne hk
    · rfl

theorem unregistered_append (before after : List (Calling M)) :
    unregistered (before ++ after) = unregistered before ++ unregistered after := by
  simp [unregistered]

theorem CallInvariant.step {l : Label M} (h : CallInvariant id e) (hstep : Step w lib e l e') :
    CallInvariant id e' := by
  cases hstep with
  | enter halive call =>
      have hid : e.channel.id + 1#64 =
          id + BitVec.ofNat 64 ((enteredCalls e.history).length + 1) := by
        rw [h.nextId, BitVec.ofNat_add, BitVec.add_assoc]
      exact ⟨hid, congrArg₂ List.cons hid h.issued, h.entered.cons _, h.lookup⟩
  | @register before after a hcalling hnew =>
      refine ⟨h.nextId, h.issued, ?_, ?_⟩
      · have hperm := h.entered
        rw [hcalling, unregistered_append] at hperm
        change (enteredCalls e.history).Perm
          (unregistered (before ++ { a with registered := true } :: after) ++
            (a.id, a.out) :: Ledger.opened (ledger e.history))
        refine hperm.trans ?_
        simp only [unregistered_append]
        simp only [unregistered, List.filter_cons, hnew, Bool.not_false, if_true, Bool.not_true,
          Bool.false_eq_true, if_false, List.map_cons, List.append_assoc, List.cons_append]
        refine List.Perm.append_left _ ?_
        exact List.perm_middle.symm
      · intro k
        change (e.channel.outstandings.insert a.id a.out).lookup k =
          if k = a.id then some a.out else Ledger.current (ledger e.history) k
        by_cases hk : k = a.id
        · subst hk
          rw [if_pos rfl, Finmap.lookup_insert]
        · rw [if_neg hk, Finmap.lookup_insert_of_ne _ hk, h.lookup]
  | @response halive hidle m htype =>
      have hledger := ledger_response htype e.history
      refine ⟨?_, h.issued, ?_, ?_⟩
      · change (e.channel.takeOutstanding m.id).2.id = _
        rw [RpcChannel.takeOutstanding]
        split <;> exact h.nextId
      · rw [hledger]
        exact h.entered
      · intro k
        rw [hledger, Ledger.current, ← h.lookup k]
        exact lookup_takeOutstanding e.channel m.id k
  | @hand before after a hcalling hregistered inLoopThread r =>
      refine h.congr (by simp) (by simp) ?_ rfl rfl
      rw [hcalling]
      simp [unregistered, hregistered]
  | refuse hrefusing r => exact h.congr (by simp) (by simp) rfl rfl rfl
  | complete halive hclosures response inLoopThread r =>
      exact h.congr (by simp [RpcChannel.doneCallback]) (by simp [RpcChannel.doneCallback])
        rfl rfl rfl
  | refused halive hidle htype hdispatch | invoke halive hidle htype hdispatch =>
      exact h.congr rfl rfl rfl rfl (ledger_other (ne_response htype) _)
  | ignored halive hidle hresponse hrequest =>
      exact h.congr rfl rfl rfl rfl (ledger_other hresponse _)
  | runDone | finishDone | skipDone | returned | connection =>
      exact h.congr rfl rfl rfl rfl rfl
  | destroy halive hidle hcalling hfreed =>
      exact h.congr rfl rfl rfl (by simp [enteredCalls, List.filterMap_map])
        (ledger_freed _ _)

/-- The call that the handler has taken out and not run yet. -/
def taken : Handling M → List (BitVec 64 × OutstandingCall M)
  | .found m out => [(m.id, out)]
  | _ => []

/-- The call whose closure is running. -/
def runningCall : Handling M → List (BitVec 64 × OutstandingCall M)
  | .running id out => [(id, out)]
  | _ => []

/-- Every caller passes a response object and a closure. -/
def NonNull (h : List (Event M)) : Prop :=
  ∀ p ∈ enteredCalls h, p.2.response.isSome ∧ p.2.done.isSome

/-- What holds of closures and objects in every reachable state. -/
structure ReleaseInvariant (e : Endpoint M) : Prop where
  ran : Ledger.settled (ledger e.history) = taken e.handling ++ ranCalls e.history
  released : e.alive = true →
    ranCalls e.history = runningCall e.handling ++ releasedCalls e.history
  destroyed : e.alive = false → e.handling = .idle ∧ e.calling = [] ∧
    (releasedCalls e.history : Multiset (BitVec 64 × OutstandingCall M)) =
      Ledger.pairs e.channel.outstandings + ranCalls e.history

theorem releaseInvariant_new (ch : RpcChannel M) : ReleaseInvariant (new ch) where
  ran := rfl
  released := fun _ => rfl
  destroyed := fun h => absurd h (by simp [new])

theorem ReleaseInvariant.ofAlive (halive : e'.alive = true)
    (hran : Ledger.settled (ledger e'.history) = taken e'.handling ++ ranCalls e'.history)
    (hreleased : ranCalls e'.history = runningCall e'.handling ++ releasedCalls e'.history) :
    ReleaseInvariant e' where
  ran := hran
  released := fun _ => hreleased
  destroyed := fun h => absurd (halive.symm.trans h) (by simp)

/-- Once the channel is gone only its connection changes. -/
theorem ReleaseInvariant.alive_or {l : Label M} (h : ReleaseInvariant e)
    (hstep : Step w lib e l e') :
    e.alive = true ∨ ∃ conn, e' = { e with channel := e.channel.setConnection conn } := by
  by_cases halive : e.alive = true
  · exact Or.inl halive
  · obtain ⟨hidle, hcalling, -⟩ := h.destroyed (Bool.eq_false_iff.mpr halive)
    cases hstep with
    | connection conn => exact Or.inr ⟨conn, rfl⟩
    | register hc | hand hc => simp [hcalling] at hc
    | runDone hh | finishDone hh | skipDone hh | refuse hh | returned hh => simp [hidle] at hh
    | enter ha | response ha | refused ha | invoke ha | ignored ha | complete ha | destroy ha =>
        exact absurd ha halive

theorem CallInvariant.nonNull_opened (h : CallInvariant id e) (hnull : NonNull e.history)
    {p : BitVec 64 × OutstandingCall M} (hp : p ∈ Ledger.opened (ledger e.history)) :
    p.2.response.isSome ∧ p.2.done.isSome :=
  hnull p (h.entered.mem_iff.mpr (List.mem_append_right _ hp))

theorem takeOutstanding_of_lookup {ch : RpcChannel M} {k : BitVec 64} {out : OutstandingCall M}
    (h : ch.outstandings.lookup k = some out) :
    ch.takeOutstanding k = (out, { ch with outstandings := ch.outstandings.erase k }) := by
  rw [RpcChannel.takeOutstanding, h]

theorem takeOutstanding_of_none {ch : RpcChannel M} {k : BitVec 64}
    (h : ch.outstandings.lookup k = none) : ch.takeOutstanding k = (⟨none, none⟩, ch) := by
  rw [RpcChannel.takeOutstanding, h]

theorem ReleaseInvariant.step {l : Label M} (h : ReleaseInvariant e) (hcalls : CallInvariant id e)
    (hnull : NonNull e.history) (hstep : Step w lib e l e') : ReleaseInvariant e' := by
  cases h.alive_or hstep with
  | inr hconn =>
      obtain ⟨conn, rfl⟩ := hconn
      exact ⟨h.ran, h.released, h.destroyed⟩
  | inl halive =>
      have hreleased := h.released halive
      have hran := h.ran
      cases hstep with
      | enter | register | hand | connection | complete =>
          exact .ofAlive halive h.ran hreleased
      | ignored hlive hidle hresponse hrequest =>
          refine .ofAlive halive ?_ hreleased
          rw [ledger_other hresponse]
          exact hran
      | refused hlive hidle htype hdispatch =>
          rw [hidle] at hran hreleased
          refine .ofAlive halive ?_ hreleased
          rw [ledger_other (ne_response htype)]
          exact hran
      | @invoke hlive hidle m htype method request response hdispatch =>
          rw [hidle] at hran hreleased
          refine .ofAlive halive ?_ hreleased
          change Ledger.settled (ledger (.received m :: e.history)) = _
          rw [ledger_other (ne_response htype)]
          exact hran
      | returned hh | refuse hh =>
          rw [hh] at hran hreleased
          exact .ofAlive halive hran hreleased
      | @response hlive hidle m htype =>
          have hledger := ledger_response htype e.history
          rw [hidle] at hran hreleased
          cases hlookup : e.channel.outstandings.lookup m.id with
          | none =>
              refine .ofAlive halive ?_ ?_
              · rw [takeOutstanding_of_none hlookup, hledger, Ledger.settled, ← hcalls.lookup,
                  hlookup]
                exact hran
              · rw [takeOutstanding_of_none hlookup]
                exact hreleased
          | some out =>
              have hcurrent := (hcalls.lookup m.id).symm.trans hlookup
              have hsome := (hcalls.nonNull_opened hnull
                (Ledger.mem_opened_of_current hcurrent)).1
              have hafter : afterTake out m = .found m out := if_pos hsome
              refine .ofAlive halive ?_ ?_
              · rw [takeOutstanding_of_lookup hlookup, hledger, Ledger.settled, hcurrent, hran]
                simp only [hafter]
                rfl
              · rw [takeOutstanding_of_lookup hlookup]
                simp only [hafter]
                exact hreleased
      | runDone hfound hresponse hdone =>
          rw [hfound] at hran hreleased
          exact .ofAlive halive hran (congrArg (List.cons _) hreleased)
      | finishDone hrunning =>
          rw [hrunning] at hran hreleased
          exact .ofAlive halive hran hreleased
      | @skipDone m out hfound hdone =>
          rw [hfound] at hran
          have hmem : (m.id, out) ∈ Ledger.settled (ledger e.history) := by
            rw [hran]
            exact List.mem_cons_self
          have hsome := (hcalls.nonNull_opened hnull (Ledger.mem_opened_of_settled hmem)).2
          exact absurd hsome (by simp [hdone])
      | @destroy hlive hidle hcalling freed hfreed =>
          rw [hidle] at hran hreleased
          refine ⟨?_, fun h => absurd h (by simp), fun _ => ⟨hidle, hcalling, ?_⟩⟩
          · rw [ledger_freed, ranCalls_freed, hidle]
            exact hran
          · rw [ranCalls_freed, releasedCalls_freed, ← Multiset.coe_add, hfreed, hreleased]
            rfl

/-- A step only adds to the history. -/
theorem Step.history_suffix {l : Label M} (hstep : Step w lib e l e') :
    e.history <:+ e'.history := by
  cases hstep with
  | returned | connection => exact List.suffix_rfl
  | destroy => exact List.suffix_append _ _
  | invoke | complete =>
      exact (List.suffix_cons _ _).trans (List.suffix_cons _ _)
  | _ => exact List.suffix_cons _ _

theorem NonNull.of_suffix {h h' : List (Event M)} (hsuffix : h <:+ h') (hnull : NonNull h') :
    NonNull h := by
  obtain ⟨newer, rfl⟩ := hsuffix
  intro p hp
  refine hnull p ?_
  rw [enteredCalls, List.filterMap_append]
  exact List.mem_append_right _ hp

variable {allowed : Endpoint M → Label M → Prop} {conn : Option TcpConnection}
  {services : Option (ServiceTable M)}

theorem callInvariant_of_reaches (h : Reaches w lib allowed conn id services e) :
    CallInvariant id e := by
  induction h with
  | refl => exact callInvariant_new conn services
  | tail _ hmove ih =>
      obtain ⟨l, -, hstep⟩ := hmove
      exact ih.step hstep

theorem releaseInvariant_of_reaches (h : Reaches w lib allowed conn id services e)
    (hnull : NonNull e.history) : ReleaseInvariant e := by
  induction h with
  | refl => exact releaseInvariant_new _
  | tail hreach hmove ih =>
      obtain ⟨l, -, hstep⟩ := hmove
      have hbefore := hnull.of_suffix hstep.history_suffix
      exact (ih hbefore).step (callInvariant_of_reaches hreach) hbefore hstep

/-- Fewer than `2 ^ 64` calls are registered under different ids. -/
theorem CallInvariant.opened_nodup (h : CallInvariant id e)
    (hcount : (enteredCalls e.history).length < 2 ^ 64) :
    ((enteredCalls e.history).map Prod.fst).Nodup ∧
      ((Ledger.opened (ledger e.history)).map Prod.fst).Nodup := by
  have hids : ((enteredCalls e.history).map Prod.fst).Nodup := by
    rw [h.issued]
    exact issuedIds_nodup id hcount
  refine ⟨hids, ?_⟩
  have happend := ((h.entered.map Prod.fst).nodup_iff).mp hids
  rw [List.map_append] at happend
  exact happend.of_append_right

theorem closed_mem_ledger {h : List (Event M)} {k : BitVec 64} :
    .closed k ∈ ledger h ↔ ∃ m, .received m ∈ h ∧ m.type = .response ∧ m.id = k := by
  rw [ledger, List.mem_filterMap]
  constructor
  · rintro ⟨ev, hev, hmap⟩
    cases ev with
    | received m =>
        by_cases htype : m.type = .response
        · simp only [htype, if_true, Option.some.injEq, Ledger.Entry.closed.injEq] at hmap
          exact ⟨m, hev, htype, hmap⟩
        · simp [htype] at hmap
    | registered => simp at hmap
    | _ => cases hmap
  · rintro ⟨m, hm, htype, rfl⟩
    exact ⟨.received m, hm, by simp [htype]⟩

/-- A registration in the ledger is one in the history. -/
theorem ledger_eq_append_iff {h : List (Event M)} {k : BitVec 64} {out : OutstandingCall M} :
    (∃ newer older, ledger h = newer ++ .opened k out :: older ∧ .closed k ∉ newer) ↔
      ∃ newer older, h = newer ++ .registered k out :: older ∧
        ∀ m, .received m ∈ newer → m.type = .response → m.id ≠ k := by
  constructor
  · rintro ⟨newer, older, heq, hclosed⟩
    obtain ⟨h₁, h₂, rfl, rfl, hrest⟩ := List.filterMap_eq_append_iff.mp heq
    obtain ⟨skipped, ev, h₃, rfl, hskipped, hev, -⟩ := List.filterMap_eq_cons_iff.mp hrest
    have hreg : ev = .registered k out := by
      cases ev with
      | registered id' out' =>
          simp only [Option.some.injEq, Ledger.Entry.opened.injEq] at hev
          rw [hev.1, hev.2]
      | received m =>
          by_cases htype : m.type = .response <;> simp [htype] at hev
      | _ => cases hev
    subst hreg
    refine ⟨h₁ ++ skipped, h₃, by simp, ?_⟩
    intro m hm htype hid
    cases List.mem_append.mp hm with
    | inl hm => exact hclosed (closed_mem_ledger.mpr ⟨m, hm, htype, hid⟩)
    | inr hm => exact absurd (hskipped _ hm) (by simp [htype])
  · rintro ⟨newer, older, rfl, hnone⟩
    refine ⟨ledger newer, ledger older, ?_, ?_⟩
    · simp [ledger]
    · intro hclosed
      obtain ⟨m, hm, htype, hid⟩ := closed_mem_ledger.mp hclosed
      exact hnone m hm htype hid

theorem Step.of_response {m : RpcMessage} (htype : m.type = .response)
    (hstep : Step w lib e (.receive m) e') :
    e' = { e with
      channel := (e.channel.takeOutstanding m.id).2
      handling := afterTake (e.channel.takeOutstanding m.id).1 m
      history := .received m :: e.history } ∧ e.handling = .idle := by
  cases hstep with
  | response halive hidle _ => exact ⟨rfl, hidle⟩
  | refused halive hidle hrequest | invoke halive hidle hrequest =>
      exact absurd htype (ne_response hrequest)
  | ignored halive hidle hresponse hrequest => exact absurd htype hresponse

/-- A RESPONSE taken in state `e` leads to `e'`. -/
structure Answered (w : Wire) (lib : Protobuf M) (e e' : Endpoint M) (m : RpcMessage) : Prop where
  others : ∀ k, k ≠ m.id → e'.channel.outstandings.lookup k = e.channel.outstandings.lookup k
  removed : e'.channel.outstandings.lookup m.id = none
  unknown : e.channel.outstandings.lookup m.id = none →
    e' = { e with history := .received m :: e.history }
  /-- The handler goes on to run the closure of that call, and of no other. -/
  known : ∀ out, e.channel.outstandings.lookup m.id = some out →
    ∃ response, out.response = some response ∧ (∃ e'', Step w lib e' .done e'') ∧
      ∀ e'', Step w lib e' .done e'' → e''.history =
        .ranDone m.id out (RpcChannel.fillResponse lib response m) :: e'.history

/-- At-most-once completion, as it stands in a state of a run. -/
structure AtMostOnce (w : Wire) (lib : Protobuf M) (e : Endpoint M) : Prop where
  entries : e.alive = true → ∀ k out, e.channel.outstandings.lookup k = some out ↔
    ∃ newer older, e.history = newer ++ .registered k out :: older ∧
      ∀ m, .received m ∈ newer → m.type = .response → m.id ≠ k
  own : ∀ k out, .registered k out ∈ e.history →
    ∃ call, .entered k call ∈ e.history ∧ out = ⟨call.response, call.done⟩
  distinct : ((enteredCalls e.history).map Prod.fst).Nodup
  answered : ∀ m e', m.type = .response → Step w lib e (.receive m) e' → Answered w lib e e' m
  /-- The closures run are those of the calls that a RESPONSE settled. -/
  ran : Ledger.settled (ledger e.history) = taken e.handling ++ ranCalls e.history
  ranOnce : ((ranCalls e.history).map Prod.fst).Nodup
  releasedOnce : ((releasedCalls e.history).map Prod.fst).Nodup ∧
    ∀ p ∈ releasedCalls e.history, p ∈ enteredCalls e.history
  /-- After the destructor every call's pair has been released. -/
  releasedAll : e.alive = false → (releasedCalls e.history).Perm (enteredCalls e.history)

theorem answered_of_step {m : RpcMessage} (hcalls : CallInvariant id e)
    (hnull : NonNull e.history) (htype : m.type = .response)
    (hstep : Step w lib e (.receive m) e') : Answered w lib e e' m := by
  obtain ⟨rfl, hidle⟩ := hstep.of_response htype
  refine ⟨?_, ?_, ?_, ?_⟩
  · intro k hk
    exact (lookup_takeOutstanding e.channel m.id k).trans (if_neg hk)
  · exact (lookup_takeOutstanding e.channel m.id m.id).trans (if_pos rfl)
  · intro hnone
    simp only [takeOutstanding_of_none hnone, afterTake, Option.isSome_none, Bool.false_eq_true,
      if_false, ← hidle]
  · intro out hout
    have hmem := Ledger.mem_opened_of_current ((hcalls.lookup m.id).symm.trans hout)
    obtain ⟨hresponse, hdone⟩ := hcalls.nonNull_opened hnull hmem
    obtain ⟨response, hresponse⟩ := Option.isSome_iff_exists.mp hresponse
    obtain ⟨done, hdone⟩ := Option.isSome_iff_exists.mp hdone
    have hafter : afterTake (e.channel.takeOutstanding m.id).1 m = .found m out := by
      rw [takeOutstanding_of_lookup hout, afterTake, hresponse]
      rfl
    refine ⟨response, hresponse, ⟨_, .runDone hafter hresponse hdone⟩, ?_⟩
    intro e'' hrun
    cases hrun with
    | runDone hfound hresponse' hdone' =>
        obtain ⟨rfl, rfl⟩ := Handling.found.inj (hafter.symm.trans hfound)
        rw [Option.some.inj (hresponse.symm.trans hresponse')]
    | finishDone hrunning => exact absurd (hafter.symm.trans hrunning) (by simp)
    | skipDone hfound hnone =>
        obtain ⟨rfl, rfl⟩ := Handling.found.inj (hafter.symm.trans hfound)
        exact absurd (hdone.symm.trans hnone) (by simp)

theorem registered_mem_opened {h : List (Event M)} {k : BitVec 64} {out : OutstandingCall M}
    (hmem : .registered k out ∈ h) : (k, out) ∈ Ledger.opened (ledger h) := by
  obtain ⟨newer, older, rfl⟩ := List.append_of_mem hmem
  have hsplit : ledger (newer ++ .registered k out :: older) =
      ledger newer ++ .opened k out :: ledger older := by simp [ledger]
  rw [hsplit, Ledger.opened_append]
  exact List.mem_append_right _ List.mem_cons_self

theorem entered_of_mem {h : List (Event M)} {k : BitVec 64} {out : OutstandingCall M}
    (hmem : (k, out) ∈ enteredCalls h) :
    ∃ call, .entered k call ∈ h ∧ out = ⟨call.response, call.done⟩ := by
  obtain ⟨ev, hev, hmap⟩ := List.mem_filterMap.mp hmem
  cases ev with
  | entered id' call =>
      simp only [Option.some.injEq, Prod.mk.injEq] at hmap
      obtain ⟨rfl, rfl⟩ := hmap
      exact ⟨call, hev, rfl⟩
  | _ => cases hmap

/-- Every interleaving of calls with any sequence of messages from the peer. -/
theorem atMostOnce_of_reaches (w : Wire) (lib : Protobuf M) (conn : Option TcpConnection)
    (id : BitVec 64) (services : Option (ServiceTable M)) (e : Endpoint M)
    (hreach : Reaches w lib (fun _ _ => True) conn id services e)
    (hcount : (enteredCalls e.history).length < 2 ^ 64) (hnull : NonNull e.history) :
    AtMostOnce w lib e := by
  have hcalls := callInvariant_of_reaches hreach
  have hrelease := releaseInvariant_of_reaches hreach hnull
  obtain ⟨hentered, hopened⟩ := hcalls.opened_nodup hcount
  have hconserved := Ledger.opened_eq_pairs_add_settled hopened _ hcalls.lookup
  have hsub : ∀ p ∈ Ledger.opened (ledger e.history), p ∈ enteredCalls e.history :=
    fun p hp => hcalls.entered.mem_iff.mpr (List.mem_append_right _ hp)
  have hsettled : ((Ledger.settled (ledger e.history)).map Prod.fst).Nodup := by
    have hkeys := congrArg (Multiset.map Prod.fst) hconserved
    rw [Multiset.map_add, Multiset.map_coe, Multiset.map_coe] at hkeys
    exact Multiset.coe_nodup.mp
      (Multiset.nodup_add.mp (hkeys ▸ Multiset.coe_nodup.mpr hopened)).2.1
  have hran : ((ranCalls e.history).map Prod.fst).Nodup := by
    rw [hrelease.ran, List.map_append] at hsettled
    exact hsettled.of_append_right
  have hdead : e.alive = false →
      (releasedCalls e.history).Perm (Ledger.opened (ledger e.history)) := by
    intro hdead
    obtain ⟨hidle, -, hfreed⟩ := hrelease.destroyed hdead
    have hall := hrelease.ran
    rw [hidle] at hall
    rw [hall] at hconserved
    exact Multiset.coe_eq_coe.mp (hfreed.trans hconserved.symm)
  refine ⟨?_, ?_, hentered, ?_, hrelease.ran, hran, ?_, ?_⟩
  · intro _ k out
    rw [hcalls.lookup, Ledger.current_eq_some_iff hopened]
    exact ledger_eq_append_iff
  · intro k out hmem
    exact entered_of_mem (hsub _ (registered_mem_opened hmem))
  · intro m e' htype hstep
    exact answered_of_step hcalls hnull htype hstep
  · cases halive : e.alive with
    | true =>
        have hreleased := hrelease.released halive
        rw [hreleased, List.map_append] at hran
        refine ⟨hran.of_append_right, fun p hp => hsub p (Ledger.mem_opened_of_settled ?_)⟩
        rw [hrelease.ran, hreleased]
        exact List.mem_append_right _ (List.mem_append_right _ hp)
    | false =>
        have hperm := hdead halive
        exact ⟨((hperm.map Prod.fst).nodup_iff).mpr hopened,
          fun p hp => hsub p (hperm.mem_iff.mp hp)⟩
  · intro halive
    have hperm := hcalls.entered
    rw [(hrelease.destroyed halive).2.1] at hperm
    exact (hdead halive).trans hperm.symm

end

/-- A peer answers the first call, whose id has wrapped to 0, before its request
is sent, and then the channel is destroyed. -/
theorem atMostOnce_one_call :
    ∃ e, Reaches protobufWire monitorProtobuf (fun _ _ => True) none (BitVec.allOnes 64) none e ∧
      e.alive = false ∧ ranCalls e.history = [(0, ⟨monitorCall.response, some 32⟩)] ∧
      AtMostOnce protobufWire monitorProtobuf e := by
  let m : RpcMessage := RpcChannel.doneReply monitorProtobuf (.testResponse true "") 0
  have hrun : ∃ e, Reaches protobufWire monitorProtobuf (fun _ _ => True) none
      (BitVec.allOnes 64) none e ∧ e.alive = false ∧
      ranCalls e.history = [(0, ⟨monitorCall.response, some 32⟩)] ∧
      enteredCalls e.history = [(0, ⟨monitorCall.response, some 32⟩)] := by
    refine ⟨_, .tail (.tail (.tail (.tail (.tail (.tail (.tail .refl
      ⟨_, trivial, .enter rfl monitorCall⟩)
      ⟨_, trivial, @Step.register _ _ _ _ [] [] _ rfl rfl⟩)
      ⟨_, trivial, @Step.response _ _ _ _ rfl rfl m rfl⟩)
      ⟨_, trivial, .runDone rfl rfl rfl⟩)
      ⟨_, trivial, .finishDone rfl⟩)
      ⟨_, trivial, @Step.hand _ _ _ _ [] [] _ rfl rfl true (.wrote 0)⟩)
      ⟨_, trivial, @Step.destroy _ _ _ _ rfl rfl rfl [] ?_⟩, rfl, rfl, rfl⟩
    simp only [RpcChannel.send_outstandings]
    rfl
  obtain ⟨e, hreach, hdead, hran, hentered⟩ := hrun
  refine ⟨e, hreach, hdead, hran, ?_⟩
  refine atMostOnce_of_reaches _ _ _ _ _ e hreach (by rw [hentered]; decide) ?_
  intro p hp
  rw [hentered, List.mem_singleton] at hp
  subst hp
  exact ⟨rfl, rfl⟩

end Endpoint
end ProtoRpc
