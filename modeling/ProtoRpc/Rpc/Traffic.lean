import ProtoRpc.Rpc.Replies

/-!
The messages of one end as they go in and out, counted by id: a registered call
is still inside `CallMethod` or its request was sent, a request that came in is
still open or its reply was sent, and a closure is run on the bytes of a
response that was received. Two ends that are joined are counted with these.
-/
namespace ProtoRpc.Endpoint

variable {M : Type}

/-- The calls that are registered and not sent yet. -/
def submitting (e : Endpoint M) : List (BitVec 64) :=
  (e.calling.filter fun a => a.registered).map Calling.id

/-- The ids under which the peer waits for a reply that is not sent yet. -/
def processing (e : Endpoint M) : List (BitVec 64) :=
  e.closures.map Closure.id ++
    match e.handling with
    | .refusing _ id _ => [id]
    | _ => []

/-- The ids of the REQUEST messages in a list. -/
def requestIds (msgs : List RpcMessage) : List (BitVec 64) :=
  (msgs.filter fun m => m.type = .request).map RpcMessage.id

/-- The ids of the RESPONSE messages in a list. -/
def responseIds (msgs : List RpcMessage) : List (BitVec 64) :=
  (msgs.filter fun m => m.type = .response).map RpcMessage.id

theorem requestIds_cons (m : RpcMessage) (msgs : List RpcMessage) :
    requestIds (m :: msgs) = (if m.type = .request then [m.id] else []) ++ requestIds msgs := by
  by_cases h : m.type = .request
  · simp [requestIds, h]
  · simp [requestIds, h]

theorem responseIds_cons (m : RpcMessage) (msgs : List RpcMessage) :
    responseIds (m :: msgs) = (if m.type = .response then [m.id] else []) ++ responseIds msgs := by
  by_cases h : m.type = .response
  · simp [responseIds, h]
  · simp [responseIds, h]

theorem requestIds_perm {l l' : List RpcMessage} (h : l.Perm l') :
    (requestIds l).Perm (requestIds l') := (h.filter _).map _

theorem responseIds_perm {l l' : List RpcMessage} (h : l.Perm l') :
    (responseIds l).Perm (responseIds l') := (h.filter _).map _

theorem requestIds_append (l l' : List RpcMessage) :
    requestIds (l ++ l') = requestIds l ++ requestIds l' := by simp [requestIds]

theorem responseIds_append (l l' : List RpcMessage) :
    responseIds (l ++ l') = responseIds l ++ responseIds l' := by simp [responseIds]

/-- Message `m` was built by the call that has this id. -/
def Requested (lib : Protobuf M) (h : List (Event M)) (id : BitVec 64) (m : RpcMessage) : Prop :=
  ∃ call, .entered id call ∈ h ∧ m = RpcChannel.requestMessage lib id call

/-- The requests that are inside `CallMethod` or were sent. -/
def callMessages (e : Endpoint M) : List (BitVec 64 × RpcMessage) :=
  e.calling.map (fun a => (a.id, a.message)) ++ sentCalls e.history

structure TrafficInvariant (lib : Protobuf M) (e : Endpoint M) : Prop where
  requested : ∀ p ∈ callMessages e, Requested lib e.history p.1 p.2
  submitted : ((Ledger.opened (ledger e.history)).map Prod.fst).Perm
    (submitting e ++ (sentCalls e.history).map Prod.fst)

section
variable {w : Wire} {lib : Protobuf M} {e e' : Endpoint M}

theorem Requested.mono {h h' : List (Event M)} (hsuffix : h <:+ h') {id : BitVec 64}
    {m : RpcMessage} (hm : Requested lib h id m) : Requested lib h' id m := by
  obtain ⟨call, hcall, rfl⟩ := hm
  exact ⟨call, hsuffix.subset hcall, rfl⟩

theorem trafficInvariant_new (ch : RpcChannel M) : TrafficInvariant lib (new ch) where
  requested := fun p hp => absurd hp (by simp [new, callMessages, sentCalls])
  submitted := List.Perm.refl _

/-- The steps that neither move a call nor add one. -/
theorem TrafficInvariant.congr {l : Label M} (h : TrafficInvariant lib e)
    (hstep : Step w lib e l e') (hcalling : e'.calling = e.calling)
    (hsent : sentCalls e'.history = sentCalls e.history)
    (hopened : Ledger.opened (ledger e'.history) = Ledger.opened (ledger e.history)) :
    TrafficInvariant lib e' where
  requested := by
    intro p hp
    rw [callMessages, hcalling, hsent] at hp
    exact (h.requested p hp).mono hstep.history_suffix
  submitted := by
    rw [hopened, submitting, hcalling, hsent]
    exact h.submitted

theorem TrafficInvariant.step {l : Label M} (h : TrafficInvariant lib e)
    (hstep : Step w lib e l e') : TrafficInvariant lib e' := by
  have hsuffix := hstep.history_suffix
  have hcopy := hstep
  have hperm := h.submitted
  cases hstep with
  | enter halive call =>
      refine ⟨?_, hperm⟩
      intro p hp
      cases List.mem_cons.mp hp with
      | inl heq =>
          subst heq
          exact ⟨call, List.mem_cons_self, rfl⟩
      | inr hp => exact (h.requested p hp).mono hsuffix
  | @register before after a hcalling hnew =>
      refine ⟨?_, ?_⟩
      · intro p hp
        refine (h.requested p ?_).mono hsuffix
        have hsame : sentCalls (.registered a.id a.out :: e.history) = sentCalls e.history := rfl
        rw [callMessages, hcalling]
        simpa [callMessages, hsame] using hp
      · rw [submitting, hcalling] at hperm
        have hentry : Ledger.opened (ledger (.registered a.id a.out :: e.history)) =
            (a.id, a.out) :: Ledger.opened (ledger e.history) := rfl
        rw [hentry]
        refine (hperm.cons a.id).trans ?_
        simp only [submitting, List.filter_append, List.filter_cons, hnew, if_true,
          Bool.false_eq_true, if_false, List.map_append, List.map_cons, List.append_assoc,
          List.cons_append]
        exact List.perm_middle.symm
  | @hand before after a hcalling hregistered inLoopThread r =>
      refine ⟨?_, ?_⟩
      · intro p hp
        refine (h.requested p ?_).mono hsuffix
        rw [callMessages, hcalling]
        simp only [callMessages, List.map_append, List.map_cons, List.mem_append, List.mem_cons]
          at hp ⊢
        rcases hp with (hp | hp) | hp
        · exact Or.inl (Or.inl hp)
        · exact Or.inl (Or.inr (Or.inr hp))
        · cases List.mem_cons.mp hp with
          | inl heq => exact Or.inl (Or.inr (Or.inl heq))
          | inr hp => exact Or.inr hp
      · rw [submitting, hcalling] at hperm
        refine hperm.trans ?_
        simp only [submitting, List.filter_append, List.filter_cons, hregistered, if_true,
          List.map_append, List.map_cons, List.append_assoc, List.cons_append]
        refine List.Perm.append_left _ ?_
        exact List.perm_middle.symm
  | response halive hidle htype =>
      exact h.congr hcopy rfl rfl (by rw [ledger_response htype]; rfl)
  | refused halive hidle htype hdispatch =>
      exact h.congr hcopy rfl rfl (by rw [ledger_other (ne_response htype)])
  | @invoke halive hidle m htype method request response hdispatch =>
      refine h.congr hcopy rfl rfl ?_
      change Ledger.opened (ledger (.received m :: e.history)) = _
      rw [ledger_other (ne_response htype)]
  | ignored halive hidle hresponse hrequest =>
      exact h.congr hcopy rfl rfl (by rw [ledger_other hresponse])
  | runDone | finishDone | skipDone | returned | connection | refuse | complete =>
      exact h.congr hcopy rfl rfl rfl
  | destroy =>
      refine h.congr hcopy rfl ?_ ?_
      · simp [sentCalls, List.filterMap_map]
      · rw [ledger_freed]

/-- Handlers run a closure on the bytes of a RESPONSE that was received, and
only for a call that was outstanding. -/
structure RunInvariant (lib : Protobuf M) (e : Endpoint M) : Prop where
  found : ∀ m out, e.handling = .found m out → .received m ∈ e.history ∧ m.type = .response
  ran : ∀ k out o', .ranDone k out o' ∈ e.history → ∃ m o, .received m ∈ e.history ∧
    m.type = .response ∧ m.id = k ∧ out.response = some o ∧
      o' = RpcChannel.fillResponse lib o m
  settled : (taken e.handling ++ ranCalls e.history).Sublist (Ledger.settled (ledger e.history))

theorem runInvariant_new (ch : RpcChannel M) : RunInvariant lib (new ch) where
  found := fun m out h => absurd h (by simp [new])
  ran := fun k out o' h => absurd h (by simp [new])
  settled := List.Sublist.refl _

theorem RunInvariant.ran_mono (h : RunInvariant lib e) (hsuffix : e.history <:+ e'.history)
    {k : BitVec 64} {out : OutstandingCall M} {o' : Object M}
    (hran : .ranDone k out o' ∈ e.history) : ∃ m o, .received m ∈ e'.history ∧
      m.type = .response ∧ m.id = k ∧ out.response = some o ∧
        o' = RpcChannel.fillResponse lib o m := by
  obtain ⟨m, o, hm, hrest⟩ := h.ran k out o' hran
  exact ⟨m, o, hsuffix.subset hm, hrest⟩

/-- The steps that run no closure and find no call. -/
theorem RunInvariant.congr {l : Label M} (h : RunInvariant lib e) (hstep : Step w lib e l e')
    (hhandling : ∀ m out, e'.handling = .found m out → e'.handling = e.handling)
    (hran : ∀ k out o', .ranDone k out o' ∈ e'.history → .ranDone k out o' ∈ e.history)
    (hsettled : (taken e'.handling ++ ranCalls e'.history).Sublist
      (Ledger.settled (ledger e'.history))) : RunInvariant lib e' where
  found := by
    intro m out hfound
    obtain ⟨hm, htype⟩ := h.found m out ((hhandling m out hfound).symm.trans hfound)
    exact ⟨hstep.history_suffix.subset hm, htype⟩
  ran := fun k out o' ho' => h.ran_mono hstep.history_suffix (hran k out o' ho')
  settled := hsettled

/-- A call with a response object is only taken where it is outstanding. -/
theorem lookup_of_taken {ch : RpcChannel M} {k : BitVec 64} {o : Object M}
    (h : (ch.takeOutstanding k).1.response = some o) :
    ch.outstandings.lookup k = some (ch.takeOutstanding k).1 := by
  cases hlookup : ch.outstandings.lookup k with
  | none => exact absurd h (by simp [takeOutstanding_of_none hlookup])
  | some out => rw [takeOutstanding_of_lookup hlookup]

theorem RunInvariant.step {id : BitVec 64} {l : Label M} (h : RunInvariant lib e)
    (hcalls : CallInvariant id e) (hstep : Step w lib e l e') : RunInvariant lib e' := by
  have hcopy := hstep
  have hsettled := h.settled
  cases hstep with
  | @response halive hidle m htype =>
      rw [hidle] at hsettled
      have hran : ∀ k out o', .ranDone k out o' ∈ Event.received m :: e.history →
          .ranDone k out o' ∈ e.history := by simp
      have hadd : (Ledger.settled (ledger e.history)).Sublist
          (Ledger.settled (ledger (.received m :: e.history))) := by
        rw [ledger_response htype]
        exact List.sublist_append_right _ _
      cases hresponse : (e.channel.takeOutstanding m.id).1.response with
      | none =>
          have hafter : afterTake (e.channel.takeOutstanding m.id).1 m = .idle := by
            rw [afterTake, hresponse]
            rfl
          refine h.congr hcopy ?_ hran ?_
          · intro m' out' h'
            exact absurd (hafter.symm.trans h') (by simp)
          · dsimp only
            rw [hafter]
            exact hsettled.trans hadd
      | some o =>
          have hafter : afterTake (e.channel.takeOutstanding m.id).1 m =
              .found m (e.channel.takeOutstanding m.id).1 := by
            rw [afterTake, hresponse]
            rfl
          refine ⟨?_, fun k out' o' ho' => h.ran_mono hcopy.history_suffix
            (hran k out' o' ho'), ?_⟩
          · intro m' out' h'
            obtain ⟨rfl, rfl⟩ := Handling.found.inj (hafter.symm.trans h')
            exact ⟨List.mem_cons_self, htype⟩
          · dsimp only
            rw [hafter, ledger_response htype, Ledger.settled, ← hcalls.lookup,
              lookup_of_taken hresponse]
            exact hsettled.cons_cons _
  | @runDone m out o done hfound hresponse hdone =>
      rw [hfound] at hsettled
      obtain ⟨hm, htype⟩ := h.found m out hfound
      refine ⟨fun m' out' h' => absurd h' (by simp), ?_, hsettled⟩
      intro k out' o' hran
      cases List.mem_cons.mp hran with
      | inl heq =>
          cases heq
          exact ⟨m, o, List.mem_cons_of_mem _ hm, htype, rfl, hresponse, rfl⟩
      | inr hran => exact h.ran_mono hcopy.history_suffix hran
  | skipDone hfound hdone =>
      rw [hfound] at hsettled
      refine h.congr hcopy (fun _ _ h' => absurd h' (by simp)) (by simp) ?_
      exact (List.sublist_cons_self _ _).trans hsettled
  | finishDone hh | returned hh | refuse hh =>
      rw [hh] at hsettled
      exact h.congr hcopy (fun _ _ h' => absurd h' (by simp)) (by simp) hsettled
  | refused halive hidle htype hdispatch =>
      rw [hidle] at hsettled
      refine h.congr hcopy (fun _ _ h' => absurd h' (by simp)) (by simp) ?_
      rw [ledger_other (ne_response htype)]
      exact hsettled
  | @invoke halive hidle m htype method request response hdispatch =>
      rw [hidle] at hsettled
      refine h.congr hcopy (fun _ _ h' => absurd h' (by simp)) (by simp) ?_
      change (_ : List _).Sublist (Ledger.settled (ledger (.received m :: e.history)))
      rw [ledger_other (ne_response htype)]
      exact hsettled
  | ignored halive hidle hresponse hrequest =>
      refine h.congr hcopy (fun _ _ _ => rfl) (by simp) ?_
      rw [ledger_other hresponse]
      exact hsettled
  | enter | register | hand | connection | complete =>
      exact h.congr hcopy (fun _ _ _ => rfl) (by simp) hsettled
  | destroy =>
      refine h.congr hcopy (fun _ _ _ => rfl) (by simp) ?_
      rw [ledger_freed, ranCalls_freed]
      exact hsettled

variable {services : Option (ServiceTable M)} {id : BitVec 64} {conn : Option TcpConnection}
  {allowed : Endpoint M → Label M → Prop}

theorem trafficInvariant_of_reaches (h : Reaches w lib allowed conn id services e) :
    TrafficInvariant lib e := by
  induction h with
  | refl => exact trafficInvariant_new _
  | tail _ hmove ih =>
      obtain ⟨l, -, hstep⟩ := hmove
      exact ih.step hstep

theorem runInvariant_of_reaches (h : Reaches w lib allowed conn id services e) :
    RunInvariant lib e := by
  induction h with
  | refl => exact runInvariant_new _
  | tail hreach hmove ih =>
      obtain ⟨l, -, hstep⟩ := hmove
      exact ih.step (callInvariant_of_reaches hreach) hstep

/-- What an end sends is a request of a call or a reply. -/
theorem sent_types (htraffic : TrafficInvariant lib e) (hreplies : ReplyInvariant lib services e) :
    (∀ p ∈ sentCalls e.history, p.2.type = .request ∧ p.2.id = p.1) ∧
      ∀ p ∈ replies e.history, p.2.type = .response := by
  refine ⟨?_, ?_⟩
  · intro p hp
    obtain ⟨call, -, hm⟩ := htraffic.requested p (List.mem_append_right _ hp)
    rw [hm]
    exact ⟨rfl, rfl⟩
  · intro p hp
    exact (hreplies.reply hp).1

theorem sentMessages_split {h : List (Event M)}
    (hcalls : ∀ p ∈ sentCalls h, p.2.type = .request ∧ p.2.id = p.1)
    (hreplies : ∀ p ∈ replies h, p.2.type = .response) :
    requestIds (sentMessages h) = (sentCalls h).map Prod.fst ∧
      responseIds (sentMessages h) = (replies h).map (fun p => p.2.id) := by
  induction h with
  | nil => exact ⟨rfl, rfl⟩
  | cons ev h ih =>
      cases ev with
      | sent origin m =>
          change requestIds (m :: sentMessages h) = _ ∧ responseIds (m :: sentMessages h) = _
          rw [requestIds_cons, responseIds_cons]
          cases origin with
          | call id =>
              obtain ⟨htype, hid⟩ := hcalls (id, m) List.mem_cons_self
              obtain ⟨hreq, hresp⟩ := ih (fun p hp => hcalls p (List.mem_cons_of_mem _ hp)) hreplies
              rw [hreq, hresp, if_pos htype, if_neg (ne_response htype), hid]
              exact ⟨rfl, rfl⟩
          | reply k =>
              have htype := hreplies (k, m) List.mem_cons_self
              obtain ⟨hreq, hresp⟩ := ih hcalls fun p hp => hreplies p (List.mem_cons_of_mem _ hp)
              rw [hreq, hresp, if_pos htype, if_neg (fun hm => ne_response hm htype)]
              exact ⟨rfl, rfl⟩
      | _ => exact ih hcalls hreplies

theorem mem_sentMessages {h : List (Event M)} {m : RpcMessage} (hm : m ∈ sentMessages h) :
    (∃ k, (k, m) ∈ sentCalls h) ∨ ∃ i, (i, m) ∈ replies h := by
  obtain ⟨ev, hev, hmap⟩ := List.mem_filterMap.mp hm
  cases ev with
  | sent origin m' =>
      obtain rfl := Option.some.inj hmap
      cases origin with
      | call k => exact Or.inl ⟨k, List.mem_filterMap.mpr ⟨_, hev, rfl⟩⟩
      | reply i => exact Or.inr ⟨i, List.mem_filterMap.mpr ⟨_, hev, rfl⟩⟩
  | _ => cases hmap

theorem mem_requests {h : List (Event M)} {req : RpcMessage} (hreq : req ∈ requests h) :
    .received req ∈ h ∧ req.type = .request := by
  obtain ⟨ev, hev, hmap⟩ := List.mem_filterMap.mp (List.mem_reverse.mp hreq)
  cases ev with
  | received m =>
      by_cases htype : m.type = .request
      · simp only [htype, if_true, Option.some.injEq] at hmap
        exact hmap ▸ ⟨hev, htype⟩
      · simp [htype] at hmap
  | _ => cases hmap

theorem requestIds_received (h : List (Event M)) :
    (requestIds (receivedMessages h)).Perm ((requests h).map RpcMessage.id) := by
  induction h with
  | nil => exact List.Perm.refl _
  | cons ev h ih =>
      cases ev with
      | received m =>
          change (requestIds (m :: receivedMessages h)).Perm _
          rw [requestIds_cons]
          by_cases htype : m.type = .request
          · rw [if_pos htype, requests_request htype, List.map_append]
            exact (ih.cons m.id).trans (List.perm_append_singleton _ _).symm
          · rw [if_neg htype, requests_other htype]
            exact ih
      | _ => exact ih

/-- The responses received close ids in the ledger. -/
theorem responseIds_received (h : List (Event M)) :
    responseIds (receivedMessages h) = Ledger.closed (ledger h) := by
  induction h with
  | nil => rfl
  | cons ev h ih =>
      cases ev with
      | received m =>
          change responseIds (m :: receivedMessages h) = _
          rw [responseIds_cons]
          by_cases htype : m.type = .response
          · rw [if_pos htype, ledger_response htype, ih]
            rfl
          · rw [if_neg htype, ledger_other htype]
            exact ih
      | _ => exact ih

theorem Step.ledger_cases {l : Label M} (hstep : Step w lib e l e') :
    ledger e'.history = ledger e.history ∨
      (∃ k out, ledger e'.history = .opened k out :: ledger e.history) ∨
      ∃ k, ledger e'.history = .closed k :: ledger e.history := by
  cases hstep with
  | register => exact Or.inr (Or.inl ⟨_, _, rfl⟩)
  | response halive hidle htype => exact Or.inr (Or.inr ⟨_, ledger_response htype _⟩)
  | refused halive hidle htype | invoke halive hidle htype =>
      exact Or.inl (ledger_other (ne_response htype) _)
  | ignored halive hidle hresponse => exact Or.inl (ledger_other hresponse _)
  | destroy => exact Or.inl (ledger_freed _ _)
  | _ => exact Or.inl rfl

/-- A step that answers a call that was registered and not answered before. -/
theorem balanced_step {l : Label M} (h : Ledger.Balanced (ledger e.history))
    (hclosed : (Ledger.closed (ledger e'.history)).Nodup ∧
      ∀ k ∈ Ledger.closed (ledger e'.history),
        k ∈ (Ledger.opened (ledger e'.history)).map Prod.fst)
    (hstep : Step w lib e l e') : Ledger.Balanced (ledger e'.history) := by
  obtain hsame | ⟨k, out, hopened⟩ | ⟨k, hanswer⟩ := hstep.ledger_cases
  · exact hsame ▸ h
  · rw [hopened]
    exact h
  · rw [hanswer] at hclosed ⊢
    exact h.close (hclosed.2 k List.mem_cons_self) (List.nodup_cons.mp hclosed.1).1

/-- The id of the request of a number. -/
def requestId (h : List (Event M)) (k : Nat) : BitVec 64 :=
  (((requests h)[k]?).map RpcMessage.id).getD 0

theorem requestId_of_getElem {h : List (Event M)} {k : Nat} {req : RpcMessage}
    (hreq : (requests h)[k]? = some req) : requestId h k = req.id := by
  rw [requestId, hreq]
  rfl

theorem map_requestId (h : List (Event M)) :
    (List.range (requests h).length).map (requestId h) = (requests h).map RpcMessage.id := by
  apply List.ext_getElem
  · simp
  · intro k hk hk'
    rw [List.length_map] at hk'
    rw [List.getElem_map, List.getElem_map, List.getElem_range]
    exact requestId_of_getElem (List.getElem?_eq_getElem hk')

/-- A request that came in is still processed or its reply was sent. -/
theorem ReplyInvariant.processed (h : ReplyInvariant lib services e) :
    ((requests e.history).map RpcMessage.id).Perm
      (processing e ++ (replies e.history).map (fun p => p.2.id)) := by
  have hmap := h.indices.map (requestId e.history)
  have hreplies : ((replies e.history).map Prod.fst).map (requestId e.history) =
      (replies e.history).map (fun p => p.2.id) := by
    rw [List.map_map]
    refine List.map_congr_left ?_
    intro p hp
    obtain ⟨req, hreq, hreply⟩ := h.replied p.1 p.2 hp
    refine (requestId_of_getElem hreq).trans ?_
    cases hreply with
    | refused _ hm | served _ _ hm => rw [hm]; rfl
  have hclosures : (e.closures.map Closure.index).map (requestId e.history) =
      e.closures.map Closure.id := by
    rw [List.map_map]
    refine List.map_congr_left ?_
    intro c hc
    obtain ⟨req, hreq, hid, -⟩ := h.closures c hc
    exact (requestId_of_getElem hreq).trans hid
  have hopen : (openRequests e).map (requestId e.history) = processing e := by
    rw [openRequests, processing, List.map_append, hclosures]
    cases hhandling : e.handling with
    | refusing k id error =>
        obtain ⟨req, hreq, hid, -⟩ := h.refusing k id error hhandling
        exact congrArg (fun x => _ ++ [x]) ((requestId_of_getElem hreq).trans hid)
    | _ => rfl
  rw [List.map_append, map_requestId, hreplies, hopen] at hmap
  exact hmap.symm

end
end ProtoRpc.Endpoint
