import ProtoRpc.Rpc.Calls
import ProtoRpc.Rpc.ChannelSend
import ProtoRpc.Rpc.CodecStream

/-!
The requests of one end and its replies. A request is refused in the handler or
leaves a closure behind, and each of the two paths sends one reply; so the
requests that are still open and the replies sent number the requests received.
While the connection stays up, what the channel sends is what the connection is
handed.
-/
namespace ProtoRpc

section
variable {M : Type} (lib : Protobuf M) (services : Option (ServiceTable M)) (req : RpcMessage)

/-- The requests that have no service to go to, and the reason. -/
inductive Refused : ErrorCode → Prop where
  | noTable (htable : services = none) : Refused .noService
  | noService {table : ServiceTable M} (htable : services = some table)
      (hservice : table req.service = none) : Refused .noService
  | noMethod {table : ServiceTable M} {service : Service M} (htable : services = some table)
      (hservice : table req.service = some service)
      (hmethod : service.findMethodByName req.method = none) : Refused .noMethod
  | invalidRequest {table : ServiceTable M} {service : Service M} {method : MethodDescriptor}
      (htable : services = some table) (hservice : table req.service = some service)
      (hmethod : service.findMethodByName req.method = some method)
      (hparse : (lib.parseFromString (service.getRequestPrototype method) req.request).1 = false) :
      Refused .invalidRequest

/-- The reply to a request. An error reply is sent by the handler, and any other
when the closure of request `k` is run. -/
inductive Reply (h : List (Event M)) (k : Nat) (m : RpcMessage) : Prop where
  | refused {error : ErrorCode} (hrefused : Refused lib services req error)
      (hnone : k ∉ invocations h) (hid : m.id = req.id) (herror : m.error = error)
      (hempty : m.response = [])
  | served (hserved : ∀ error, ¬ Refused lib services req error) (hinvoked : k ∈ invocations h)
      (hid : m.id = req.id) (herror : m.error = .noError) (response : M)
      (hcompleted : .completed k response ∈ h)
      (hresponse : m.response = lib.serializeAsString response)

end

namespace RpcChannel
variable {M : Type} {lib : Protobuf M} {services : Option (ServiceTable M)} {req : RpcMessage}

theorem refused_of_dispatch {error : ErrorCode}
    (h : dispatch lib services req = .refuse error) : Refused lib services req error := by
  cases services with
  | none =>
      cases h
      exact .noTable rfl
  | some table =>
      cases hservice : table req.service with
      | none =>
          simp only [dispatch, hservice, Dispatch.refuse.injEq] at h
          exact h ▸ .noService rfl hservice
      | some service =>
          cases hmethod : service.findMethodByName req.method with
          | none =>
              simp only [dispatch, hservice, hmethod, Dispatch.refuse.injEq] at h
              exact h ▸ .noMethod rfl hservice hmethod
          | some method =>
              simp only [dispatch, hservice, hmethod] at h
              split at h
              · cases h
              · next hparse =>
                  cases h
                  exact .invalidRequest rfl hservice hmethod (by rw [hparse])

theorem dispatch_of_refused {error : ErrorCode} (h : Refused lib services req error) :
    dispatch lib services req = .refuse error := by
  cases h with
  | noTable htable => simp [dispatch, htable]
  | noService htable hservice => simp [dispatch, htable, hservice]
  | noMethod htable hservice hmethod => simp [dispatch, htable, hservice, hmethod]
  | invalidRequest htable hservice hmethod hparse =>
      simp only [dispatch, htable, hservice, hmethod]
      split
      · next hok => simp [hok] at hparse
      · rfl

theorem not_refused_of_dispatch {method : MethodDescriptor} {request response : M}
    (h : dispatch lib services req = .invoke method request response) (error : ErrorCode) :
    ¬ Refused lib services req error := by
  intro hrefused
  cases h.symm.trans (dispatch_of_refused hrefused)

end RpcChannel

namespace Endpoint
variable {M : Type}

/-- The request that the handler is about to refuse. -/
def refusingIndex : Handling M → List Nat
  | .refusing k _ _ => [k]
  | _ => []

/-- The requests that have not been replied to. -/
def openRequests (e : Endpoint M) : List Nat :=
  e.closures.map Closure.index ++ refusingIndex e.handling

section
variable (lib : Protobuf M) (services : Option (ServiceTable M))

def isServed (req : RpcMessage) : Bool :=
  match RpcChannel.dispatch lib services req with
  | .refuse _ => false
  | .invoke _ _ _ => true

/-- The numbers of the requests that go to a service, the earliest first. -/
def servedIndices (reqs : List RpcMessage) : List Nat :=
  (reqs.zipIdx.filter fun p => isServed lib services p.1).map Prod.snd

/-- Reply `m` is the one that the source builds for request `req` of number `k`. -/
inductive Replied (h : List (Event M)) (k : Nat) (req m : RpcMessage) : Prop where
  | refused {error : ErrorCode} (hdispatch : RpcChannel.dispatch lib services req = .refuse error)
      (hm : m = RpcChannel.errorReply req.id error)
  | served (hserved : isServed lib services req = true) {response : M}
      (hcompleted : .completed k response ∈ h)
      (hm : m = RpcChannel.doneReply lib response req.id)

structure ReplyInvariant (e : Endpoint M) : Prop where
  table : e.channel.services = services
  indices : (openRequests e ++ (replies e.history).map Prod.fst).Perm
    (List.range (requests e.history).length)
  invoked : (invocations e.history).reverse = servedIndices lib services (requests e.history)
  refusing : ∀ k id error, e.handling = .refusing k id error →
    ∃ req, (requests e.history)[k]? = some req ∧ req.id = id ∧
      RpcChannel.dispatch lib services req = .refuse error
  closures : ∀ c ∈ e.closures, ∃ req, (requests e.history)[c.index]? = some req ∧
    req.id = c.id ∧ isServed lib services req = true
  replied : ∀ k m, (k, m) ∈ replies e.history →
    ∃ req, (requests e.history)[k]? = some req ∧ Replied lib services e.history k req m

end

section
variable {w : Wire} {lib : Protobuf M} {services : Option (ServiceTable M)} {e e' : Endpoint M}

theorem requests_request {m : RpcMessage} (htype : m.type = .request) (h : List (Event M)) :
    requests (.received m :: h) = requests h ++ [m] := by
  simp [requests, htype]

theorem requests_other {m : RpcMessage} (htype : m.type ≠ .request) (h : List (Event M)) :
    requests (.received m :: h) = requests h := by
  simp [requests, htype]

/-- A request that has a number keeps it. -/
theorem getElem?_requests {h h' : List (Event M)} (hsuffix : h <:+ h') {k : Nat}
    {req : RpcMessage} (hreq : (requests h)[k]? = some req) : (requests h')[k]? = some req := by
  have hprefix : requests h <+: requests h' := List.reverse_prefix.mpr (hsuffix.filterMap _)
  obtain ⟨newer, hnewer⟩ := hprefix
  rw [← hnewer, List.getElem?_append_left (List.getElem?_eq_some_iff.mp hreq).1]
  exact hreq

theorem Replied.mono {h h' : List (Event M)} (hsuffix : h <:+ h') {k : Nat} {req m : RpcMessage}
    (hreply : Replied lib services h k req m) : Replied lib services h' k req m := by
  cases hreply with
  | refused hdispatch hm => exact .refused hdispatch hm
  | served hserved hcompleted hm => exact .served hserved (hsuffix.subset hcompleted) hm

theorem isServed_of_refuse {req : RpcMessage} {error : ErrorCode}
    (h : RpcChannel.dispatch lib services req = .refuse error) :
    isServed lib services req = false := by
  rw [isServed, h]

theorem isServed_of_invoke {req : RpcMessage} {method : MethodDescriptor} {request response : M}
    (h : RpcChannel.dispatch lib services req = .invoke method request response) :
    isServed lib services req = true := by
  rw [isServed, h]

theorem servedIndices_snoc (reqs : List RpcMessage) (m : RpcMessage) :
    servedIndices lib services (reqs ++ [m]) =
      servedIndices lib services reqs ++ if isServed lib services m then [reqs.length] else [] := by
  simp only [servedIndices, List.zipIdx_append, List.filter_append, List.map_append]
  congr 1
  cases hserved : isServed lib services m with
  | true | false => simp [hserved]

theorem mem_servedIndices {reqs : List RpcMessage} {k : Nat} :
    k ∈ servedIndices lib services reqs ↔
      ∃ req, reqs[k]? = some req ∧ isServed lib services req = true := by
  simp only [servedIndices, List.mem_map, List.mem_filter]
  constructor
  · rintro ⟨⟨req, i⟩, ⟨hmem, hserved⟩, rfl⟩
    exact ⟨req, List.mem_zipIdx_iff_getElem?.mp hmem, hserved⟩
  · rintro ⟨req, hreq, hserved⟩
    exact ⟨(req, k), ⟨List.mem_zipIdx_iff_getElem?.mpr hreq, hserved⟩, rfl⟩

theorem servedIndices_nodup (reqs : List RpcMessage) :
    (servedIndices lib services reqs).Nodup := by
  have hall : (reqs.zipIdx.map Prod.snd).Nodup := by
    rw [List.zipIdx_map_snd]
    exact List.nodup_range'
  exact hall.sublist (List.filter_sublist.map _)

theorem replyInvariant_new (conn : Option TcpConnection) (id : BitVec 64) :
    ReplyInvariant lib services (new ((RpcChannel.new conn id).setServices services)) where
  table := rfl
  indices := List.Perm.refl _
  invoked := rfl
  refusing := fun k id error h => absurd h (by simp [new])
  closures := fun c hc => absurd hc (by simp [new])
  replied := fun k m h => absurd h (by simp [new, replies])

theorem Step.services_eq {l : Label M} (hstep : Step w lib e l e') :
    e'.channel.services = e.channel.services := by
  cases hstep with
  | hand | refuse => simp
  | complete => simp [RpcChannel.doneCallback]
  | response =>
      dsimp only [RpcChannel.takeOutstanding]
      split <;> rfl
  | _ => rfl

theorem ReplyInvariant.closures_mono (h : ReplyInvariant lib services e)
    (hsuffix : e.history <:+ e'.history) (hsub : ∀ c ∈ e'.closures, c ∈ e.closures) :
    ∀ c ∈ e'.closures, ∃ req, (requests e'.history)[c.index]? = some req ∧ req.id = c.id ∧
      isServed lib services req = true := by
  intro c hc
  obtain ⟨req, hreq, hid, hserved⟩ := h.closures c (hsub c hc)
  exact ⟨req, getElem?_requests hsuffix hreq, hid, hserved⟩

theorem ReplyInvariant.replied_mono (h : ReplyInvariant lib services e)
    (hsuffix : e.history <:+ e'.history) :
    ∀ k m, (k, m) ∈ replies e.history →
      ∃ req, (requests e'.history)[k]? = some req ∧ Replied lib services e'.history k req m := by
  intro k m hm
  obtain ⟨req, hreq, hreply⟩ := h.replied k m hm
  exact ⟨req, getElem?_requests hsuffix hreq, hreply.mono hsuffix⟩

theorem range_requests {m : RpcMessage} (htype : m.type = .request) (h : List (Event M)) :
    List.range (requests (.received m :: h)).length =
      List.range (requests h).length ++ [(requests h).length] := by
  rw [requests_request htype, List.length_append, List.length_singleton, List.range_succ]

/-- A step that replies to the request of number `k`. -/
theorem ReplyInvariant.replied_cons (h : ReplyInvariant lib services e)
    (hsuffix : e.history <:+ e'.history) {k : Nat} {m req : RpcMessage}
    (hreplies : replies e'.history = (k, m) :: replies e.history)
    (hreq : (requests e.history)[k]? = some req)
    (hreply : Replied lib services e'.history k req m) :
    ∀ k' m', (k', m') ∈ replies e'.history → ∃ req, (requests e'.history)[k']? = some req ∧
      Replied lib services e'.history k' req m' := by
  intro k' m' hm
  rw [hreplies] at hm
  cases List.mem_cons.mp hm with
  | inl heq =>
      obtain ⟨rfl, rfl⟩ := Prod.mk.inj heq
      exact ⟨req, getElem?_requests hsuffix hreq, hreply⟩
  | inr hm => exact h.replied_mono hsuffix k' m' hm

/-- The steps that neither take a request nor reply to one. -/
theorem ReplyInvariant.congr {l : Label M} (h : ReplyInvariant lib services e)
    (hstep : Step w lib e l e') (hrequests : requests e'.history = requests e.history)
    (hreplies : replies e'.history = replies e.history)
    (hinvoked : invocations e'.history = invocations e.history)
    (hclosures : e'.closures = e.closures)
    (hrefusing : refusingIndex e'.handling = refusingIndex e.handling)
    (hhandling : ∀ k id error, e'.handling = .refusing k id error → e'.handling = e.handling) :
    ReplyInvariant lib services e' where
  table := hstep.services_eq.trans h.table
  indices := by
    rw [openRequests, hclosures, hrefusing, hreplies, hrequests]
    exact h.indices
  invoked := by
    rw [hinvoked, hrequests]
    exact h.invoked
  refusing := by
    intro k id error hk
    rw [hrequests]
    exact h.refusing k id error ((hhandling k id error hk).symm.trans hk)
  closures := h.closures_mono hstep.history_suffix fun c hc => hclosures ▸ hc
  replied := hreplies ▸ h.replied_mono hstep.history_suffix

theorem ReplyInvariant.step {l : Label M} (h : ReplyInvariant lib services e)
    (hstep : Step w lib e l e') : ReplyInvariant lib services e' := by
  have hsuffix := hstep.history_suffix
  have htable := hstep.services_eq.trans h.table
  have hperm := h.indices
  rw [openRequests] at hperm
  have hcopy := hstep
  cases hstep with
  | @refused halive hidle m htype error hdispatch =>
      rw [h.table] at hdispatch
      rw [hidle] at hperm
      refine ⟨htable, ?_, ?_, ?_, ?_, h.replied_mono hsuffix⟩
      · rw [range_requests htype]
        refine List.Perm.trans ?_ (hperm.append_right _)
        simp only [openRequests, refusingIndex, List.append_nil, List.append_assoc]
        exact List.Perm.append_left _ List.perm_append_comm
      · rw [requests_request htype, servedIndices_snoc, isServed_of_refuse hdispatch]
        exact h.invoked.trans (List.append_nil _).symm
      · intro k id error' hk
        obtain ⟨rfl, rfl, rfl⟩ := Handling.refusing.inj hk
        refine ⟨m, ?_, rfl, hdispatch⟩
        rw [requests_request htype]
        exact List.getElem?_concat_length
      · exact h.closures_mono hsuffix fun c hc => hc
  | @refuse index id error hrefusing r =>
      rw [hrefusing] at hperm
      obtain ⟨req, hreq, rfl, hdispatch⟩ := h.refusing index id error hrefusing
      refine ⟨htable, ?_, h.invoked, ?_, h.closures_mono hsuffix fun c hc => hc,
        h.replied_cons hsuffix rfl hreq (.refused hdispatch rfl)⟩
      · refine List.Perm.trans ?_ hperm
        simp only [openRequests, refusingIndex, List.append_nil, List.append_assoc]
        exact List.Perm.refl _
      · intro k id' error' hk
        exact absurd hk (by simp)
  | @invoke halive hidle m htype method request response hdispatch =>
      rw [h.table] at hdispatch
      rw [hidle] at hperm
      have hserved := isServed_of_invoke hdispatch
      have hreqs : requests (.invoked (requests e.history).length method request ::
          .received m :: e.history) = requests e.history ++ [m] := requests_request htype _
      refine ⟨htable, ?_, ?_, ?_, ?_, h.replied_mono hsuffix⟩
      · change List.Perm _ (List.range (requests (.received m :: e.history)).length)
        rw [range_requests htype]
        refine List.Perm.trans ?_ (hperm.append_right _)
        simp only [openRequests, refusingIndex, List.append_nil, List.map_cons, List.cons_append]
        exact (List.perm_append_singleton _ _).symm
      · rw [hreqs, servedIndices_snoc, hserved, ← h.invoked]
        simp [invocations]
      · intro k id error hk
        exact absurd hk (by simp)
      · intro c hc
        rw [hreqs]
        cases List.mem_cons.mp hc with
        | inl heq =>
            subst heq
            exact ⟨m, List.getElem?_concat_length, rfl, hserved⟩
        | inr hc =>
            obtain ⟨req, hreq, hid, hserved⟩ := h.closures c hc
            exact ⟨req, hreqs ▸ getElem?_requests hsuffix hreq, hid, hserved⟩
  | @complete halive before after c hclosures response inLoopThread r =>
      rw [hclosures] at hperm
      have hsub : ∀ c' ∈ before ++ after, c' ∈ e.closures := by
        intro c' hc'
        rw [hclosures]
        exact (List.Sublist.append_left (List.sublist_cons_self c after) before).subset hc'
      obtain ⟨req, hreq, hid, hserved⟩ :=
        h.closures c (hclosures ▸ List.mem_append_right _ List.mem_cons_self)
      have hcompleted : .completed c.index response ∈
          Event.sent (.reply c.index) (RpcChannel.doneReply lib response c.id) ::
            .completed c.index response :: e.history := List.mem_cons_of_mem _ List.mem_cons_self
      refine ⟨htable, ?_, h.invoked, h.refusing, h.closures_mono hsuffix hsub,
        h.replied_cons hsuffix rfl hreq (.served hserved hcompleted (by rw [hid]))⟩
      refine List.Perm.trans ?_ hperm
      simp only [openRequests, List.map_append, List.map_cons, List.append_assoc,
        List.cons_append]
      refine List.Perm.append_left _ ?_
      rw [← List.append_assoc, ← List.append_assoc]
      exact List.perm_middle
  | @response halive hidle m htype =>
      have hafter : refusingIndex (afterTake (e.channel.takeOutstanding m.id).1 m) = [] ∧
          ∀ k id error, afterTake (e.channel.takeOutstanding m.id).1 m ≠
            .refusing k id error := by
        rw [afterTake]
        split <;> simp [refusingIndex]
      refine h.congr hcopy (requests_other ?_ _) rfl rfl rfl ?_ ?_
      · rw [htype]
        simp
      · rw [hidle]
        exact hafter.1
      · intro k id error hk
        exact absurd hk (hafter.2 k id error)
  | ignored halive hidle hresponse hrequest =>
      exact h.congr hcopy (requests_other hrequest _) rfl rfl rfl rfl (fun _ _ _ _ => rfl)
  | enter | register | hand | connection =>
      exact h.congr hcopy rfl rfl rfl rfl rfl (fun _ _ _ _ => rfl)
  | runDone hh | finishDone hh | skipDone hh | returned hh =>
      refine h.congr hcopy rfl rfl rfl rfl ?_ (fun k id error hk => absurd hk (by simp))
      rw [hh]
      rfl
  | destroy =>
      refine h.congr hcopy ?_ ?_ ?_ rfl rfl (fun _ _ _ _ => rfl)
      · simp [requests, List.filterMap_map]
      · simp [replies, List.filterMap_map]
      · simp [invocations, List.filterMap_map]

/-- The connection stays up, and only `send` hands it anything. -/
def StaysConnected (e : Endpoint M) : Label M → Prop
  | .connection conn => ∃ c c', e.channel.conn = some c ∧ conn = some c' ∧ c'.WF ∧
      c'.state = .kConnected ∧ c'.handed = c.handed
  | _ => True

/-- What the connection has been handed since it was `start`. -/
def Handed (w : Wire) (start : TcpConnection) (e : Endpoint M) : Prop :=
  ∃ c, e.channel.conn = some c ∧ c.WF ∧ c.state = .kConnected ∧
    c.handed = start.handed ++ ((sentMessages e.history).reverse.filter fun m =>
      ProtoRpcCodec.Encodable w m).map (ProtoRpcCodec.frameBytes w)

theorem Handed.step {start : TcpConnection} {l : Label M} (h : Handed w start e)
    (hallowed : StaysConnected e l) (hstep : Step w lib e l e') : Handed w start e' := by
  obtain ⟨c, hc, hwf, hup, hhanded⟩ := h
  cases hstep.onConnection with
  | same hconn hsent => exact ⟨c, hconn.trans hc, hwf, hup, by rw [hsent, hhanded]⟩
  | connection hconn hsent =>
      obtain ⟨d, c', hd, hc', hwf', hup', hsame⟩ := hallowed
      obtain rfl := Option.some.inj (hc.symm.trans hd)
      exact ⟨c', hconn.trans hc', hwf', hup', by rw [hsame, hsent, hhanded]⟩
  | @sends l inLoopThread r m hlabel hconn hsent =>
      have hlaid : LaidOut e.channel.conn := fun d hd => Option.some.inj (hc.symm.trans hd) ▸ hwf
      cases houtcome : e.channel.send w inLoopThread r m with
      | mk ch fault =>
          have hspec := RpcChannel.send_outcome w hlaid inLoopThread r m
          rw [houtcome] at hconn hspec
          cases hspec with
          | unchanged hcannot =>
              have hfit : ¬ ProtoRpcCodec.Encodable w m := fun hfit => hcannot ⟨⟨c, hc, hup⟩, hfit⟩
              refine ⟨c, hconn.trans hc, hwf, hup, ?_⟩
              rw [hsent, hhanded]
              simp [hfit]
          | @handed d c' hd _ hfit hwf' hsame hframe _ =>
              obtain rfl := Option.some.inj (hc.symm.trans hd)
              refine ⟨c', hconn, hwf', hsame.state.trans hup, ?_⟩
              rw [hsent, hframe, hhanded]
              simp [hfit]

theorem replyInvariant_of_reaches {allowed : Endpoint M → Label M → Prop}
    {conn : Option TcpConnection} {id : BitVec 64}
    (h : Reaches w lib allowed conn id services e) : ReplyInvariant lib services e := by
  induction h with
  | refl => exact replyInvariant_new conn id
  | tail _ hmove ih =>
      obtain ⟨l, -, hstep⟩ := hmove
      exact ih.step hstep

theorem handed_of_reaches {start : TcpConnection} {id : BitVec 64} (hwf : start.WF)
    (hup : start.state = .kConnected)
    (h : Reaches w lib StaysConnected (some start) id services e) : Handed w start e := by
  induction h with
  | refl => exact ⟨start, rfl, hwf, hup, by simp [new, sentMessages]⟩
  | tail _ hmove ih =>
      obtain ⟨l, hallowed, hstep⟩ := hmove
      exact ih.step hallowed hstep

theorem ReplyInvariant.reply (h : ReplyInvariant lib services e) {k : Nat} {m : RpcMessage}
    (hm : (k, m) ∈ replies e.history) : m.type = .response ∧
      ∃ req, (requests e.history)[k]? = some req ∧ Reply lib services req e.history k m := by
  have hinvoked : k ∈ invocations e.history ↔
      ∃ req, (requests e.history)[k]? = some req ∧ isServed lib services req = true := by
    rw [← mem_servedIndices, ← h.invoked, List.mem_reverse]
  obtain ⟨req, hreq, hreply⟩ := h.replied k m hm
  cases hreply with
  | refused hdispatch hmsg =>
      subst hmsg
      refine ⟨rfl, req, hreq, .refused (RpcChannel.refused_of_dispatch hdispatch) ?_ rfl rfl rfl⟩
      intro hmem
      obtain ⟨req', hreq', hserved⟩ := hinvoked.mp hmem
      obtain rfl := Option.some.inj (hreq.symm.trans hreq')
      exact absurd (isServed_of_refuse hdispatch) (by simp [hserved])
  | @served hserved response hcompleted hmsg =>
      subst hmsg
      refine ⟨rfl, req, hreq, .served ?_ (hinvoked.mpr ⟨req, hreq, hserved⟩) rfl rfl response
        hcompleted rfl⟩
      cases hdispatch : RpcChannel.dispatch lib services req with
      | refuse error => exact absurd (isServed_of_refuse hdispatch) (by simp [hserved])
      | invoke method request response =>
          exact RpcChannel.not_refused_of_dispatch hdispatch

/-- Exactly one reply for each request, as it stands in a state of a run. -/
structure OneReplyEach (w : Wire) (lib : Protobuf M) (services : Option (ServiceTable M))
    (start : TcpConnection) (e : Endpoint M) : Prop where
  /-- The replies and the requests still open are the requests received. -/
  oneToOne : (openRequests e ++ (replies e.history).map Prod.fst).Perm
    (List.range (requests e.history).length)
  reply : ∀ k m, (k, m) ∈ replies e.history → m.type = .response ∧
    ∃ req, (requests e.history)[k]? = some req ∧ Reply lib services req e.history k m
  invokedOnce : (invocations e.history).Nodup
  handed : Handed w start e

/-- Every sequence of requests, and every order in which services complete them. -/
theorem oneReplyEach_of_reaches (w : Wire) (lib : Protobuf M)
    (services : Option (ServiceTable M)) (start : TcpConnection) (id : BitVec 64)
    (e : Endpoint M) (hwf : start.WF) (hup : start.state = .kConnected)
    (hreach : Reaches w lib StaysConnected (some start) id services e) :
    OneReplyEach w lib services start e := by
  have hreplies := replyInvariant_of_reaches hreach
  refine ⟨hreplies.indices, fun k m hm => hreplies.reply hm, ?_, handed_of_reaches hwf hup hreach⟩
  rw [← List.nodup_reverse, hreplies.invoked]
  exact servedIndices_nodup _

end

/-- Two requests with one id: the first goes to the service and is completed
after the second was refused. -/
theorem oneReplyEach_same_id :
    ∃ e, Reaches protobufWire monitorProtobuf StaysConnected (some ProtoRpcCodec.established) 5
        (some monitorServer.services) e ∧
      openRequests e = [] ∧
      (replies e.history).map (fun p => (p.1, p.2.id, p.2.error)) =
        [(0, 7, .noError), (1, 7, .noMethod)] ∧
      OneReplyEach protobufWire monitorProtobuf (some monitorServer.services)
        ProtoRpcCodec.established e := by
  let served : RpcMessage :=
    { RpcMessage.new with id := 7, service := "monitor.TestService", method := "MonitorInfo" }
  let unknown : RpcMessage :=
    { RpcMessage.new with id := 7, service := "monitor.TestService", method := "Reboot" }
  have hserved : RpcChannel.dispatch monitorProtobuf (some monitorServer.services) served =
      .invoke monitorInfo (.testRequest "" 0) (.testResponse false "") := by
    simp [RpcChannel.dispatch, served, monitorServer, RpcServer.registerService, testService,
      monitorProtobuf, MonitorMessage.parse, Proto3.mergeFields, MonitorMessage.clear,
      RpcMessage.new]
  have hunknown : RpcChannel.dispatch monitorProtobuf (some monitorServer.services) unknown =
      .refuse .noMethod := by
    simp [RpcChannel.dispatch, unknown, monitorServer, RpcServer.registerService, testService]
  have hrun : ∃ e, Reaches protobufWire monitorProtobuf StaysConnected
      (some ProtoRpcCodec.established) 5 (some monitorServer.services) e ∧
      openRequests e = [] ∧
      (replies e.history).map (fun p => (p.1, p.2.id, p.2.error)) =
        [(0, 7, .noError), (1, 7, .noMethod)] := by
    refine ⟨_, .tail (.tail (.tail (.tail (.tail .refl
      ⟨.receive served, trivial, @Step.invoke _ _ _ _ rfl rfl served rfl _ _ _ hserved⟩)
      ⟨.returned, trivial, .returned rfl⟩)
      ⟨.receive unknown, trivial, @Step.refused _ _ _ _ rfl rfl unknown rfl _ hunknown⟩)
      ⟨.refuse (.wrote 0), trivial, .refuse rfl (.wrote 0)⟩)
      ⟨.complete false (.wrote 0), trivial,
        @Step.complete _ _ _ _ rfl [] [] _ rfl (.testResponse true "") false (.wrote 0)⟩,
      rfl, rfl⟩
  obtain ⟨e, hreach, hopen, hreplies⟩ := hrun
  exact ⟨e, hreach, hopen, hreplies, oneReplyEach_of_reaches _ _ _ _ _ e
    ⟨Buffer.new_wf _, Buffer.new_wf _⟩ rfl hreach⟩

end Endpoint
end ProtoRpc
