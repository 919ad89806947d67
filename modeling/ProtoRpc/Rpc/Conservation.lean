import Mathlib.Algebra.Order.Group.Multiset
import Mathlib.Tactic.Abel
import ProtoRpc.Rpc.LinkFlow

/-!
Calls between two joined ends. A registered call is inside `CallMethod`, or its
request is on its way, or the peer is processing it, or its reply is on its way,
or a reply to it has come in. Counted with multiplicity this is an equation in
every reachable state, and since ids are not issued twice it makes the entries
of `outstandings_` the calls that are in one of the first four places.
-/
namespace ProtoRpc

open ProtoRpcCodec Endpoint

section
variable {M : Type}

/-- The messages on their way from `a` to `b`: whole frames that `b` has still to
decode, and frames that the loop of `a` has still to send. -/
def OnTheWay (w : Wire) (a b : LinkEnd M) (msgs : List RpcMessage) : Prop :=
  ∃ pending queued, msgs = pending ++ queued ∧
    b.unread ++ a.conn.outgoing.drop b.taken = (pending.map (frameBytes w)).flatten ∧
    a.conn.pendingFunctors = queued.map fun m => .sendInLoop (frameBytes w m)

/-- There is nothing on its way from `a` to `b`. -/
structure Silent (a b : LinkEnd M) : Prop where
  unread : b.unread = []
  carried : a.conn.outgoing.drop b.taken = []
  queue : a.conn.pendingFunctors = []

/-- Where a call can be that has no reply yet. -/
inductive Place where
  | calling
  | request
  | processing
  | response
  deriving DecidableEq

/-- The calls of `own` at a place, with the messages on their way. -/
def Place.ids (own peer : LinkEnd M) (out back : List RpcMessage) : Place → List (BitVec 64)
  | .calling => submitting own.endpoint
  | .request => requestIds out
  | .processing => Endpoint.processing peer.endpoint
  | .response => responseIds back

def Place.all : List Place := [.calling, .request, .processing, .response]

/-- What an end may do in a run: send messages that its peer's decoder admits,
and make fewer calls than there are ids. -/
structure WithinBounds (w : Wire) (x : LinkEnd M) : Prop where
  sizes : ∀ m ∈ sentMessages x.endpoint.history, Deliverable w m
  count : (enteredCalls x.endpoint.history).length < 2 ^ 64

/-- What holds of an endpoint whatever its peer does. -/
structure Sound (lib : Protobuf M) (id : BitVec 64) (services : Option (ServiceTable M))
    (e : Endpoint M) : Prop where
  calls : CallInvariant id e
  replies : ReplyInvariant lib services e
  traffic : TrafficInvariant lib e
  runs : RunInvariant lib e

section
variable {w : Wire} {lib : Protobuf M} {a b : LinkEnd M} {aId bId : BitVec 64}
  {aServices bServices : Option (ServiceTable M)}

theorem frameBytes_ne_nil (w : Wire) (m : RpcMessage) : frameBytes w m ≠ [] := by
  rw [← List.length_pos_iff, length_frameBytes]
  omega

theorem Silent.onTheWay (h : Silent a b) {msgs : List RpcMessage} (hmsgs : OnTheWay w a b msgs) :
    msgs = [] := by
  obtain ⟨pending, queued, rfl, hbytes, hqueue⟩ := hmsgs
  rw [h.unread, h.carried] at hbytes
  rw [h.queue] at hqueue
  have hpending : pending = [] := by
    cases pending with
    | nil => rfl
    | cons m pending =>
        exact absurd (List.append_eq_nil_iff.mp hbytes.symm).1 (frameBytes_ne_nil w m)
  rw [hpending, List.map_eq_nil_iff.mp hqueue.symm]
  rfl

theorem sound_of_reaches {e : Endpoint M} {conn : Option TcpConnection} {id : BitVec 64}
    {services : Option (ServiceTable M)}
    (h : Endpoint.Reaches w lib (fun _ _ => True) conn id services e) :
    Sound lib id services e :=
  ⟨callInvariant_of_reaches h, replyInvariant_of_reaches h, trafficInvariant_of_reaches h,
    runInvariant_of_reaches h⟩

/-- The requests of `a`: the ones that `b` has received, and the ones on their way. -/
theorem sentCalls_perm (ha : Sound lib aId aServices a.endpoint) {pending queued : List RpcMessage}
    (hflow : Flow w a b pending queued) :
    ((sentCalls a.endpoint.history).map Prod.fst).Perm
      ((requests b.endpoint.history).map RpcMessage.id ++ requestIds (pending ++ queued)) := by
  obtain ⟨hcalls, hreplies⟩ := sent_types ha.traffic ha.replies
  rw [← (sentMessages_split hcalls hreplies).1]
  refine (requestIds_perm hflow.sent).trans ?_
  rw [requestIds_append]
  exact (requestIds_received _).append_right _

/-- The replies of `b`: the ones that `a` has received, and the ones on their way. -/
theorem replies_perm (hb : Sound lib bId bServices b.endpoint) {pending queued : List RpcMessage}
    (hflow : Flow w b a pending queued) :
    ((replies b.endpoint.history).map (fun p => p.2.id)).Perm
      (Ledger.closed (ledger a.endpoint.history) ++ responseIds (pending ++ queued)) := by
  obtain ⟨hcalls, hreplies⟩ := sent_types hb.traffic hb.replies
  rw [← (sentMessages_split hcalls hreplies).2, ← responseIds_received]
  refine (responseIds_perm hflow.sent).trans ?_
  rw [responseIds_append]

/-- Every registered call of `a` is in one of the places or has been answered. -/
theorem opened_perm (ha : Sound lib aId aServices a.endpoint)
    (hb : Sound lib bId bServices b.endpoint) {out queued back waiting : List RpcMessage}
    (hout : Flow w a b out queued) (hback : Flow w b a back waiting) :
    ((Ledger.opened (ledger a.endpoint.history)).map Prod.fst).Perm
      (Place.all.flatMap (Place.ids a b (out ++ queued) (back ++ waiting)) ++
        Ledger.closed (ledger a.endpoint.history)) := by
  have hrequests := (sentCalls_perm ha hout).trans (hb.replies.processed.append_right _)
  have hreplies := replies_perm hb hback
  rw [← Multiset.coe_eq_coe] at hrequests hreplies ⊢
  rw [Multiset.coe_eq_coe.mpr ha.traffic.submitted]
  simp only [Place.all, List.flatMap_cons, List.flatMap_nil, List.append_nil, Place.ids,
    ← Multiset.coe_add] at hrequests hreplies ⊢
  rw [hrequests, hreplies]
  abel

/-- The answered calls are registered ones, and none is answered twice. -/
theorem closed_of_flows (ha : Sound lib aId aServices a.endpoint)
    (hb : Sound lib bId bServices b.endpoint) (hcount : WithinBounds w a) (hjoined : Joined w a b) :
    (Ledger.closed (ledger a.endpoint.history)).Nodup ∧
      ∀ k ∈ Ledger.closed (ledger a.endpoint.history),
        k ∈ (Ledger.opened (ledger a.endpoint.history)).map Prod.fst := by
  obtain ⟨out, queued, hout⟩ := hjoined.out
  obtain ⟨back, waiting, hback⟩ := hjoined.back
  have hperm := opened_perm ha hb hout hback
  have hnodup := (ha.calls.opened_nodup hcount.count).2
  rw [hperm.nodup_iff] at hnodup
  refine ⟨hnodup.of_append_right, ?_⟩
  intro k hk
  exact hperm.mem_iff.mpr (List.mem_append_right _ hk)

theorem sentMessages_subset {h h' : List (Event M)} (hsuffix : h <:+ h') :
    sentMessages h ⊆ sentMessages h' := (hsuffix.filterMap _).subset

theorem WithinBounds.of_step {a' : LinkEnd M} (hstep : LinkEnd.Step w lib a b a')
    (h : WithinBounds w a') : WithinBounds w a := by
  have hsuffix := hstep.history_suffix
  refine ⟨fun m hm => h.sizes m (sentMessages_subset hsuffix hm), ?_⟩
  exact (hsuffix.filterMap _).length_le.trans_lt h.count

end

/-- Two ends that have answered no call in vain. -/
structure Agreeing (w : Wire) (a b : LinkEnd M) : Prop where
  joined : Joined w a b
  left : Ledger.Balanced (ledger a.endpoint.history)
  right : Ledger.Balanced (ledger b.endpoint.history)

section
variable {w : Wire} {lib : Protobuf M} {a a' b : LinkEnd M} {aId bId : BitVec 64}
  {aServices bServices : Option (ServiceTable M)}

theorem Agreeing.symm (h : Agreeing w a b) : Agreeing w b a := ⟨h.joined.symm, h.right, h.left⟩

theorem Agreeing.step (hparse : w.ParsesSerialized) (h : Agreeing w a b)
    (ha' : Sound lib aId aServices a'.endpoint) (hb : Sound lib bId bServices b.endpoint)
    (hown : WithinBounds w a') (hpeer : WithinBounds w b) (hstep : LinkEnd.Step w lib a b a') :
    Agreeing w a' b := by
  have hjoined := h.joined.step hparse hown.sizes hpeer.sizes hstep
  refine ⟨hjoined, ?_, h.right⟩
  cases hstep.endpoint_cases with
  | inl heq => exact heq ▸ h.left
  | inr hstep =>
      obtain ⟨l, hstep⟩ := hstep
      exact balanced_step h.left (closed_of_flows ha' hb hown hjoined) hstep

variable {L : Link M}

theorem Link.Reaches.sound (h : Link.Reaches w lib aId bId aServices bServices L) :
    Sound lib aId aServices L.left.endpoint ∧ Sound lib bId bServices L.right.endpoint := by
  have hends : Endpoint.Reaches w lib (fun _ _ => True) (some established) aId aServices
      L.left.endpoint ∧ Endpoint.Reaches w lib (fun _ _ => True) (some established) bId bServices
      L.right.endpoint := by
    induction h with
    | refl => exact ⟨.refl, .refl⟩
    | tail _ hstep ih =>
        cases hstep with
        | left hstep => exact ⟨hstep.reaches ih.1, ih.2⟩
        | right hstep => exact ⟨ih.1, hstep.reaches ih.2⟩
  exact ⟨sound_of_reaches hends.1, sound_of_reaches hends.2⟩

theorem Link.Reaches.agreeing (hparse : w.ParsesSerialized)
    (h : Link.Reaches w lib aId bId aServices bServices L) (hleft : WithinBounds w L.left)
    (hright : WithinBounds w L.right) : Agreeing w L.left L.right := by
  induction h with
  | refl => exact ⟨joined_new _ _ _ _, rfl, rfl⟩
  | @tail L L' hreach hstep ih =>
      obtain ⟨hsoundLeft, hsoundRight⟩ := Link.Reaches.sound (hreach.tail hstep)
      cases hstep with
      | left hstep =>
          exact (ih (hleft.of_step hstep) hright).step hparse hsoundLeft hsoundRight hleft hright
            hstep
      | right hstep =>
          exact ((ih hleft (hright.of_step hstep)).symm.step hparse hsoundRight hsoundLeft hright
            hleft hstep).symm

/-- The entries of `outstandings_` are the calls that are in one of the places. -/
theorem outstandings_perm (ha : Sound lib aId aServices a.endpoint)
    (hb : Sound lib bId bServices b.endpoint) (hcount : WithinBounds w a)
    (hbalanced : Ledger.Balanced (ledger a.endpoint.history))
    {out queued back waiting : List RpcMessage} (hout : Flow w a b out queued)
    (hback : Flow w b a back waiting) :
    a.endpoint.channel.outstandings.keys.val =
      ↑(Place.all.flatMap (Place.ids a b (out ++ queued) (back ++ waiting))) := by
  have hkeys := Ledger.opened_eq_keys_add_closed (ha.calls.opened_nodup hcount.count).2 _
    ha.calls.lookup hbalanced
  rw [Multiset.coe_eq_coe.mpr (opened_perm ha hb hout hback), ← Multiset.coe_add] at hkeys
  exact (add_right_cancel hkeys).symm

/-- A message that an end has received was sent by its peer. -/
theorem Flow.mem_sent {pending queued : List RpcMessage} (hflow : Flow w a b pending queued)
    {m : RpcMessage} (hm : .received m ∈ b.endpoint.history) :
    m ∈ sentMessages a.endpoint.history := by
  refine hflow.sent.mem_iff.mpr (List.mem_append_left _ ?_)
  exact List.mem_filterMap.mpr ⟨_, hm, rfl⟩

theorem Flow.reply {pending queued : List RpcMessage} (hflow : Flow w b a pending queued)
    (hb : Sound lib bId bServices b.endpoint) {m : RpcMessage}
    (hm : .received m ∈ a.endpoint.history) (htype : m.type = .response) :
    ∃ i, (i, m) ∈ replies b.endpoint.history := by
  cases mem_sentMessages (hflow.mem_sent hm) with
  | inl hcall =>
      obtain ⟨k, hcall⟩ := hcall
      exact absurd htype (ne_response ((sent_types hb.traffic hb.replies).1 _ hcall).1)
  | inr hreply => exact hreply

theorem Flow.request {pending queued : List RpcMessage} (hflow : Flow w a b pending queued)
    (ha : Sound lib aId aServices a.endpoint) {req : RpcMessage}
    (hreq : req ∈ requests b.endpoint.history) :
    ∃ call, .entered req.id call ∈ a.endpoint.history ∧
      req = RpcChannel.requestMessage lib req.id call := by
  have hreceived := mem_requests hreq
  cases mem_sentMessages (hflow.mem_sent hreceived.1) with
  | inl hcall =>
      obtain ⟨k, hcall⟩ := hcall
      obtain ⟨call, hentered, hm⟩ := ha.traffic.requested _ (List.mem_append_right _ hcall)
      obtain rfl : req.id = k := ((sent_types ha.traffic ha.replies).1 _ hcall).2
      exact ⟨call, hentered, hm⟩
  | inr hreply =>
      obtain ⟨i, hreply⟩ := hreply
      have htype := (sent_types ha.traffic ha.replies).2 _ hreply
      exact absurd htype (ne_response hreceived.2)

end

/-- The closure of a call of `own` was run on the bytes that `peer` has replied
to the request of that call. -/
structure AnsweredBy (lib : Protobuf M) (peerServices : Option (ServiceTable M))
    (own peer : List (Event M)) (k : BitVec 64) (out : OutstandingCall M) (o' : Object M)
    (call : Call M) (i : Nat) (m : RpcMessage) : Prop where
  entered : .entered k call ∈ own
  passed : out = ⟨call.response, call.done⟩
  request : (requests peer)[i]? = some (RpcChannel.requestMessage lib k call)
  replied : (i, m) ∈ replies peer
  reply : Reply lib peerServices (RpcChannel.requestMessage lib k call) peer i m
  received : .received m ∈ own
  filled : ∃ o, out.response = some o ∧ o' = RpcChannel.fillResponse lib o m

structure Conserved (w : Wire) (lib : Protobuf M) (peerServices : Option (ServiceTable M))
    (own peer : LinkEnd M) : Prop where
  /-- Each entry of `outstandings_` is in exactly one place, and once. -/
  places : ∃ out back, OnTheWay w own peer out ∧ OnTheWay w peer own back ∧
    (∀ k ∈ own.endpoint.channel.outstandings, ∃! place, k ∈ Place.ids own peer out back place) ∧
    ∀ place, (Place.ids own peer out back place).Nodup ∧
      ∀ k ∈ Place.ids own peer out back place, k ∈ own.endpoint.channel.outstandings
  distinct : ((enteredCalls own.endpoint.history).map Prod.fst).Nodup
  once : ((ranCalls own.endpoint.history).map Prod.fst).Nodup
  requested : ((requests peer.endpoint.history).map RpcMessage.id).Nodup
  answered : ∀ k out o', .ranDone k out o' ∈ own.endpoint.history → ∃ call i m,
    AnsweredBy lib peerServices own.endpoint.history peer.endpoint.history k out o' call i m
  /-- Nothing on its way and nothing being processed leaves no call waiting. -/
  drained : Silent own peer → Silent peer own → submitting own.endpoint = [] →
    processing peer.endpoint = [] → own.endpoint.channel.outstandings = ∅

section
variable {w : Wire} {lib : Protobuf M} {a b : LinkEnd M} {aId bId : BitVec 64}
  {aServices bServices : Option (ServiceTable M)}

theorem Flow.onTheWay {pending queued : List RpcMessage} (h : Flow w a b pending queued) :
    OnTheWay w a b (pending ++ queued) := ⟨pending, queued, rfl, h.bytes, h.queue⟩

theorem Place.mem_all (place : Place) : place ∈ Place.all := by
  cases place <;> decide

/-- A list over the places that has no duplicates. -/
theorem Place.unique {ids : Place → List (BitVec 64)} (h : (Place.all.flatMap ids).Nodup)
    {k : BitVec 64} (hk : k ∈ Place.all.flatMap ids) : ∃! place, k ∈ ids place := by
  obtain ⟨place, -, hplace⟩ := List.mem_flatMap.mp hk
  refine ⟨place, hplace, ?_⟩
  intro other hother
  by_contra hne
  have hsymm : Std.Symm (Function.onFun List.Disjoint ids) := ⟨fun _ _ h => h.symm⟩
  have hdisjoint := (List.nodup_flatMap.mp h).2.forall (Place.mem_all other) (Place.mem_all place)
    hne
  exact hdisjoint hother hplace

/-- A closure that was run, from the reply back to the call. -/
theorem answeredBy_of_ran (ha : Sound lib aId aServices a.endpoint)
    (hb : Sound lib bId bServices b.endpoint) (hcount : WithinBounds w a)
    {out queued back waiting : List RpcMessage} (hout : Flow w a b out queued)
    (hback : Flow w b a back waiting) {k : BitVec 64} {called : OutstandingCall M} {o' : Object M}
    (hran : .ranDone k called o' ∈ a.endpoint.history) : ∃ call i m,
      AnsweredBy lib bServices a.endpoint.history b.endpoint.history k called o' call i m := by
  obtain ⟨m, o, hm, htype, rfl, hresponse, rfl⟩ := ha.runs.ran k called o' hran
  obtain ⟨i, hreplied⟩ := hback.reply hb hm htype
  obtain ⟨-, req, hreq, hreply⟩ := hb.replies.reply hreplied
  have hid : m.id = req.id := by
    cases hreply with
    | refused _ _ hid | served _ _ hid => exact hid
  obtain ⟨call, hentered, hrequest⟩ := hout.request ha (List.mem_of_getElem? hreq)
  rw [← hid] at hentered hrequest
  refine ⟨call, i, m, hentered, ?_, hrequest ▸ hreq, hreplied, hrequest ▸ hreply, hm, o,
    hresponse, rfl⟩
  have hregistered : (m.id, called) ∈ Ledger.opened (ledger a.endpoint.history) := by
    refine Ledger.mem_opened_of_settled (ha.runs.settled.subset (List.mem_append_right _ ?_))
    exact List.mem_filterMap.mpr ⟨_, hran, rfl⟩
  have hcalled : (m.id, called) ∈ enteredCalls a.endpoint.history :=
    ha.calls.entered.mem_iff.mpr (List.mem_append_right _ hregistered)
  have hcall : (m.id, ⟨call.response, call.done⟩) ∈ enteredCalls a.endpoint.history :=
    List.mem_filterMap.mpr ⟨_, hentered, rfl⟩
  have hsame := List.inj_on_of_nodup_map (ha.calls.opened_nodup hcount.count).1 hcalled hcall rfl
  exact (Prod.mk.inj hsame).2

theorem Agreeing.conserved (h : Agreeing w a b) (ha : Sound lib aId aServices a.endpoint)
    (hb : Sound lib bId bServices b.endpoint) (hcount : WithinBounds w a) :
    Conserved w lib bServices a b := by
  obtain ⟨out, queued, hout⟩ := h.joined.out
  obtain ⟨back, waiting, hback⟩ := h.joined.back
  obtain ⟨hentered, hopened⟩ := ha.calls.opened_nodup hcount.count
  have hkeys := outstandings_perm ha hb hcount h.left hout hback
  have hmem : ∀ k, k ∈ a.endpoint.channel.outstandings ↔
      k ∈ Place.all.flatMap (Place.ids a b (out ++ queued) (back ++ waiting)) := by
    intro k
    rw [← Finmap.mem_keys, ← Finset.mem_val, hkeys, Multiset.mem_coe]
  have hnodup : (Place.all.flatMap (Place.ids a b (out ++ queued) (back ++ waiting))).Nodup := by
    rw [← Multiset.coe_nodup, ← hkeys]
    exact Finset.nodup _
  refine ⟨⟨_, _, hout.onTheWay, hback.onTheWay, ?_, ?_⟩, hentered, ?_, ?_, ?_, ?_⟩
  · intro k hk
    exact Place.unique hnodup ((hmem k).mp hk)
  · intro place
    refine ⟨(List.nodup_flatMap.mp hnodup).1 place (Place.mem_all place), ?_⟩
    intro k hk
    exact (hmem k).mpr (List.mem_flatMap.mpr ⟨place, Place.mem_all place, hk⟩)
  · have hsettled : ((Ledger.settled (ledger a.endpoint.history)).map Prod.fst).Nodup := by
      rw [h.left]
      exact (closed_of_flows ha hb hcount h.joined).1
    refine (hsettled.sublist (ha.runs.settled.map _)).sublist ?_
    rw [List.map_append]
    exact List.sublist_append_right _ _
  · have hsent := (ha.traffic.submitted.nodup_iff.mp hopened).of_append_right
    rw [(sentCalls_perm ha hout).nodup_iff] at hsent
    exact hsent.of_append_left
  · intro k called o' hran
    exact answeredBy_of_ran ha hb hcount hout hback hran
  · intro hforth hreturn hcalling hprocessing
    have hempty : Place.all.flatMap (Place.ids a b (out ++ queued) (back ++ waiting)) = [] := by
      simp [Place.all, Place.ids, hforth.onTheWay hout.onTheWay, hreturn.onTheWay hback.onTheWay,
        hcalling, hprocessing, requestIds, responseIds]
    apply Finmap.ext_lookup
    intro k
    rw [Finmap.lookup_empty, Finmap.lookup_eq_none, hmem, hempty]
    simp

theorem silent_of_established (ha : a.conn = established) (hb : b.conn = established)
    (hidle : b.reading = .idle) : Silent a b := by
  have hout : established.outgoing = [] :=
    List.append_eq_nil_iff.mpr ⟨rfl, Buffer.new_content _⟩
  refine ⟨?_, by rw [ha, hout, List.drop_nil], by rw [ha]; rfl⟩
  rw [LinkEnd.unread, hidle, hb]
  exact Buffer.new_content _

theorem internal_enter (call : Call M) : LinkEnd.Internal (.enter call) :=
  fun _ _ h => by cases h

theorem internal_register : LinkEnd.Internal (.register : Label M) :=
  fun _ _ h => by cases h

/-- Two channels on a connection pair that stays up, in every reachable state. -/
theorem conserved_of_reaches (w : Wire) (lib : Protobuf M) (leftId rightId : BitVec 64)
    (leftServices rightServices : Option (ServiceTable M)) (L : Link M)
    (hparse : w.ParsesSerialized)
    (hreach : Link.Reaches w lib leftId rightId leftServices rightServices L)
    (hleft : WithinBounds w L.left) (hright : WithinBounds w L.right) :
    Conserved w lib rightServices L.left L.right ∧ Conserved w lib leftServices L.right L.left := by
  obtain ⟨hsoundLeft, hsoundRight⟩ := hreach.sound
  have hagreeing := hreach.agreeing hparse hleft hright
  exact ⟨hagreeing.conserved hsoundLeft hsoundRight hleft,
    hagreeing.symm.conserved hsoundRight hsoundLeft hright⟩

end
end

/-- A call is registered before its request is sent, so that the reply cannot
come first: for a while it is outstanding with nothing on its way. -/
theorem outstanding_before_sent :
    ∃ L, Link.Reaches protobufWire monitorProtobuf 0 0 none (some monitorServer.services) L ∧
      WithinBounds protobufWire L.left ∧ WithinBounds protobufWire L.right ∧
      1 ∈ L.left.endpoint.channel.outstandings ∧
      (∀ out back, OnTheWay protobufWire L.left L.right out →
        OnTheWay protobufWire L.right L.left back →
        1 ∉ requestIds out ∧ 1 ∉ processing L.right.endpoint ∧ 1 ∉ responseIds back) ∧
      Silent L.left L.right ∧ Silent L.right L.left ∧
      processing L.left.endpoint = [] ∧ processing L.right.endpoint = [] := by
  let server : LinkEnd MonitorMessage := .new 0 (some monitorServer.services)
  have hrun : ∃ x, Link.Reaches protobufWire monitorProtobuf 0 0 none
        (some monitorServer.services) ⟨x, server⟩ ∧
      sentMessages x.endpoint.history = [] ∧ (enteredCalls x.endpoint.history).length = 1 ∧
      x.endpoint.channel.outstandings =
        (∅ : Finmap _).insert 1 ⟨monitorCall.response, monitorCall.done⟩ ∧
      x.conn = established ∧ x.reading = .idle ∧ processing x.endpoint = [] := by
    refine ⟨_, .tail (.tail .refl
      (.left (.run (internal_enter _) (.enter rfl monitorCall))))
      (.left (.run internal_register (@Step.register _ _ _ _ [] [] _ rfl rfl))),
      rfl, rfl, rfl, rfl, rfl, rfl⟩
  obtain ⟨x, hreach, hsent, hcount, hout, hconn, hidle, hprocessing⟩ := hrun
  have hforth : Silent x server := silent_of_established hconn rfl rfl
  have hreturn : Silent server x := silent_of_established rfl hconn hidle
  have hserver : WithinBounds protobufWire server := ⟨fun m hm => absurd hm List.not_mem_nil,
    Nat.two_pow_pos 64⟩
  refine ⟨_, hreach, ⟨by simp [hsent], by simp [hcount]⟩, hserver, by simp [hout], ?_, hforth,
    hreturn, hprocessing, rfl⟩
  intro out back hway hback
  rw [hforth.onTheWay hway, hreturn.onTheWay hback]
  exact ⟨List.not_mem_nil, List.not_mem_nil, List.not_mem_nil⟩

/-- Both ends call with id 1, and one of the requests is queued. -/
theorem conserved_equal_ids :
    ∃ L, Link.Reaches protobufWire monitorProtobuf 0 0 none (some monitorServer.services) L ∧
      1 ∈ L.left.endpoint.channel.outstandings ∧ 1 ∈ L.right.endpoint.channel.outstandings ∧
      Conserved protobufWire monitorProtobuf (some monitorServer.services) L.left L.right ∧
      Conserved protobufWire monitorProtobuf none L.right L.left := by
  let m := RpcChannel.requestMessage monitorProtobuf 1 monitorCall
  have hfits : Deliverable protobufWire m := by decide
  have hhand : LinkEnd.Internal (.hand false (.wrote 0) : Label MonitorMessage) :=
    fun _ _ h => by cases h; rfl
  let table : Finmap (fun _ : BitVec 64 => OutstandingCall MonitorMessage) :=
    Finmap.insert 1 ⟨monitorCall.response, monitorCall.done⟩ ∅
  have hrun : ∃ L, Link.Reaches protobufWire monitorProtobuf 0 0 none
        (some monitorServer.services) L ∧
      L.left.endpoint.channel.outstandings = table ∧
      L.right.endpoint.channel.outstandings = table ∧
      sentMessages L.left.endpoint.history = [m] ∧ sentMessages L.right.endpoint.history = [] ∧
      (enteredCalls L.left.endpoint.history).length = 1 ∧
      (enteredCalls L.right.endpoint.history).length = 1 := by
    refine ⟨_, .tail (.tail (.tail (.tail (.tail .refl
      (.left (.run (internal_enter _) (.enter rfl monitorCall))))
      (.left (.run internal_register (@Step.register _ _ _ _ [] [] _ rfl rfl))))
      (.right (.run (internal_enter _) (.enter rfl monitorCall))))
      (.left (.run hhand (@Step.hand _ _ _ _ [] [] _ rfl rfl false (.wrote 0)))))
      (.right (.run internal_register (@Step.register _ _ _ _ [] [] _ rfl rfl))),
      ?_, rfl, rfl, rfl, rfl, rfl⟩
    simp only [RpcChannel.send_outstandings]
    rfl
  obtain ⟨L, hreach, hleft, hright, hsent, hnone, hcount, hcount'⟩ := hrun
  refine ⟨L, hreach, by simp [hleft, table], by simp [hright, table], ?_⟩
  exact conserved_of_reaches _ _ _ _ _ _ L protobufWire_parsesSerialized hreach
    ⟨by rw [hsent]; simpa using hfits, by rw [hcount]; decide⟩
    ⟨by rw [hnone]; simp, by rw [hcount']; decide⟩

end ProtoRpc
