import ProtoRpc.Rpc.Replies

/-!
What the caller has in hand when its closure is run. `handle_response_msg`
skips the parse of an empty reply and looks neither at the error code nor at
the result of the parse. So a response that serialises to nothing is not copied
into the caller's object, and a refused call looks like one that returned what
that object held before.
-/
namespace ProtoRpc

open ProtoRpcCodec

section
variable {M : Type}

/-- What a caller can look at when its closure is run. -/
structure Observation (M : Type) where
  contents : M
  controller : RpcController
  deriving DecidableEq

/-- The reply that a server with these services gives to a request, if its
service fills in `response`. -/
def serverReply (lib : Protobuf M) (services : Option (ServiceTable M)) (req : RpcMessage)
    (response : M) : RpcMessage :=
  match RpcChannel.dispatch lib services req with
  | .refuse error => RpcChannel.errorReply req.id error
  | .invoke _ _ _ => RpcChannel.doneReply lib response req.id

/-- The channel does not keep the controller, so it is as the caller passed it. -/
def observe (lib : Protobuf M) (client : RpcChannel M) (call : Call M) (reply : RpcMessage) :
    Option (Observation M) :=
  (client.handleResponseMsg lib reply).1.map fun seen => ⟨seen.1.contents, call.controller⟩

variable {lib : Protobuf M} {client : RpcChannel M}

theorem handleResponseMsg_of_lookup {reply : RpcMessage} {o : Object M} {done : Option Nat}
    (hout : client.outstandings.lookup reply.id = some ⟨some o, done⟩) :
    (client.handleResponseMsg lib reply).1 =
      some (RpcChannel.fillResponse lib o reply, done) := by
  rw [RpcChannel.handleResponseMsg, Endpoint.takeOutstanding_of_lookup hout]
  rfl

theorem fillResponse_of_empty {reply : RpcMessage} (o : Object M) (h : reply.response = []) :
    RpcChannel.fillResponse lib o reply = o :=
  if_neg (fun hne => hne h)

theorem fillResponse_of_bytes {reply : RpcMessage} (o : Object M) (h : reply.response ≠ []) :
    (RpcChannel.fillResponse lib o reply).contents =
      (lib.parseFromString o.contents reply.response).2 := by
  rw [RpcChannel.fillResponse, if_pos h]

/-- The object after a reply of `doneCallback`. -/
theorem fillResponse_doneReply {o : Object M} {r : M}
    (hround : (lib.parseFromString o.contents (lib.serializeAsString r)).2 = r) (id : BitVec 64) :
    (RpcChannel.fillResponse lib o (RpcChannel.doneReply lib r id)).contents =
      if lib.serializeAsString r = [] then o.contents else r := by
  by_cases hempty : lib.serializeAsString r = []
  · rw [if_pos hempty, fillResponse_of_empty o hempty]
  · rw [if_neg hempty, fillResponse_of_bytes o hempty]
    exact hround

/-- The caller's object holds the service's response exactly when that response
has bytes, or the object held it before; and the message handled is the one
that was sent. -/
theorem response_contents_iff (lib : Protobuf M) (client : RpcChannel M) (id : BitVec 64)
    (o : Object M) (done : Nat)
    (hout : client.outstandings.lookup id = some ⟨some o, some done⟩) (r : M)
    (hround : (lib.parseFromString o.contents (lib.serializeAsString r)).2 = r) :
    (∃ o', (client.handleResponseMsg lib (RpcChannel.doneReply lib r id)).1 =
        some (o', some done) ∧
      (o'.contents = r ↔ lib.serializeAsString r ≠ [] ∨ o.contents = r)) ∧
    ∀ (w : Wire) (server : RpcChannel M) (c : TcpConnection) (inLoopThread : Bool)
      (result : WriteResult), w.ParsesSerialized → Deliverable w (RpcChannel.doneReply lib r id) →
      server.conn = some c → c.WF → c.state = .kConnected →
      ∃ c' frame, (server.doneCallback w lib r id inLoopThread result).1.conn = some c' ∧
        c'.handed = c.handed ++ [frame] ∧
        ∀ initialSize chunks, chunks.flatten = frame →
          ∃ buf, feed w chunks ([], Buffer.new initialSize) =
            .ok ([RpcChannel.doneReply lib r id], buf) := by
  refine ⟨⟨_, handleResponseMsg_of_lookup hout, ?_⟩, ?_⟩
  · rw [fillResponse_doneReply hround]
    by_cases hempty : lib.serializeAsString r = []
    · simp [hempty]
    · simp [hempty]
  · intro w server c inLoopThread result hparse hsize hconn hwf hup
    obtain ⟨c', hsend, -, -, hhanded, -⟩ :=
      ProtoRpcCodec.send_connected hsize.encodable hwf hup inLoopThread result
    refine ⟨c', frameBytes w (RpcChannel.doneReply lib r id), ?_, hhanded, ?_⟩
    · rw [RpcChannel.doneCallback, RpcChannel.send, hconn, hsend]
      rfl
    · intro initialSize chunks hchunks
      have hframe := isFrame_frameBytes hparse hsize
      have hstream : List.Forall₂ (IsFrame w) [frameBytes w (RpcChannel.doneReply lib r id)]
          [RpcChannel.doneReply lib r id] := .cons hframe .nil
      obtain ⟨buf, hfeed, -⟩ := feed_frames hstream [] Framing.stuck_nil
        ⟨_, _, [], hstream, by simp⟩ initialSize (by simpa using hchunks)
      exact ⟨buf, hfeed⟩

end

/-- A channel on which call 1 is outstanding, with what its response object
holds. -/
def waiting (prior : MonitorMessage) : RpcChannel MonitorMessage :=
  (RpcChannel.new none 1).register 1 ⟨some ⟨16, prior⟩, some 32⟩

theorem response_contents_of_status :
    ∃ o', ((waiting (.testResponse false "old")).handleResponseMsg monitorProtobuf
        (RpcChannel.doneReply monitorProtobuf (.testResponse true "") 1)).1 = some (o', some 32) ∧
      o'.contents = .testResponse true "" := by
  obtain ⟨⟨o', hrun, hcontents⟩, -⟩ := response_contents_iff monitorProtobuf
    (waiting (.testResponse false "old")) 1 ⟨16, .testResponse false "old"⟩ 32 rfl
    (.testResponse true "") rfl
  exact ⟨o', hrun, hcontents.mpr (Or.inl (by decide))⟩

/-- The service answers with the default response, and the caller's object
keeps what it held. -/
theorem response_default_not_copied :
    monitorProtobuf.parseFromString (.testResponse true "old")
        (monitorProtobuf.serializeAsString (.testResponse false "")) =
      (true, .testResponse false "") ∧
    ∃ o', ((waiting (.testResponse true "old")).handleResponseMsg monitorProtobuf
        (RpcChannel.doneReply monitorProtobuf (.testResponse false "") 1)).1 =
          some (o', some 32) ∧
      o'.contents ≠ .testResponse false "" :=
  ⟨rfl, ⟨16, .testResponse true "old"⟩, rfl, by decide⟩

section
variable {M : Type} {lib : Protobuf M} {client : RpcChannel M}

theorem serverReply_of_refused {services : Option (ServiceTable M)} {req : RpcMessage}
    {error : ErrorCode} (h : Refused lib services req error) (r : M) :
    serverReply lib services req r = RpcChannel.errorReply req.id error := by
  rw [serverReply, RpcChannel.dispatch_of_refused h]

theorem serverReply_of_served {services : Option (ServiceTable M)} {req : RpcMessage}
    (h : ∀ error, ¬ Refused lib services req error) (r : M) :
    serverReply lib services req r = RpcChannel.doneReply lib r req.id := by
  rw [serverReply]
  cases hdispatch : RpcChannel.dispatch lib services req with
  | refuse error => exact absurd (RpcChannel.refused_of_dispatch hdispatch) (h error)
  | invoke method request response => rfl

theorem observe_of_lookup {call : Call M} {reply : RpcMessage} {o : Object M} {done : Option Nat}
    (hout : client.outstandings.lookup reply.id = some ⟨some o, done⟩) :
    observe lib client call reply =
      some ⟨(RpcChannel.fillResponse lib o reply).contents, call.controller⟩ := by
  rw [observe, handleResponseMsg_of_lookup hout]
  rfl

theorem observation_ne_iff {a b : M} {controller : RpcController} :
    some (Observation.mk a controller) ≠ some ⟨b, controller⟩ ↔ a ≠ b := by
  simp

/-- Two runs of one call: against a server that refuses it, or with reply bytes
that do not parse, the caller sees something else than against one that returns
`r` exactly under these conditions on `r` and on the object it passed. -/
theorem failure_observed_iff (lib : Protobuf M) (client : RpcChannel M) (call : Call M)
    (id : BitVec 64) (o : Object M) (done : Nat) (hresponse : call.response = some o)
    (hdone : call.done = some done)
    (hout : client.outstandings.lookup id = some ⟨call.response, call.done⟩)
    (refusing serving : Option (ServiceTable M)) (error : ErrorCode)
    (hrefused : Refused lib refusing (RpcChannel.requestMessage lib id call) error)
    (hserved : ∀ error, ¬ Refused lib serving (RpcChannel.requestMessage lib id call) error)
    (r : M) (hround : (lib.parseFromString o.contents (lib.serializeAsString r)).2 = r)
    (garbled : List UInt8) (hgarbled : garbled ≠ []) (left : M)
    (hfails : lib.parseFromString o.contents garbled = (false, left)) :
    let req := RpcChannel.requestMessage lib id call
    (observe lib client call (serverReply lib refusing req r) ≠
        observe lib client call (serverReply lib serving req r) ↔
      lib.serializeAsString r ≠ [] ∧ o.contents ≠ r) ∧
    (observe lib client call { serverReply lib serving req r with response := garbled } ≠
        observe lib client call (serverReply lib serving req r) ↔
      (lib.serializeAsString r = [] ∧ left ≠ o.contents) ∨
        (lib.serializeAsString r ≠ [] ∧ left ≠ r)) := by
  intro req
  rw [hresponse, hdone] at hout
  have hid : req.id = id := rfl
  have hsuccess : observe lib client call (RpcChannel.doneReply lib r id) =
      some ⟨if lib.serializeAsString r = [] then o.contents else r, call.controller⟩ := by
    rw [observe_of_lookup hout, fillResponse_doneReply hround]
  have herror : observe lib client call (RpcChannel.errorReply id error) =
      some ⟨o.contents, call.controller⟩ := by
    rw [observe_of_lookup hout, fillResponse_of_empty o rfl]
  have hbad : observe lib client call
      { RpcChannel.doneReply lib r id with response := garbled } =
        some ⟨left, call.controller⟩ := by
    rw [observe_of_lookup hout, fillResponse_of_bytes o hgarbled, hfails]
  rw [serverReply_of_refused hrefused, serverReply_of_served hserved, hid, hsuccess, herror, hbad,
    observation_ne_iff, observation_ne_iff]
  by_cases hempty : lib.serializeAsString r = []
  · simp [hempty]
  · simp [hempty]

end

theorem failure_observed_of_status :
    observe monitorProtobuf (waiting (.testResponse false "")) monitorCall
        (serverReply monitorProtobuf none
          (RpcChannel.requestMessage monitorProtobuf 1 monitorCall) (.testResponse true "")) ≠
      observe monitorProtobuf (waiting (.testResponse false "")) monitorCall
        (serverReply monitorProtobuf (some monitorServer.services)
          (RpcChannel.requestMessage monitorProtobuf 1 monitorCall) (.testResponse true "")) :=
  (failure_observed_iff monitorProtobuf (waiting (.testResponse false "")) monitorCall 1
    ⟨16, .testResponse false ""⟩ 32 rfl rfl rfl none (some monitorServer.services) .noService
    (.noTable rfl) (RpcChannel.not_refused_of_dispatch (dispatch_monitorCall 1))
    (.testResponse true "") rfl [8] (by decide) (.testResponse false "") rfl).1.mpr
    ⟨by decide, by decide⟩

/-- A server without the service and one that answers with the default response
look the same to the example client. -/
theorem failure_not_observed_of_default :
    Refused monitorProtobuf none (RpcChannel.requestMessage monitorProtobuf 1 monitorCall)
        .noService ∧
      (∀ error, ¬ Refused monitorProtobuf (some monitorServer.services)
        (RpcChannel.requestMessage monitorProtobuf 1 monitorCall) error) ∧
      observe monitorProtobuf (waiting (.testResponse false "")) monitorCall
          (serverReply monitorProtobuf none
            (RpcChannel.requestMessage monitorProtobuf 1 monitorCall) (.testResponse false "")) =
        observe monitorProtobuf (waiting (.testResponse false "")) monitorCall
          (serverReply monitorProtobuf (some monitorServer.services)
            (RpcChannel.requestMessage monitorProtobuf 1 monitorCall)
            (.testResponse false "")) := by
  have hrefused : Refused monitorProtobuf none
      (RpcChannel.requestMessage monitorProtobuf 1 monitorCall) .noService := .noTable rfl
  have hserved := RpcChannel.not_refused_of_dispatch (dispatch_monitorCall 1)
  refine ⟨hrefused, hserved, ?_⟩
  rw [serverReply_of_refused hrefused, serverReply_of_served hserved]
  rfl

end ProtoRpc
