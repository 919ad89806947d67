import Mathlib.Logic.Relation
import ProtoRpc.Foundation.Ledger
import ProtoRpc.Rpc.Channel

/-!
One end of a connection as a transition system: an `RpcChannel` together with
the calls that are inside it. Threads are activations of `CallMethod` between
its atomic points, the message that the loop is handling, and the closures that
services hold. A step runs one activation to its next point, so every
interleaving of the source is a run.

A message from another connection than `conn_` fails the assertion in
`onRpcMessage` and has no step. A send that faults is a step all the same: the
source stops there at the latest. `history` records what happened, the latest
first; no step depends on it except for numbering the requests.
-/
namespace ProtoRpc

/-- An activation of `CallMethod`; `registered` once it has left the lock. -/
structure Calling (M : Type) where
  id : BitVec 64
  out : OutstandingCall M
  message : RpcMessage
  registered : Bool

/-- A closure made by `NewCallback` for `doneCallback`, and the number of the
request that it answers. -/
structure Closure (M : Type) where
  index : Nat
  id : BitVec 64
  response : M

/-- Where the loop thread is inside `onRpcMessage`. -/
inductive Handling (M : Type) where
  | idle
  | found (message : RpcMessage) (out : OutstandingCall M)
  | running (id : BitVec 64) (out : OutstandingCall M)
  | refusing (index : Nat) (id : BitVec 64) (error : ErrorCode)
  | serving

/-- Why a message was sent. -/
inductive Origin where
  | call (id : BitVec 64)
  | reply (index : Nat)
  deriving DecidableEq

inductive Event (M : Type) where
  | entered (id : BitVec 64) (call : Call M)
  | registered (id : BitVec 64) (out : OutstandingCall M)
  | received (message : RpcMessage)
  | ranDone (id : BitVec 64) (out : OutstandingCall M) (response : Object M)
  | released (id : BitVec 64) (out : OutstandingCall M)
  | invoked (index : Nat) (method : MethodDescriptor) (request : M)
  | completed (index : Nat) (response : M)
  | sent (origin : Origin) (message : RpcMessage)

structure Endpoint (M : Type) where
  channel : RpcChannel M
  calling : List (Calling M)
  handling : Handling M
  closures : List (Closure M)
  alive : Bool
  history : List (Event M)

inductive Label (M : Type) where
  | enter (call : Call M)
  | register
  | hand (inLoopThread : Bool) (result : WriteResult)
  | receive (message : RpcMessage)
  | done
  | refuse (result : WriteResult)
  | returned
  | complete (inLoopThread : Bool) (result : WriteResult)
  | connection (conn : Option TcpConnection)
  | destroy

/-- The thread and the write result of a step that sends. -/
def Label.sends {M : Type} : Label M → Option (Bool × WriteResult)
  | .hand inLoopThread r | .complete inLoopThread r => some (inLoopThread, r)
  | .refuse r => some (true, r)
  | _ => none

section History
variable {M : Type}

/-- The requests received, the earliest first. -/
def requests (h : List (Event M)) : List RpcMessage :=
  (h.filterMap fun
    | .received m => if m.type = .request then some m else none
    | _ => none).reverse

def enteredCalls (h : List (Event M)) : List (BitVec 64 × OutstandingCall M) :=
  h.filterMap fun
    | .entered id call => some (id, ⟨call.response, call.done⟩)
    | _ => none

/-- Registration opens an id, and a RESPONSE with that id closes it. -/
def ledger (h : List (Event M)) : List (Ledger.Entry (BitVec 64) (OutstandingCall M)) :=
  h.filterMap fun
    | .registered id out => some (.opened id out)
    | .received m => if m.type = .response then some (.closed m.id) else none
    | _ => none

/-- The calls whose closure was run. -/
def ranCalls (h : List (Event M)) : List (BitVec 64 × OutstandingCall M) :=
  h.filterMap fun
    | .ranDone id out _ => some (id, out)
    | _ => none

/-- The calls whose response object and closure were freed. A closure frees itself
when it is run, and the destructor frees the ones that were not. -/
def releasedCalls (h : List (Event M)) : List (BitVec 64 × OutstandingCall M) :=
  h.filterMap fun
    | .released id out => some (id, out)
    | _ => none

def sentMessages (h : List (Event M)) : List RpcMessage :=
  h.filterMap fun
    | .sent _ m => some m
    | _ => none

def receivedMessages (h : List (Event M)) : List RpcMessage :=
  h.filterMap fun
    | .received m => some m
    | _ => none

/-- The requests that were handed to the codec, with the id of the call. -/
def sentCalls (h : List (Event M)) : List (BitVec 64 × RpcMessage) :=
  h.filterMap fun
    | .sent (.call id) m => some (id, m)
    | _ => none

/-- The replies, with the number of the request. -/
def replies (h : List (Event M)) : List (Nat × RpcMessage) :=
  h.filterMap fun
    | .sent (.reply k) m => some (k, m)
    | _ => none

/-- The requests for which a service method was invoked. -/
def invocations (h : List (Event M)) : List Nat :=
  h.filterMap fun
    | .invoked k _ _ => some k
    | _ => none

end History

namespace Endpoint
variable {M : Type}

def new (channel : RpcChannel M) : Endpoint M :=
  { channel := channel
    calling := []
    handling := .idle
    closures := []
    alive := true
    history := [] }

/-- What `handle_response_msg` goes on with once the lock is dropped. -/
def afterTake (out : OutstandingCall M) (message : RpcMessage) : Handling M :=
  if out.response.isSome then .found message out else .idle

section
variable (w : Wire) (lib : Protobuf M)

inductive Step (e : Endpoint M) : Label M → Endpoint M → Prop where
  | enter (halive : e.alive = true) (call : Call M) :
      Step e (.enter call)
        { e with
          channel := e.channel.fetchId.2
          calling := ⟨e.channel.fetchId.1, ⟨call.response, call.done⟩,
            RpcChannel.requestMessage lib e.channel.fetchId.1 call, false⟩ :: e.calling
          history := .entered e.channel.fetchId.1 call :: e.history }
  | register {before after : List (Calling M)} {a : Calling M}
      (hcalling : e.calling = before ++ a :: after) (hnew : a.registered = false) :
      Step e .register
        { e with
          channel := e.channel.register a.id a.out
          calling := before ++ { a with registered := true } :: after
          history := .registered a.id a.out :: e.history }
  | hand {before after : List (Calling M)} {a : Calling M}
      (hcalling : e.calling = before ++ a :: after) (hregistered : a.registered = true)
      (inLoopThread : Bool) (r : WriteResult) :
      Step e (.hand inLoopThread r)
        { e with
          channel := (e.channel.send w inLoopThread r a.message).1
          calling := before ++ after
          history := .sent (.call a.id) a.message :: e.history }
  | response (halive : e.alive = true) (hidle : e.handling = .idle) {m : RpcMessage}
      (htype : m.type = .response) :
      Step e (.receive m)
        { e with
          channel := (e.channel.takeOutstanding m.id).2
          handling := afterTake (e.channel.takeOutstanding m.id).1 m
          history := .received m :: e.history }
  | runDone {m : RpcMessage} {out : OutstandingCall M} {response : Object M} {done : Nat}
      (hfound : e.handling = .found m out) (hresponse : out.response = some response)
      (hdone : out.done = some done) :
      Step e .done
        { e with
          handling := .running m.id out
          history := .ranDone m.id out (RpcChannel.fillResponse lib response m) :: e.history }
  | finishDone {id : BitVec 64} {out : OutstandingCall M} (hrunning : e.handling = .running id out) :
      Step e .done
        { e with
          handling := .idle
          history := .released id out :: e.history }
  | skipDone {m : RpcMessage} {out : OutstandingCall M} (hfound : e.handling = .found m out)
      (hdone : out.done = none) :
      Step e .done
        { e with
          handling := .idle
          history := .released m.id out :: e.history }
  | refused (halive : e.alive = true) (hidle : e.handling = .idle) {m : RpcMessage}
      (htype : m.type = .request) {error : ErrorCode}
      (hdispatch : RpcChannel.dispatch lib e.channel.services m = .refuse error) :
      Step e (.receive m)
        { e with
          handling := .refusing (requests e.history).length m.id error
          history := .received m :: e.history }
  | refuse {index : Nat} {id : BitVec 64} {error : ErrorCode}
      (hrefusing : e.handling = .refusing index id error) (r : WriteResult) :
      Step e (.refuse r)
        { e with
          channel := (e.channel.send w true r (RpcChannel.errorReply id error)).1
          handling := .idle
          history := .sent (.reply index) (RpcChannel.errorReply id error) :: e.history }
  | invoke (halive : e.alive = true) (hidle : e.handling = .idle) {m : RpcMessage}
      (htype : m.type = .request) {method : MethodDescriptor} {request response : M}
      (hdispatch : RpcChannel.dispatch lib e.channel.services m =
        .invoke method request response) :
      Step e (.receive m)
        { e with
          handling := .serving
          closures := ⟨(requests e.history).length, m.id, response⟩ :: e.closures
          history := .invoked (requests e.history).length method request :: .received m ::
            e.history }
  | returned (hserving : e.handling = .serving) :
      Step e .returned { e with handling := .idle }
  | ignored (halive : e.alive = true) (hidle : e.handling = .idle) {m : RpcMessage}
      (hresponse : m.type ≠ .response) (hrequest : m.type ≠ .request) :
      Step e (.receive m) { e with history := .received m :: e.history }
  | complete (halive : e.alive = true) {before after : List (Closure M)} {c : Closure M}
      (hclosures : e.closures = before ++ c :: after) (response : M)
      (inLoopThread : Bool) (r : WriteResult) :
      Step e (.complete inLoopThread r)
        { e with
          channel := (e.channel.doneCallback w lib response c.id inLoopThread r).1
          closures := before ++ after
          history := .sent (.reply c.index) (RpcChannel.doneReply lib response c.id) ::
            .completed c.index response :: e.history }
  | connection (conn : Option TcpConnection) :
      Step e (.connection conn) { e with channel := e.channel.setConnection conn }
  | destroy (halive : e.alive = true) (hidle : e.handling = .idle) (hcalling : e.calling = [])
      {freed : List (BitVec 64 × OutstandingCall M)}
      (hfreed : (freed : Multiset _) = Ledger.pairs e.channel.outstandings) :
      Step e .destroy
        { e with
          alive := false
          history := freed.map (fun p => .released p.1 p.2) ++ e.history }

/-- A step whose label the environment allows in that state. -/
def Moves (allowed : Endpoint M → Label M → Prop) (e e' : Endpoint M) : Prop :=
  ∃ l, allowed e l ∧ Step w lib e l e'

/-- The states that a channel made by its constructor can come to. -/
def Reaches (allowed : Endpoint M → Label M → Prop) (conn : Option TcpConnection)
    (id : BitVec 64) (services : Option (ServiceTable M)) (e : Endpoint M) : Prop :=
  Relation.ReflTransGen (Moves w lib allowed)
    (new ((RpcChannel.new conn id).setServices services)) e

end

section
variable {w : Wire} {lib : Protobuf M} {e e' : Endpoint M} {l : Label M}

/-- What a step does to the connection. -/
inductive Step.OnConnection (w : Wire) (e e' : Endpoint M) : Label M → Prop where
  | same {l : Label M} (hconn : e'.channel.conn = e.channel.conn)
      (hsent : sentMessages e'.history = sentMessages e.history) : OnConnection w e e' l
  | sends {l : Label M} {inLoopThread : Bool} {r : WriteResult} {m : RpcMessage}
      (hlabel : l.sends = some (inLoopThread, r))
      (hconn : e'.channel.conn = (e.channel.send w inLoopThread r m).1.conn)
      (hsent : sentMessages e'.history = m :: sentMessages e.history) : OnConnection w e e' l
  | connection {conn : Option TcpConnection} (hconn : e'.channel.conn = conn)
      (hsent : sentMessages e'.history = sentMessages e.history) :
      OnConnection w e e' (.connection conn)

theorem Step.onConnection (hstep : Step w lib e l e') : Step.OnConnection w e e' l := by
  cases hstep with
  | hand | refuse | complete => exact .sends rfl rfl rfl
  | connection conn => exact .connection rfl rfl
  | response =>
      refine .same ?_ rfl
      dsimp only [RpcChannel.takeOutstanding]
      split <;> rfl
  | destroy => exact .same rfl (by simp [sentMessages, List.filterMap_map])
  | _ => exact .same rfl rfl

end
end Endpoint
end ProtoRpc
