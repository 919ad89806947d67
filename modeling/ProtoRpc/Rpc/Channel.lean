import Mathlib.Data.Finmap
import ProtoRpc.Rpc.Codec

/-!
`RpcChannel` and the part of `RpcServer` that sets one up. The messages of the
services, with their serialisation and parse, are a type parameter with the
library functions that the channel calls on it; a service is its descriptor and
its two prototypes. What a service method or a closure does when it is run is
not part of the channel: the channel's own code ends where it calls out, so
`CallMethod`, `handle_response_msg` and `handle_request_msg` are given by the
pieces between those points, in the order of the source.

`id_` is not initialised by either constructor, so a new channel takes any.
-/
namespace ProtoRpc

/-- `google::protobuf::Message`, as far as the channel uses it. -/
structure Protobuf (M : Type) where
  getTypeName : M → String
  serializeAsString : M → List UInt8
  /-- The object before the parse gives whether it succeeded and the object
  after it. -/
  parseFromString : M → List UInt8 → Bool × M

/-- Parsing undoes serialising between objects of one type. -/
def Protobuf.ParsesSerialized {M : Type} (lib : Protobuf M) : Prop :=
  ∀ o r, lib.getTypeName o = lib.getTypeName r → (lib.serializeAsString r).length ≤ intMax →
    lib.parseFromString o (lib.serializeAsString r) = (true, r)

structure MethodDescriptor where
  /-- `service()->full_name()` -/
  service : String
  name : String
  deriving DecidableEq, Repr

structure Service (M : Type) where
  /-- `GetDescriptor()->full_name()` -/
  fullName : String
  findMethodByName : String → Option MethodDescriptor
  getRequestPrototype : MethodDescriptor → M
  getResponsePrototype : MethodDescriptor → M

abbrev ServiceTable (M : Type) := String → Option (Service M)

/-- What a caller could learn from the controller it passes. -/
structure RpcController where
  failed : Bool
  errorText : String
  deriving DecidableEq, Repr

/-- A message object on the heap. -/
structure Object (M : Type) where
  address : Nat
  contents : M
  deriving DecidableEq

/-- Both pointers may be null. A closure is known by its address. -/
structure OutstandingCall (M : Type) where
  response : Option (Object M)
  done : Option Nat
  deriving DecidableEq

structure RpcChannel (M : Type) where
  conn : Option TcpConnection
  id : BitVec 64
  outstandings : Finmap (fun _ : BitVec 64 => OutstandingCall M)
  services : Option (ServiceTable M)

/-- The arguments of `CallMethod`. -/
structure Call (M : Type) where
  method : MethodDescriptor
  controller : RpcController
  request : M
  response : Option (Object M)
  done : Option Nat

namespace RpcChannel
variable {M : Type}

def new (conn : Option TcpConnection) (id : BitVec 64) : RpcChannel M :=
  { conn := conn, id := id, outstandings := ∅, services := none }

def setConnection (ch : RpcChannel M) (conn : Option TcpConnection) : RpcChannel M :=
  { ch with conn := conn }

def setServices (ch : RpcChannel M) (services : Option (ServiceTable M)) : RpcChannel M :=
  { ch with services := services }

/-- A send changes the connection, or faults. -/
def afterSend (ch : RpcChannel M) : Except Fault TcpConnection → RpcChannel M × Option Fault
  | .ok c => (ch.setConnection (some c), none)
  | .error fault => (ch, some fault)

/-- `codec_.send(conn_, message)` -/
def send (w : Wire) (ch : RpcChannel M) (inLoopThread : Bool) (r : WriteResult)
    (message : RpcMessage) : RpcChannel M × Option Fault :=
  ch.afterSend (ProtoRpcCodec.send w ch.conn inLoopThread r message)

/-- `id_.fetch_add(1) + 1` -/
def fetchId (ch : RpcChannel M) : BitVec 64 × RpcChannel M :=
  (ch.id + 1#64, { ch with id := ch.id + 1#64 })

def requestMessage (lib : Protobuf M) (id : BitVec 64) (call : Call M) : RpcMessage :=
  { RpcMessage.new with
    type := .request
    id := id
    service := call.method.service
    method := call.method.name
    request := lib.serializeAsString call.request }

/-- `outstandings_[id] = out`, under the lock -/
def register (ch : RpcChannel M) (id : BitVec 64) (out : OutstandingCall M) : RpcChannel M :=
  { ch with outstandings := ch.outstandings.insert id out }

/-- The channel is returned with the fault, since the call is registered before
it is sent. The controller is not used. -/
def callMethod (w : Wire) (lib : Protobuf M) (ch : RpcChannel M) (call : Call M)
    (inLoopThread : Bool) (r : WriteResult) : RpcChannel M × Option Fault :=
  let (id, ch) := ch.fetchId
  let message := requestMessage lib id call
  let ch := ch.register id ⟨call.response, call.done⟩
  ch.send w inLoopThread r message

/-- The locked part of `handle_response_msg`. -/
def takeOutstanding (ch : RpcChannel M) (id : BitVec 64) : OutstandingCall M × RpcChannel M :=
  match ch.outstandings.lookup id with
  | some out => (out, { ch with outstandings := ch.outstandings.erase id })
  | none => (⟨none, none⟩, ch)

/-- The reply's bytes are parsed only where there are any, and the result of the
parse is not looked at. -/
def fillResponse (lib : Protobuf M) (response : Object M) (message : RpcMessage) : Object M :=
  if message.response ≠ [] then
    { response with contents := (lib.parseFromString response.contents message.response).2 }
  else response

/-- The response object and the closure as they are when the closure is run, if
the reply belongs to an outstanding call. -/
def handleResponseMsg (lib : Protobuf M) (ch : RpcChannel M) (message : RpcMessage) :
    Option (Object M × Option Nat) × RpcChannel M :=
  let (out, ch) := ch.takeOutstanding message.id
  (out.response.map fun response => (fillResponse lib response message, out.done), ch)

/-- What `handle_request_msg` decides: an error code, or the call of the service. -/
inductive Dispatch (M : Type) where
  | refuse (error : ErrorCode)
  | invoke (method : MethodDescriptor) (request : M) (response : M)

def dispatch (lib : Protobuf M) (services : Option (ServiceTable M)) (message : RpcMessage) :
    Dispatch M :=
  match services with
  | none => .refuse .noService
  | some table =>
      match table message.service with
      | none => .refuse .noService
      | some service =>
          match service.findMethodByName message.method with
          | none => .refuse .noMethod
          | some method =>
              match lib.parseFromString (service.getRequestPrototype method) message.request with
              | (true, request) => .invoke method request (service.getResponsePrototype method)
              | (false, _) => .refuse .invalidRequest

/-- The reply of `handle_request_msg` to a request that it refuses. -/
def errorReply (id : BitVec 64) (error : ErrorCode) : RpcMessage :=
  { RpcMessage.new with type := .response, id := id, error := error }

/-- The reply of `doneCallback`. -/
def doneReply (lib : Protobuf M) (response : M) (id : BitVec 64) : RpcMessage :=
  { RpcMessage.new with
    type := .response
    id := id
    response := lib.serializeAsString response }

def doneCallback (w : Wire) (lib : Protobuf M) (ch : RpcChannel M) (response : M)
    (id : BitVec 64) (inLoopThread : Bool) (r : WriteResult) : RpcChannel M × Option Fault :=
  ch.send w inLoopThread r (doneReply lib response id)

end RpcChannel

structure RpcServer (M : Type) where
  services : ServiceTable M

namespace RpcServer
variable {M : Type}

def registerService (server : RpcServer M) (service : Service M) : RpcServer M :=
  { server with services := Function.update server.services service.fullName (some service) }

/-- The channel that a new connection is given; it has the identity `id_` that
memory held. -/
def onConnection (server : RpcServer M) (conn : TcpConnection) (id : BitVec 64) :
    Option (RpcChannel M) :=
  if conn.state = .kConnected then
    some ((RpcChannel.new (some conn) id).setServices (some server.services))
  else none

end RpcServer

namespace RpcChannel
variable {M : Type}

theorem afterSend_fields (ch : RpcChannel M) (result : Except Fault TcpConnection) :
    (ch.afterSend result).1.services = ch.services ∧ (ch.afterSend result).1.id = ch.id ∧
      (ch.afterSend result).1.outstandings = ch.outstandings := by
  cases result with
  | ok c | error fault => exact ⟨rfl, rfl, rfl⟩

@[simp] theorem send_services (w : Wire) (ch : RpcChannel M) (inLoopThread : Bool)
    (r : WriteResult) (m : RpcMessage) :
    (ch.send w inLoopThread r m).1.services = ch.services := by
  rw [send]
  exact (afterSend_fields ch _).1

@[simp] theorem send_id (w : Wire) (ch : RpcChannel M) (inLoopThread : Bool)
    (r : WriteResult) (m : RpcMessage) : (ch.send w inLoopThread r m).1.id = ch.id := by
  rw [send]
  exact (afterSend_fields ch _).2.1

@[simp] theorem send_outstandings (w : Wire) (ch : RpcChannel M) (inLoopThread : Bool)
    (r : WriteResult) (m : RpcMessage) :
    (ch.send w inLoopThread r m).1.outstandings = ch.outstandings := by
  rw [send]
  exact (afterSend_fields ch _).2.2

end RpcChannel
end ProtoRpc
