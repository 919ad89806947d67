import ProtoRpc.Foundation.Transition
import ProtoRpc.Rpc.MonitorProto

/-!
Who owns the channels of an `RpcServer`. A channel is an object at an address;
`context_` of its connection holds the only owning reference, and the channel is
destroyed when that is replaced. The message callback of the connection and the
closures that services hold have its address. Connections and channels are numbered
in the order in which they come to be.

A connection whose message callback is called is open; the callbacks of the user and
the service methods are the steps between.
-/
namespace ProtoRpc

/-- `NewCallback(this, &RpcChannel::doneCallback, response, id)` -/
structure DoneClosure (M : Type) where
  channel : Nat
  response : M
  id : BitVec 64

structure Hosting (M : Type) where
  server : RpcServer M
  conns : Nat → TcpConnection
  accepted : Nat
  /-- `context_` of a connection -/
  context : Nat → Option Nat
  /-- the channel that `messageCallback_` of a connection is bound to -/
  messageCallback : Nat → Option Nat
  channels : Nat → RpcChannel M
  /-- `conn_` of a channel -/
  connOf : Nat → Nat
  allocated : Nat
  destroyed : List Nat
  closures : List (DoneClosure M)
  /-- the closures that were run: the channel, and whether it was there -/
  runs : List (Nat × Bool)

namespace Hosting
variable {M : Type}

def new (server : RpcServer M) : Hosting M :=
  { server := server
    conns := fun _ => .new
    accepted := 0
    context := fun _ => none
    messageCallback := fun _ => none
    channels := fun _ => .new none 0
    connOf := fun _ => 0
    allocated := 0
    destroyed := []
    closures := []
    runs := [] }

def adopt (w : Hosting M) (k : Nat) (c : TcpConnection) : Hosting M :=
  { w with conns := Function.update w.conns k c }

/-- What the context held is destroyed. -/
def setContext (w : Hosting M) (k : Nat) (context : Option Nat) : Hosting M :=
  { w with
    context := Function.update w.context k context
    destroyed := w.destroyed ++ (w.context k).toList }

/-- `RpcServer::onConnection`; `id` is what memory held for `id_`. -/
def onConnection (w : Hosting M) (k : Nat) (id : BitVec 64) : Hosting M :=
  match w.server.onConnection (w.conns k) id with
  | some channel =>
      let n := w.allocated
      { w with
        channels := Function.update w.channels n channel
        connOf := Function.update w.connOf n k
        allocated := w.allocated + 1
        messageCallback := Function.update w.messageCallback k (some n) }.setContext k (some n)
  | none => w.setContext k none

def connectEstablished (w : Hosting M) (k : Nat) (id : BitVec 64) : Except Fault (Hosting M) := do
  let c ← (w.conns k).connectEstablished
  return (w.adopt k c).onConnection k id

/-- Up to the close callback, which leaves the channel alone. -/
def handleClose (w : Hosting M) (k : Nat) : Except Fault (Hosting M) := do
  let c ← (w.conns k).handleClose
  return (w.adopt k c).onConnection k 0

def connectDestroyed (w : Hosting M) (k : Nat) : Hosting M :=
  if (w.conns k).state = .kConnected then
    let c := { w.conns k with state := .kDisconnected, isWriting := false }
    (w.adopt k c).onConnection k 0
  else w

/-- The channel at `n` with its connection as it is. -/
def channel (w : Hosting M) (n : Nat) : RpcChannel M :=
  (w.channels n).setConnection (some (w.conns (w.connOf n)))

/-- An operation leaves the channel at `n` as `ch`, and so its connection. -/
def adoptChannel (w : Hosting M) (n : Nat) (ch : RpcChannel M) : Hosting M :=
  { w with channels := Function.update w.channels n ch }.adopt (w.connOf n)
    (ch.conn.getD (w.conns (w.connOf n)))

variable (wire : Wire) (lib : Protobuf M)

/-- `onRpcMessage` of the channel at `n`. -/
def onRpcMessage (w : Hosting M) (n : Nat) (message : RpcMessage) (r : WriteResult) : Hosting M :=
  let ch := w.channel n
  match message.type with
  | .response => w.adoptChannel n (ch.handleResponseMsg lib message).2
  | .request =>
      match RpcChannel.dispatch lib ch.services message with
      | .refuse error =>
          w.adoptChannel n (ch.send wire true r (RpcChannel.errorReply message.id error)).1
      | .invoke _ _ response =>
          { w with closures := ⟨n, response, message.id⟩ :: w.closures }
  | _ => w

/-- A service has filled in the response and runs `done`. A channel that is not
there any more is used all the same. -/
def runDone (w : Hosting M) (c : DoneClosure M) (response : M) (inLoopThread : Bool)
    (r : WriteResult) : Hosting M :=
  let ch := w.channel c.channel
  let w := { w with runs := (c.channel, !w.destroyed.contains c.channel) :: w.runs }
  w.adoptChannel c.channel (ch.doneCallback wire lib response c.id inLoopThread r).1

def runFunctor (w : Hosting M) (k : Nat) (r : WriteResult) (f : Functor) :
    Except Fault (Hosting M) :=
  match f with
  | .forceCloseInLoop =>
      if (w.conns k).state = .kConnected ∨ (w.conns k).state = .kDisconnecting then w.handleClose k
      else .ok w
  | f => do
      let c ← (w.conns k).runFunctor r f
      return w.adopt k c

inductive Event (M : Type) where
  | newConnection
  | connectEstablished (k : Nat) (id : BitVec 64)
  | operate (k : Nat) (op : ConnOp)
  | write (k : Nat) (r : WriteResult)
  | functor (k : Nat) (r : WriteResult)
  | receive (k : Nat) (message : RpcMessage) (r : WriteResult)
  | done (c : DoneClosure M) (response : M) (inLoopThread : Bool) (r : WriteResult)
  | close (k : Nat)
  | connectDestroyed (k : Nat)

inductive Exec (w : Hosting M) : Event M → Except Fault (Hosting M) → Prop where
  | newConnection :
      Exec w .newConnection (.ok
        { w.adopt w.accepted .new with accepted := w.accepted + 1 })
  | connectEstablished {k : Nat} {id : BitVec 64} (hk : k < w.accepted) :
      Exec w (.connectEstablished k id) (w.connectEstablished k id)
  | operate {k : Nat} {op : ConnOp} (hk : k < w.accepted) :
      Exec w (.operate k op) (do
        let c ← op.run (w.conns k)
        return w.adopt k c)
  | write {k : Nat} {r : WriteResult} (hk : k < w.accepted) :
      Exec w (.write k r) (do
        let c ← (w.conns k).handleWrite r
        return w.adopt k c)
  | functor {k : Nat} {r : WriteResult} {f : Functor} {rest : List Functor} (hk : k < w.accepted)
      (hfunctors : (w.conns k).pendingFunctors = f :: rest) :
      Exec w (.functor k r)
        ((w.adopt k { w.conns k with pendingFunctors := rest }).runFunctor k r f)
  | receive {k n : Nat} {message : RpcMessage} {r : WriteResult}
      (hopen : (w.conns k).state = .kConnected ∨ (w.conns k).state = .kDisconnecting)
      (hcallback : w.messageCallback k = some n) :
      Exec w (.receive k message r) (.ok (w.onRpcMessage wire lib n message r))
  | done {c : DoneClosure M} {before after : List (DoneClosure M)} {response : M}
      {inLoopThread : Bool} {r : WriteResult} (hclosures : w.closures = before ++ c :: after) :
      Exec w (.done c response inLoopThread r) (.ok
        ({ w with closures := before ++ after }.runDone wire lib c response inLoopThread r))
  | close {k : Nat} (hk : k < w.accepted) : Exec w (.close k) (w.handleClose k)
  | connectDestroyed {k : Nat} (hk : k < w.accepted) :
      Exec w (.connectDestroyed k) (.ok (w.connectDestroyed k))

def Step (w : Hosting M) (e : Event M) (w' : Hosting M) : Prop := Exec wire lib w e (.ok w')

end Hosting
end ProtoRpc
