import ProtoRpc.Network.Connector
import ProtoRpc.Network.ServerConnection

/-!
A `TcpClient` with its `Connector`, its loop and the connections that it has had,
numbered in the order of `newConnection`. Calls of the client and of a connection
are single steps, made by the loop thread in its own code or by other threads;
`connect` of another thread queues `startInLoop`. As in `ServerConnection`, what the
loop thread has begun and not finished is a stack of frames.

The poller is kept for the channel of the connector only: it can be reported
while it is registered. A connection can be reported by any poll that comes after
it was established, with any bits, whatever `startRead`, `stopRead` or its end have
made of its interest; where it is closed twice by that, the assertion in
`handleClose` ends the run.
-/
namespace ProtoRpc

/-- A channel of the loop. -/
inductive Source where
  | connector (fd : Nat)
  | connection (k : Nat)
  deriving DecidableEq, Repr

inductive ClientFunctor where
  | connector (f : ConnectorFunctor)
  | own (k : Nat) (f : Functor)
  | connectDestroyed (k : Nat)
  | other
  deriving DecidableEq, Repr

inductive ClientFrame where
  /-- `Connector::handleWrite` and `Connector::handleError` -/
  | connectorWrite
  | connectorError
  | connection (k : Nat) (f : Frame)
  deriving DecidableEq, Repr

structure TcpClient where
  connector : Connector
  /-- `retry_` -/
  retryFlag : Bool
  /-- `connect_` -/
  connectFlag : Bool
  connection : Option Nat
  conns : Nat → TcpConnection
  /-- how often `newConnection` was called -/
  established : Nat
  phase : IoPhase
  remaining : List (Source × Revents)
  todo : List ClientFrame
  pendingFunctors : List ClientFunctor
  functors : List ClientFunctor
  /-- the sockets that went to `newConnection` -/
  passed : List Nat
  /-- the calls of `connectionCallback_`, and what `connected` was in them -/
  notices : List (Nat × Bool)

/-- What `handleEvent` calls of the connector, which has no close and no read
callback. -/
def connectorFrames (r : Revents) : List ClientFrame :=
  (eventFrames r).filterMap fun
    | .write => some .connectorWrite
    | .error => some .connectorError
    | _ => none

def Source.frames (r : Revents) : Source → List ClientFrame
  | .connector _ => connectorFrames r
  | .connection k => (eventFrames r).map (.connection k)

namespace TcpClient

def new : TcpClient :=
  { connector := .new
    retryFlag := false
    connectFlag := true
    connection := none
    conns := fun _ => .new
    established := 0
    phase := .polling
    remaining := []
    todo := []
    pendingFunctors := []
    functors := []
    passed := []
    notices := [] }

/-- The connector is left as `c`. -/
def adoptConnector (w : TcpClient) (c : Connector) : TcpClient :=
  { w with
    connector := { c with pendingFunctors := [] }
    pendingFunctors := w.pendingFunctors ++ c.pendingFunctors.map .connector }

/-- Connection `k` is left as `c`. -/
def adopt (w : TcpClient) (k : Nat) (c : TcpConnection) : TcpClient :=
  { w with
    conns := Function.update w.conns k { c with pendingFunctors := [] }
    pendingFunctors := w.pendingFunctors ++ c.pendingFunctors.map (.own k) }

def notify (w : TcpClient) (k : Nat) : TcpClient :=
  { w with
    notices := w.notices ++ [(k, (w.conns k).state == .kConnected)]
    todo := .connection k .connectionCallback :: w.todo }

def connect (w : TcpClient) (own : Bool) (savedErrno : ConnectErrno) :
    Except ClientFault TcpClient := do
  let c ← w.connector.start own savedErrno
  return { w with connectFlag := true }.adoptConnector c

def disconnect (w : TcpClient) (own : Bool) : TcpClient :=
  let w := { w with connectFlag := false }
  match w.connection with
  | none => w
  | some k => w.adopt k ((w.conns k).shutdown own)

def stop (w : TcpClient) : TcpClient :=
  { w with connectFlag := false }.adoptConnector w.connector.stop

def newConnection (w : TcpClient) (sockfd : Nat) : Except ClientFault TcpClient := do
  let c ← (TcpConnection.new.connectEstablished).mapError .other
  return { w with
    conns := Function.update w.conns w.established c
    connection := some w.established
    established := w.established + 1
    passed := w.passed ++ [sockfd] }.notify w.established

def handleClose (w : TcpClient) (k : Nat) : Except ClientFault TcpClient := do
  let c ← (w.conns k).handleClose.mapError .other
  return { w with
    conns := Function.update w.conns k c
    todo := .connection k .closeCallback :: w.todo }.notify k

def removeConnection (w : TcpClient) (k : Nat) (savedErrno : ConnectErrno) :
    Except ClientFault TcpClient :=
  if w.connection = some k then
    let w := { w with
      connection := none
      pendingFunctors := w.pendingFunctors ++ [.connectDestroyed k] }
    if w.retryFlag && w.connectFlag then do
      let c ← w.connector.restart savedErrno
      return w.adoptConnector c
    else .ok w
  else .error .removeConnection

/-- Up to `Channel::remove`. -/
def connectDestroyed (w : TcpClient) (k : Nat) : TcpClient :=
  if (w.conns k).state = .kConnected then
    let c := { w.conns k with state := .kDisconnected, isWriting := false }
    { w with conns := Function.update w.conns k c }.notify k
  else w

def handleRead (w : TcpClient) (k : Nat) (r : Buffer.ReadResult) :
    Except ClientFault TcpClient := do
  let (n, input) ← ((w.conns k).inputBuffer.readFd r).mapError .other
  let w := { w with conns := Function.update w.conns k { w.conns k with inputBuffer := input } }
  if 0 < n then return { w with todo := .connection k .messageCallback :: w.todo }
  else if n = 0 then w.handleClose k
  else return w

/-- The results of the calls of the kernel that a frame or a functor can make. -/
structure Results where
  savedErrno : ConnectErrno
  /-- `SO_ERROR` is not zero -/
  err : Bool
  selfConnect : Bool
  read : Buffer.ReadResult
  write : WriteResult

/-- The frame has been popped. -/
def runFrame (w : TcpClient) (x : Results) : ClientFrame → Except ClientFault TcpClient
  | .connectorWrite => do
      let (c, sockfd) ← w.connector.handleWrite x.err x.selfConnect
      let w := w.adoptConnector c
      match sockfd with
      | none => return w
      | some sockfd => w.newConnection sockfd
  | .connectorError => do
      let c ← w.connector.handleError
      return w.adoptConnector c
  | .connection k .close => w.handleClose k
  | .connection k .read => w.handleRead k x.read
  | .connection k .write => do
      let c ← ((w.conns k).handleWrite x.write).mapError .other
      return w.adopt k c
  | .connection k .closeCallback => w.removeConnection k x.savedErrno
  | .connection _ .error | .connection _ .connectionCallback
  | .connection _ .messageCallback | .connection _ .remove => .ok w

def runFunctor (w : TcpClient) (x : Results) : ClientFunctor → Except ClientFault TcpClient
  | .connector f => do
      let c ← w.connector.runFunctor x.savedErrno f
      return w.adoptConnector c
  | .own k .forceCloseInLoop =>
      if (w.conns k).state = .kConnected ∨ (w.conns k).state = .kDisconnecting then w.handleClose k
      else .ok w
  | .own k f => do
      let c ← ((w.conns k).runFunctor x.write f).mapError .other
      return w.adopt k c
  | .connectDestroyed k => .ok (w.connectDestroyed k)
  | .other => .ok w

/-- The loop thread runs code that may call the client. -/
def userCode (w : TcpClient) : Bool :=
  match w.todo with
  | [] | .connection _ .connectionCallback :: _ | .connection _ .messageCallback :: _ => true
  | _ => false

/-- What a poll can report. -/
structure Reports (w : TcpClient) (reports : List (Source × Revents)) : Prop where
  once : (reports.map Prod.fst).Nodup
  connector : ∀ fd r, (Source.connector fd, r) ∈ reports →
    w.connector.channel = some ⟨fd, true⟩ ∧ r.Within ⟨false, true⟩
  connection : ∀ k r, (Source.connection k, r) ∈ reports → k < w.established

inductive Event where
  | connect (own : Bool) (savedErrno : ConnectErrno)
  | disconnect (own : Bool)
  | stop
  | enableRetry
  | operate (k : Nat) (op : ConnOp)
  | poll (reports : List (Source × Revents))
  | handleEvent
  | doPendingFunctors
  | functor (x : Results)
  | endBatch
  | frame (x : Results)
  | otherFunctor

/-- What can happen next, and what comes of it. -/
inductive Exec (w : TcpClient) : Event → Except ClientFault TcpClient → Prop where
  | connect {own : Bool} {savedErrno : ConnectErrno} (hown : own = true → w.userCode = true) :
      Exec w (.connect own savedErrno) (w.connect own savedErrno)
  | disconnect {own : Bool} (hown : own = true → w.userCode = true) :
      Exec w (.disconnect own) (.ok (w.disconnect own))
  | stop : Exec w .stop (.ok w.stop)
  | enableRetry : Exec w .enableRetry (.ok { w with retryFlag := true })
  | operate {k : Nat} {op : ConnOp} (hk : k < w.established)
      (hown : op.own = true → w.userCode = true) :
      Exec w (.operate k op) (do
        let c ← (op.run (w.conns k)).mapError .other
        return w.adopt k c)
  | poll {reports : List (Source × Revents)} (hphase : w.phase = .polling) (htodo : w.todo = [])
      (hreports : w.Reports reports) :
      Exec w (.poll reports) (.ok { w with phase := .handling, remaining := reports })
  | handleEvent {source : Source} {r : Revents} {rest : List (Source × Revents)}
      (hphase : w.phase = .handling) (htodo : w.todo = [])
      (hremaining : w.remaining = (source, r) :: rest) :
      Exec w .handleEvent (.ok { w with remaining := rest, todo := source.frames r })
  | doPendingFunctors (hphase : w.phase = .handling) (htodo : w.todo = [])
      (hremaining : w.remaining = []) :
      Exec w .doPendingFunctors (.ok
        { w with phase := .functors, functors := w.pendingFunctors, pendingFunctors := [] })
  | functor {x : Results} {f : ClientFunctor} {rest : List ClientFunctor}
      (hphase : w.phase = .functors) (htodo : w.todo = []) (hfunctors : w.functors = f :: rest) :
      Exec w (.functor x) ({ w with functors := rest }.runFunctor x f)
  | endBatch (hphase : w.phase = .functors) (htodo : w.todo = []) (hfunctors : w.functors = []) :
      Exec w .endBatch (.ok { w with phase := .polling })
  | frame {x : Results} {f : ClientFrame} {rest : List ClientFrame} (htodo : w.todo = f :: rest) :
      Exec w (.frame x) ({ w with todo := rest }.runFrame x f)
  | otherFunctor :
      Exec w .otherFunctor (.ok { w with pendingFunctors := w.pendingFunctors ++ [.other] })

def Step (w : TcpClient) (e : Event) (w' : TcpClient) : Prop := Exec w e (.ok w')

end TcpClient
end ProtoRpc
