import ProtoRpc.Network.PollerAgreement
import ProtoRpc.Network.TcpConnection

/-!
A `TcpConnection` with the `TcpServer` that owns it, from `newConnection` to the
end of `connectDestroyed`. The I/O loop polls, handles the channels that are
active and runs the functors it has swapped out; the channel of the connection is
`chan` among all channels of that loop. The base loop is the same loop
(`oneLoop`) or another one, of which only the removals that wait in its queue
matter. `send`, `shutdown` and `forceClose` are single steps, made by any thread.

What the loop thread has begun and not finished is a stack of frames: the rest of
`handleEvent`, the callbacks of the user, in which it may call the connection
again, and what follows a callback.
-/
namespace ProtoRpc

/-- What the I/O loop runs from its queue. -/
inductive IoFunctor where
  | connectEstablished
  | connectDestroyed
  | own (f : Functor)
  | other
  deriving DecidableEq, Repr

/-- Who calls `connectionCallback_`. -/
inductive Caller where
  | connectEstablished
  | handleClose
  | connectDestroyed
  deriving DecidableEq, Repr

/-- A call of `connectionCallback_`, and what `connected` was in it. -/
structure Notice where
  caller : Caller
  up : Bool
  deriving DecidableEq, Repr

inductive Frame where
  /-- the four parts of `handleEvent` -/
  | close
  | read
  | write
  | error
  | connectionCallback
  | messageCallback
  /-- the last line of `handleClose` -/
  | closeCallback
  /-- the last line of `connectDestroyed` -/
  | remove
  deriving DecidableEq, Repr

inductive IoPhase where
  | polling
  | handling
  | functors
  deriving DecidableEq, Repr

structure ServerConnection (C : Type) where
  conn : TcpConnection
  poller : Poller C
  phase : IoPhase
  activeChannels : List (C × Revents)
  currentActiveChannel : Option C
  /-- the active channels that have yet to be handled -/
  remaining : List (C × Revents)
  todo : List Frame
  pendingFunctors : List IoFunctor
  /-- what is left of the batch -/
  functors : List IoFunctor
  /-- `removeConnectionInLoop` in the queue of the base loop -/
  removals : Nat
  accepted : Bool
  /-- in `connections_` -/
  listed : Bool
  notices : List Notice
  closeCallbacks : Nat
  destroyed : Nat

/-- The parts of `Channel::handleEvent` that the bits call for. -/
def eventFrames (r : Revents) : List Frame :=
  (if r.pollhup && !r.pollin then [.close] else []) ++
  (if r.pollin || r.pollpri || r.pollrdhup then [.read] else []) ++
  (if r.pollout then [.write] else []) ++
  (if r.pollerr || r.pollnval then [.error] else [])

def Poller.Call.channel {C : Type} : Poller.Call C → C
  | .interest c _ => c
  | .remove c => c

namespace ServerConnection

variable {C : Type} [DecidableEq C] (chan : C) (oneLoop : Bool)

def new (fd : C → Int) : ServerConnection C :=
  { conn := .new
    poller := .new fd
    phase := .polling
    activeChannels := []
    currentActiveChannel := none
    remaining := []
    todo := []
    pendingFunctors := []
    functors := []
    removals := 0
    accepted := false
    listed := false
    notices := []
    closeCallbacks := 0
    destroyed := 0 }

def interestOp (w : ServerConnection C) (op : InterestOp) : Except Fault (ServerConnection C) := do
  let p ← w.poller.interestOp chan op
  return { w with poller := p }

/-- An operation leaves the connection as `c`. Its functors go to the queue of the
loop, and where it has switched writing on or off so has the channel. -/
def adopt (w : ServerConnection C) (c : TcpConnection) : Except Fault (ServerConnection C) :=
  let w' := { w with
    conn := { c with pendingFunctors := [] }
    pendingFunctors := w.pendingFunctors ++ c.pendingFunctors.map .own }
  if c.isWriting = w.conn.isWriting then .ok w'
  else if c.isWriting then w'.interestOp chan .enableWriting
  else w'.interestOp chan .disableWriting

def notify (w : ServerConnection C) (caller : Caller) : ServerConnection C :=
  { w with
    notices := w.notices ++ [⟨caller, w.conn.state == .kConnected⟩]
    todo := .connectionCallback :: w.todo }

def connectEstablished (w : ServerConnection C) : Except Fault (ServerConnection C) := do
  let c ← w.conn.connectEstablished
  let w ← { w with conn := c }.interestOp chan .enableReading
  return w.notify .connectEstablished

def handleClose (w : ServerConnection C) : Except Fault (ServerConnection C) := do
  let c ← w.conn.handleClose
  let w ← { w with conn := c }.interestOp chan .disableAll
  return { w with todo := .closeCallback :: w.todo }.notify .handleClose

def removeConnectionInLoop (w : ServerConnection C) : Except Fault (ServerConnection C) := do
  require .assertion (w.listed = true)
  return { w with listed := false, pendingFunctors := w.pendingFunctors ++ [.connectDestroyed] }

/-- `TcpServer::removeConnection` -/
def closeCallback (w : ServerConnection C) : Except Fault (ServerConnection C) :=
  let w := { w with closeCallbacks := w.closeCallbacks + 1 }
  if oneLoop then w.removeConnectionInLoop else .ok { w with removals := w.removals + 1 }

def connectDestroyed (w : ServerConnection C) : Except Fault (ServerConnection C) :=
  let w := { w with destroyed := w.destroyed + 1, todo := .remove :: w.todo }
  if w.conn.state = .kConnected then do
    let c := { w.conn with state := .kDisconnected, isWriting := false }
    let w ← { w with conn := c }.interestOp chan .disableAll
    return w.notify .connectDestroyed
  else .ok w

/-- `Channel::remove` -/
def removeChannel (w : ServerConnection C) : Except Fault (ServerConnection C) := do
  require .assertion (w.phase = .handling →
    w.currentActiveChannel = some chan ∨ chan ∉ w.activeChannels.map Prod.fst)
  let p ← w.poller.remove chan
  return { w with poller := p }

def newConnection (w : ServerConnection C) : Except Fault (ServerConnection C) :=
  let w := { w with accepted := true, listed := true }
  if oneLoop then w.connectEstablished chan
  else .ok { w with pendingFunctors := w.pendingFunctors ++ [.connectEstablished] }

def handleRead (w : ServerConnection C) (r : Buffer.ReadResult) :
    Except Fault (ServerConnection C) := do
  let (n, input) ← w.conn.inputBuffer.readFd r
  let w := { w with conn := { w.conn with inputBuffer := input } }
  if 0 < n then return { w with todo := .messageCallback :: w.todo }
  else if n = 0 then w.handleClose chan
  else return w

def handleWrite (w : ServerConnection C) (r : WriteResult) : Except Fault (ServerConnection C) := do
  let c ← w.conn.handleWrite r
  w.adopt chan c

def runFunctor (w : ServerConnection C) (r : WriteResult) :
    IoFunctor → Except Fault (ServerConnection C)
  | .connectEstablished => w.connectEstablished chan
  | .connectDestroyed => w.connectDestroyed chan
  | .own .forceCloseInLoop =>
      if w.conn.state = .kConnected ∨ w.conn.state = .kDisconnecting then w.handleClose chan
      else .ok w
  | .own f => do
      let c ← w.conn.runFunctor r f
      w.adopt chan c
  | .other => .ok w

/-- The frame has been popped. -/
def runFrame (w : ServerConnection C) (read : Buffer.ReadResult) (write : WriteResult) :
    Frame → Except Fault (ServerConnection C)
  | .close => w.handleClose chan
  | .read => w.handleRead chan read
  | .write => w.handleWrite chan write
  | .error | .connectionCallback | .messageCallback => .ok w
  | .closeCallback => w.closeCallback oneLoop
  | .remove => w.removeChannel chan

/-- The loop thread runs code that may call the connection: a callback of its, or
something else altogether. -/
def userCode (w : ServerConnection C) : Bool :=
  match w.todo with
  | [] | .connectionCallback :: _ | .messageCallback :: _ => true
  | _ => false

inductive Event (C : Type) where
  | newConnection
  | send (own : Bool) (buf : Buffer) (r : WriteResult)
  | shutdown (own : Bool)
  | forceClose (own : Bool)
  | retrieve (n : Nat)
  | poll (capacity : Nat) (reports : List (Poller.Report C))
  | handleEvent
  | doPendingFunctors
  | functor (r : WriteResult)
  | endBatch
  | frame (read : Buffer.ReadResult) (write : WriteResult)
  | removeConnectionInLoop
  | otherFunctor
  | otherChannel (call : Poller.Call C)

/-- What can happen next, and what comes of it. The fd of the connection is its
own from `accept` to the end: no other channel is registered with it. -/
inductive Exec (w : ServerConnection C) : Event C → Except Fault (ServerConnection C) → Prop where
  | newConnection (haccepted : w.accepted = false) (hsole : w.poller.Sole chan)
      (htodo : oneLoop = true → w.todo = []) :
      Exec w .newConnection (w.newConnection chan oneLoop)
  | send {own : Bool} {buf : Buffer} {r : WriteResult} (hown : own = true → w.userCode = true)
      (hbuf : buf.WF) (hr : r.Within buf.readableBytes) :
      Exec w (.send own buf r) (do
        let (c, _) ← w.conn.send own buf r
        w.adopt chan c)
  | shutdown {own : Bool} (hown : own = true → w.userCode = true) :
      Exec w (.shutdown own) (w.adopt chan (w.conn.shutdown own))
  | forceClose {own : Bool} (hown : own = true → w.userCode = true) :
      Exec w (.forceClose own) (w.adopt chan w.conn.forceClose)
  | retrieve {n : Nat} {rest : List Frame} (htodo : w.todo = .messageCallback :: rest)
      (hn : n ≤ w.conn.inputBuffer.readableBytes) :
      Exec w (.retrieve n) (do
        let input ← w.conn.inputBuffer.retrieve n
        return { w with conn := { w.conn with inputBuffer := input } })
  | poll {capacity : Nat} {reports : List (Poller.Report C)} (hphase : w.phase = .polling)
      (htodo : w.todo = []) (hreports : w.poller.Reports capacity reports) :
      Exec w (.poll capacity reports) (do
        let active ← w.poller.fillActiveChannels capacity reports
        return { w with phase := .handling, activeChannels := active, remaining := active })
  | handleEvent {c : C} {r : Revents} {rest : List (C × Revents)} (hphase : w.phase = .handling)
      (htodo : w.todo = []) (hremaining : w.remaining = (c, r) :: rest) :
      Exec w .handleEvent (.ok
        { w with
          currentActiveChannel := some c
          remaining := rest
          todo := if c = chan then eventFrames r else [] })
  | doPendingFunctors (hphase : w.phase = .handling) (htodo : w.todo = [])
      (hremaining : w.remaining = []) :
      Exec w .doPendingFunctors (.ok
        { w with
          phase := .functors
          currentActiveChannel := none
          functors := w.pendingFunctors
          pendingFunctors := [] })
  | functor {f : IoFunctor} {rest : List IoFunctor} {r : WriteResult} (hphase : w.phase = .functors)
      (htodo : w.todo = []) (hfunctors : w.functors = f :: rest)
      (hr : ∀ m, f = .own (.sendInLoop m) → r.Within m.length) :
      Exec w (.functor r) ({ w with functors := rest }.runFunctor chan r f)
  | endBatch (hphase : w.phase = .functors) (htodo : w.todo = []) (hfunctors : w.functors = []) :
      Exec w .endBatch (.ok { w with phase := .polling })
  | frame {f : Frame} {rest : List Frame} {read : Buffer.ReadResult} {write : WriteResult}
      (htodo : w.todo = f :: rest) (hwrite : write.Within w.conn.outputBuffer.readableBytes) :
      Exec w (.frame read write) ({ w with todo := rest }.runFrame chan oneLoop read write f)
  | removeConnectionInLoop (hremovals : 0 < w.removals) :
      Exec w .removeConnectionInLoop ({ w with removals := w.removals - 1 }.removeConnectionInLoop)
  | otherFunctor :
      Exec w .otherFunctor (.ok { w with pendingFunctors := w.pendingFunctors ++ [.other] })
  | otherChannel {call : Poller.Call C} (hother : call.channel ≠ chan)
      (hallowed : w.poller.Allowed call)
      (hfd : w.accepted = true → w.destroyed = 0 →
        (w.poller.table call.channel).fd ≠ (w.poller.table chan).fd) :
      Exec w (.otherChannel call) (do
        let p ← w.poller.exec call
        return { w with poller := p })

def Step (w : ServerConnection C) (e : Event C) (w' : ServerConnection C) : Prop :=
  Exec chan oneLoop w e (.ok w')

end ServerConnection
end ProtoRpc
