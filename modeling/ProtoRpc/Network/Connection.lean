import ProtoRpc.Network.LifeCycle

/-!
A `TcpConnection` under all of its public operations: those that `ServerConnection`
has, and `startRead`, `stopRead` and `forceCloseWithDelay`. The functors of the two
read operations share the queue of the I/O loop with the others, so the queue is
kept here and that of `server` is empty between steps. The user has the connection
from its first callback on.
-/
namespace ProtoRpc

/-- What the I/O loop runs from its queue. -/
inductive ConnTask where
  | io (f : IoFunctor)
  | startReadInLoop
  | stopReadInLoop
  deriving DecidableEq, Repr

structure Connection (C : Type) where
  server : ServerConnection C
  /-- `reading_` -/
  reading : Bool
  pendingTasks : List ConnTask
  /-- what is left of the batch -/
  tasks : List ConnTask

/-- The events of the queue of a `ServerConnection`. -/
def ServerConnection.Event.ofQueue {C : Type} : ServerConnection.Event C → Bool
  | .doPendingFunctors | .functor _ | .endBatch => true
  | _ => false

namespace Connection

variable {C : Type} [DecidableEq C] (chan : C) (oneLoop : Bool)

def new (fd : C → Int) : Connection C :=
  { server := .new fd
    reading := true
    pendingTasks := []
    tasks := [] }

/-- The server is left as `s`, and what it has queued goes to the queue. -/
def collect (w : Connection C) (s : ServerConnection C) : Connection C :=
  { w with
    server := { s with pendingFunctors := [] }
    pendingTasks := w.pendingTasks ++ s.pendingFunctors.map .io }

def queueInLoop (w : Connection C) (t : ConnTask) : Connection C :=
  { w with pendingTasks := w.pendingTasks ++ [t] }

/-- `channel_->isReading()` -/
def isReading (w : Connection C) : Bool := (w.server.poller.table chan).events.read

def startReadInLoop (w : Connection C) : Except Fault (Connection C) :=
  if !w.reading || !w.isReading chan then do
    let s ← w.server.interestOp chan .enableReading
    return { w with server := s, reading := true }
  else .ok w

def stopReadInLoop (w : Connection C) : Except Fault (Connection C) :=
  if w.reading || w.isReading chan then do
    let s ← w.server.interestOp chan .disableReading
    return { w with server := s, reading := false }
  else .ok w

def startRead (w : Connection C) (own : Bool) : Except Fault (Connection C) :=
  if own then w.startReadInLoop chan else .ok (w.queueInLoop .startReadInLoop)

def stopRead (w : Connection C) (own : Bool) : Except Fault (Connection C) :=
  if own then w.stopReadInLoop chan else .ok (w.queueInLoop .stopReadInLoop)

/-- The task has been popped. -/
def runTask (w : Connection C) (r : WriteResult) : ConnTask → Except Fault (Connection C)
  | .io f => do
      let s ← w.server.runFunctor chan r f
      return w.collect s
  | .startReadInLoop => w.startReadInLoop chan
  | .stopReadInLoop => w.stopReadInLoop chan

inductive Event (C : Type) where
  | server (e : ServerConnection.Event C)
  | startRead (own : Bool)
  | stopRead (own : Bool)
  | forceCloseWithDelay
  | doPendingFunctors
  | task (r : WriteResult)
  | endBatch

inductive Exec (w : Connection C) : Event C → Except Fault (Connection C) → Prop where
  | server {e : ServerConnection.Event C} {r : Except Fault (ServerConnection C)}
      (he : e.ofQueue = false) (hexec : ServerConnection.Exec chan oneLoop w.server e r) :
      Exec w (.server e) (do
        let s ← r
        return w.collect s)
  | startRead {own : Bool} (hexposed : w.server.notices ≠ [])
      (hown : own = true → w.server.userCode = true) :
      Exec w (.startRead own) (w.startRead chan own)
  | stopRead {own : Bool} (hexposed : w.server.notices ≠ [])
      (hown : own = true → w.server.userCode = true) :
      Exec w (.stopRead own) (w.stopRead chan own)
  | forceCloseWithDelay :
      Exec w .forceCloseWithDelay (do
        let s ← w.server.adopt chan w.server.conn.forceCloseWithDelay
        return w.collect s)
  | doPendingFunctors (hphase : w.server.phase = .handling) (htodo : w.server.todo = [])
      (hremaining : w.server.remaining = []) :
      Exec w .doPendingFunctors (.ok
        { w with
          server := { w.server with phase := .functors, currentActiveChannel := none }
          tasks := w.pendingTasks
          pendingTasks := [] })
  | task {t : ConnTask} {rest : List ConnTask} {r : WriteResult} (hphase : w.server.phase = .functors)
      (htodo : w.server.todo = []) (htasks : w.tasks = t :: rest)
      (hr : ∀ m, t = .io (.own (.sendInLoop m)) → r.Within m.length) :
      Exec w (.task r) ({ w with tasks := rest }.runTask chan r t)
  | endBatch (hphase : w.server.phase = .functors) (htodo : w.server.todo = [])
      (htasks : w.tasks = []) :
      Exec w .endBatch (.ok { w with server := { w.server with phase := .polling } })

def Step (w : Connection C) (e : Event C) (w' : Connection C) : Prop :=
  Exec chan oneLoop w e (.ok w')

/-- What is queued, in the order in which the loop will run it. -/
def queued (w : Connection C) : List ConnTask :=
  w.tasks ++ (w.pendingTasks ++ w.server.pendingFunctors.map .io)

/-- Neither closed nor still to be established. -/
def isOpen (w : Connection C) : Prop :=
  w.server.conn.state = .kConnected ∨ w.server.conn.state = .kDisconnecting

/-- In the list of the kernel, with `EPOLLOUT`. -/
def registeredForWriting (w : Connection C) : Prop :=
  ∃ mask : EventMask, mask.write = true ∧
    w.server.poller.interest (w.server.poller.table chan).fd = some (mask, chan)

end Connection
end ProtoRpc
