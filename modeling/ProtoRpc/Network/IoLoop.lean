import ProtoRpc.Network.Connection

/-!
The connections of one I/O loop, any number of them. They share the poller, the round
of active channels and the queue. The rest of each is its own, and `view` is the
`Connection` that it makes together with what is shared. What a connection does is what
`Connection` says of its view, so that a callback of one may call any other; the loop
polls, handles the active channels in turn and runs what it has swapped out of the queue.

Every channel of the loop has an address in `C`. One that no connection has been
accepted on is a channel of something else, and its handler may do anything as well.
-/
namespace ProtoRpc

/-- What a connection does not share with the others of its loop. -/
structure LoopMember where
  conn : TcpConnection
  /-- `reading_` -/
  reading : Bool
  todo : List Frame
  removals : Nat
  accepted : Bool
  listed : Bool
  notices : List Notice
  closeCallbacks : Nat
  destroyed : Nat

def LoopMember.new : LoopMember :=
  { conn := .new
    reading := true
    todo := []
    removals := 0
    accepted := false
    listed := false
    notices := []
    closeCallbacks := 0
    destroyed := 0 }

structure IoLoop (C : Type) where
  poller : Poller C
  phase : IoPhase
  activeChannels : List (C × Revents)
  currentActiveChannel : Option C
  /-- the active channels that have yet to be handled -/
  remaining : List (C × Revents)
  members : C → LoopMember
  pendingTasks : List (C × ConnTask)
  /-- what is left of the batch -/
  tasks : List (C × ConnTask)

namespace IoLoop

variable {C : Type} [DecidableEq C] (oneLoop : C → Bool)

def new (fd : C → Int) : IoLoop C :=
  { poller := .new fd
    phase := .polling
    activeChannels := []
    currentActiveChannel := none
    remaining := []
    members := fun _ => .new
    pendingTasks := []
    tasks := [] }

/-- The connection on channel `c`, with nothing in its queue. -/
def view (w : IoLoop C) (c : C) : Connection C :=
  { server :=
      { conn := (w.members c).conn
        poller := w.poller
        phase := w.phase
        activeChannels := w.activeChannels
        currentActiveChannel := w.currentActiveChannel
        remaining := w.remaining
        todo := (w.members c).todo
        pendingFunctors := []
        functors := []
        removals := (w.members c).removals
        accepted := (w.members c).accepted
        listed := (w.members c).listed
        notices := (w.members c).notices
        closeCallbacks := (w.members c).closeCallbacks
        destroyed := (w.members c).destroyed }
    reading := (w.members c).reading
    pendingTasks := []
    tasks := [] }

/-- The connection on channel `c` is left as `v`, and what it has queued goes to the
queue of the loop. -/
def put (w : IoLoop C) (c : C) (v : Connection C) : IoLoop C :=
  { w with
    poller := v.server.poller
    members := Function.update w.members c
      { conn := v.server.conn
        reading := v.reading
        todo := v.server.todo
        removals := v.server.removals
        accepted := v.server.accepted
        listed := v.server.listed
        notices := v.server.notices
        closeCallbacks := v.server.closeCallbacks
        destroyed := v.server.destroyed }
    pendingTasks := w.pendingTasks ++ v.pendingTasks.map (c, ·) }

inductive Event (C : Type) where
  | member (c : C) (e : Connection.Event C)
  | poll (capacity : Nat) (reports : List (Poller.Report C))
  | handleEvent
  | doPendingFunctors
  | task (r : WriteResult)
  | endBatch
  | otherChannel (call : Poller.Call C)

/-- The loop thread is in none of the connections. -/
def Idle (w : IoLoop C) : Prop := ∀ c, (w.members c).todo = []

/-- The fd of `c` is the fd of no other connection that has one. -/
def Fresh (w : IoLoop C) (c : C) : Prop :=
  ∀ d, d ≠ c → (w.members d).accepted = true → (w.members d).destroyed = 0 →
    (w.poller.table d).fd ≠ (w.poller.table c).fd

/-- The events of one connection, and what they ask of the loop thread: it handles one
connection at a time, and calls any of them from the code of a user only. A connection
of another base loop is accepted there. -/
def Permits (w : IoLoop C) (c : C) : Connection.Event C → Prop
  | .server .newConnection => w.Fresh c ∧ (oneLoop c = true → w.Idle)
  | .server (.frame _ _) => ∀ d, d ≠ c → (w.members d).todo = []
  | .server (.send own _ _) | .server (.shutdown own) | .server (.forceClose own)
  | .startRead own | .stopRead own => own = true → ∀ d, (w.view d).server.userCode = true
  | .server (.retrieve _) | .server .removeConnectionInLoop | .forceCloseWithDelay => True
  | _ => False

inductive Exec (w : IoLoop C) : Event C → Except Fault (IoLoop C) → Prop where
  | member {c : C} {e : Connection.Event C} {r : Except Fault (Connection C)}
      (hpermits : w.Permits oneLoop c e) (hexec : Connection.Exec c (oneLoop c) (w.view c) e r) :
      Exec w (.member c e) (do
        let v ← r
        return w.put c v)
  | poll {capacity : Nat} {reports : List (Poller.Report C)} (hphase : w.phase = .polling)
      (hidle : w.Idle) (hreports : w.poller.Reports capacity reports) :
      Exec w (.poll capacity reports) (do
        let active ← w.poller.fillActiveChannels capacity reports
        return { w with phase := .handling, activeChannels := active, remaining := active })
  | handleEvent {c : C} {r : Revents} {rest : List (C × Revents)} (hphase : w.phase = .handling)
      (hidle : w.Idle) (hremaining : w.remaining = (c, r) :: rest) :
      Exec w .handleEvent (.ok
        { w with
          currentActiveChannel := some c
          remaining := rest
          members := Function.update w.members c
            { w.members c with
              todo := if (w.members c).accepted then eventFrames r else [] } })
  | doPendingFunctors (hphase : w.phase = .handling) (hidle : w.Idle)
      (hremaining : w.remaining = []) :
      Exec w .doPendingFunctors (.ok
        { w with
          phase := .functors
          currentActiveChannel := none
          tasks := w.pendingTasks
          pendingTasks := [] })
  | task {c : C} {t : ConnTask} {rest : List (C × ConnTask)} {r : WriteResult}
      (hphase : w.phase = .functors) (hidle : w.Idle) (htasks : w.tasks = (c, t) :: rest)
      (hr : ∀ m, t = .io (.own (.sendInLoop m)) → r.Within m.length) :
      Exec w (.task r) (do
        let v ← (w.view c).runTask c r t
        return { w with tasks := rest }.put c v)
  | endBatch (hphase : w.phase = .functors) (hidle : w.Idle) (htasks : w.tasks = []) :
      Exec w .endBatch (.ok { w with phase := .polling })
  | otherChannel {call : Poller.Call C} (hother : (w.members call.channel).accepted = false)
      (hallowed : w.poller.Allowed call) (hfresh : w.Fresh call.channel) :
      Exec w (.otherChannel call) (do
        let p ← w.poller.exec call
        return { w with poller := p })

def Step (w : IoLoop C) (e : Event C) (w' : IoLoop C) : Prop :=
  Exec oneLoop w e (.ok w')

end IoLoop
end ProtoRpc
