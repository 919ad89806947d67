import Mathlib.Logic.Function.Basic
import ProtoRpc.Foundation.Transition
import ProtoRpc.Network.TcpConnection

/-!
One `TcpConnection` and the threads that use it. `send`, `shutdown` and
`forceClose` first test the state, then set it, and then act in the loop thread or
queue a functor for it; between these the other threads go on. A call of the loop
thread itself keeps that thread from doing anything else.

Every `send` that found the connection up has a number, and the session records
where its bytes are, which of them had returned when a `shutdown` began, and
whether a write error or a close came first. A `send` of another thread has
nothing left to do once its functor is queued, so that it counts as returned.
-/
namespace ProtoRpc

/-- Where the bytes of a `send` are. -/
inductive SendPlace where
  | unborn
  /-- the state was `kConnected`, and nothing has been done yet -/
  | entered
  | queued
  /-- `sendInLoop` was executed, and the stream ended here after it -/
  | sent (length : Nat)
  /-- left out, because of an error or because the connection was down -/
  | dropped
  deriving DecidableEq, Repr

/-- The send has returned. -/
def SendPlace.returned : SendPlace → Bool
  | .unborn | .entered => false
  | _ => true

/-- The send found the connection up and has not reached `sendInLoop`. -/
def SendPlace.onTheWay : SendPlace → Bool
  | .entered | .queued => true
  | _ => false

/-- A call that has passed its test, by what it does next. -/
inductive PendingCall where
  | send (number : Nat)
  | setShutdown
  | shutdownInLoop
  | setForceClose
  | forceCloseInLoop
  deriving DecidableEq, Repr

structure Session where
  conn : TcpConnection
  /-- the call that the loop thread is in -/
  loopCall : Option PendingCall
  /-- the calls that other threads are in, but for their sends -/
  calls : List PendingCall
  /-- the numbers of the messages in the queue of the loop -/
  queue : List Nat
  place : Nat → SendPlace
  message : Nat → List UInt8
  next : Nat
  /-- returned when some `shutdown` began -/
  covered : Nat → Bool
  /-- a write error or a close came -/
  excused : Bool

namespace Session

def new : Session :=
  { conn := .new
    loopCall := none
    calls := []
    queue := []
    place := fun _ => .unborn
    message := fun _ => []
    next := 0
    covered := fun _ => false
    excused := false }

def Free (s : Session) (own : Bool) : Prop := own = true → s.loopCall = none

def Has (s : Session) (k : PendingCall) : Bool → Prop
  | true => s.loopCall = some k
  | false => k ∈ s.calls

def enter (s : Session) (k : PendingCall) : Bool → Session
  | true => { s with loopCall := some k }
  | false => { s with calls := k :: s.calls }

def leave (s : Session) (k : PendingCall) : Bool → Session
  | true => { s with loopCall := none }
  | false => { s with calls := s.calls.erase k }

def setState (s : Session) (state : StateE) : Session := { s with conn := { s.conn with state := state } }

def queueInLoop (s : Session) (f : Functor) : Session :=
  { s with conn := { s.conn with pendingFunctors := s.conn.pendingFunctors ++ [f] } }

/-- The loop thread leaves the connection as `c`. -/
def withConn (s : Session) (c : TcpConnection) : Session :=
  { s with conn := c, excused := s.excused || c.state == .kDisconnected }

/-- The loop thread has executed `sendInLoop` for number `t`. -/
def execute (s : Session) (t : Nat) (r : WriteResult) (c : TcpConnection) : Session :=
  { s.withConn c with
    place := Function.update s.place t
      (if s.conn.state = .kDisconnected ∨ s.conn.leavesOut r = true then .dropped
       else .sent c.outgoing.length)
    excused := s.excused || c.state == .kDisconnected || s.conn.leavesOut r }

inductive Act where
  | connectEstablished
  | sendBegin (own : Bool) (message : List UInt8)
  | sendInLoop (t : Nat) (r : WriteResult)
  | sendQueue (t : Nat)
  | shutdownBegin (own : Bool)
  | shutdownSet (own : Bool)
  | shutdownInLoop
  | shutdownQueue
  | forceCloseBegin (own : Bool)
  | forceCloseSet (own : Bool)
  | forceCloseQueue (own : Bool)
  | runFunctor (r : WriteResult)
  | handleWrite (r : WriteResult)
  | handleRead (r : Buffer.ReadResult)
  | handleClose

inductive Step (s : Session) : Act → Session → Prop where
  | connectEstablished {c : TcpConnection} (hfree : s.loopCall = none)
      (h : s.conn.connectEstablished = .ok c) : Step s .connectEstablished (s.withConn c)
  | sendBegin {own : Bool} {m : List UInt8} (hfree : s.Free own)
      (hstate : s.conn.state = .kConnected) :
      Step s (.sendBegin own m)
        { s with
          loopCall := if own then some (.send s.next) else s.loopCall
          place := Function.update s.place s.next .entered
          message := Function.update s.message s.next m
          next := s.next + 1 }
  | sendInLoop {t : Nat} {r : WriteResult} {c : TcpConnection}
      (hcall : s.loopCall = some (.send t)) (hplace : s.place t = .entered)
      (hr : r.Within (s.message t).length) (h : s.conn.sendInLoop (s.message t) r = .ok c) :
      Step s (.sendInLoop t r) { s.execute t r c with loopCall := none }
  | sendQueue {t : Nat} (hcall : s.loopCall ≠ some (.send t)) (hplace : s.place t = .entered) :
      Step s (.sendQueue t)
        { s.queueInLoop (.sendInLoop (s.message t)) with
          queue := s.queue ++ [t]
          place := Function.update s.place t .queued }
  | shutdownBegin {own : Bool} (hfree : s.Free own) (hstate : s.conn.state = .kConnected) :
      Step s (.shutdownBegin own)
        { s.enter .setShutdown own with covered := fun t => (s.place t).returned }
  | shutdownNot {own : Bool} (hfree : s.Free own) (hstate : s.conn.state ≠ .kConnected) :
      Step s (.shutdownBegin own) { s with covered := fun t => (s.place t).returned }
  | shutdownSet {own : Bool} (hcall : s.Has .setShutdown own) :
      Step s (.shutdownSet own)
        (((s.leave .setShutdown own).enter .shutdownInLoop own).setState .kDisconnecting)
  | shutdownInLoop (hcall : s.loopCall = some .shutdownInLoop) :
      Step s .shutdownInLoop { s.withConn s.conn.shutdownInLoop with loopCall := none }
  | shutdownQueue (hcall : .shutdownInLoop ∈ s.calls) :
      Step s .shutdownQueue ((s.leave .shutdownInLoop false).queueInLoop .shutdownInLoop)
  | forceCloseBegin {own : Bool} (hfree : s.Free own)
      (hstate : s.conn.state = .kConnected ∨ s.conn.state = .kDisconnecting) :
      Step s (.forceCloseBegin own) (s.enter .setForceClose own)
  | forceCloseSet {own : Bool} (hcall : s.Has .setForceClose own) :
      Step s (.forceCloseSet own)
        (((s.leave .setForceClose own).enter .forceCloseInLoop own).setState .kDisconnecting)
  | forceCloseQueue {own : Bool} (hcall : s.Has .forceCloseInLoop own) :
      Step s (.forceCloseQueue own)
        ((s.leave .forceCloseInLoop own).queueInLoop .forceCloseInLoop)
  | runSend {m : List UInt8} {rest : List Functor} {r : WriteResult} {c : TcpConnection}
      (hfree : s.loopCall = none) (hpending : s.conn.pendingFunctors = .sendInLoop m :: rest)
      (hr : r.Within m.length)
      (h : { s.conn with pendingFunctors := rest }.runFunctor r (.sendInLoop m) = .ok c) :
      Step s (.runFunctor r)
        { s.execute (s.queue.headD 0) r c with queue := s.queue.tail }
  | runOther {f : Functor} {rest : List Functor} {r : WriteResult} {c : TcpConnection}
      (hfree : s.loopCall = none) (hpending : s.conn.pendingFunctors = f :: rest)
      (hf : ∀ m, f ≠ .sendInLoop m)
      (h : { s.conn with pendingFunctors := rest }.runFunctor r f = .ok c) :
      Step s (.runFunctor r) (s.withConn c)
  | handleWrite {r : WriteResult} {c : TcpConnection} (hfree : s.loopCall = none)
      (hr : r.Within s.conn.outputBuffer.readableBytes) (h : s.conn.handleWrite r = .ok c) :
      Step s (.handleWrite r) (s.withConn c)
  | handleRead {r : Buffer.ReadResult} {c : TcpConnection} (hfree : s.loopCall = none)
      (h : TcpConnection.handleRead (fun _ c => .ok ((), c)) () s.conn r = .ok ((), c)) :
      Step s (.handleRead r) (s.withConn c)
  | handleClose {c : TcpConnection} (hfree : s.loopCall = none) (h : s.conn.handleClose = .ok c) :
      Step s .handleClose (s.withConn c)

/-- The steps that shut the write side down: `shutdownInLoop`, called at once or
from the queue, and the end of the buffer in `handleWrite`. -/
def shuts (s : Session) : Act → Bool
  | .shutdownInLoop => !s.conn.isWriting
  | .runFunctor _ => s.conn.pendingFunctors.head? == some .shutdownInLoop && !s.conn.isWriting
  | .handleWrite r => s.conn.isWriting && 0 < r.count &&
      r.count == s.conn.outputBuffer.readableBytes && s.conn.state == .kDisconnecting
  | _ => false

/-- The write side is not shut down before the bytes of every `send` that had
returned when some `shutdown` began are written, unless an error or a close came. -/
def LosesNothing (s : Session) : Prop :=
  s.conn.writeShutdown = true → s.excused = false →
    ∀ t, s.covered t = true → s.message t = [] ∨
      ∃ length, s.place t = .sent length ∧ length ≤ s.conn.written.length

/-- No send with bytes is on its way when the write side is shut down. -/
def ShutsLast (s : Session) (a : Act) : Prop :=
  s.shuts a = true → s.excused = false → ∀ t, (s.place t).onTheWay = true → s.message t = []

end Session
end ProtoRpc
