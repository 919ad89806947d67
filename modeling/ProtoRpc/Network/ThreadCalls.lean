import ProtoRpc.Network.TcpConnection

/-!
The public calls that look at the state of a connection, as threads other than that of
its loop make them. Each tests the state, stores `kDisconnecting` and queues a functor,
with no lock around them, so that the loop and other threads can come between any two of
these. In the thread of the loop such a call is one step.
-/
namespace ProtoRpc

inductive ThreadCall where
  | send (message : List UInt8)
  | shutdown
  | forceClose
  | forceCloseWithDelay
  deriving DecidableEq, Repr

/-- What is left of a call that has passed its test: to store `kDisconnecting` and go on
with `next`, or to queue a functor. -/
inductive CallRest where
  | store (next : Option Functor)
  | queue (f : Functor)
  deriving DecidableEq, Repr

namespace ThreadCall

/-- The test. -/
def enters (state : StateE) : ThreadCall → Bool
  | .send _ | .shutdown => state == .kConnected
  | .forceClose | .forceCloseWithDelay => state == .kConnected || state == .kDisconnecting

def rest : ThreadCall → CallRest
  | .send message => .queue (.sendInLoop message)
  | .shutdown => .store (some .shutdownInLoop)
  | .forceClose => .store (some .forceCloseInLoop)
  | .forceCloseWithDelay => .store none

end ThreadCall

namespace TcpConnection

/-- `setState(kDisconnecting)` -/
def store (c : TcpConnection) : TcpConnection := { c with state := .kDisconnecting }

def queueInLoop (c : TcpConnection) (f : Functor) : TcpConnection :=
  { c with pendingFunctors := c.pendingFunctors ++ [f] }

variable {c : TcpConnection}

theorem store_keeps (hopen : c.state = .kConnected ∨ c.state = .kDisconnecting) :
    c.Keeps c.store := Or.inr ⟨hopen, rfl⟩

end TcpConnection

/-- Made by a thread other than that of the loop. -/
def ConnOp.foreign : ConnOp → Bool
  | .send own _ _ | .shutdown own => !own
  | .forceClose | .forceCloseWithDelay => false

end ProtoRpc
