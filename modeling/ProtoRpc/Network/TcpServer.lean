import Mathlib.Logic.Function.Basic
import ProtoRpc.Foundation.Transition
import ProtoRpc.Network.TcpConnection

/-!
A living `TcpServer`, with its table of connections and the loops that its
connections run in. Connections are numbered in the order in which they are
accepted. `connectEstablished` waits in the loop of a connection that is not the
base loop, `removeConnectionInLoop` in the queue of the base loop, and what a
connection queues for itself in its `pendingFunctors`. The other steps of a
connection are made at any time and in any order: where it is closed when it is not
open, the assertion in `handleClose` ends the run.

Strings are lists of characters. `inet_ntop` is a parameter.
-/
namespace ProtoRpc

/-- `%d` and `%u` -/
def formatInt (n : Int) : List Char :=
  if n < 0 then '-' :: Nat.toDigits 10 n.natAbs else Nat.toDigits 10 n.natAbs

/-- What `snprintf` leaves in `size` octets. -/
def snprintf (size : Nat) (text : List Char) : List Char := text.take (size - 1)

inductive AddressFamily where
  | AF_INET
  | AF_INET6
  deriving DecidableEq, Repr

/-- `INET_ADDRSTRLEN` and `INET6_ADDRSTRLEN` -/
def AddressFamily.addrStrLen : AddressFamily → Nat
  | .AF_INET => 16
  | .AF_INET6 => 46

/-- A socket address, whose address proper is an `A`. -/
structure SockAddr (A : Type) where
  family : AddressFamily
  addr : A
  port : UInt16

namespace SockAddr

variable {A : Type} (inetNtop : SockAddr A → List Char)

/-- `inet_ntop` leaves an empty buffer as it is where its text does not fit. -/
def toIp (size : Nat) (a : SockAddr A) : Except Fault (List Char) := do
  require .assertion (a.family.addrStrLen ≤ size)
  return if (inetNtop a).length < size then inetNtop a else []

def toIpPort (size : Nat) (a : SockAddr A) : Except Fault (List Char) :=
  match a.family with
  | .AF_INET6 => do
      let ip ← a.toIp inetNtop (size - 1)
      let buf := '[' :: ip
      require .assertion (buf.length < size)
      return buf ++ snprintf (size - buf.length) (']' :: ':' :: formatInt a.port.toNat)
  | .AF_INET => do
      let buf ← a.toIp inetNtop size
      require .assertion (buf.length < size)
      return buf ++ snprintf (size - buf.length) (':' :: formatInt a.port.toNat)

end SockAddr

/-- A connection of the server, and the loop it runs in: `none` is the base loop. -/
structure Member where
  name : List Char
  loop : Option Nat
  conn : TcpConnection

structure TcpServer where
  ipPort : List Char
  name : List Char
  nextConnId : Int
  /-- `connections_` -/
  connections : List Char → Option Nat
  /-- `loops_.size()` and `next_` of the thread pool -/
  loops : Nat
  next : Nat
  members : Nat → Member
  accepted : Nat
  establishing : List Nat
  /-- in `handleClose`, before its last line -/
  closing : List Nat
  removals : List Nat
  /-- what `removeConnectionInLoop` has been run for -/
  removed : List Nat
  destroying : List Nat

namespace TcpServer

/-- A server that has been started with `numThreads` loops. -/
def new {A : Type} (inetNtop : SockAddr A → List Char) (listenAddr : SockAddr A)
    (nameArg : List Char) (numThreads : Nat) : Except Fault TcpServer := do
  let ipPort ← listenAddr.toIpPort inetNtop 64
  return {
    ipPort := ipPort
    name := nameArg
    nextConnId := 1
    connections := fun _ => none
    loops := numThreads
    next := 0
    members := fun _ => ⟨[], none, .new⟩
    accepted := 0
    establishing := []
    closing := []
    removals := []
    removed := []
    destroying := [] }

def getNextLoop (w : TcpServer) : Option Nat × TcpServer :=
  if w.loops = 0 then (none, w)
  else (some w.next, { w with next := if w.loops ≤ w.next + 1 then 0 else w.next + 1 })

/-- Connection `k` is left as `c`. -/
def adopt (w : TcpServer) (k : Nat) (c : TcpConnection) : TcpServer :=
  { w with members := Function.update w.members k { w.members k with conn := c } }

def connectEstablished (w : TcpServer) (k : Nat) : Except Fault TcpServer := do
  let c ← (w.members k).conn.connectEstablished
  return w.adopt k c

def connName (name ipPort : List Char) (id : Int) : List Char :=
  name ++ snprintf 64 ('-' :: ipPort ++ '#' :: formatInt id)

def newConnection (w : TcpServer) : Except Fault TcpServer := do
  let (ioLoop, w) := w.getNextLoop
  let connName := connName w.name w.ipPort w.nextConnId
  let nextConnId ← addInt w.nextConnId 1
  let k := w.accepted
  let w := { w with
    nextConnId := nextConnId
    accepted := w.accepted + 1
    members := Function.update w.members k ⟨connName, ioLoop, .new⟩
    connections := Function.update w.connections connName (some k) }
  if ioLoop = none then w.connectEstablished k
  else return { w with establishing := w.establishing ++ [k] }

/-- `connections_.erase` returns how many entries it has erased. -/
def removeConnectionInLoop (w : TcpServer) (k : Nat) : Except Fault TcpServer := do
  let connName := (w.members k).name
  let n := if (w.connections connName).isSome then 1 else 0
  require .assertion (n = 1)
  return { w with
    connections := Function.update w.connections connName none
    removed := w.removed ++ [k]
    destroying := w.destroying ++ [k] }

/-- The close callback, in the thread of the connection. -/
def removeConnection (w : TcpServer) (k : Nat) : Except Fault TcpServer :=
  if (w.members k).loop = none then w.removeConnectionInLoop k
  else .ok { w with removals := w.removals ++ [k] }

/-- Up to the close callback. -/
def handleClose (w : TcpServer) (k : Nat) : Except Fault TcpServer := do
  let c ← (w.members k).conn.handleClose
  return { w.adopt k c with closing := k :: w.closing }

def handleRead (w : TcpServer) (k : Nat) (r : Buffer.ReadResult) : Except Fault TcpServer := do
  let (n, input) ← (w.members k).conn.inputBuffer.readFd r
  let w := w.adopt k { (w.members k).conn with inputBuffer := input }
  if n = 0 then w.handleClose k else return w

def handleWrite (w : TcpServer) (k : Nat) (r : WriteResult) : Except Fault TcpServer := do
  let c ← (w.members k).conn.handleWrite r
  return w.adopt k c

/-- The connection runs the first of its functors. -/
def runFunctor (w : TcpServer) (k : Nat) (r : WriteResult) (f : Functor) : Except Fault TcpServer :=
  let c := (w.members k).conn
  match f with
  | .forceCloseInLoop =>
      if c.state = .kConnected ∨ c.state = .kDisconnecting then w.handleClose k else .ok w
  | f => do
      let c ← c.runFunctor r f
      return w.adopt k c

def connectDestroyed (w : TcpServer) (k : Nat) : TcpServer :=
  let c := (w.members k).conn
  if c.state = .kConnected then w.adopt k { c with state := .kDisconnected, isWriting := false }
  else w

inductive Event where
  | newConnection
  | connectEstablished (k : Nat)
  | operate (k : Nat) (op : ConnOp)
  | close (k : Nat)
  | read (k : Nat) (r : Buffer.ReadResult)
  | write (k : Nat) (r : WriteResult)
  | functor (k : Nat) (r : WriteResult)
  | closeCallback (k : Nat)
  | removeConnectionInLoop
  | connectDestroyed (k : Nat)

/-- What can happen next, and what comes of it. -/
inductive Exec (w : TcpServer) : Event → Except Fault TcpServer → Prop where
  | newConnection : Exec w .newConnection w.newConnection
  | connectEstablished {k : Nat} (hk : k ∈ w.establishing) :
      Exec w (.connectEstablished k)
        ({ w with establishing := w.establishing.erase k }.connectEstablished k)
  | operate {k : Nat} {op : ConnOp} (hk : k < w.accepted) :
      Exec w (.operate k op) (do
        let c ← op.run (w.members k).conn
        return w.adopt k c)
  | close {k : Nat} (hk : k < w.accepted) : Exec w (.close k) (w.handleClose k)
  | read {k : Nat} {r : Buffer.ReadResult} (hk : k < w.accepted) :
      Exec w (.read k r) (w.handleRead k r)
  | write {k : Nat} {r : WriteResult} (hk : k < w.accepted) : Exec w (.write k r) (w.handleWrite k r)
  | functor {k : Nat} {r : WriteResult} {f : Functor} {rest : List Functor} (hk : k < w.accepted)
      (hfunctors : (w.members k).conn.pendingFunctors = f :: rest) :
      Exec w (.functor k r)
        ((w.adopt k { (w.members k).conn with pendingFunctors := rest }).runFunctor k r f)
  | closeCallback {k : Nat} (hk : k ∈ w.closing) :
      Exec w (.closeCallback k) ({ w with closing := w.closing.erase k }.removeConnection k)
  | removeConnectionInLoop {k : Nat} {rest : List Nat} (hremovals : w.removals = k :: rest) :
      Exec w .removeConnectionInLoop ({ w with removals := rest }.removeConnectionInLoop k)
  | connectDestroyed {k : Nat} (hk : k ∈ w.destroying) :
      Exec w (.connectDestroyed k)
        (.ok ({ w with destroying := w.destroying.erase k }.connectDestroyed k))

def Step (w : TcpServer) (e : Event) (w' : TcpServer) : Prop := Exec w e (.ok w')

end TcpServer
end ProtoRpc
