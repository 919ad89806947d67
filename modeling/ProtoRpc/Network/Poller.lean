import Mathlib.Logic.Function.Basic
import ProtoRpc.Foundation.Transition
import ProtoRpc.Network.Machine

/-!
`Channel` and `Poller`: the interest that a channel asks for, the index and the
map in which the poller keeps track of it, and the interest list of the kernel.
`C` is the type of channel addresses. `epoll_ctl` fails where the manual says
so: adding an fd that is present, changing or deleting one that is absent. A
`LOG(FATAL)` aborts as a failed assertion does.
-/
namespace ProtoRpc

/-- `events_`, whose only bits are `EPOLLIN` and `EPOLLOUT`. -/
structure EventMask where
  read : Bool
  write : Bool
  deriving DecidableEq, Repr

def EventMask.noneEvent : EventMask := ⟨false, false⟩

/-- `revents_` -/
structure Revents where
  pollin : Bool
  pollpri : Bool
  pollout : Bool
  pollerr : Bool
  pollhup : Bool
  pollnval : Bool
  pollrdhup : Bool
  deriving DecidableEq, Repr

/-- What epoll can report: bits that were asked for, `EPOLLHUP` and `EPOLLERR`. -/
structure Revents.Within (r : Revents) (mask : EventMask) : Prop where
  pollin : r.pollin = true → mask.read = true
  pollout : r.pollout = true → mask.write = true
  pollpri : r.pollpri = false
  pollnval : r.pollnval = false
  pollrdhup : r.pollrdhup = false

inductive PollerIndex where
  | kNew
  | kAdded
  | kDeleted
  deriving DecidableEq, Repr

structure Channel where
  fd : Int
  events : EventMask
  index : PollerIndex
  addedToLoop : Bool
  deriving DecidableEq, Repr

namespace Channel

def new (fd : Int) : Channel :=
  { fd := fd
    events := .noneEvent
    index := .kNew
    addedToLoop := false }

def isNoneEvent (ch : Channel) : Bool := ch.events == .noneEvent

end Channel

/-- The operations that change the interest of a channel. -/
inductive InterestOp where
  | enableReading
  | disableReading
  | enableWriting
  | disableWriting
  | disableAll
  deriving DecidableEq, Repr

def InterestOp.apply (events : EventMask) : InterestOp → EventMask
  | .enableReading => { events with read := true }
  | .disableReading => { events with read := false }
  | .enableWriting => { events with write := true }
  | .disableWriting => { events with write := false }
  | .disableAll => .noneEvent

inductive CtlOp where
  | add
  | mod
  | del
  deriving DecidableEq, Repr

/-- An `epoll_ctl` that was issued, and whether the kernel accepted it. -/
structure Ctl where
  op : CtlOp
  fd : Int
  accepted : Bool
  deriving DecidableEq, Repr

/-- `table` holds the channels of the loop, `channels` is `channels_`, `interest`
the list that the kernel keeps, with `data.ptr`, and `issued` only records. -/
structure Poller (C : Type) where
  table : C → Channel
  channels : Int → Option C
  interest : Int → Option (EventMask × C)
  issued : List Ctl

namespace Poller
variable {C : Type} [DecidableEq C]

def new (fd : C → Int) : Poller C :=
  { table := fun c => Channel.new (fd c)
    channels := fun _ => none
    interest := fun _ => none
    issued := [] }

def setChannel (p : Poller C) (c : C) (ch : Channel) : Poller C :=
  { p with table := Function.update p.table c ch }

def setIndex (p : Poller C) (c : C) (index : PollerIndex) : Poller C :=
  p.setChannel c { p.table c with index := index }

def epollCtl (interest : Int → Option (EventMask × C)) (op : CtlOp) (fd : Int)
    (event : EventMask × C) : Option (Int → Option (EventMask × C)) :=
  match op, interest fd with
  | .add, none | .mod, some _ => some (Function.update interest fd (some event))
  | .del, some _ => some (Function.update interest fd none)
  | _, _ => none

def update (p : Poller C) (op : CtlOp) (c : C) : Except Fault (Poller C) :=
  let ch := p.table c
  match epollCtl p.interest op ch.fd (ch.events, c) with
  | some interest =>
      .ok { p with interest := interest, issued := ⟨op, ch.fd, true⟩ :: p.issued }
  | none =>
      if op = .del then .ok { p with issued := ⟨op, ch.fd, false⟩ :: p.issued }
      else .error .assertion

def updateChannel (p : Poller C) (c : C) : Except Fault (Poller C) := do
  let fd := (p.table c).fd
  match (p.table c).index with
  | .kNew =>
      require .assertion (p.channels fd = none)
      let p := { p with channels := Function.update p.channels fd (some c) }
      (p.setIndex c .kAdded).update .add c
  | .kDeleted =>
      require .assertion (p.channels fd ≠ none)
      require .assertion (p.channels fd = some c)
      (p.setIndex c .kAdded).update .add c
  | .kAdded =>
      require .assertion (p.channels fd ≠ none)
      require .assertion (p.channels fd = some c)
      if (p.table c).isNoneEvent then
        let p ← p.update .del c
        return p.setIndex c .kDeleted
      else
        p.update .mod c

def removeChannel (p : Poller C) (c : C) : Except Fault (Poller C) := do
  let fd := (p.table c).fd
  let index := (p.table c).index
  require .assertion (p.channels fd ≠ none)
  require .assertion (p.channels fd = some c)
  require .assertion ((p.table c).isNoneEvent = true)
  require .assertion (index = .kAdded ∨ index = .kDeleted)
  let p := { p with channels := Function.update p.channels fd none }
  let p ← if index = .kAdded then p.update .del c else pure p
  return p.setIndex c .kNew

/-- An interest operation of `Channel`, down to the poller. -/
def interestOp (p : Poller C) (c : C) (op : InterestOp) : Except Fault (Poller C) :=
  let ch := p.table c
  (p.setChannel c { ch with events := op.apply ch.events, addedToLoop := true }).updateChannel c

/-- `Channel::remove`, but for what `EventLoop::removeChannel` asserts of its
active channels. -/
def remove (p : Poller C) (c : C) : Except Fault (Poller C) := do
  require .assertion ((p.table c).isNoneEvent = true)
  (p.setChannel c { p.table c with addedToLoop := false }).removeChannel c

/-- An event that `epoll_wait` stored. -/
structure Report (C : Type) where
  revents : Revents
  ptr : C

/-- What `epoll_wait` can return into a vector of `capacity` events. -/
structure Reports (p : Poller C) (capacity : Nat) (reports : List (Report C)) : Prop where
  fits : reports.length ≤ capacity
  once : (reports.map Report.ptr).Nodup
  interested : ∀ r ∈ reports, ∃ fd mask, p.interest fd = some (mask, r.ptr) ∧
    r.revents.Within mask

/-- The assertions about one report, and what is pushed to `activeChannels`. -/
def activeChannel (p : Poller C) (r : Report C) : Except Fault (C × Revents) := do
  require .assertion (p.channels (p.table r.ptr).fd ≠ none)
  require .assertion (p.channels (p.table r.ptr).fd = some r.ptr)
  return (r.ptr, r.revents)

def fillActiveChannels (p : Poller C) (capacity : Nat) (reports : List (Report C)) :
    Except Fault (List (C × Revents)) := do
  require .assertion (reports.length ≤ capacity)
  reports.mapM p.activeChannel

end Poller
end ProtoRpc
