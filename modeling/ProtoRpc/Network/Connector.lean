import ProtoRpc.Network.Machine

/-!
`Connector`: one attempt at a time to connect a socket. Sockets are numbered in
the order in which `connect` creates them, and the connector records which of
them it has closed. What it hands to its loop is left in `pendingFunctors`, for
the loop to collect, and the socket that it hands to `newConnectionCallback_` is
a result. Results of `connect(2)`, `SO_ERROR` and the test for a self-connect are
arguments. The delay before a retry is only logged, and left out.
-/
namespace ProtoRpc

/-- Why a step of the client has no result. The first three are the assertions of
`Connector`. -/
inductive ClientFault where
  | startInLoop
  | connecting
  | handleWrite
  /-- `assert(connection_ == conn)` -/
  | removeConnection
  | other (fault : Fault)
  deriving DecidableEq, Repr

def ClientFault.ofConnector : ClientFault → Bool
  | .startInLoop | .connecting | .handleWrite => true
  | _ => false

/-- `Connector::States` -/
inductive ConnectorState where
  | kDisconnected
  | kConnecting
  | kConnected
  deriving DecidableEq, Repr

/-- `savedErrno` after `connect(2)`, with the values that the switch names. -/
inductive ConnectErrno where
  | zero
  | EINPROGRESS
  | EINTR
  | EISCONN
  | EAGAIN
  | EADDRINUSE
  | EADDRNOTAVAIL
  | ECONNREFUSED
  | ENETUNREACH
  | EACCES
  | EPERM
  | EAFNOSUPPORT
  | EALREADY
  | EBADF
  | EFAULT
  | ENOTSOCK
  | other (n : Nat)
  deriving DecidableEq, Repr

/-- The results after which the connector waits for the socket. -/
def ConnectErrno.inProgress : ConnectErrno → Bool
  | .zero | .EINPROGRESS | .EINTR | .EISCONN => true
  | _ => false

def ConnectErrno.retries : ConnectErrno → Bool
  | .EAGAIN | .EADDRINUSE | .EADDRNOTAVAIL | .ECONNREFUSED | .ENETUNREACH => true
  | _ => false

/-- `channel_`: its socket, and whether the poller has it, for writing. -/
structure ConnectorChannel where
  fd : Nat
  registered : Bool
  deriving DecidableEq, Repr

/-- What the connector queues. A `resetChannel` notes the channel that it was queued
for; it resets whatever channel there is. -/
inductive ConnectorFunctor where
  | startInLoop
  | stopInLoop
  | resetChannel (fd : Nat)
  deriving DecidableEq, Repr

/-- The channel for which a `resetChannel` was queued. -/
def ConnectorFunctor.resets : ConnectorFunctor → Option Nat
  | .resetChannel fd => some fd
  | _ => none

structure Connector where
  /-- `connect_` -/
  connectFlag : Bool
  state : ConnectorState
  channel : Option ConnectorChannel
  pendingFunctors : List ConnectorFunctor
  sockets : Nat
  closed : List Nat
  deriving DecidableEq, Repr

namespace Connector

def new : Connector :=
  { connectFlag := false
    state := .kDisconnected
    channel := none
    pendingFunctors := []
    sockets := 0
    closed := [] }

def queueInLoop (c : Connector) (f : ConnectorFunctor) : Connector :=
  { c with pendingFunctors := c.pendingFunctors ++ [f] }

/-- `sockets::close` -/
def close (c : Connector) (sockfd : Nat) : Connector := { c with closed := c.closed ++ [sockfd] }

def retry (c : Connector) (sockfd : Nat) : Connector :=
  { c.close sockfd with state := .kDisconnected }

def connecting (c : Connector) (sockfd : Nat) : Except ClientFault Connector :=
  if c.channel = none then
    .ok { c with state := .kConnecting, channel := some ⟨sockfd, true⟩ }
  else .error .connecting

def connect (c : Connector) (savedErrno : ConnectErrno) : Except ClientFault Connector :=
  let sockfd := c.sockets
  let c := { c with sockets := c.sockets + 1 }
  if savedErrno.inProgress then c.connecting sockfd
  else if savedErrno.retries then .ok (c.retry sockfd)
  else .ok (c.close sockfd)

def startInLoop (c : Connector) (savedErrno : ConnectErrno) : Except ClientFault Connector :=
  if c.state = .kDisconnected then
    if c.connectFlag then c.connect savedErrno else .ok c
  else .error .startInLoop

def start (c : Connector) (inLoopThread : Bool) (savedErrno : ConnectErrno) :
    Except ClientFault Connector :=
  let c := { c with connectFlag := true }
  if inLoopThread then c.startInLoop savedErrno else .ok (c.queueInLoop .startInLoop)

def restart (c : Connector) (savedErrno : ConnectErrno) : Except ClientFault Connector :=
  { c with state := .kDisconnected, connectFlag := true }.startInLoop savedErrno

def stop (c : Connector) : Connector := { c with connectFlag := false }.queueInLoop .stopInLoop

/-- `channel_` is dereferenced. -/
def removeAndResetChannel (c : Connector) : Except ClientFault (Nat × Connector) :=
  match c.channel with
  | none => .error (.other .nullPointer)
  | some ch =>
      .ok (ch.fd, { c with channel := some ⟨ch.fd, false⟩ }.queueInLoop (.resetChannel ch.fd))

def resetChannel (c : Connector) : Connector := { c with channel := none }

def stopInLoop (c : Connector) : Except ClientFault Connector :=
  if c.state = .kConnecting then do
    let (sockfd, c) ← { c with state := .kDisconnected }.removeAndResetChannel
    return c.retry sockfd
  else .ok c

/-- With the socket, if any, that goes to `newConnectionCallback_`. -/
def handleWrite (c : Connector) (err selfConnect : Bool) :
    Except ClientFault (Connector × Option Nat) :=
  if c.state = .kConnecting then do
    let (sockfd, c) ← c.removeAndResetChannel
    if err then return (c.retry sockfd, none)
    else if selfConnect then return (c.retry sockfd, none)
    else
      let c := { c with state := .kConnected }
      if c.connectFlag then return (c, some sockfd)
      else return (c.close sockfd, none)
  else if c.state = .kDisconnected then .ok (c, none)
  else .error .handleWrite

def handleError (c : Connector) : Except ClientFault Connector :=
  if c.state = .kConnecting then do
    let (sockfd, c) ← c.removeAndResetChannel
    return c.retry sockfd
  else .ok c

def runFunctor (c : Connector) (savedErrno : ConnectErrno) :
    ConnectorFunctor → Except ClientFault Connector
  | .startInLoop => c.startInLoop savedErrno
  | .stopInLoop => c.stopInLoop
  | .resetChannel _ => .ok c.resetChannel

/-- What an operation does to the attempts at connecting, and the socket that it
hands on. -/
inductive Attempt (c : Connector) : Connector → Option Nat → Prop where
  | none : Attempt c c none
  | refused (hstate : c.state = .kDisconnected) :
      Attempt c { c with sockets := c.sockets + 1, closed := c.closed ++ [c.sockets] } none
  | opened (hstate : c.state = .kDisconnected) (hflag : c.connectFlag = true)
      (hchannel : c.channel = .none) :
      Attempt c
        { c with
          state := .kConnecting
          channel := some ⟨c.sockets, true⟩
          sockets := c.sockets + 1 } none
  | dropped {ch : ConnectorChannel} {state : ConnectorState} (hstate : c.state = .kConnecting)
      (hchannel : c.channel = some ch) (hafter : state ≠ .kConnecting) :
      Attempt c
        { c with
          state := state
          channel := some ⟨ch.fd, false⟩
          closed := c.closed ++ [ch.fd]
          pendingFunctors := c.pendingFunctors ++ [.resetChannel ch.fd] } none
  | passed {ch : ConnectorChannel} (hstate : c.state = .kConnecting)
      (hchannel : c.channel = some ch) (hflag : c.connectFlag = true) :
      Attempt c
        { c with
          state := .kConnected
          channel := some ⟨ch.fd, false⟩
          pendingFunctors := c.pendingFunctors ++ [.resetChannel ch.fd] } (some ch.fd)

/-- The channel that was removed and has yet to be reset. -/
def removed (c : Connector) : List Nat :=
  match c.channel with
  | some ⟨fd, false⟩ => [fd]
  | _ => []

/-- In how many places a socket is: watched in `kConnecting`, closed, and passed on. -/
def places (c : Connector) (passed : List Nat) (n : Nat) : Nat :=
  (if c.state = .kConnecting ∧ c.channel = some ⟨n, true⟩ then 1 else 0) +
    c.closed.count n + passed.count n

section
variable {c c' : Connector} {savedErrno : ConnectErrno}

theorem Attempt.watched {passed : Option Nat} (h : Attempt c c' passed)
    (hwatched : c.state = .kConnecting ↔ ∃ n, c.channel = some ⟨n, true⟩) :
    c'.state = .kConnecting ↔ ∃ n, c'.channel = some ⟨n, true⟩ := by
  cases h with
  | none => exact hwatched
  | refused hstate => exact hwatched
  | opened hstate hflag hchannel => exact ⟨fun _ => ⟨c.sockets, rfl⟩, fun _ => rfl⟩
  | dropped hstate hchannel hafter =>
      refine ⟨fun hconnecting => absurd hconnecting hafter, ?_⟩
      rintro ⟨n, hn⟩
      cases hn
  | passed hstate hchannel hflag =>
      constructor
      · intro hconnecting
        cases hconnecting
      · rintro ⟨n, hn⟩
        cases hn

/-- What is queued for the channel that is removed. -/
theorem Attempt.removed {passed : Option Nat} (h : Attempt c c' passed)
    (hwatched : c.state = .kConnecting ↔ ∃ n, c.channel = some ⟨n, true⟩) :
    ∃ l, c'.pendingFunctors = c.pendingFunctors ++ l ∧
      c'.removed = c.removed ++ l.filterMap ConnectorFunctor.resets := by
  have hnothing : c.state = .kConnecting → c.removed = [] := by
    intro hstate
    obtain ⟨n, hn⟩ := hwatched.mp hstate
    rw [Connector.removed, hn]
  cases h with
  | none => exact ⟨[], (List.append_nil _).symm, (List.append_nil _).symm⟩
  | refused hstate => exact ⟨[], (List.append_nil _).symm, (List.append_nil _).symm⟩
  | opened hstate hflag hchannel =>
      refine ⟨[], (List.append_nil _).symm, ?_⟩
      simp [Connector.removed, hchannel]
  | dropped hstate hchannel hafter =>
      refine ⟨_, rfl, ?_⟩
      rw [hnothing hstate]
      rfl
  | passed hstate hchannel hflag =>
      refine ⟨_, rfl, ?_⟩
      rw [hnothing hstate]
      rfl

/-- Where every socket is in one place, it stays so. -/
theorem Attempt.places {passed : Option Nat} {ps : List Nat} (h : Attempt c c' passed)
    (hwatched : c.state = .kConnecting ↔ ∃ n, c.channel = some ⟨n, true⟩)
    (hplaces : ∀ n, c.places ps n = if n < c.sockets then 1 else 0) :
    ∀ n, c'.places (ps ++ passed.toList) n = if n < c'.sockets then 1 else 0 := by
  intro n
  have hn := hplaces n
  cases h with
  | none => simpa using hn
  | refused hstate =>
      simp [Connector.places, hstate, List.count_cons] at hn ⊢
      grind
  | opened hstate hflag hchannel =>
      simp [Connector.places, hstate] at hn ⊢
      grind
  | @dropped ch state hstate hchannel hafter =>
      obtain ⟨fd, hfd⟩ := hwatched.mp hstate
      cases hchannel.symm.trans hfd
      simp [Connector.places, hstate, hfd, List.count_cons] at hn ⊢
      grind
  | passed hstate hchannel hflag =>
      obtain ⟨fd, hfd⟩ := hwatched.mp hstate
      cases hchannel.symm.trans hfd
      simp [Connector.places, hstate, hfd, List.count_cons] at hn ⊢
      grind

theorem startInLoop_inv (h : c.startInLoop savedErrno = .ok c') : Attempt c c' none := by
  rw [startInLoop] at h
  split at h
  · rename_i hstate
    split at h
    · rename_i hflag
      simp only [connect] at h
      split at h
      · rw [connecting] at h
        split at h
        · rename_i hchannel
          cases h
          exact .opened hstate hflag hchannel
        · cases h
      · split at h
        · cases h
          rw [retry, close, ← hstate]
          exact .refused hstate
        · cases h
          exact .refused hstate
    · cases h
      exact .none
  · cases h

/-- The two assertions on the way to a new attempt. -/
theorem startInLoop_error {fault : ClientFault} (h : c.startInLoop savedErrno = .error fault) :
    fault.ofConnector = true ∧ ¬ (c.state = .kDisconnected ∧
      (c.connectFlag = true → savedErrno.inProgress = true → c.channel = none)) := by
  rw [startInLoop] at h
  split at h
  · rename_i hstate
    split at h
    · rename_i hflag
      simp only [connect] at h
      split at h
      · rename_i hprogress
        rw [connecting] at h
        split at h
        · cases h
        · rename_i hchannel
          cases h
          exact ⟨rfl, fun hsafe => hchannel (hsafe.2 hflag hprogress)⟩
      · split at h
        · cases h
        · cases h
    · cases h
  · rename_i hstate
    cases h
    exact ⟨rfl, fun hsafe => hstate hsafe.1⟩

theorem startInLoop_safe (h : c.startInLoop savedErrno = .ok c') :
    c.state = .kDisconnected ∧
      (c.connectFlag = true → savedErrno.inProgress = true → c.channel = none) := by
  by_contra hunsafe
  rw [startInLoop] at h
  by_cases hstate : c.state = .kDisconnected
  · simp only [hstate, true_and, Classical.not_imp] at hunsafe
    obtain ⟨hflag, hprogress, hchannel⟩ := hunsafe
    simp [hstate, hflag, connect, hprogress, connecting, hchannel] at h
  · rw [if_neg hstate] at h
    cases h

theorem removeAndResetChannel_inv {sockfd : Nat} (h : c.removeAndResetChannel = .ok (sockfd, c')) :
    ∃ ch, c.channel = some ch ∧ sockfd = ch.fd ∧
      c' =
        { c with
          channel := some ⟨ch.fd, false⟩
          pendingFunctors := c.pendingFunctors ++ [.resetChannel ch.fd] } := by
  rw [removeAndResetChannel] at h
  split at h
  · cases h
  · rename_i ch hchannel
    cases h
    exact ⟨ch, hchannel, rfl, rfl⟩

theorem removeAndResetChannel_error {fault : ClientFault}
    (h : c.removeAndResetChannel = .error fault) : ∃ f, fault = .other f := by
  rw [removeAndResetChannel] at h
  split at h
  · cases h
    exact ⟨_, rfl⟩
  · cases h

/-- `retry` sets the state in any case, so the stop does what the error handler does. -/
theorem stopInLoop_eq (c : Connector) : c.stopInLoop = c.handleError := by
  rw [stopInLoop, handleError]
  split
  · rw [removeAndResetChannel, removeAndResetChannel]
    cases c.channel with
    | none => rfl
    | some ch => rfl
  · rfl

theorem handleError_inv (h : c.handleError = .ok c') : Attempt c c' none := by
  rw [handleError] at h
  split at h
  · rename_i hstate
    obtain ⟨⟨sockfd, c₁⟩, hremove, hretry⟩ := bind_ok_inv h
    obtain ⟨ch, hchannel, rfl, rfl⟩ := removeAndResetChannel_inv hremove
    cases hretry
    exact .dropped hstate hchannel (by decide)
  · cases h
    exact .none

theorem stopInLoop_inv (h : c.stopInLoop = .ok c') : Attempt c c' none := by
  rw [stopInLoop_eq] at h
  exact handleError_inv h

theorem handleError_state (h : c.handleError = .ok c') : c'.state ≠ .kConnecting := by
  rw [handleError] at h
  split at h
  · obtain ⟨⟨sockfd, c₁⟩, -, hretry⟩ := bind_ok_inv h
    cases hretry
    exact fun hconnecting => by cases hconnecting
  · rename_i hstate
    cases h
    exact hstate

theorem stopInLoop_state (h : c.stopInLoop = .ok c') : c'.state ≠ .kConnecting := by
  rw [stopInLoop_eq] at h
  exact handleError_state h

theorem handleWrite_inv {err selfConnect : Bool} {passed : Option Nat}
    (h : c.handleWrite err selfConnect = .ok (c', passed)) : Attempt c c' passed := by
  rw [handleWrite] at h
  split at h
  · rename_i hstate
    obtain ⟨⟨sockfd, c₁⟩, hremove, hrest⟩ := bind_ok_inv h
    obtain ⟨ch, hchannel, rfl, rfl⟩ := removeAndResetChannel_inv hremove
    cases err with
    | true =>
        cases hrest
        exact .dropped hstate hchannel (by decide)
    | false =>
        cases selfConnect with
        | true =>
            cases hrest
            exact .dropped hstate hchannel (by decide)
        | false =>
            simp only [Bool.false_eq_true, if_false] at hrest
            split at hrest
            · rename_i hflag
              cases hrest
              exact .passed hstate hchannel hflag
            · cases hrest
              exact .dropped hstate hchannel fun hconnecting => by cases hconnecting
  · split at h
    · cases h
      exact .none
    · cases h

theorem handleWrite_state {err selfConnect : Bool} {passed : Option Nat}
    (h : c.handleWrite err selfConnect = .ok (c', passed)) : c'.state ≠ .kConnecting := by
  rw [handleWrite] at h
  split at h
  · obtain ⟨⟨sockfd, c₁⟩, -, hrest⟩ := bind_ok_inv h
    cases err with
    | true =>
        cases hrest
        exact fun hconnecting => by cases hconnecting
    | false =>
        cases selfConnect with
        | true =>
            cases hrest
            exact fun hconnecting => by cases hconnecting
        | false =>
            simp only [Bool.false_eq_true, if_false] at hrest
            split at hrest <;> cases hrest <;> exact fun hconnecting => by cases hconnecting
  · rename_i hnot
    split at h
    · cases h
      exact hnot
    · cases h

/-- The error handler and the deferred stop have no assertion of their own. -/
theorem handleError_error {fault : ClientFault} (h : c.handleError = .error fault) :
    ∃ f, fault = .other f := by
  rw [handleError] at h
  split at h
  · rcases bind_error_inv h with hremove | ⟨⟨sockfd, c₁⟩, -, hretry⟩
    · exact removeAndResetChannel_error hremove
    · cases hretry
  · cases h

theorem stopInLoop_error {fault : ClientFault} (h : c.stopInLoop = .error fault) :
    ∃ f, fault = .other f := by
  rw [stopInLoop_eq] at h
  exact handleError_error h

theorem handleWrite_error {err selfConnect : Bool} {fault : ClientFault}
    (hstate : c.state ≠ .kConnected) (h : c.handleWrite err selfConnect = .error fault) :
    ∃ f, fault = .other f := by
  rw [handleWrite] at h
  split at h
  · rcases bind_error_inv h with hremove | ⟨⟨sockfd, c₁⟩, -, hrest⟩
    · exact removeAndResetChannel_error hremove
    · cases err with
      | true => cases hrest
      | false =>
          cases selfConnect with
          | true => cases hrest
          | false =>
              simp only [Bool.false_eq_true, if_false] at hrest
              split at hrest <;> cases hrest
  · rename_i hnot
    split at h
    · cases h
    · rename_i hdown
      cases hc : c.state with
      | kDisconnected => exact absurd hc hdown
      | kConnecting => exact absurd hc hnot
      | kConnected => exact absurd hc hstate

end

end Connector
end ProtoRpc
