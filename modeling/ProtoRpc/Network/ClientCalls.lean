import ProtoRpc.Network.ClientRuns
import ProtoRpc.Network.ThreadCalls

/-!
A `TcpClient` whose calls, of the loop thread and of other threads, are cut at each of
their accesses to what the threads share: the flags `connect_` of the client and of its
connector, the state of a connection, and the queue of the loop. So is what the loop does
by itself where it acts on a flag that it has tested: `TcpClient::removeConnection` in
front of the test and of the restart, and `Connector::handleWrite` in front of
`newConnection`.

The lock under which `disconnect` calls `shutdown` and `removeConnection` resets
`connection_` is left out: it only forbids runs.
-/
namespace ProtoRpc
open Transition

inductive ClientCall where
  | connect
  | disconnect
  | stop
  deriving DecidableEq, Repr

inductive ClientAct where
  /-- `TcpClient::connect_` is assigned -/
  | setConnect (flag : Bool)
  /-- `Connector::connect_` is assigned -/
  | setStart (flag : Bool)
  /-- `loop_->runInLoop` of `startInLoop` -/
  | startInLoop
  /-- `loop_->queueInLoop` of `stopInLoop` -/
  | stopInLoop
  /-- `connection_->shutdown()` -/
  | shutdown
  deriving DecidableEq, Repr

/-- The calls with `Connector::start` and `Connector::stop` in them. -/
def ClientCall.acts : ClientCall → List ClientAct
  | .connect => [.setConnect true, .setStart true, .startInLoop]
  | .disconnect => [.setConnect false, .shutdown]
  | .stop => [.setConnect false, .setStart false, .stopInLoop]

/-- What the loop thread has yet to do of what it is in. -/
inductive LoopAct where
  | call (a : ClientAct)
  | newConnection (sockfd : Nat)
  /-- `retry_ && connect_` in `removeConnection` -/
  | test
  /-- `Connector::restart`, up to `startInLoop` -/
  | restart
  deriving DecidableEq, Repr

/-- The frames that are one step here too. -/
def ClientFrame.whole : ClientFrame → Bool
  | .connectorWrite | .connection _ .closeCallback => false
  | _ => true

/-- The events that are. -/
def TcpClient.Whole (w : TcpClient) : TcpClient.Event → Prop
  | .connect _ _ | .disconnect _ | .stop | .enableRetry | .otherFunctor => False
  | .operate _ op => op.foreign = false
  | .frame _ => w.todo.head?.all ClientFrame.whole = true
  | _ => True

/-- Calls of other threads that look at a connection. -/
def TcpClient.Event.foreign : TcpClient.Event → Bool
  | .disconnect own => !own
  | .operate _ op => op.foreign
  | _ => false

structure ClientCalls where
  client : TcpClient
  busy : List LoopAct
  /-- what is left of the calls of the client that other threads are in -/
  calls : List (List ClientAct)
  /-- and of those of its connections -/
  connCalls : List (Nat × CallRest)

namespace ClientCalls

def new : ClientCalls := ⟨.new, [], [], []⟩

def queueInLoop (s : ClientCalls) (f : ClientFunctor) : ClientCalls :=
  { s with client := { s.client with pendingFunctors := s.client.pendingFunctors ++ [f] } }

def setConnect (s : ClientCalls) (flag : Bool) : ClientCalls :=
  { s with client := { s.client with connectFlag := flag } }

def setStart (s : ClientCalls) (flag : Bool) : ClientCalls :=
  { s with client :=
    { s.client with connector := { s.client.connector with connectFlag := flag } } }

/-- In the thread of the loop. -/
def runAct (s : ClientCalls) (savedErrno : ConnectErrno) : LoopAct → Except ClientFault ClientCalls
  | .call (.setConnect flag) => .ok (s.setConnect flag)
  | .call (.setStart flag) => .ok (s.setStart flag)
  | .call .startInLoop => do
      let c ← s.client.connector.startInLoop savedErrno
      return { s with client := s.client.adoptConnector c }
  | .call .stopInLoop => .ok (s.queueInLoop (.connector .stopInLoop))
  | .call .shutdown =>
      match s.client.connection with
      | none => .ok s
      | some k => .ok { s with client := s.client.adopt k ((s.client.conns k).shutdown true) }
  | .newConnection sockfd => do
      let w ← s.client.newConnection sockfd
      return { s with client := w }
  | .test =>
      if s.client.retryFlag && s.client.connectFlag then
        .ok { s with busy := .restart :: .call .startInLoop :: s.busy }
      else .ok s
  | .restart =>
      .ok { s with client :=
        { s.client with connector :=
          { s.client.connector with state := .kDisconnected, connectFlag := true } } }

/-- In another thread, where `shutdown` is cut itself. -/
def runForeign (s : ClientCalls) : ClientAct → ClientCalls
  | .setConnect flag => s.setConnect flag
  | .setStart flag => s.setStart flag
  | .startInLoop => s.queueInLoop (.connector .startInLoop)
  | .stopInLoop => s.queueInLoop (.connector .stopInLoop)
  | .shutdown =>
      match s.client.connection with
      | none => s
      | some k =>
          if ThreadCall.shutdown.enters (s.client.conns k).state then
            { s with connCalls := s.connCalls ++ [(k, ThreadCall.shutdown.rest)] }
          else s

/-- Up to the call of `newConnection`. -/
def handleWrite (s : ClientCalls) (err selfConnect : Bool) : Except ClientFault ClientCalls := do
  let (c, sockfd) ← s.client.connector.handleWrite err selfConnect
  return { s with
    client := s.client.adoptConnector c
    busy := sockfd.toList.map .newConnection }

/-- Up to the test. -/
def removeConnection (s : ClientCalls) (k : Nat) : Except ClientFault ClientCalls :=
  if s.client.connection = some k then
    .ok { s with
      client :=
        { s.client with
          connection := none
          pendingFunctors := s.client.pendingFunctors ++ [.connectDestroyed k] }
      busy := [.test] }
  else .error .removeConnection

inductive Event where
  | client (e : TcpClient.Event)
  | enableRetry
  | otherFunctor
  | handleWrite (err selfConnect : Bool)
  | closeCallback
  | call (own : Bool) (c : ClientCall)
  | act (savedErrno : ConnectErrno)
  | foreign (a : ClientAct) (rest : List ClientAct)
  | enter (k : Nat) (call : ThreadCall)
  | store (k : Nat) (next : Option Functor)
  | queue (k : Nat) (f : Functor)

inductive Exec (s : ClientCalls) : Event → Except ClientFault ClientCalls → Prop where
  | client {e : TcpClient.Event} {r : Except ClientFault TcpClient} (hbusy : s.busy = [])
      (he : s.client.Whole e) (hexec : TcpClient.Exec s.client e r) :
      Exec s (.client e) (do
        let w ← r
        return { s with client := w })
  | enableRetry :
      Exec s .enableRetry (.ok { s with client := { s.client with retryFlag := true } })
  | otherFunctor : Exec s .otherFunctor (.ok (s.queueInLoop .other))
  | handleWrite {rest : List ClientFrame} {err selfConnect : Bool} (hbusy : s.busy = [])
      (htodo : s.client.todo = .connectorWrite :: rest) :
      Exec s (.handleWrite err selfConnect)
        ({ s with client := { s.client with todo := rest } }.handleWrite err selfConnect)
  | closeCallback {k : Nat} {rest : List ClientFrame} (hbusy : s.busy = [])
      (htodo : s.client.todo = .connection k .closeCallback :: rest) :
      Exec s .closeCallback
        ({ s with client := { s.client with todo := rest } }.removeConnection k)
  | callOwn {c : ClientCall} (hbusy : s.busy = []) (huser : s.client.userCode = true) :
      Exec s (.call true c) (.ok { s with busy := c.acts.map .call })
  | callForeign {c : ClientCall} :
      Exec s (.call false c) (.ok { s with calls := s.calls ++ [c.acts] })
  | act {a : LoopAct} {rest : List LoopAct} {savedErrno : ConnectErrno} (hbusy : s.busy = a :: rest) :
      Exec s (.act savedErrno) ({ s with busy := rest }.runAct savedErrno a)
  | foreign {a : ClientAct} {rest : List ClientAct} (hcall : a :: rest ∈ s.calls) :
      Exec s (.foreign a rest)
        (.ok ({ s with calls := s.calls.erase (a :: rest) ++ [rest] }.runForeign a))
  | enter {k : Nat} {call : ThreadCall} (hk : k < s.client.established)
      (henters : call.enters (s.client.conns k).state = true) :
      Exec s (.enter k call) (.ok { s with connCalls := s.connCalls ++ [(k, call.rest)] })
  | store {k : Nat} {next : Option Functor} (hcall : (k, .store next) ∈ s.connCalls) :
      Exec s (.store k next) (.ok
        { s with
          client :=
            { s.client with conns := Function.update s.client.conns k (s.client.conns k).store }
          connCalls := s.connCalls.erase (k, .store next) ++
            next.toList.map fun f => (k, .queue f) })
  | queue {k : Nat} {f : Functor} (hcall : (k, .queue f) ∈ s.connCalls) :
      Exec s (.queue k f) (.ok
        { s.queueInLoop (.own k f) with connCalls := s.connCalls.erase (k, .queue f) })

def Step (s : ClientCalls) (e : Event) (s' : ClientCalls) : Prop := Exec s e (.ok s')

/-- A call that stores `kDisconnecting` finds its connection still up. -/
def Timely (s : ClientCalls) : Event → Prop
  | .store k _ => s.client.Open k
  | _ => True

def TimelyStep : ClientCalls → Event → ClientCalls → Prop := Guarded Step Timely

/-- The sockets on their way to `newConnection`. -/
def passing (s : ClientCalls) : List Nat :=
  s.busy.filterMap fun
    | .newConnection sockfd => some sockfd
    | _ => none

/-- The client, with the sockets that are on their way counted as passed on. -/
def settled (s : ClientCalls) : TcpClient :=
  { s.client with passed := s.client.passed ++ s.passing }

/-- What the loop thread can be in, and what holds there. -/
inductive Doing (w : TcpClient) : List LoopAct → Prop where
  | calls {acts : List LoopAct} (hcalls : ∀ a ∈ acts, ∃ b, a = .call b) : Doing w acts
  | passing {sockfd : Nat} (hnone : w.connection = none) (hphase : w.phase = .handling)
      (hstate : w.connector.state = .kConnected) (hwrite : .connectorWrite ∉ w.todo) :
      Doing w [.newConnection sockfd]
  | testing (hnone : w.connection = none) (hstate : w.connector.state = .kConnected) :
      Doing w [.test]
  | restarting (hnone : w.connection = none) (hstate : w.connector.state = .kConnected) :
      Doing w [.restart, .call .startInLoop]

structure Inv (s : ClientCalls) : Prop where
  settled : s.settled.Inv
  doing : Doing s.client s.busy
  known : ∀ k rest, (k, rest) ∈ s.connCalls → k < s.client.established

variable {s s' : ClientCalls} {e : Event}

theorem settled_of_idle (hbusy : s.busy = []) : s.settled = s.client := by
  simp [settled, passing, hbusy]

theorem Inv.idle (h : Inv s) (hbusy : s.busy = []) : s.client.Inv := settled_of_idle hbusy ▸ h.settled

theorem inv_idle (hbusy : s.busy = []) (hclient : s.client.Inv)
    (hknown : ∀ k rest, (k, rest) ∈ s.connCalls → k < s.client.established) : Inv s where
  settled := (settled_of_idle hbusy).symm ▸ hclient
  doing := .calls (by simp [hbusy])
  known := hknown

theorem inv_new : Inv new := inv_idle rfl TcpClient.inv_new fun _ _ hcall => by cases hcall

/-- What the loop thread is in rests on what other threads leave alone. -/
theorem Doing.same {w w' : TcpClient} {acts : List LoopAct} (h : Doing w acts)
    (hconnection : w'.connection = w.connection) (hphase : w'.phase = w.phase)
    (hstate : w'.connector.state = w.connector.state) (htodo : w'.todo = w.todo) :
    Doing w' acts := by
  cases h with
  | calls hcalls => exact .calls hcalls
  | passing hnone hhandling hconnected hwrite =>
      exact .passing (hconnection.trans hnone) (hphase.trans hhandling)
        (hstate.trans hconnected) (htodo ▸ hwrite)
  | testing hnone hconnected =>
      exact .testing (hconnection.trans hnone) (hstate.trans hconnected)
  | restarting hnone hconnected =>
      exact .restarting (hconnection.trans hnone) (hstate.trans hconnected)

theorem Inv.queueInLoop (h : Inv s) {f : ClientFunctor} (hresets : f.resets = none)
    (hown : ∀ k g, f = .own k g → k < s.client.established) : Inv (s.queueInLoop f) where
  settled := by
    refine h.settled.append (l := [f]) ?_ ?_
    · rw [List.filterMap_cons_none hresets]
      rfl
    · intro k g hmem
      exact hown k g (List.mem_singleton.mp hmem).symm
  doing := h.doing.same rfl rfl rfl rfl
  known := h.known

theorem Inv.setFlags (h : Inv s) (retry connect : Bool) :
    Inv { s with client := { s.client with retryFlag := retry, connectFlag := connect } } where
  settled := h.settled.setClientFlags retry connect
  doing := h.doing.same rfl rfl rfl rfl
  known := h.known

theorem Inv.setStart (h : Inv s) (flag : Bool) : Inv (s.setStart flag) where
  settled := h.settled.setConnectFlag flag
  doing := h.doing.same rfl rfl rfl rfl
  known := h.known

theorem Inv.setCalls (h : Inv s) (calls : List (List ClientAct)) :
    Inv { s with calls := calls } := ⟨h.settled, h.doing, h.known⟩

/-- A call of a connection begins. -/
theorem Inv.enter (h : Inv s) {k : Nat} (hk : k < s.client.established) (rest : CallRest) :
    Inv { s with connCalls := s.connCalls ++ [(k, rest)] } := by
  refine ⟨h.settled, h.doing, ?_⟩
  intro j rest' hcall
  rcases List.mem_append.mp hcall with hold | hnew
  · exact h.known j rest' hold
  · cases List.mem_singleton.mp hnew
    exact hk

theorem Inv.runForeign (h : Inv s) (a : ClientAct) : Inv (s.runForeign a) := by
  cases a with
  | setConnect flag => exact h.setFlags s.client.retryFlag flag
  | setStart flag => exact h.setStart flag
  | startInLoop => exact h.queueInLoop rfl fun _ _ hf => by cases hf
  | stopInLoop => exact h.queueInLoop rfl fun _ _ hf => by cases hf
  | shutdown =>
      rw [ClientCalls.runForeign]
      split
      · exact h
      · rename_i k hk
        split
        · exact h.enter (h.settled.holding.connected k hk).2 _
        · exact h

/-- Where the loop thread is in a call, all that is left are calls. -/
theorem Inv.popCall (h : Inv s) {a : ClientAct} {rest : List LoopAct}
    (hbusy : s.busy = .call a :: rest) :
    Inv { s with busy := rest } ∧ ∀ b ∈ rest, ∃ c, b = .call c := by
  have hcalls : ∀ b ∈ rest, ∃ c, b = .call c := by
    have hdoing := h.doing
    rw [hbusy] at hdoing
    cases hdoing with
    | calls hcalls => exact fun b hb => hcalls b (List.mem_cons_of_mem _ hb)
  have hpassing : s.passing = { s with busy := rest }.passing := by
    rw [passing, hbusy]
    rfl
  refine ⟨⟨?_, .calls hcalls, h.known⟩, hcalls⟩
  have hsettled := h.settled
  rw [ClientCalls.settled, hpassing] at hsettled
  exact hsettled

/-- The rest of a call of the loop thread, as of `restart`. -/
theorem Inv.startInLoop (h : Inv s) (hcalls : ∀ b ∈ s.busy, ∃ c, b = .call c)
    {savedErrno : ConnectErrno} {c : Connector}
    (hc : s.client.connector.startInLoop savedErrno = .ok c) :
    Inv { s with client := s.client.adoptConnector c } where
  settled := by
    refine h.settled.attempt (Connector.startInLoop_inv hc) ?_
    intro hconnecting
    cases (Connector.startInLoop_safe hc).1.symm.trans hconnecting
  doing := .calls hcalls
  known := h.known

theorem Inv.newConnection (h : Inv s) {sockfd : Nat} {rest : List LoopAct} {w : TcpClient}
    (hbusy : s.busy = .newConnection sockfd :: rest) (hw : s.client.newConnection sockfd = .ok w) :
    Inv { s with client := w, busy := rest } := by
  have hdoing := h.doing
  rw [hbusy] at hdoing
  have hsettled := h.settled
  rw [ClientCalls.settled, passing, hbusy] at hsettled
  obtain ⟨c, -, hrest⟩ := bind_ok_inv hw
  cases hrest
  cases hdoing with
  | calls hcalls =>
      obtain ⟨b, hb⟩ := hcalls _ List.mem_cons_self
      cases hb
  | passing hnone hphase hstate hwrite =>
      refine inv_idle rfl ?_ fun k rest hcall => Nat.lt_succ_of_lt (h.known k rest hcall)
      exact (hsettled.establish hnone hphase hstate).notify (Nat.lt_succ_self _) hwrite

theorem Inv.runAct (h : Inv s) {a : LoopAct} {rest : List LoopAct} {savedErrno : ConnectErrno}
    (hbusy : s.busy = a :: rest) (hs' : { s with busy := rest }.runAct savedErrno a = .ok s') :
    Inv s' := by
  have hdoing := h.doing
  rw [hbusy] at hdoing
  cases a with
  | call b =>
      obtain ⟨hpop, hcalls⟩ := h.popCall hbusy
      cases b with
      | setConnect flag =>
          cases hs'
          exact hpop.setFlags s.client.retryFlag flag
      | setStart flag =>
          cases hs'
          exact hpop.setStart flag
      | startInLoop =>
          obtain ⟨c, hc, hrest⟩ := bind_ok_inv hs'
          cases hrest
          exact hpop.startInLoop hcalls hc
      | stopInLoop =>
          cases hs'
          exact hpop.queueInLoop rfl fun _ _ hf => by cases hf
      | shutdown =>
          rw [ClientCalls.runAct] at hs'
          split at hs'
          · cases hs'
            exact hpop
          · rename_i k hk
            cases hs'
            have hlt := (h.settled.holding.connected k hk).2
            exact ⟨hpop.settled.adopt hlt ((s.client.conns k).shutdown_keeps true),
              hpop.doing.same rfl rfl rfl rfl, h.known⟩
  | newConnection sockfd =>
      obtain ⟨w, hw, hrest⟩ := bind_ok_inv hs'
      cases hrest
      exact h.newConnection hbusy hw
  | test =>
      cases hdoing with
      | calls hcalls =>
          obtain ⟨b, hb⟩ := hcalls _ List.mem_cons_self
          cases hb
      | testing hnone hstate =>
          have hsettled := h.settled
          rw [ClientCalls.settled, passing, hbusy] at hsettled
          rw [ClientCalls.runAct] at hs'
          split at hs'
          · cases hs'
            exact ⟨hsettled, .restarting hnone hstate, h.known⟩
          · cases hs'
            exact ⟨hsettled, .calls (by simp), h.known⟩
  | restart =>
      cases hdoing with
      | calls hcalls =>
          obtain ⟨b, hb⟩ := hcalls _ List.mem_cons_self
          cases hb
      | restarting hnone hstate =>
          have hsettled := h.settled
          rw [ClientCalls.settled, passing, hbusy] at hsettled
          cases hs'
          exact ⟨(hsettled.setDisconnected hnone hstate).setConnectFlag true,
            .calls (by simp), h.known⟩

theorem Inv.handleWrite (h : Inv s) {rest : List ClientFrame} {err selfConnect : Bool}
    (hbusy : s.busy = []) (htodo : s.client.todo = .connectorWrite :: rest)
    (hs' : { s with client := { s.client with todo := rest } }.handleWrite err selfConnect = .ok s') :
    Inv s' := by
  have hclient := h.idle hbusy
  obtain ⟨hphase, hreports⟩ := hclient.wiring.handled _ (htodo ▸ List.mem_cons_self) rfl
  have hrest : .connectorWrite ∉ rest := by
    have hwritten := hclient.wiring.written
    rw [htodo] at hwritten
    exact hwritten
  have hhead : rest.head? ≠ some .connectorWrite := fun hhead => hrest (List.mem_of_mem_head? hhead)
  have hstate : s.client.connector.state = .kConnecting := hclient.wiring.writing (by rw [htodo]; rfl)
  have hnone := hclient.connection_eq_none (by rw [hstate]; decide)
  obtain ⟨⟨c, passed⟩, hwritten, hs'⟩ := bind_ok_inv hs'
  cases hs'
  have hattempt := Connector.handleWrite_inv hwritten
  have hreplaced := (hclient.pop htodo).replace hattempt hnone hreports hhead
  cases passed with
  | none => exact inv_idle rfl ((hclient.pop htodo).attempt hattempt fun _ => ⟨hreports, hhead⟩) h.known
  | some sockfd =>
      have hconnected : c.state = .kConnected := by
        cases hattempt
        rfl
      exact ⟨hreplaced, .passing hnone hphase hconnected hrest, h.known⟩

theorem Inv.removeConnection (h : Inv s) {k : Nat} {rest : List ClientFrame} (hbusy : s.busy = [])
    (htodo : s.client.todo = .connection k .closeCallback :: rest) :
    ∃ s', { s with client := { s.client with todo := rest } }.removeConnection k = .ok s' ∧
      Inv s' := by
  have hclient := h.idle hbusy
  obtain ⟨hconnection, hchannel, hdown, hstate, hcloses⟩ := hclient.removable htodo
  have hreleased := ((hclient.pop htodo).release hconnection hdown hcloses).append
    (l := [.connectDestroyed k]) rfl (fun k f hf => by simp at hf)
  refine ⟨_, if_pos hconnection, ?_, .testing rfl hstate, h.known⟩
  simpa [ClientCalls.settled, passing] using hreleased

/-- Only `newConnection` makes a connection. -/
theorem established_client {w : TcpClient} {e : TcpClient.Event}
    (hempty : s.client.connector.pendingFunctors = []) (he : s.client.Whole e)
    (hexec : TcpClient.Step s.client e w) : w.established = s.client.established := by
  rcases TcpClient.established_of_step hempty hexec with hsame | ⟨x, rfl, hhead⟩
  · exact hsame
  · rw [TcpClient.Whole, hhead] at he
    cases he

/-- A timely step keeps the invariant. -/
theorem Inv.step (h : Inv s) (hstep : TimelyStep s e s') : Inv s' := by
  obtain ⟨htimely, hstep⟩ := hstep
  rw [Step] at hstep
  generalize hr : (Except.ok s' : Except ClientFault ClientCalls) = r at hstep
  cases hstep with
  | client hbusy he hexec =>
      obtain ⟨w, hw, hrest⟩ := bind_ok_inv hr.symm
      cases hrest
      subst hw
      have hclient := h.idle hbusy
      refine inv_idle hbusy (hclient.step hexec) ?_
      intro k rest hcall
      rw [established_client hclient.wiring.empty he hexec]
      exact h.known k rest hcall
  | enableRetry =>
      cases hr
      exact h.setFlags true s.client.connectFlag
  | otherFunctor =>
      cases hr
      exact h.queueInLoop rfl fun _ _ hf => by cases hf
  | handleWrite hbusy htodo => exact h.handleWrite hbusy htodo hr.symm
  | closeCallback hbusy htodo =>
      obtain ⟨s₁, hs₁, h₁⟩ := h.removeConnection hbusy htodo
      cases hs₁.symm.trans hr.symm
      exact h₁
  | @callOwn c hbusy huser =>
      cases hr
      have hclient := h.idle hbusy
      refine ⟨?_, .calls (by simp), h.known⟩
      cases c <;> simpa [ClientCalls.settled, passing, ClientCall.acts] using hclient
  | callForeign =>
      cases hr
      exact h.setCalls _
  | act hbusy => exact h.runAct hbusy hr.symm
  | foreign hcall =>
      cases hr
      exact (h.setCalls _).runForeign _
  | enter hk henters =>
      cases hr
      exact h.enter hk _
  | @store k next hcall =>
      cases hr
      have hk := h.known k _ hcall
      refine ⟨h.settled.update hk fun _ => htimely, h.doing.same rfl rfl rfl rfl, ?_⟩
      intro j rest hcall'
      rcases List.mem_append.mp hcall' with hold | hnew
      · exact h.known j rest (List.mem_of_mem_erase hold)
      · obtain ⟨f, -, hf⟩ := List.mem_map.mp hnew
        cases hf
        exact hk
  | @queue k f hcall =>
      cases hr
      have hk := h.known k _ hcall
      have hqueued := h.queueInLoop (f := .own k f) rfl (by rintro _ _ ⟨⟩; exact hk)
      exact ⟨hqueued.settled, hqueued.doing, fun j rest hmem =>
        h.known j rest (List.mem_of_mem_erase hmem)⟩

theorem inv_of_run {events : List Event} (hrun : Run TimelyStep new events s) : Inv s :=
  hrun.invariant inv_new fun _ _ _ h hstep => h.step hstep

theorem runAct_error {a : LoopAct} {savedErrno : ConnectErrno} {fault : ClientFault}
    (hfault : s.runAct savedErrno a = .error fault) : fault ≠ .removeConnection := by
  rintro rfl
  cases a with
  | call b =>
      cases b with
      | setConnect flag | setStart flag | stopInLoop => cases hfault
      | startInLoop =>
          rcases bind_error_inv hfault with hstart | ⟨c, -, hrest⟩
          · cases (Connector.startInLoop_error hstart).1
          · cases hrest
      | shutdown =>
          rw [runAct] at hfault
          split at hfault <;> cases hfault
  | newConnection sockfd =>
      rcases bind_error_inv hfault with hnew | ⟨w, -, hrest⟩
      · obtain ⟨f, hf⟩ := TcpClient.newConnection_error hnew
        cases hf
      · cases hrest
  | test =>
      rw [runAct] at hfault
      split at hfault <;> cases hfault
  | restart => cases hfault

theorem Inv.fault (h : Inv s) {fault : ClientFault} (hexec : Exec s e (.error fault)) :
    fault ≠ .removeConnection := by
  generalize hr : (Except.error fault : Except ClientFault ClientCalls) = r at hexec
  cases hexec with
  | client hbusy he hexec =>
      rcases bind_error_inv hr.symm with hclient | ⟨w, -, hrest⟩
      · rintro rfl
        rw [hclient] at hexec
        rcases (h.idle hbusy).fault hexec with ⟨hconnector, -⟩ | ⟨-, f, hf⟩
        · cases hconnector
        · cases hf
      · cases hrest
  | handleWrite hbusy htodo =>
      have hstate := (h.idle hbusy).wiring.writing (by rw [htodo]; rfl)
      rcases bind_error_inv hr.symm with hwritten | ⟨⟨c, sockfd⟩, -, hrest⟩
      · obtain ⟨f, rfl⟩ := Connector.handleWrite_error (by rw [hstate]; decide) hwritten
        exact fun hf => by cases hf
      · cases hrest
  | closeCallback hbusy htodo =>
      obtain ⟨s₁, hs₁, -⟩ := h.removeConnection hbusy htodo
      cases hs₁.symm.trans hr.symm
  | act hbusy => exact runAct_error hr.symm
  | enableRetry | otherFunctor | callOwn | callForeign | foreign | enter | store | queue => cases hr

theorem runForeign_established (s : ClientCalls) (a : ClientAct) :
    (s.runForeign a).client.established = s.client.established := by
  cases a with
  | setConnect flag | setStart flag | startInLoop | stopInLoop => rfl
  | shutdown =>
      rw [runForeign]
      split
      · rfl
      · split <;> rfl

theorem runAct_established {a : LoopAct} {savedErrno : ConnectErrno}
    (hs' : s.runAct savedErrno a = .ok s') :
    s'.client.established = s.client.established ∨ ∃ sockfd, a = .newConnection sockfd := by
  cases a with
  | call b =>
      refine Or.inl ?_
      cases b with
      | setConnect flag | setStart flag | stopInLoop =>
          cases hs'
          rfl
      | startInLoop =>
          obtain ⟨c, -, hrest⟩ := bind_ok_inv hs'
          cases hrest
          rfl
      | shutdown =>
          rw [runAct] at hs'
          split at hs' <;> cases hs' <;> rfl
  | newConnection sockfd => exact Or.inr ⟨sockfd, rfl⟩
  | test =>
      rw [runAct] at hs'
      split at hs' <;> cases hs' <;> exact Or.inl rfl
  | restart =>
      cases hs'
      exact Or.inl rfl

/-- A connection is made where there is none. -/
theorem Inv.connection_of_established (h : Inv s) (hstep : Step s e s')
    (hnew : s'.client.established ≠ s.client.established) : s.client.connection = none := by
  rw [Step] at hstep
  generalize hr : (Except.ok s' : Except ClientFault ClientCalls) = r at hstep
  cases hstep with
  | client hbusy he hexec =>
      obtain ⟨w, hw, hrest⟩ := bind_ok_inv hr.symm
      cases hrest
      subst hw
      exact absurd (established_client (h.idle hbusy).wiring.empty he hexec) hnew
  | handleWrite hbusy htodo =>
      obtain ⟨⟨c, sockfd⟩, -, hrest⟩ := bind_ok_inv hr.symm
      cases hrest
      exact absurd rfl hnew
  | closeCallback hbusy htodo =>
      rw [ClientCalls.removeConnection] at hr
      split at hr
      · cases hr
        exact absurd rfl hnew
      · cases hr
  | act hbusy =>
      rcases runAct_established hr.symm with hsame | ⟨sockfd, rfl⟩
      · exact absurd hsame hnew
      · have hdoing := h.doing
        rw [hbusy] at hdoing
        cases hdoing with
        | calls hcalls =>
            obtain ⟨b, hb⟩ := hcalls _ List.mem_cons_self
            cases hb
        | passing hnone hphase hstate hwrite => exact hnone
  | foreign hcall =>
      cases hr
      exact absurd (runForeign_established _ _) hnew
  | enableRetry | otherFunctor | callOwn | callForeign | enter | store | queue =>
      cases hr
      exact absurd rfl hnew

/-- In a run in which no store comes too late a client has one connection at a time:
while it has one, the connector is in `kConnected` and all its sockets are closed or
passed on, no other connection is open, none is made, and the assertion in
`removeConnection` holds. -/
theorem one_connection {events : List Event} (hrun : Run TimelyStep new events s) :
    (∀ k, s.client.connection = some k → s.client.connector.state = .kConnected ∧
      (∀ n, s.client.connector.channel ≠ some ⟨n, true⟩) ∧
      ∀ n < s.client.connector.sockets,
        s.client.connector.closed.count n + s.client.passed.count n = 1) ∧
    (∀ k, s.client.Open k → s.client.connection = some k) ∧
    (∀ e s', Step s e s' → s'.client.established ≠ s.client.established →
      s.client.connection = none) ∧
    ∀ e r, Exec s e r → r ≠ .error .removeConnection := by
  have h := inv_of_run hrun
  refine ⟨?_, h.settled.holding.unique, fun e s' => h.connection_of_established, ?_⟩
  · intro k hk
    have hstate : s.client.connector.state = .kConnected := (h.settled.holding.connected k hk).1
    have hpassing : s.passing = [] := by
      have hdoing := h.doing
      rw [passing]
      generalize s.busy = acts at hdoing ⊢
      cases hdoing with
      | calls hcalls =>
          refine List.filterMap_eq_nil_iff.mpr ?_
          intro a ha
          obtain ⟨b, rfl⟩ := hcalls a ha
          rfl
      | passing hnone | testing hnone | restarting hnone => cases hnone.symm.trans hk
    refine ⟨hstate, ?_, ?_⟩
    · intro n hn
      cases hstate.symm.trans (h.settled.wiring.attempt.mpr ⟨n, hn⟩)
    · intro n hn
      have hplaces := h.settled.wiring.places n
      simpa [ClientCalls.settled, hpassing, Connector.places, hstate, hn] using hplaces
  · rintro e r hexec rfl
    exact h.fault hexec rfl

/-- No thread is in the middle of a call of the loop thread or of a connection. -/
def resting (w : TcpClient) (calls : List (List ClientAct)) : ClientCalls := ⟨w, [], calls, []⟩

/-- What a step does can be done by calls that are cut. -/
def Passes (w w' : TcpClient) : Prop :=
  ∀ calls, ∃ events calls', Run Step (resting w calls) events (resting w' calls')

section Whole

variable {w w' : TcpClient}

theorem adoptConnector_queueInLoop {c : Connector} (hempty : c.pendingFunctors = [])
    (f : ConnectorFunctor) : w.adoptConnector (c.queueInLoop f) =
      { w with connector := c, pendingFunctors := w.pendingFunctors ++ [.connector f] } := by
  obtain ⟨connectFlag, state, channel, pendingFunctors, sockets, closed⟩ := c
  subst hempty
  rfl

theorem passes_connect {own : Bool} {savedErrno : ConnectErrno}
    (hempty : w.connector.pendingFunctors = []) (hown : own = true → w.userCode = true)
    (hw' : w.connect own savedErrno = .ok w') : Passes w w' := by
  intro calls
  obtain ⟨c, hc, hrest⟩ := bind_ok_inv hw'
  cases hrest
  cases own with
  | true =>
      have hcall := run_then (.nil : Run Step (resting w calls) [] _) (.call true .connect)
        (.callOwn rfl (hown rfl)) rfl
      have hset := run_then hcall (.act .zero) (.act rfl) rfl
      have hstart := run_then hset (.act .zero) (.act rfl) rfl
      have hstarts := run_then hstart (.act savedErrno) (.act rfl) (by
        change (do
          let c ← w.connector.start true savedErrno
          return _) = _
        rw [hc]
        rfl)
      exact ⟨_, calls, hstarts⟩
  | false =>
      cases hc
      rw [adoptConnector_queueInLoop (by exact hempty)]
      have hcall := run_then (.nil : Run Step (resting w calls) [] _) (.call false .connect)
        .callForeign rfl
      have hset := run_then hcall (.foreign (.setConnect true) [.setStart true, .startInLoop])
        (.foreign (List.mem_append_right _ List.mem_cons_self)) rfl
      have hstart := run_then hset (.foreign (.setStart true) [.startInLoop])
        (.foreign (List.mem_append_right _ List.mem_cons_self)) rfl
      have hstarts := run_then hstart (.foreign .startInLoop [])
        (.foreign (List.mem_append_right _ List.mem_cons_self)) rfl
      exact ⟨_, _, hstarts⟩

theorem passes_disconnect (hown : w.userCode = true) : Passes w (w.disconnect true) := by
  intro calls
  have hcall := run_then (.nil : Run Step (resting w calls) [] _) (.call true .disconnect)
    (.callOwn rfl hown) rfl
  have hset := run_then hcall (.act .zero) (.act rfl) rfl
  have hshut : (resting { w with connectFlag := false } calls).runAct .zero (.call .shutdown) =
      .ok (resting (w.disconnect true) calls) := by
    rw [runAct, TcpClient.disconnect]
    change (match w.connection with
      | none => _
      | some k => _) = _
    cases hconnection : w.connection with
    | none => rfl
    | some k => rfl
  exact ⟨_, calls, run_then hset (.act .zero) (.act rfl) hshut⟩

theorem passes_stop (hempty : w.connector.pendingFunctors = []) : Passes w w.stop := by
  intro calls
  rw [TcpClient.stop, Connector.stop, adoptConnector_queueInLoop (by exact hempty)]
  have hcall := run_then (.nil : Run Step (resting w calls) [] _) (.call false .stop)
    .callForeign rfl
  have hset := run_then hcall (.foreign (.setConnect false) [.setStart false, .stopInLoop])
    (.foreign (List.mem_append_right _ List.mem_cons_self)) rfl
  have hstart := run_then hset (.foreign (.setStart false) [.stopInLoop])
    (.foreign (List.mem_append_right _ List.mem_cons_self)) rfl
  have hstops := run_then hstart (.foreign .stopInLoop [])
    (.foreign (List.mem_append_right _ List.mem_cons_self)) rfl
  exact ⟨_, _, hstops⟩

/-- `handleWrite` up to `newConnection`, and then `newConnection`. -/
theorem passes_handleWrite {x : TcpClient.Results} {rest : List ClientFrame}
    (htodo : w.todo = .connectorWrite :: rest)
    (hw' : { w with todo := rest }.runFrame x .connectorWrite = .ok w') : Passes w w' := by
  intro calls
  obtain ⟨⟨c, sockfd⟩, hc, hrest⟩ := bind_ok_inv hw'
  have hwritten : { resting w calls with client := { w with todo := rest } }.handleWrite x.err
      x.selfConnect = .ok
        { resting w calls with
          client := { w with todo := rest }.adoptConnector c
          busy := sockfd.toList.map .newConnection } := by
    change (do
      let (c, sockfd) ← w.connector.handleWrite x.err x.selfConnect
      return _) = _
    rw [hc]
    rfl
  have hwrite := run_then (.nil : Run Step (resting w calls) [] _)
    (.handleWrite x.err x.selfConnect) (.handleWrite rfl htodo) hwritten
  cases sockfd with
  | none =>
      cases hrest
      exact ⟨_, calls, hwrite⟩
  | some sockfd =>
      have hconnection :
          ({ w with todo := rest }.adoptConnector c).newConnection sockfd = .ok w' := hrest
      have hnew := run_then hwrite (.act .zero) (.act rfl) (by
        change (do
          let w ← ({ w with todo := rest }.adoptConnector c).newConnection sockfd
          return _) = _
        rw [hconnection]
        rfl)
      exact ⟨_, calls, hnew⟩

/-- The test of `removeConnection`, and the restart. -/
theorem tested_run {v : TcpClient} {savedErrno : ConnectErrno} (calls : List (List ClientAct))
    (hw' : (if v.retryFlag && v.connectFlag then do
        let c ← v.connector.restart savedErrno
        return v.adoptConnector c
      else .ok v) = .ok w') :
    ∃ events, Run Step ⟨v, [.test], calls, []⟩ events (resting w' calls) := by
  have htest : Exec ⟨v, [.test], calls, []⟩ (.act savedErrno)
      (if v.retryFlag && v.connectFlag then
        .ok ⟨v, [.restart, .call .startInLoop], calls, []⟩
      else .ok (resting v calls)) :=
    .act (s := ⟨v, [.test], calls, []⟩) (a := .test) rfl
  cases hflags : v.retryFlag && v.connectFlag with
  | false =>
      rw [if_neg (by simp [hflags])] at hw' htest
      cases hw'
      exact ⟨_, Run.nil.snoc htest⟩
  | true =>
      rw [if_pos hflags] at hw' htest
      obtain ⟨c, hc, hrest⟩ := bind_ok_inv hw'
      cases hrest
      have hstart : { v.connector with state := .kDisconnected, connectFlag := true }.startInLoop
          savedErrno = .ok c := hc
      have htested := run_then (.nil : Run Step ⟨v, [.test], calls, []⟩ [] _) (.act savedErrno)
        htest rfl
      have hrestarted := run_then htested (.act .zero) (.act rfl) rfl
      have hstarted := run_then hrestarted (.act savedErrno) (.act rfl) (by
        change (do
          let c ← { v.connector with state := .kDisconnected, connectFlag := true }.startInLoop
            savedErrno
          return _) = _
        rw [hstart]
        rfl)
      exact ⟨_, hstarted⟩

/-- `removeConnection` up to its test, and what follows. -/
theorem passes_closeCallback {savedErrno : ConnectErrno} {k : Nat} {rest : List ClientFrame}
    (htodo : w.todo = .connection k .closeCallback :: rest)
    (hw' : { w with todo := rest }.removeConnection k savedErrno = .ok w') : Passes w w' := by
  intro calls
  rw [TcpClient.removeConnection] at hw'
  by_cases hconnection : w.connection = some k
  · rw [if_pos hconnection] at hw'
    have hremoved := run_then (.nil : Run Step (resting w calls) [] _) .closeCallback
      (.closeCallback rfl htodo) (if_pos hconnection)
    obtain ⟨events, hrun⟩ := tested_run calls hw'
    exact ⟨_, calls, hremoved.append hrun⟩
  · rw [if_neg hconnection] at hw'
    cases hw'

/-- One step of a client whose calls are whole, other than a call of another thread that
looks at a connection. -/
theorem passes_of_step {e : TcpClient.Event} (hempty : w.connector.pendingFunctors = [])
    (hown : e.foreign = false) (hstep : TcpClient.Step w e w') : Passes w w' := by
  have hpasses (hwhole : w.Whole e) : Passes w w' := fun calls =>
    ⟨_, calls, run_then (.nil : Run Step (resting w calls) [] _) (.client e)
      (.client rfl hwhole hstep) rfl⟩
  rw [TcpClient.Step] at hstep
  generalize hr : (Except.ok w' : Except ClientFault TcpClient) = r at hstep
  cases hstep with
  | connect huser => exact passes_connect hempty huser hr.symm
  | @disconnect own huser =>
      cases own with
      | true =>
          cases hr
          exact passes_disconnect (huser rfl)
      | false => cases hown
  | stop =>
      cases hr
      exact passes_stop hempty
  | enableRetry =>
      cases hr
      exact fun calls => ⟨_, calls, Run.nil.snoc (.enableRetry (s := resting w calls))⟩
  | otherFunctor =>
      cases hr
      exact fun calls => ⟨_, calls, Run.nil.snoc (.otherFunctor (s := resting w calls))⟩
  | operate hk huser => exact hpasses hown
  | @frame x f rest htodo =>
      cases hf : f.whole with
      | true => exact hpasses (by rw [TcpClient.Whole, htodo]; exact hf)
      | false =>
          cases f with
          | connectorWrite => exact passes_handleWrite htodo hr.symm
          | connectorError => cases hf
          | connection k g =>
              cases g with
              | closeCallback => exact passes_closeCallback htodo hr.symm
              | _ => cases hf
  | poll | handleEvent | doPendingFunctors | functor | endBatch => exact hpasses trivial

/-- A run of a client whose calls are whole is one of the client whose calls are cut. -/
theorem run_whole {events : List TcpClient.Event} (hrun : Run TcpClient.Step .new events w)
    (hown : ∀ e ∈ events, e.foreign = false) :
    w.connector.pendingFunctors = [] ∧
      ∃ events' calls, Run Step new events' (resting w calls) := by
  induction hrun with
  | nil => exact ⟨rfl, [], [], .nil⟩
  | snoc hrun hstep ih =>
      obtain ⟨hempty, events', calls, hruns⟩ := ih fun e he => hown e (List.mem_append_left _ he)
      obtain ⟨events'', calls', hpasses⟩ :=
        passes_of_step hempty (hown _ (List.mem_append_right _ List.mem_cons_self)) hstep calls
      exact ⟨TcpClient.empty_of_step hempty hstep, _, calls', hruns.append hpasses⟩

end Whole

section Examples
open TcpClient

/-- The client has connected, and another thread is in `disconnect`. -/
theorem one_connection_connected : ∃ events s, Run TimelyStep new events s ∧
    s.client.connection = some 0 ∧ s.connCalls = [(0, .queue .shutdownInLoop)] ∧
    s.client.connector.state = .kConnected := by
  have hcall := guarded_then (.nil : Run TimelyStep new [] _) (.call true .connect) trivial
    (.callOwn rfl rfl) rfl
  have hset := guarded_then hcall (.act .zero) trivial (.act rfl) rfl
  have hstart := guarded_then hset (.act .zero) trivial (.act rfl) rfl
  have hconnect := guarded_then hstart (.act .EINPROGRESS) trivial (.act rfl) rfl
  have hpoll := guarded_then hconnect (.client (.poll [(.connector 0, pollout)])) trivial
    (.client rfl trivial (.poll rfl rfl (reports_connector rfl))) rfl
  have hhandle := guarded_then hpoll (.client .handleEvent) trivial
    (.client rfl trivial (.handleEvent rfl rfl rfl)) rfl
  have hwrite := guarded_then hhandle (.handleWrite false false) trivial (.handleWrite rfl rfl) rfl
  have hnew := guarded_then hwrite (.act .zero) trivial (.act rfl) rfl
  have hasked := guarded_then hnew (.call false .disconnect) trivial .callForeign rfl
  have hcleared := guarded_then hasked (.foreign (.setConnect false) [.shutdown]) trivial
    (.foreign List.mem_cons_self) rfl
  have hentered := guarded_then hcleared (.foreign .shutdown []) trivial
    (.foreign List.mem_cons_self) rfl
  have hstored := guarded_then hentered (.store 0 (some .shutdownInLoop)) (Or.inl rfl)
    (.store List.mem_cons_self) rfl
  exact ⟨_, _, hstored, rfl, rfl, ((one_connection hstored).1 0 rfl).1⟩

/-- The peer closes while another thread is in `forceClose`, which then brings the
connection back: it is closed again, though it is the client's no more. -/
theorem closed_twice : ∃ events s, Run Step new events s ∧ s.client.established = 1 ∧
    s.client.connection = none ∧ Exec s .closeCallback (.error .removeConnection) := by
  have hcall := run_then (.nil : Run Step new [] _) (.call true .connect) (.callOwn rfl rfl) rfl
  have hset := run_then hcall (.act .zero) (.act rfl) rfl
  have hstart := run_then hset (.act .zero) (.act rfl) rfl
  have hconnect := run_then hstart (.act .EINPROGRESS) (.act rfl) rfl
  have hpoll := run_then hconnect (.client (.poll [(.connector 0, pollout)]))
    (.client rfl trivial (.poll rfl rfl (reports_connector rfl))) rfl
  have hhandle := run_then hpoll (.client .handleEvent)
    (.client rfl trivial (.handleEvent rfl rfl rfl)) rfl
  have hwrite := run_then hhandle (.handleWrite false false) (.handleWrite rfl rfl) rfl
  have hnew := run_then hwrite (.act .zero) (.act rfl) rfl
  have hcalled := run_then hnew (.client (.frame fine))
    (.client rfl rfl (.frame rfl)) rfl
  have hswap := run_then hcalled (.client .doPendingFunctors)
    (.client rfl trivial (.doPendingFunctors rfl rfl rfl)) rfl
  have hreset := run_then hswap (.client (.functor fine))
    (.client rfl trivial (.functor rfl rfl rfl)) rfl
  have hend := run_then hreset (.client .endBatch) (.client rfl trivial (.endBatch rfl rfl rfl)) rfl
  have hentered := run_then hend (.enter 0 .forceClose) (.enter (by decide) rfl) rfl
  have hpoll' := run_then hentered (.client (.poll [(.connection 0, pollhup)]))
    (.client rfl trivial (.poll rfl rfl (reports_connection (by decide)))) rfl
  have hhandle' := run_then hpoll' (.client .handleEvent)
    (.client rfl trivial (.handleEvent rfl rfl rfl)) rfl
  have hclosed := run_then hhandle' (.client (.frame fine))
    (.client rfl rfl (.frame rfl)) rfl
  have htold := run_then hclosed (.client (.frame fine))
    (.client rfl rfl (.frame rfl)) rfl
  have hremoved := run_then htold .closeCallback (.closeCallback rfl rfl) rfl
  have htested := run_then hremoved (.act .zero) (.act rfl) rfl
  have hstored := run_then htested (.store 0 (some .forceCloseInLoop))
    (.store List.mem_cons_self) rfl
  have hqueued := run_then hstored (.queue 0 .forceCloseInLoop) (.queue List.mem_cons_self) rfl
  have hswap' := run_then hqueued (.client .doPendingFunctors)
    (.client rfl trivial (.doPendingFunctors rfl rfl rfl)) rfl
  have hdestroyed := run_then hswap' (.client (.functor fine))
    (.client rfl trivial (.functor rfl rfl rfl)) rfl
  have hagain := run_then hdestroyed (.client (.functor fine))
    (.client rfl trivial (.functor rfl rfl rfl)) rfl
  have htold' := run_then hagain (.client (.frame fine))
    (.client rfl rfl (.frame rfl)) rfl
  exact ⟨_, _, htold', rfl, rfl, .closeCallback rfl rfl⟩

end Examples

end ClientCalls
end ProtoRpc
