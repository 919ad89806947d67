import ProtoRpc.Network.ClientSteps

/-!
Runs of a living `TcpClient`: which calls can make an assertion of the connector
fail, what becomes of every socket, and which steps can further an attempt.
-/
namespace ProtoRpc.TcpClient
open Transition

variable {w w' : TcpClient} {k : Nat} {e : Event} {ls : List Event}

def Event.isConnect : Event → Bool
  | .connect _ _ => true
  | _ => false

/-- A `connect`, or the `startInLoop` that one of another thread has queued, finds
the connector idle, and where the attempt will be in progress no channel that has yet
to be reset. -/
def StartsIdle (w : TcpClient) : Event → Prop
  | .connect true savedErrno =>
      w.connector.state = .kDisconnected ∧
        (savedErrno.inProgress = true → w.connector.channel = none)
  | .functor x =>
      w.functors.head? = some (.connector .startInLoop) →
        w.connector.state = .kDisconnected ∧
          (w.connector.connectFlag = true → x.savedErrno.inProgress = true →
            w.connector.channel = none)
  | _ => True

theorem handleClose_error {fault : ClientFault} (h : w.handleClose k = .error fault) :
    ∃ f, fault = .other f := by
  rcases bind_error_inv h with hclose | ⟨c, -, hrest⟩
  · exact mapError_error_inv hclose
  · cases hrest

theorem handleRead_error {fault : ClientFault} {r : Buffer.ReadResult}
    (h : w.handleRead k r = .error fault) : ∃ f, fault = .other f := by
  rcases bind_error_inv h with hread | ⟨⟨n, input⟩, -, hrest⟩
  · exact mapError_error_inv hread
  · dsimp only at hrest
    split at hrest
    · cases hrest
    · split at hrest
      · exact handleClose_error hrest
      · cases hrest

theorem newConnection_error {fault : ClientFault} {sockfd : Nat}
    (h : w.newConnection sockfd = .error fault) : ∃ f, fault = .other f := by
  rcases bind_error_inv h with hestablished | ⟨c, -, hrest⟩
  · exact mapError_error_inv hestablished
  · cases hrest

/-- The automatic restart finds the channel reset. -/
theorem Inv.removeConnection_ok (h : Inv w) {rest : List ClientFrame} (savedErrno : ConnectErrno)
    (htodo : w.todo = .connection k .closeCallback :: rest) :
    ∃ w', { w with todo := rest }.removeConnection k savedErrno = .ok w' := by
  obtain ⟨hconnection, hchannel, -, -, -⟩ := h.removable htodo
  rw [TcpClient.removeConnection, if_pos hconnection]
  dsimp only
  split
  · cases hrestart : w.connector.restart savedErrno with
    | ok c => exact ⟨_, rfl⟩
    | error fault => exact absurd ⟨rfl, fun _ _ => hchannel⟩ (Connector.startInLoop_error hrestart).2
  · exact ⟨_, rfl⟩

theorem Inv.runFrame_error (h : Inv w) {f : ClientFrame} {rest : List ClientFrame} {x : Results}
    {fault : ClientFault} (htodo : w.todo = f :: rest)
    (hfault : { w with todo := rest }.runFrame x f = .error fault) : ∃ f, fault = .other f := by
  cases f with
  | connectorWrite =>
      have hstate : w.connector.state = .kConnecting := h.wiring.writing (by rw [htodo]; rfl)
      rcases bind_error_inv hfault with hwritten | ⟨⟨c, passed⟩, -, hrest⟩
      · exact Connector.handleWrite_error (by rw [hstate]; decide) hwritten
      · cases passed with
        | none => cases hrest
        | some sockfd => exact newConnection_error hrest
  | connectorError =>
      rcases bind_error_inv hfault with herror | ⟨c, -, hrest⟩
      · exact Connector.handleError_error herror
      · cases hrest
  | connection k g =>
      cases g with
      | close => exact handleClose_error hfault
      | read => exact handleRead_error hfault
      | write =>
          rcases bind_error_inv hfault with hwritten | ⟨c, -, hrest⟩
          · exact mapError_error_inv hwritten
          · cases hrest
      | closeCallback =>
          obtain ⟨w', hw'⟩ := h.removeConnection_ok x.savedErrno htodo
          cases hw'.symm.trans hfault
      | error | connectionCallback | messageCallback | remove => cases hfault

theorem runFunctor_error {f : ClientFunctor} {x : Results} {fault : ClientFault}
    (hf : f ≠ .connector .startInLoop) (hfault : w.runFunctor x f = .error fault) :
    ∃ f, fault = .other f := by
  cases f with
  | connector g =>
      rcases bind_error_inv hfault with hrun | ⟨c, -, hrest⟩
      · cases g with
        | startInLoop => exact absurd rfl hf
        | stopInLoop => exact Connector.stopInLoop_error hrun
        | resetChannel fd => cases hrun
      · cases hrest
  | own k g =>
      cases g with
      | forceCloseInLoop =>
          rw [runFunctor] at hfault
          split at hfault
          · exact handleClose_error hfault
          · cases hfault
      | sendInLoop message =>
          rcases bind_error_inv hfault with hsend | ⟨c, -, hrest⟩
          · exact mapError_error_inv hsend
          · cases hrest
      | shutdownInLoop => cases hfault
  | connectDestroyed k => cases hfault
  | other => cases hfault

/-- Why a step can fail: an attempt is begun that may not be, or the fault is none of
the connector's and of the client's. -/
theorem Inv.fault (h : Inv w) {fault : ClientFault} (hexec : Exec w e (.error fault)) :
    (fault.ofConnector = true ∧ ¬ w.StartsIdle e) ∨
      (w.StartsIdle e ∧ ∃ f, fault = .other f) := by
  generalize hr : (Except.error fault : Except ClientFault TcpClient) = r at hexec
  cases hexec with
  | @connect own savedErrno hown =>
      rcases bind_error_inv hr.symm with hstart | ⟨c, -, hrest⟩
      · cases own with
        | true =>
            obtain ⟨hconnector, hunsafe⟩ := Connector.startInLoop_error hstart
            refine Or.inl ⟨hconnector, fun hidle => hunsafe ⟨hidle.1, fun _ => hidle.2⟩⟩
        | false => cases hstart
      · cases hrest
  | operate hk hown =>
      rcases bind_error_inv hr.symm with hrun | ⟨c, -, hrest⟩
      · exact Or.inr ⟨trivial, mapError_error_inv hrun⟩
      · cases hrest
  | @functor x f rest hphase htodo hfunctors =>
      by_cases hf : f = .connector .startInLoop
      · subst hf
        rcases bind_error_inv hr.symm with hstart | ⟨c, -, hrest⟩
        · obtain ⟨hconnector, hunsafe⟩ := Connector.startInLoop_error hstart
          refine Or.inl ⟨hconnector, fun hidle => hunsafe (hidle ?_)⟩
          rw [hfunctors]
          rfl
        · cases hrest
      · refine Or.inr ⟨fun hhead => ?_, runFunctor_error hf hr.symm⟩
        rw [hfunctors] at hhead
        exact absurd (Option.some.inj hhead) hf
  | frame htodo => exact Or.inr ⟨trivial, h.runFrame_error htodo hr.symm⟩
  | _ => cases hr

/-- Where a step has a result, it began no attempt that it may not begin. -/
theorem StartsIdle.of_step (hstep : Step w e w') : w.StartsIdle e := by
  rw [Step] at hstep
  generalize hr : (Except.ok w' : Except ClientFault TcpClient) = r at hstep
  cases hstep with
  | @connect own savedErrno hown =>
      cases own with
      | true =>
          obtain ⟨c, hstart, -⟩ := bind_ok_inv hr.symm
          obtain ⟨hstate, hchannel⟩ := Connector.startInLoop_safe hstart
          exact ⟨hstate, hchannel rfl⟩
      | false => trivial
  | functor hphase htodo hfunctors =>
      intro hhead
      rw [hfunctors] at hhead
      cases hhead
      obtain ⟨c, hstart, -⟩ := bind_ok_inv hr.symm
      exact Connector.startInLoop_safe hstart
  | _ => trivial

/-- What the connector relies on in a step: its assertions, and that a queued
`resetChannel` destroys the channel that it was queued for. -/
structure ConnectorSound (w : TcpClient) (e : Event) (r : Except ClientFault TcpClient) :
    Prop where
  asserts : ∀ fault, r = .error fault → fault.ofConnector = false
  resets : ∀ x fd rest, e = .functor x →
    w.functors = .connector (.resetChannel fd) :: rest → w.connector.channel = some ⟨fd, false⟩

/-- Only a `connect` that comes at the wrong time can make an assertion of the
connector fail. -/
theorem connectorSound_iff (hrun : Run Step new ls w) {r : Except ClientFault TcpClient}
    (hexec : Exec w e r) : ConnectorSound w e r ↔ w.StartsIdle e := by
  have h := inv_run hrun
  constructor
  · intro hsound
    cases r with
    | ok w' => exact StartsIdle.of_step hexec
    | error fault =>
        rcases h.fault hexec with ⟨hconnector, -⟩ | ⟨hidle, -⟩
        · rw [hsound.asserts fault rfl] at hconnector
          cases hconnector
        · exact hidle
  · intro hidle
    refine ⟨?_, ?_⟩
    · rintro fault rfl
      rcases h.fault hexec with ⟨-, hunsafe⟩ | ⟨-, f, rfl⟩
      · exact absurd hidle hunsafe
      · rfl
    · intro x fd rest _ hfunctors
      exact (h.wiring.channel_of_reset hfunctors).1

section Examples

/-- Every call of the kernel succeeds, and the peer has closed. -/
def fine : Results := ⟨.zero, false, false, .data [], .wrote 0⟩

def pollout : Revents := ⟨false, false, true, false, false, false, false⟩

def pollhup : Revents := ⟨false, false, false, false, true, false, false⟩

theorem reports_connector {fd : Nat} (hchannel : w.connector.channel = some ⟨fd, true⟩) :
    w.Reports [(.connector fd, pollout)] where
  once := by simp
  connector := by
    intro fd r hmem
    cases List.mem_singleton.mp hmem
    refine ⟨hchannel, ?_, fun _ => rfl, rfl, rfl, rfl⟩
    intro hin
    cases hin
  connection := by
    intro k r hmem
    cases List.mem_singleton.mp hmem

theorem reports_connection (hk : 0 < w.established) : w.Reports [(.connection 0, pollhup)] where
  once := by simp
  connector := by
    intro fd r hmem
    cases List.mem_singleton.mp hmem
  connection := by
    intro k r hmem
    cases List.mem_singleton.mp hmem
    exact hk

/-- As the client under `examples` does: the connection is closed by its peer, and the
callback that hears of it calls `connect`. -/
theorem reconnect_run : ∃ ls w, Run Step new ls w ∧
    w.todo = [.connection 0 .connectionCallback, .connection 0 .closeCallback] ∧
    w.connector.state = .kConnected ∧
    Exec w (.connect true .EINPROGRESS) (.error .startInLoop) := by
  have hconnect := run_then (.nil : Run Step new [] _) (.connect true .EINPROGRESS)
    (.connect fun _ => rfl) rfl
  have hpoll := run_then hconnect (.poll [(.connector 0, pollout)])
    (.poll rfl rfl (reports_connector rfl)) rfl
  have hhandle := run_then hpoll .handleEvent (.handleEvent rfl rfl rfl) rfl
  have hwrite := run_then hhandle (.frame fine) (.frame rfl) rfl
  have hcalled := run_then hwrite (.frame fine) (.frame rfl) rfl
  have hswap := run_then hcalled .doPendingFunctors (.doPendingFunctors rfl rfl rfl) rfl
  have hreset := run_then hswap (.functor fine) (.functor rfl rfl rfl) rfl
  have hend := run_then hreset .endBatch (.endBatch rfl rfl rfl) rfl
  have hpoll' := run_then hend (.poll [(.connection 0, pollhup)])
    (.poll rfl rfl (reports_connection (by decide))) rfl
  have hhandle' := run_then hpoll' .handleEvent (.handleEvent rfl rfl rfl) rfl
  have hclose := run_then hhandle' (.frame fine) (.frame rfl) rfl
  exact ⟨_, _, hclose, rfl, rfl, .connect fun _ => rfl⟩

theorem connectorSound_fails_on_reconnect : ∃ ls w r, Run Step new ls w ∧
    Exec w (.connect true .EINPROGRESS) r ∧
    w.todo = [.connection 0 .connectionCallback, .connection 0 .closeCallback] ∧
    ¬ ConnectorSound w (.connect true .EINPROGRESS) r := by
  obtain ⟨ls, w, hrun, htodo, -, hexec⟩ := reconnect_run
  refine ⟨ls, w, _, hrun, hexec, htodo, ?_⟩
  intro hsound
  cases hsound.asserts _ rfl

/-- The first attempt fails. Once its channel has been reset the client may try again. -/
theorem connectorSound_again : ∃ ls w, Run Step new ls w ∧ w.connector.closed = [0] ∧
    w.StartsIdle (.connect true .EINPROGRESS) ∧
    ConnectorSound w (.connect true .EINPROGRESS) (w.connect true .EINPROGRESS) := by
  have hconnect := run_then (.nil : Run Step new [] _) (.connect true .EINPROGRESS)
    (.connect fun _ => rfl) rfl
  have hpoll := run_then hconnect (.poll [(.connector 0, pollout)])
    (.poll rfl rfl (reports_connector rfl)) rfl
  have hhandle := run_then hpoll .handleEvent (.handleEvent rfl rfl rfl) rfl
  have hfails := run_then hhandle (.frame { fine with err := true }) (.frame rfl) rfl
  have hswap := run_then hfails .doPendingFunctors (.doPendingFunctors rfl rfl rfl) rfl
  have hreset := run_then hswap (.functor fine) (.functor rfl rfl rfl) rfl
  exact ⟨_, _, hreset, rfl, ⟨rfl, fun _ => rfl⟩,
    (connectorSound_iff hreset (.connect fun _ => rfl)).mpr ⟨rfl, fun _ => rfl⟩⟩

end Examples

/-- Every socket that `connect` has created is watched in `kConnecting`, or closed once,
or passed on once. -/
theorem socket_fate (hrun : Run Step new ls w) {n : Nat} (hn : n < w.connector.sockets) :
    (if w.connector.state = .kConnecting ∧ w.connector.channel = some ⟨n, true⟩ then 1 else 0) +
      w.connector.closed.count n + w.passed.count n = 1 := by
  have hplaces := (inv_run hrun).wiring.places n
  rw [if_pos hn] at hplaces
  exact hplaces

/-- A client connects. -/
theorem connected_run : ∃ ls w, Run Step new ls w ∧ w.connection = some 0 ∧
    w.connector.sockets = 1 := by
  have hconnect := run_then (.nil : Run Step new [] _) (.connect true .EINPROGRESS)
    (.connect fun _ => rfl) rfl
  have hpoll := run_then hconnect (.poll [(.connector 0, pollout)])
    (.poll rfl rfl (reports_connector rfl)) rfl
  have hhandle := run_then hpoll .handleEvent (.handleEvent rfl rfl rfl) rfl
  have hwrite := run_then hhandle (.frame fine) (.frame rfl) rfl
  exact ⟨_, _, hwrite, rfl, rfl⟩

theorem socket_fate_connected : ∃ ls w, Run Step new ls w ∧ 0 < w.connector.sockets ∧
    (if w.connector.state = .kConnecting ∧ w.connector.channel = some ⟨0, true⟩ then 1 else 0) +
      w.connector.closed.count 0 + w.passed.count 0 = 1 := by
  obtain ⟨ls, w, hrun, -, hsockets⟩ := connected_run
  have hpos : 0 < w.connector.sockets := by rw [hsockets]; exact Nat.one_pos
  exact ⟨ls, w, hrun, hpos, socket_fate hrun hpos⟩

/-- The calls that are made of the connection callback for a connection that is up. -/
def ups (w : TcpClient) : List (Nat × Bool) := w.notices.filter Prod.snd

/-- No attempt is furthered: no connection is made, neither flag is set, and the
connector neither begins to connect nor is told to. -/
structure Calm (w w' : TcpClient) : Prop where
  established : w'.established = w.established
  ups : w'.ups = w.ups
  client : w'.connectFlag = true → w.connectFlag = true
  connector : w'.connector.connectFlag = true → w.connector.connectFlag = true
  state : w'.connector.connectFlag = true → w'.connector.state = .kConnecting →
    w.connector.state = .kConnecting
  queue : .connector .startInLoop ∈ w'.queue → .connector .startInLoop ∈ w.queue

theorem Calm.refl (w : TcpClient) : Calm w w := ⟨rfl, rfl, id, id, fun _ => id, id⟩

theorem Calm.trans {w'' : TcpClient} (h : Calm w w') (h' : Calm w' w'') : Calm w w'' where
  established := h'.established.trans h.established
  ups := h'.ups.trans h.ups
  client := h.client ∘ h'.client
  connector := h.connector ∘ h'.connector
  state := fun hflag hstate => h.state (h'.connector hflag) (h'.state hflag hstate)
  queue := h.queue ∘ h'.queue

theorem mem_queue_append {f : ClientFunctor} {fs : List ClientFunctor}
    (hmem : f ∈ w.functors ++ (w.pendingFunctors ++ fs)) : f ∈ w.queue ∨ f ∈ fs := by
  rw [← List.append_assoc] at hmem
  exact List.mem_append.mp hmem

theorem calm_adopt (w : TcpClient) (k : Nat) (c : TcpConnection) : Calm w (w.adopt k c) where
  established := rfl
  ups := rfl
  client := id
  connector := id
  state := fun _ => id
  queue := by
    intro hmem
    cases mem_queue_append (w := w) hmem with
    | inl hold => exact hold
    | inr hnew =>
        obtain ⟨f, -, hf⟩ := List.mem_map.mp hnew
        cases hf

theorem calm_handleClose (h : w.handleClose k = .ok w') : Calm w w' := by
  obtain ⟨c, hclose, hrest⟩ := bind_ok_inv h
  obtain ⟨-, hc⟩ := TcpConnection.handleClose_inv (mapError_ok_inv hclose)
  cases hrest
  refine { Calm.refl w with ups := ?_ }
  simp [TcpClient.ups, notify, hc]

theorem calm_handleRead {r : Buffer.ReadResult} (h : w.handleRead k r = .ok w') : Calm w w' := by
  obtain ⟨⟨n, input⟩, -, hrest⟩ := bind_ok_inv h
  dsimp only at hrest
  split at hrest
  · cases hrest
    exact { Calm.refl w with }
  · split at hrest
    · exact { calm_handleClose hrest with }
    · cases hrest
      exact { Calm.refl w with }

theorem calm_connectDestroyed (w : TcpClient) (k : Nat) : Calm w (w.connectDestroyed k) := by
  rw [connectDestroyed]
  split
  · refine { Calm.refl w with ups := ?_ }
    simp [TcpClient.ups, notify]
  · exact Calm.refl w

/-- What the connector does but for beginning an attempt. -/
theorem calm_adoptConnector {c : Connector} {passed : Option Nat}
    (hempty : w.connector.pendingFunctors = []) (hattempt : w.connector.Attempt c passed)
    (hstate : c.connectFlag = true → c.state ≠ .kConnecting) : Calm w (w.adoptConnector c) where
  established := rfl
  ups := rfl
  client := id
  connector := by
    intro hflag
    cases hattempt <;> exact hflag
  state := fun hflag hconnecting => absurd hconnecting (hstate hflag)
  queue := by
    intro hmem
    cases mem_queue_append (w := w) hmem with
    | inl hold => exact hold
    | inr hnew =>
        obtain ⟨f, hf, hstart⟩ := List.mem_map.mp hnew
        cases hstart
        cases hattempt <;> simp [hempty] at hf

theorem calm_removeConnection (hrestart : (w.retryFlag && w.connectFlag) = false)
    {savedErrno : ConnectErrno} (h : w.removeConnection k savedErrno = .ok w') : Calm w w' := by
  rw [removeConnection] at h
  split at h
  · dsimp only at h
    rw [hrestart] at h
    cases h
    refine { Calm.refl w with queue := ?_ }
    intro hmem
    simpa [TcpClient.queue] using hmem
  · cases h

/-- The steps that can further an attempt. -/
inductive Begins (w : TcpClient) : Event → Prop where
  | connect {own : Bool} {savedErrno : ConnectErrno} : Begins w (.connect own savedErrno)
  | start {x : Results} (hhead : .connector .startInLoop ∈ w.queue)
      (hflag : w.connector.connectFlag = true) : Begins w (.functor x)
  | write {x : Results} (hhead : w.todo.head? = some .connectorWrite)
      (hflag : w.connector.connectFlag = true) : Begins w (.frame x)
  | restart {x : Results} {k : Nat} (hhead : w.todo.head? = some (.connection k .closeCallback))
      (hflag : w.connectFlag = true) : Begins w (.frame x)

theorem calm_runFrame (hempty : w.connector.pendingFunctors = []) {f : ClientFrame}
    {rest : List ClientFrame} {x : Results} (htodo : w.todo = f :: rest)
    (hw' : { w with todo := rest }.runFrame x f = .ok w') : Calm w w' ∨ Begins w (.frame x) := by
  have hpop : Calm w { w with todo := rest } := { Calm.refl w with }
  cases f with
  | connectorWrite =>
      have hhead : w.todo.head? = some .connectorWrite := by rw [htodo]; rfl
      cases hflag : w.connector.connectFlag with
      | true => exact Or.inr (.write hhead hflag)
      | false =>
          obtain ⟨⟨c, passed⟩, hwritten, hrest⟩ := bind_ok_inv hw'
          have hattempt := Connector.handleWrite_inv hwritten
          have hstop : c.connectFlag = false := by
            rw [← hflag]
            cases hattempt <;> rfl
          cases passed with
          | none =>
              cases hrest
              refine Or.inl (hpop.trans (calm_adoptConnector hempty hattempt ?_))
              intro hgo
              cases hstop.symm.trans hgo
          | some sockfd =>
              cases hattempt with
              | passed hstate hchannel hgo => cases hflag.symm.trans hgo
  | connectorError =>
      obtain ⟨c, herror, hrest⟩ := bind_ok_inv hw'
      cases hrest
      exact Or.inl (hpop.trans (calm_adoptConnector hempty
        (Connector.handleError_inv herror) fun _ => Connector.handleError_state herror))
  | connection k g =>
      cases g with
      | close => exact Or.inl (hpop.trans (calm_handleClose hw'))
      | read => exact Or.inl (hpop.trans (calm_handleRead hw'))
      | write =>
          obtain ⟨c, -, hrest⟩ := bind_ok_inv hw'
          cases hrest
          exact Or.inl (hpop.trans (calm_adopt _ k c))
      | closeCallback =>
          have hhead : w.todo.head? = some (.connection k .closeCallback) := by rw [htodo]; rfl
          cases hflag : w.connectFlag with
          | true => exact Or.inr (.restart hhead hflag)
          | false =>
              have hrestart : (w.retryFlag && w.connectFlag) = false := by
                rw [hflag, Bool.and_false]
              exact Or.inl (hpop.trans (calm_removeConnection hrestart hw'))
      | error | connectionCallback | messageCallback | remove =>
          cases hw'
          exact Or.inl hpop

theorem calm_runFunctor (hempty : w.connector.pendingFunctors = []) {f : ClientFunctor}
    {rest : List ClientFunctor} {x : Results} (hfunctors : w.functors = f :: rest)
    (hw' : { w with functors := rest }.runFunctor x f = .ok w') :
    Calm w w' ∨ Begins w (.functor x) := by
  have hqueue : w.queue = f :: (rest ++ w.pendingFunctors) := by rw [queue, hfunctors]; rfl
  have hpop : Calm w { w with functors := rest } :=
    { Calm.refl w with
      queue := by
        intro hmem
        rw [hqueue]
        exact List.mem_cons_of_mem _ hmem }
  cases f with
  | connector g =>
      obtain ⟨c, hrun, hrest⟩ := bind_ok_inv hw'
      cases hrest
      cases g with
      | startInLoop =>
          cases hflag : w.connector.connectFlag with
          | true => exact Or.inr (.start (hqueue ▸ List.mem_cons_self) hflag)
          | false =>
              have hattempt := Connector.startInLoop_inv hrun
              refine Or.inl (hpop.trans (calm_adoptConnector hempty hattempt ?_))
              intro hgo
              have hstop : c.connectFlag = false := by
                rw [← hflag]
                cases hattempt <;> rfl
              cases hstop.symm.trans hgo
      | stopInLoop =>
          exact Or.inl (hpop.trans (calm_adoptConnector hempty
            (Connector.stopInLoop_inv hrun) fun _ => Connector.stopInLoop_state hrun))
      | resetChannel fd =>
          cases hrun
          refine Or.inl (hpop.trans { Calm.refl _ with queue := ?_ })
          intro hmem
          simpa [TcpClient.queue, TcpClient.adoptConnector, Connector.resetChannel,
            hempty] using hmem
  | own k g =>
      cases g with
      | forceCloseInLoop =>
          rw [TcpClient.runFunctor] at hw'
          split at hw'
          · exact Or.inl (hpop.trans (calm_handleClose hw'))
          · cases hw'
            exact Or.inl hpop
      | sendInLoop message =>
          obtain ⟨c, -, hrest⟩ := bind_ok_inv hw'
          cases hrest
          exact Or.inl (hpop.trans (calm_adopt _ k c))
      | shutdownInLoop =>
          cases hw'
          exact Or.inl (hpop.trans (calm_adopt _ k _))
  | connectDestroyed k =>
      cases hw'
      exact Or.inl (hpop.trans (calm_connectDestroyed _ k))
  | other =>
      cases hw'
      exact Or.inl hpop

theorem calm_disconnect (w : TcpClient) (own : Bool) : Calm w (w.disconnect own) := by
  have hflag : Calm w { w with connectFlag := false } :=
    { Calm.refl w with client := fun hgo => by cases hgo }
  rw [disconnect]
  dsimp only
  split
  · exact hflag
  · exact hflag.trans (calm_adopt _ _ _)

theorem calm_stop (hempty : w.connector.pendingFunctors = []) : Calm w w.stop where
  established := rfl
  ups := rfl
  client := fun hgo => by cases hgo
  connector := fun hgo => by cases hgo
  state := fun hgo => by cases hgo
  queue := by
    intro hmem
    simpa [TcpClient.queue, TcpClient.stop, Connector.stop, TcpClient.adoptConnector,
      Connector.queueInLoop, hempty] using hmem

theorem calm_of_step (hempty : w.connector.pendingFunctors = []) (hstep : Step w e w') :
    Calm w w' ∨ Begins w e := by
  rw [Step] at hstep
  generalize hr : (Except.ok w' : Except ClientFault TcpClient) = r at hstep
  cases hstep with
  | connect hown => exact Or.inr .connect
  | disconnect hown =>
      cases hr
      exact Or.inl (calm_disconnect w _)
  | stop =>
      cases hr
      exact Or.inl (calm_stop hempty)
  | operate hk hown =>
      obtain ⟨c, -, hrest⟩ := bind_ok_inv hr.symm
      cases hrest
      exact Or.inl (calm_adopt w _ c)
  | doPendingFunctors hphase htodo hremaining =>
      cases hr
      refine Or.inl { Calm.refl w with queue := ?_ }
      intro hmem
      rw [queue, List.append_nil] at hmem
      exact List.mem_append_right _ hmem
  | functor hphase htodo hfunctors => exact calm_runFunctor hempty hfunctors hr.symm
  | frame htodo => exact calm_runFrame hempty htodo hr.symm
  | otherFunctor =>
      cases hr
      refine Or.inl { Calm.refl w with queue := ?_ }
      intro hmem
      simpa [TcpClient.queue] using hmem
  | enableRetry | poll | handleEvent | endBatch =>
      cases hr
      exact Or.inl { Calm.refl w with }

theorem handleClose_connector (h : w.handleClose k = .ok w') : w'.connector = w.connector := by
  obtain ⟨c, -, hrest⟩ := bind_ok_inv h
  cases hrest
  rfl

theorem handleRead_connector {r : Buffer.ReadResult} (h : w.handleRead k r = .ok w') :
    w'.connector = w.connector := by
  obtain ⟨⟨n, input⟩, -, hrest⟩ := bind_ok_inv h
  dsimp only at hrest
  split at hrest
  · cases hrest
    rfl
  · split at hrest
    · have hclosed := handleClose_connector hrest
      exact hclosed
    · cases hrest
      rfl

theorem removeConnection_empty (hempty : w.connector.pendingFunctors = [])
    {savedErrno : ConnectErrno} (h : w.removeConnection k savedErrno = .ok w') :
    w'.connector.pendingFunctors = [] := by
  rw [removeConnection] at h
  split at h
  · dsimp only at h
    split at h
    · obtain ⟨c, -, hrest⟩ := bind_ok_inv h
      cases hrest
      rfl
    · cases h
      exact hempty
  · cases h

theorem runFrame_empty (hempty : w.connector.pendingFunctors = []) {f : ClientFrame} {x : Results}
    (h : w.runFrame x f = .ok w') : w'.connector.pendingFunctors = [] := by
  cases f with
  | connectorWrite =>
      obtain ⟨⟨c, passed⟩, -, hrest⟩ := bind_ok_inv h
      cases passed with
      | none =>
          cases hrest
          rfl
      | some sockfd =>
          obtain ⟨d, -, hnew⟩ := bind_ok_inv hrest
          cases hnew
          rfl
  | connectorError =>
      obtain ⟨c, -, hrest⟩ := bind_ok_inv h
      cases hrest
      rfl
  | connection k g =>
      cases g with
      | close => exact (congrArg Connector.pendingFunctors (handleClose_connector h)).trans hempty
      | read => exact (congrArg Connector.pendingFunctors (handleRead_connector h)).trans hempty
      | write =>
          obtain ⟨c, -, hrest⟩ := bind_ok_inv h
          cases hrest
          exact hempty
      | closeCallback => exact removeConnection_empty hempty h
      | error | connectionCallback | messageCallback | remove =>
          cases h
          exact hempty

theorem runFunctor_empty (hempty : w.connector.pendingFunctors = []) {f : ClientFunctor}
    {x : Results} (h : w.runFunctor x f = .ok w') : w'.connector.pendingFunctors = [] := by
  cases f with
  | connector g =>
      obtain ⟨c, -, hrest⟩ := bind_ok_inv h
      cases hrest
      rfl
  | own k g =>
      cases g with
      | forceCloseInLoop =>
          rw [runFunctor] at h
          split at h
          · exact (congrArg Connector.pendingFunctors (handleClose_connector h)).trans hempty
          · cases h
            exact hempty
      | sendInLoop message =>
          obtain ⟨c, -, hrest⟩ := bind_ok_inv h
          cases hrest
          exact hempty
      | shutdownInLoop =>
          cases h
          exact hempty
  | connectDestroyed k =>
      cases h
      rw [connectDestroyed]
      split <;> exact hempty
  | other =>
      cases h
      exact hempty

/-- The loop has collected what the connector queues. -/
theorem empty_of_step (hempty : w.connector.pendingFunctors = []) (hstep : Step w e w') :
    w'.connector.pendingFunctors = [] := by
  rw [Step] at hstep
  generalize hr : (Except.ok w' : Except ClientFault TcpClient) = r at hstep
  cases hstep with
  | connect hown =>
      obtain ⟨c, -, hrest⟩ := bind_ok_inv hr.symm
      cases hrest
      rfl
  | disconnect hown =>
      cases hr
      rw [disconnect]
      dsimp only
      split <;> exact hempty
  | stop =>
      cases hr
      rfl
  | operate hk hown =>
      obtain ⟨c, -, hrest⟩ := bind_ok_inv hr.symm
      cases hrest
      exact hempty
  | functor hphase htodo hfunctors => exact runFunctor_empty (by exact hempty) hr.symm
  | frame htodo => exact runFrame_empty (by exact hempty) hr.symm
  | enableRetry | poll | handleEvent | doPendingFunctors | endBatch | otherFunctor =>
      cases hr
      exact hempty

theorem runFunctor_established {f : ClientFunctor} {x : Results}
    (hw' : w.runFunctor x f = .ok w') : w'.established = w.established := by
  cases f with
  | connector g =>
      obtain ⟨c, -, hrest⟩ := bind_ok_inv hw'
      cases hrest
      rfl
  | own k g =>
      cases g with
      | forceCloseInLoop =>
          rw [runFunctor] at hw'
          split at hw'
          · exact (calm_handleClose hw').established
          · cases hw'
            rfl
      | sendInLoop message =>
          obtain ⟨c, -, hrest⟩ := bind_ok_inv hw'
          cases hrest
          rfl
      | shutdownInLoop =>
          cases hw'
          rfl
  | connectDestroyed k =>
      cases hw'
      exact (calm_connectDestroyed w k).established
  | other =>
      cases hw'
      rfl

theorem removeConnection_established {savedErrno : ConnectErrno}
    (hw' : w.removeConnection k savedErrno = .ok w') : w'.established = w.established := by
  rw [removeConnection] at hw'
  split at hw'
  · dsimp only at hw'
    split at hw'
    · obtain ⟨c, -, hrest⟩ := bind_ok_inv hw'
      cases hrest
      rfl
    · cases hw'
      rfl
  · cases hw'

/-- Only the frame that calls `Connector::handleWrite` can make a connection. -/
theorem established_of_step (hempty : w.connector.pendingFunctors = []) (hstep : Step w e w') :
    w'.established = w.established ∨
      ∃ x, e = .frame x ∧ w.todo.head? = some .connectorWrite := by
  rcases calm_of_step hempty hstep with hcalm | hbegins
  · exact Or.inl hcalm.established
  · rw [Step] at hstep
    generalize hr : (Except.ok w' : Except ClientFault TcpClient) = r at hstep
    cases hstep with
    | connect hown =>
        obtain ⟨c, -, hrest⟩ := bind_ok_inv hr.symm
        cases hrest
        exact Or.inl rfl
    | functor hphase htodo hfunctors =>
        have hsame := runFunctor_established hr.symm
        exact Or.inl hsame
    | frame htodo =>
        cases hbegins with
        | write hhead hflag => exact Or.inr ⟨_, rfl, hhead⟩
        | restart hhead hflag =>
            rw [htodo] at hhead
            cases hhead
            rw [TcpClient.runFrame] at hr
            have hsame := removeConnection_established hr.symm
            exact Or.inl hsame
    | _ => cases hbegins

end ProtoRpc.TcpClient
