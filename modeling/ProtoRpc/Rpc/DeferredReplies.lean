import ProtoRpc.Rpc.Ownership

/-!
Replies that a service gives late. While a connection is open its context owns the
channel of its message callback, so that every request finds it; the closure that
the request leaves with the service does not keep it. Whether the closure finds it is
decided when the connection goes down.
-/
namespace ProtoRpc.Hosting
open Transition

variable {M : Type} {wire : Wire} {lib : Protobuf M} {w w' : Hosting M} {k n : Nat} {e : Event M}

def Open (w : Hosting M) (k : Nat) : Prop :=
  (w.conns k).state = .kConnected ∨ (w.conns k).state = .kDisconnecting

/-- The event calls `onConnection` with connection `k` down. -/
def TakesDown (w : Hosting M) (k : Nat) : Event M → Prop
  | .close j => j = k
  | .functor j _ => j = k ∧ w.Open k ∧ (w.conns k).pendingFunctors.head? = some .forceCloseInLoop
  | .connectDestroyed j => j = k ∧ (w.conns k).state = .kConnected
  | _ => False

structure Owned (w : Hosting M) : Prop where
  context : ∀ k n, w.context k = some n →
    w.Open k ∧ n < w.allocated ∧ n ∉ w.destroyed ∧ w.connOf n = k
  callback : ∀ k n, w.Open k → w.messageCallback k = some n → w.context k = some n
  freed : ∀ n ∈ w.destroyed, n < w.allocated
  closures : ∀ c ∈ w.closures, c.channel < w.allocated
  unborn : ∀ k, w.accepted ≤ k → (w.conns k).state = .kConnecting

theorem owned_new (server : RpcServer M) : Owned (new server) where
  context := fun _ _ h => by cases h
  callback := fun _ _ _ h => by cases h
  freed := fun _ h => by cases h
  closures := fun _ h => by cases h
  unborn := fun _ _ => rfl

theorem not_open_of_connecting (h : (w.conns k).state = .kConnecting) : ¬ w.Open k := by
  simp [Open, h]

/-- A connection is left open or closed, as it was. -/
theorem Owned.adopt (h : Owned w) {c : TcpConnection} (hkeeps : (w.conns k).Keeps c) :
    Owned (w.adopt k c) := by
  have hopen : ∀ j, (w.adopt k c).Open j ↔ w.Open j := by
    intro j
    by_cases hj : j = k
    · subst hj
      simpa [Open, Hosting.adopt] using hkeeps.open_iff
    · simp [Open, Hosting.adopt, Function.update_of_ne hj]
  refine { h with context := ?_, callback := ?_, unborn := ?_ }
  · intro j n hn
    obtain ⟨hup, hrest⟩ := h.context j n hn
    exact ⟨(hopen j).mpr hup, hrest⟩
  · intro j n hup hn
    exact h.callback j n ((hopen j).mp hup) hn
  · intro j hj
    have hold := h.unborn j hj
    by_cases heq : j = k
    · subst heq
      change (Function.update w.conns j c j).state = _
      rw [Function.update_self]
      rcases hkeeps with hsame | ⟨hup, -⟩
      · rw [hsame, hold]
      · exact absurd hup (not_open_of_connecting hold)
    · change (Function.update w.conns k c j).state = _
      rw [Function.update_of_ne heq]
      exact hold

/-- A connection goes down, and its channel with it. -/
theorem Owned.down (h : Owned w) (hk : w.Open k) {c : TcpConnection}
    (hc : c.state = .kDisconnected) : Owned ((w.adopt k c).setContext k none) := by
  have hopen : ∀ j, (w.adopt k c).Open j → j ≠ k ∧ w.Open j := by
    intro j hup
    by_cases hj : j = k
    · subst hj
      simp [Open, Hosting.adopt, hc] at hup
    · simp only [Open, Hosting.adopt, Function.update_of_ne hj] at hup
      exact ⟨hj, hup⟩
  have hother : ∀ j n, Function.update w.context k none j = some n → j ≠ k ∧ w.context j = some n := by
    intro j n hn
    by_cases hj : j = k
    · subst hj
      rw [Function.update_self] at hn
      cases hn
    · rw [Function.update_of_ne hj] at hn
      exact ⟨hj, hn⟩
  refine ⟨?_, ?_, ?_, h.closures, ?_⟩
  · intro j n hn
    obtain ⟨hj, hold⟩ := hother j n hn
    obtain ⟨hup, hlt, hfree, hconn⟩ := h.context j n hold
    refine ⟨?_, hlt, ?_, hconn⟩
    · change (Function.update w.conns k c j).state = _ ∨ (Function.update w.conns k c j).state = _
      rw [Function.update_of_ne hj]
      exact hup
    · intro hmem
      cases List.mem_append.mp hmem with
      | inl hfreed => exact hfree hfreed
      | inr hown =>
          have hcontext := h.context k n (Option.mem_toList.mp hown)
          exact hj (hconn.symm.trans hcontext.2.2.2)
  · intro j n hup hn
    obtain ⟨hj, hold⟩ := hopen j hup
    change Function.update w.context k none j = _
    rw [Function.update_of_ne hj]
    exact h.callback j n hold hn
  · intro n hmem
    cases List.mem_append.mp hmem with
    | inl hfreed => exact h.freed n hfreed
    | inr hown => exact (h.context k n (Option.mem_toList.mp hown)).2.1
  · intro j hj
    have hold := h.unborn j hj
    have hne : j ≠ k := by
      rintro rfl
      exact absurd hk (not_open_of_connecting hold)
    change (Function.update w.conns k c j).state = _
    rw [Function.update_of_ne hne]
    exact hold

theorem onConnection_down (hk : (w.conns k).state ≠ .kConnected) (id : BitVec 64) :
    w.onConnection k id = w.setContext k none := by
  rw [onConnection, RpcServer.onConnection, if_neg hk]

/-- What `onConnection` does for a connection that is up. -/
theorem onConnection_up (hk : (w.conns k).state = .kConnected) (id : BitVec 64) :
    w.onConnection k id =
      { w with
        channels := Function.update w.channels w.allocated
          ((RpcChannel.new (some (w.conns k)) id).setServices (some w.server.services))
        connOf := Function.update w.connOf w.allocated k
        allocated := w.allocated + 1
        messageCallback := Function.update w.messageCallback k (some w.allocated) }.setContext k
          (some w.allocated) := by
  rw [onConnection, RpcServer.onConnection, if_pos hk]

/-- A connection comes up, and is given a channel. -/
theorem Owned.up (h : Owned w) (hk : k < w.accepted) {c : TcpConnection}
    (hc : c.state = .kConnected) {channels : Nat → RpcChannel M} {destroyed : List Nat}
    (hdestroyed : destroyed = w.destroyed) :
    Owned { w with
      conns := Function.update w.conns k c
      channels := channels
      connOf := Function.update w.connOf w.allocated k
      allocated := w.allocated + 1
      messageCallback := Function.update w.messageCallback k (some w.allocated)
      context := Function.update w.context k (some w.allocated)
      destroyed := destroyed } := by
  subst hdestroyed
  refine ⟨?_, ?_, ?_, ?_, ?_⟩
  · intro j n hn
    change Function.update w.context k (some w.allocated) j = some n at hn
    change ((Function.update w.conns k c j).state = _ ∨ (Function.update w.conns k c j).state = _) ∧
      n < w.allocated + 1 ∧ n ∉ w.destroyed ∧ Function.update w.connOf w.allocated k n = j
    by_cases hj : j = k
    · subst hj
      rw [Function.update_self] at hn
      cases hn
      rw [Function.update_self, Function.update_self]
      refine ⟨Or.inl hc, Nat.lt_succ_self _, ?_, rfl⟩
      intro hfreed
      exact absurd (h.freed _ hfreed) (Nat.lt_irrefl _)
    · rw [Function.update_of_ne hj] at hn
      obtain ⟨hup, hlt, hfree, hconn⟩ := h.context j n hn
      rw [Function.update_of_ne hj, Function.update_of_ne (Nat.ne_of_lt hlt)]
      exact ⟨hup, Nat.lt_succ_of_lt hlt, hfree, hconn⟩
  · intro j n hup hn
    change Function.update w.messageCallback k (some w.allocated) j = some n at hn
    change Function.update w.context k (some w.allocated) j = some n
    by_cases hj : j = k
    · subst hj
      rw [Function.update_self] at hn ⊢
      exact hn
    · rw [Function.update_of_ne hj] at hn ⊢
      refine h.callback j n ?_ hn
      simpa [Open, Function.update_of_ne hj] using hup
  · intro n hfreed
    exact Nat.lt_succ_of_lt (h.freed n hfreed)
  · intro d hd
    exact Nat.lt_succ_of_lt (h.closures d hd)
  · intro j hj
    have hne : j ≠ k := by
      rintro rfl
      exact absurd hk (Nat.not_lt.mpr hj)
    change (Function.update w.conns k c j).state = _
    rw [Function.update_of_ne hne]
    exact h.unborn j hj

/-- What a step does to the closures and to the channels they are bound to. -/
inductive Effect (w w' : Hosting M) (e : Event M) : Prop where
  | none (hclosures : w'.closures = w.closures) (hdestroyed : w'.destroyed = w.destroyed)
      (hruns : w'.runs = w.runs)
  | invoked {c : DoneClosure M} (hlive : c.channel ∉ w.destroyed)
      (hclosures : w'.closures = c :: w.closures) (hdestroyed : w'.destroyed = w.destroyed)
      (hruns : w'.runs = w.runs)
  | ran {c : DoneClosure M} {before after : List (DoneClosure M)}
      (hclosures : w.closures = before ++ c :: after) (hclosures' : w'.closures = before ++ after)
      (hdestroyed : w'.destroyed = w.destroyed)
      (hruns : w'.runs = (c.channel, !w.destroyed.contains c.channel) :: w.runs)
  | down {k : Nat} (hdown : w.TakesDown k e) (hclosures : w'.closures = w.closures)
      (hdestroyed : w'.destroyed = w.destroyed ++ (w.context k).toList)
      (hruns : w'.runs = w.runs)

theorem Owned.connectEstablished (h : Owned w) (hk : k < w.accepted) {id : BitVec 64}
    (hw' : w.connectEstablished k id = .ok w') : Owned w' ∧ Effect w w' e := by
  obtain ⟨c, hc, hrest⟩ := bind_ok_inv hw'
  obtain ⟨hconnecting, hup⟩ := TcpConnection.connectEstablished_inv hc
  have hnone : w.context k = none := by
    cases hcontext : w.context k with
    | none => rfl
    | some n => exact absurd (h.context k n hcontext).1 (not_open_of_connecting hconnecting)
  have hdestroyed : w.destroyed ++ (w.context k).toList = w.destroyed := by
    rw [hnone, Option.toList_none, List.append_nil]
  have hstate : c.state = .kConnected := by rw [hup]
  have hconnected : ((w.adopt k c).conns k).state = .kConnected := by
    simpa [Hosting.adopt] using hstate
  rw [onConnection_up hconnected] at hrest
  cases hrest
  exact ⟨h.up hk hstate hdestroyed, .none rfl hdestroyed rfl⟩

theorem Owned.handleClose (h : Owned w) (hw' : w.handleClose k = .ok w') :
    Owned w' ∧ w'.closures = w.closures ∧
      w'.destroyed = w.destroyed ++ (w.context k).toList ∧ w'.runs = w.runs := by
  obtain ⟨c, hc, hrest⟩ := bind_ok_inv hw'
  obtain ⟨hopen, hclosed⟩ := TcpConnection.handleClose_inv hc
  have hstate : c.state = .kDisconnected := by rw [hclosed]
  have hnot : ((w.adopt k c).conns k).state ≠ .kConnected := by
    simp [Hosting.adopt, hstate]
  rw [onConnection_down hnot] at hrest
  cases hrest
  exact ⟨h.down hopen hstate, rfl, rfl, rfl⟩

theorem codecSend_state {c c' : TcpConnection} {inLoopThread : Bool} {r : WriteResult}
    {m : RpcMessage} (h : ProtoRpcCodec.send wire (some c) inLoopThread r m = .ok c') :
    c'.state = c.state := by
  obtain ⟨buf, -, hrest⟩ := bind_ok_inv h
  obtain ⟨⟨d, buf'⟩, hsend, hd⟩ := bind_ok_inv hrest
  cases hd
  exact TcpConnection.send_state hsend

/-- A send does not close the connection of the channel. -/
theorem send_keeps (w : Hosting M) (n : Nat) (inLoopThread : Bool) (r : WriteResult)
    (m : RpcMessage) :
    (((w.channel n).send wire inLoopThread r m).1.conn.getD (w.conns (w.connOf n))).state =
      (w.conns (w.connOf n)).state := by
  rw [RpcChannel.send]
  cases hsend : ProtoRpcCodec.send wire (w.channel n).conn inLoopThread r m with
  | ok c => exact codecSend_state hsend
  | error fault => rfl

theorem Owned.adoptChannel (h : Owned w) {ch : RpcChannel M}
    (hstate : (ch.conn.getD (w.conns (w.connOf n))).state = (w.conns (w.connOf n)).state) :
    Owned (w.adoptChannel n ch) := by
  have hchannels : Owned { w with channels := Function.update w.channels n ch } := { h with }
  exact hchannels.adopt (Or.inl hstate)

theorem handleResponseMsg_conn (ch : RpcChannel M) (message : RpcMessage) :
    (ch.handleResponseMsg lib message).2.conn = ch.conn := by
  change (ch.takeOutstanding message.id).2.conn = ch.conn
  rw [RpcChannel.takeOutstanding]
  split <;> rfl

/-- A message finds the channel that its callback is bound to. -/
theorem Owned.onRpcMessage (h : Owned w) (hopen : w.Open k)
    (hcallback : w.messageCallback k = some n) (message : RpcMessage) (r : WriteResult) :
    Owned (w.onRpcMessage wire lib n message r) ∧
      Effect w (w.onRpcMessage wire lib n message r) e := by
  obtain ⟨-, hlt, hlive, -⟩ := h.context k n (h.callback k n hopen hcallback)
  rw [Hosting.onRpcMessage]
  split
  · refine ⟨h.adoptChannel ?_, .none rfl rfl rfl⟩
    rw [handleResponseMsg_conn]
    rfl
  · split
    · exact ⟨h.adoptChannel (send_keeps w n true r _), .none rfl rfl rfl⟩
    · rename_i response _
      refine ⟨{ h with closures := ?_ }, .invoked (c := ⟨n, response, message.id⟩) hlive rfl rfl rfl⟩
      intro c hc
      cases List.mem_cons.mp hc with
      | inl hnew =>
          rw [hnew]
          exact hlt
      | inr hold => exact h.closures c hold
  · exact ⟨h, .none rfl rfl rfl⟩

theorem Owned.runDone (h : Owned w) {c : DoneClosure M} {before after : List (DoneClosure M)}
    (hclosures : w.closures = before ++ c :: after) (response : M) (inLoopThread : Bool)
    (r : WriteResult) :
    Owned ({ w with closures := before ++ after }.runDone wire lib c response inLoopThread r) ∧
      Effect w
        ({ w with closures := before ++ after }.runDone wire lib c response inLoopThread r) e := by
  have hran : Owned
      { w with
        closures := before ++ after
        runs := (c.channel, !w.destroyed.contains c.channel) :: w.runs } := by
    refine { h with closures := ?_ }
    intro d hd
    refine h.closures d ?_
    rw [hclosures]
    cases List.mem_append.mp hd with
    | inl hbefore => exact List.mem_append_left _ hbefore
    | inr hafter => exact List.mem_append_right _ (List.mem_cons_of_mem _ hafter)
  exact ⟨hran.adoptChannel (send_keeps w c.channel inLoopThread r _), .ran hclosures rfl rfl rfl⟩

theorem Owned.runFunctor (h : Owned w) {r : WriteResult} {f : Functor} {rest : List Functor}
    (hfunctors : (w.conns k).pendingFunctors = f :: rest)
    (hw' : (w.adopt k { w.conns k with pendingFunctors := rest }).runFunctor k r f = .ok w') :
    Owned w' ∧ Effect w w' (.functor k r) := by
  have hpop : Owned (w.adopt k { w.conns k with pendingFunctors := rest }) := h.adopt (Or.inl rfl)
  have hself : (w.adopt k { w.conns k with pendingFunctors := rest }).conns k =
      { w.conns k with pendingFunctors := rest } := Function.update_self _ _ _
  by_cases hf : f = .forceCloseInLoop
  · subst hf
    rw [Hosting.runFunctor, hself] at hw'
    split at hw'
    · rename_i hopen
      obtain ⟨howned, hclosures, hdestroyed, hruns⟩ := hpop.handleClose hw'
      refine ⟨howned, .down (k := k) ⟨rfl, hopen, ?_⟩ hclosures hdestroyed hruns⟩
      rw [hfunctors]
      rfl
    · cases hw'
      exact ⟨hpop, .none rfl rfl rfl⟩
  · have hrun : (do
        let c ← ({ w.conns k with pendingFunctors := rest } : TcpConnection).runFunctor r f
        pure ((w.adopt k { w.conns k with pendingFunctors := rest }).adopt k c)) =
          Except.ok w' := by
      cases f with
      | forceCloseInLoop => exact absurd rfl hf
      | _ =>
          rw [Hosting.runFunctor, hself] at hw'
          · exact hw'
          · exact fun hforce => by cases hforce
    obtain ⟨c, hc, hrest⟩ := bind_ok_inv hrun
    cases hrest
    refine ⟨hpop.adopt (Or.inl ?_), .none rfl rfl rfl⟩
    rw [hself]
    exact TcpConnection.runFunctor_state hf hc

theorem connectDestroyed_connected (hconnected : (w.conns k).state = .kConnected) :
    w.connectDestroyed k =
      (w.adopt k { w.conns k with state := .kDisconnected, isWriting := false }).setContext k
        none := by
  rw [connectDestroyed, if_pos hconnected]
  refine onConnection_down ?_ 0
  simp [Hosting.adopt]

theorem Owned.connectDestroyed (h : Owned w) :
    Owned (w.connectDestroyed k) ∧ Effect w (w.connectDestroyed k) (.connectDestroyed k) := by
  by_cases hconnected : (w.conns k).state = .kConnected
  · rw [connectDestroyed_connected hconnected]
    exact ⟨h.down (Or.inl hconnected) rfl, .down (k := k) ⟨rfl, hconnected⟩ rfl rfl rfl⟩
  · rw [Hosting.connectDestroyed, if_neg hconnected]
    exact ⟨h, .none rfl rfl rfl⟩

theorem Owned.newConnection (h : Owned w) :
    Owned { w.adopt w.accepted .new with accepted := w.accepted + 1 } := by
  have hkeeps : (w.conns w.accepted).Keeps .new := Or.inl (h.unborn w.accepted (Nat.le_refl _)).symm
  have hnew := h.adopt hkeeps
  refine { hnew with unborn := ?_ }
  intro j hj
  exact hnew.unborn j (Nat.le_of_succ_le hj)

/-- Every step keeps the ownership, and does to the closures and the channels what its
effect says. -/
theorem Owned.step (h : Owned w) (hstep : Step wire lib w e w') : Owned w' ∧ Effect w w' e := by
  rw [Step] at hstep
  generalize hr : (Except.ok w' : Except Fault (Hosting M)) = r at hstep
  cases hstep with
  | newConnection =>
      cases hr
      exact ⟨h.newConnection, .none rfl rfl rfl⟩
  | connectEstablished hk => exact h.connectEstablished hk hr.symm
  | operate hk =>
      obtain ⟨c, hc, hrest⟩ := bind_ok_inv hr.symm
      cases hrest
      exact ⟨h.adopt (ConnOp.run_keeps hc), .none rfl rfl rfl⟩
  | write hk =>
      obtain ⟨c, hc, hrest⟩ := bind_ok_inv hr.symm
      cases hrest
      exact ⟨h.adopt (Or.inl (TcpConnection.handleWrite_state hc)), .none rfl rfl rfl⟩
  | functor hk hfunctors => exact h.runFunctor hfunctors hr.symm
  | receive hopen hcallback =>
      cases hr
      exact h.onRpcMessage hopen hcallback _ _
  | done hclosures =>
      cases hr
      exact h.runDone hclosures _ _ _
  | close hk =>
      obtain ⟨howned, hclosures, hdestroyed, hruns⟩ := h.handleClose hr.symm
      exact ⟨howned, .down rfl hclosures hdestroyed hruns⟩
  | connectDestroyed hk =>
      cases hr
      exact h.connectDestroyed

/-- Every closure that was run found its channel. -/
def RepliesReach (w : Hosting M) : Prop := ∀ x ∈ w.runs, x.2 = true

/-- A connection goes down only when no service holds a closure of its channel. -/
def GoesDownIdle (w : Hosting M) (e : Event M) : Prop :=
  ∀ k, w.TakesDown k e → ∀ c ∈ w.closures, w.context k ≠ some c.channel

/-- The channels of all closures are there. -/
structure Live (w : Hosting M) : Prop where
  owned : Owned w
  closures : ∀ c ∈ w.closures, c.channel ∉ w.destroyed
  runs : w.RepliesReach

theorem live_new (server : RpcServer M) : Live (new server) where
  owned := owned_new server
  closures := fun _ hc => by cases hc
  runs := fun _ hx => by cases hx

theorem Live.step (h : Live w) (hidle : w.GoesDownIdle e) (hstep : Step wire lib w e w') :
    Live w' := by
  obtain ⟨howned, heffect⟩ := h.owned.step hstep
  refine ⟨howned, ?_, ?_⟩
  · cases heffect with
    | none hclosures hdestroyed hruns =>
        rw [hclosures, hdestroyed]
        exact h.closures
    | @invoked d hlive hclosures hdestroyed hruns =>
        rw [hclosures, hdestroyed]
        intro c hc
        cases List.mem_cons.mp hc with
        | inl hnew =>
            rw [hnew]
            exact hlive
        | inr hold => exact h.closures c hold
    | ran hclosures hclosures' hdestroyed hruns =>
        rw [hclosures', hdestroyed]
        intro c hc
        refine h.closures c ?_
        rw [hclosures]
        cases List.mem_append.mp hc with
        | inl hbefore => exact List.mem_append_left _ hbefore
        | inr hafter => exact List.mem_append_right _ (List.mem_cons_of_mem _ hafter)
    | down hdown hclosures hdestroyed hruns =>
        rw [hclosures, hdestroyed]
        intro c hc hmem
        cases List.mem_append.mp hmem with
        | inl hfreed => exact h.closures c hc hfreed
        | inr hown => exact hidle _ hdown c hc (Option.mem_toList.mp hown)
  · cases heffect with
    | none hclosures hdestroyed hruns | invoked hlive hclosures hdestroyed hruns
    | down hdown hclosures hdestroyed hruns =>
        rw [RepliesReach, hruns]
        exact h.runs
    | @ran c before after hclosures hclosures' hdestroyed hruns =>
        rw [RepliesReach, hruns]
        intro x hx
        cases List.mem_cons.mp hx with
        | inl hnow =>
            have hlive := h.closures c (hclosures ▸ List.mem_append_right _ List.mem_cons_self)
            rw [hnow]
            simpa using hlive
        | inr hold => exact h.runs x hold

/-- A connection that goes down takes its channel with it. -/
theorem Owned.destroyed_of_takesDown (h : Owned w) (hdown : w.TakesDown k e)
    (hstep : Step wire lib w e w') :
    w'.closures = w.closures ∧ w'.destroyed = w.destroyed ++ (w.context k).toList := by
  rw [Step] at hstep
  generalize hr : (Except.ok w' : Except Fault (Hosting M)) = r at hstep
  cases hstep with
  | close hk =>
      cases hdown
      obtain ⟨-, hclosures, hdestroyed, -⟩ := h.handleClose hr.symm
      exact ⟨hclosures, hdestroyed⟩
  | @functor j r f rest hk hfunctors =>
      obtain ⟨rfl, hopen, hhead⟩ := hdown
      rw [hfunctors] at hhead
      cases hhead
      have hpop : Owned (w.adopt j { w.conns j with pendingFunctors := rest }) :=
        h.adopt (Or.inl rfl)
      have hself : (w.adopt j { w.conns j with pendingFunctors := rest }).conns j =
          { w.conns j with pendingFunctors := rest } := Function.update_self _ _ _
      rw [Hosting.runFunctor, hself] at hr
      split at hr
      · obtain ⟨-, hclosures, hdestroyed, -⟩ := hpop.handleClose hr.symm
        exact ⟨hclosures, hdestroyed⟩
      · rename_i hclosed
        exact absurd hopen hclosed
  | connectDestroyed hk =>
      obtain ⟨rfl, hconnected⟩ := hdown
      cases hr
      rw [connectDestroyed_connected hconnected]
      exact ⟨rfl, rfl⟩
  | _ => cases hdown

/-- Replies reach their channel exactly as long as no connection goes down while a
service holds a closure of its channel. -/
theorem deferred_replies_exactly (wire : Wire) (lib : Protobuf M) (server : RpcServer M) :
    SafeExactly (Step wire lib) (new server) RepliesReach GoesDownIdle where
  safe := by
    intro ls s hrun
    have hlive : Live s := by
      refine hrun.invariant (live_new server) ?_
      intro s l s' h hstep
      exact h.step hstep.1 hstep.2
    exact hlive.runs
  breach := by
    intro ls s l s' hrun hstep hbusy
    have howned : Owned s := by
      refine hrun.invariant (owned_new server) ?_
      intro s l s' h hstep
      exact (h.step hstep).1
    simp only [GoesDownIdle, not_forall, not_not] at hbusy
    obtain ⟨k, hdown, c, hc, hcontext⟩ := hbusy
    obtain ⟨hclosures, hdestroyed⟩ := howned.destroyed_of_takesDown hdown hstep
    have hdead : s'.destroyed.contains c.channel = true := by
      rw [hdestroyed, hcontext]
      simp
    rw [← hclosures] at hc
    obtain ⟨before, after, hsplit⟩ := List.append_of_mem hc
    have hdone : Exec wire lib s' (.done c c.response true (.wrote 0)) _ := .done hsplit
    refine ⟨_, _, Run.nil.snoc hdone, ?_⟩
    intro hreach
    have hran : (!s'.destroyed.contains c.channel) = true := hreach _ List.mem_cons_self
    rw [hdead] at hran
    cases hran

/-- The example server is asked, the client goes away, and the answer comes then. -/
theorem late_reply : ∃ ls w,
    Run (Step protobufWire monitorProtobuf) (new monitorServer) ls w ∧ w.runs = [(0, false)] ∧
      ¬ w.RepliesReach := by
  let request := RpcChannel.requestMessage monitorProtobuf 1 monitorCall
  have haccepted : Run (Step protobufWire monitorProtobuf) (new monitorServer) _ _ :=
    run_then .nil .newConnection .newConnection rfl
  have hup := run_then haccepted (.connectEstablished 0 0) (.connectEstablished (by decide)) rfl
  have hreceived := run_then hup (.receive 0 request (.wrote 0)) (.receive (Or.inl rfl) rfl) rfl
  have hclosed := run_then hreceived (.close 0) (.close (by decide)) rfl
  have hdone := run_then hclosed
    (.done ⟨0, .testResponse false "", 1⟩ (.testResponse true "") false (.wrote 0))
    (Exec.done (show _ = [] ++ _ :: [] from rfl)) rfl
  refine ⟨_, _, hdone, rfl, ?_⟩
  intro hreach
  cases hreach (0, false) List.mem_cons_self

end ProtoRpc.Hosting
