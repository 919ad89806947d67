import ProtoRpc.Network.EventLoopThreadPool
import ProtoRpc.Network.ServerTable

/-!
The loops that the connections of a `TcpServer` run in. Only `newConnection` takes a loop
from the thread pool, so that the connections go round the loops in the order in which
they are accepted; where they are closed makes no difference to that.
-/
namespace ProtoRpc.TcpServer
open Transition
open EventLoopThreadPool (turn turn_pos turn_zero count_turn succ_mod)

variable {w w' : TcpServer} {k : Nat}

/-- The connection that an event of its own loop or of its user is about. -/
def Event.conn : Event → Option Nat
  | .operate k _ | .close k | .read k _ | .write k _ | .functor k _ => some k
  | _ => none

theorem adopt_adopt (w : TcpServer) (k : Nat) (c c' : TcpConnection) :
    (w.adopt k c).adopt k c' = w.adopt k c' := by
  simp [adopt, Function.update_idem]

theorem adopt_loop (w : TcpServer) (k : Nat) (c : TcpConnection) (j : Nat) :
    ((w.adopt k c).members j).loop = (w.members j).loop := by
  by_cases hj : j = k
  · subst hj
    simp [adopt]
  · simp [adopt, Function.update_of_ne hj]

/-- What an event of a connection can do: the connection stays open or closed, as it was,
or is closed, and its close callback comes next. -/
def Moves (w : TcpServer) (k : Nat) (w' : TcpServer) : Prop :=
  (∃ c, (w.members k).conn.Keeps c ∧ w' = w.adopt k c) ∨
    ((w.members k).conn.state = .kConnected ∨ (w.members k).conn.state = .kDisconnecting) ∧
      ∃ c, c.state = .kDisconnected ∧ w' = { w.adopt k c with closing := k :: w.closing }

theorem moves_handleClose (h : w.handleClose k = .ok w') : w.Moves k w' := by
  obtain ⟨c, hc, hrest⟩ := bind_ok_inv h
  cases hrest
  obtain ⟨hopen, rfl⟩ := TcpConnection.handleClose_inv hc
  exact Or.inr ⟨hopen, _, rfl, rfl⟩

/-- The same after a change to the connection that leaves its state. -/
theorem Moves.of_adopt {c : TcpConnection} (h : (w.adopt k c).Moves k w')
    (hstate : c.state = (w.members k).conn.state) : w.Moves k w' := by
  have hconn : ((w.adopt k c).members k).conn = c := by rw [adopt_conn, if_pos rfl]
  rcases h with ⟨c', hkeeps, rfl⟩ | ⟨hopen, c', hdown, rfl⟩
  · refine Or.inl ⟨c', ?_, adopt_adopt w k c c'⟩
    rw [hconn] at hkeeps
    rwa [TcpConnection.Keeps, ← hstate]
  · rw [hconn, hstate] at hopen
    refine Or.inr ⟨hopen, c', hdown, ?_⟩
    rw [adopt_adopt]
    rfl

theorem moves_runFunctor {r : WriteResult} {f : Functor} (h : w.runFunctor k r f = .ok w') :
    w.Moves k w' := by
  by_cases hf : f = .forceCloseInLoop
  · subst hf
    rw [TcpServer.runFunctor] at h
    split at h
    · exact moves_handleClose h
    · cases h
      refine Or.inl ⟨(w.members k).conn, Or.inl rfl, ?_⟩
      simp [adopt]
  · have hrun : (do
        let c ← (w.members k).conn.runFunctor r f
        pure (w.adopt k c)) = Except.ok w' := by
      cases f with
      | forceCloseInLoop => exact absurd rfl hf
      | _ => exact h
    obtain ⟨c, hc, hrest⟩ := bind_ok_inv hrun
    cases hrest
    exact Or.inl ⟨c, Or.inl (TcpConnection.runFunctor_state hf hc), rfl⟩

theorem moves_handleRead {r : Buffer.ReadResult} (h : w.handleRead k r = .ok w') :
    w.Moves k w' := by
  obtain ⟨⟨n, input⟩, -, hrest⟩ := bind_ok_inv h
  dsimp only at hrest
  split at hrest
  · exact (moves_handleClose hrest).of_adopt rfl
  · cases hrest
    refine Or.inl ⟨_, ?_, rfl⟩
    exact Or.inl rfl

theorem operate_keeps {op : ConnOp} (hstep : Step w (.operate k op) w') :
    ∃ c, (w.members k).conn.Keeps c ∧ w' = w.adopt k c := by
  rw [Step] at hstep
  generalize hr : (Except.ok w' : Except Fault TcpServer) = r at hstep
  cases hstep with
  | operate hj =>
      obtain ⟨c, hc, hrest⟩ := bind_ok_inv hr.symm
      cases hrest
      exact ⟨c, ConnOp.run_keeps hc, rfl⟩

theorem Step.moves {e : Event} (hstep : Step w e w') (hk : e.conn = some k) : w.Moves k w' := by
  have hall := hstep
  rw [Step] at hstep
  generalize hr : (Except.ok w' : Except Fault TcpServer) = r at hstep
  cases hstep with
  | operate hj =>
      cases hk
      exact Or.inl (operate_keeps hall)
  | close hj =>
      cases hk
      exact moves_handleClose hr.symm
  | read hj =>
      cases hk
      exact moves_handleRead hr.symm
  | write hj =>
      cases hk
      obtain ⟨c, hc, hrest⟩ := bind_ok_inv hr.symm
      cases hrest
      exact Or.inl ⟨c, Or.inl (TcpConnection.handleWrite_state hc), rfl⟩
  | @functor j r f rest hj hfunctors =>
      cases hk
      exact (moves_runFunctor hr.symm).of_adopt rfl
  | _ => cases hk

/-- No connection is accepted, and none changes its loop. -/
structure SameLoops (w w' : TcpServer) : Prop where
  loops : w'.loops = w.loops
  next : w'.next = w.next
  accepted : w'.accepted = w.accepted
  members : ∀ j, (w'.members j).loop = (w.members j).loop

theorem SameLoops.trans {w'' : TcpServer} (h : SameLoops w w') (h' : SameLoops w' w'') :
    SameLoops w w'' :=
  ⟨h'.loops.trans h.loops, h'.next.trans h.next, h'.accepted.trans h.accepted,
    fun j => (h'.members j).trans (h.members j)⟩

theorem sameLoops_adopt (w : TcpServer) (k : Nat) (c : TcpConnection) :
    SameLoops w (w.adopt k c) := ⟨rfl, rfl, rfl, adopt_loop w k c⟩

theorem Moves.sameLoops (h : w.Moves k w') : SameLoops w w' := by
  rcases h with ⟨c, -, rfl⟩ | ⟨-, c, -, rfl⟩
  · exact sameLoops_adopt w k c
  · exact { sameLoops_adopt w k c with }

theorem sameLoops_connectEstablished (h : w.connectEstablished k = .ok w') : SameLoops w w' := by
  obtain ⟨c, -, hrest⟩ := bind_ok_inv h
  cases hrest
  exact sameLoops_adopt w k c

theorem sameLoops_removeConnectionInLoop (h : w.removeConnectionInLoop k = .ok w') :
    SameLoops w w' := by
  obtain ⟨u, -, hrest⟩ := bind_ok_inv h
  cases hrest
  exact ⟨rfl, rfl, rfl, fun _ => rfl⟩

theorem sameLoops_removeConnection (h : w.removeConnection k = .ok w') : SameLoops w w' := by
  rw [TcpServer.removeConnection] at h
  split at h
  · exact sameLoops_removeConnectionInLoop h
  · cases h
    exact ⟨rfl, rfl, rfl, fun _ => rfl⟩

theorem sameLoops_connectDestroyed (w : TcpServer) (k : Nat) :
    SameLoops w (w.connectDestroyed k) := by
  rw [TcpServer.connectDestroyed]
  split
  · exact sameLoops_adopt w k _
  · exact ⟨rfl, rfl, rfl, fun _ => rfl⟩

/-- Only `newConnection` gives a loop to a connection. -/
theorem Step.loops_cases {e : Event} (hstep : Step w e w') :
    SameLoops w w' ∨ e = .newConnection ∧ w.newConnection = .ok w' := by
  cases hconn : e.conn with
  | some k => exact Or.inl (hstep.moves hconn).sameLoops
  | none =>
      rw [Step] at hstep
      generalize hr : (Except.ok w' : Except Fault TcpServer) = r at hstep
      cases hstep with
      | newConnection => exact Or.inr ⟨rfl, rfl⟩
      | @connectEstablished k hk =>
          have herased : SameLoops w { w with establishing := w.establishing.erase k } :=
            ⟨rfl, rfl, rfl, fun _ => rfl⟩
          exact Or.inl (herased.trans (sameLoops_connectEstablished hr.symm))
      | @closeCallback k hk =>
          have herased : SameLoops w { w with closing := w.closing.erase k } :=
            ⟨rfl, rfl, rfl, fun _ => rfl⟩
          exact Or.inl (herased.trans (sameLoops_removeConnection hr.symm))
      | @removeConnectionInLoop k rest hremovals =>
          have hpop : SameLoops w { w with removals := rest } := ⟨rfl, rfl, rfl, fun _ => rfl⟩
          exact Or.inl (hpop.trans (sameLoops_removeConnectionInLoop hr.symm))
      | @connectDestroyed k hk =>
          cases hr
          have herased : SameLoops w { w with destroying := w.destroying.erase k } :=
            ⟨rfl, rfl, rfl, fun _ => rfl⟩
          exact Or.inl (herased.trans (sameLoops_connectDestroyed _ k))
      | _ => cases hconn

/-- The connections have been given the `n` loops in turn. -/
structure InTurn (n : Nat) (w : TcpServer) : Prop where
  loops : w.loops = n
  next : w.next = (turn n w.accepted).getD 0
  members : ∀ k < w.accepted, (w.members k).loop = turn n k

theorem InTurn.same {n : Nat} (h : InTurn n w) (hsame : SameLoops w w') : InTurn n w' where
  loops := hsame.loops.trans h.loops
  next := by rw [hsame.next, hsame.accepted, h.next]
  members := by
    intro k hk
    rw [hsame.accepted] at hk
    rw [hsame.members, h.members k hk]

/-- The loop that `getNextLoop` gives is the next in turn. -/
theorem InTurn.getNextLoop {n : Nat} (h : InTurn n w) : w.getNextLoop =
    (turn n w.accepted, { w with next := (turn n (w.accepted + 1)).getD 0 }) := by
  have hnext := h.next
  rw [TcpServer.getNextLoop]
  rcases Nat.eq_zero_or_pos n with rfl | hpos
  · rw [turn_zero, Option.getD_none] at hnext
    have hsame : { w with next := 0 } = w := by rw [← hnext]
    rw [if_pos h.loops, turn_zero, turn_zero, Option.getD_none, hsame]
  · rw [turn_pos hpos, Option.getD_some] at hnext
    rw [h.loops, if_neg (Nat.ne_of_gt hpos), turn_pos hpos, turn_pos hpos, hnext, Option.getD_some,
      succ_mod hpos]

theorem InTurn.newConnection {n : Nat} (h : InTurn n w) (hw' : w.newConnection = .ok w') :
    InTurn n w' := by
  rw [TcpServer.newConnection, h.getNextLoop] at hw'
  dsimp only at hw'
  obtain ⟨id, -, hrest⟩ := bind_ok_inv hw'
  have haccepted : InTurn n { w with
      next := (turn n (w.accepted + 1)).getD 0
      nextConnId := id
      accepted := w.accepted + 1
      members := Function.update w.members w.accepted
        ⟨connName w.name w.ipPort w.nextConnId, turn n w.accepted, .new⟩
      connections := Function.update w.connections (connName w.name w.ipPort w.nextConnId)
        (some w.accepted) } := by
    refine ⟨h.loops, rfl, ?_⟩
    intro k hk
    change (Function.update w.members w.accepted _ k).loop = _
    by_cases heq : k = w.accepted
    · subst heq
      rw [Function.update_self]
    · rw [Function.update_of_ne heq]
      exact h.members k (by change k < w.accepted + 1 at hk; omega)
  split at hrest
  · exact haccepted.same (sameLoops_connectEstablished hrest)
  · cases hrest
    exact { haccepted with }

theorem InTurn.step {n : Nat} (h : InTurn n w) {e : Event} (hstep : Step w e w') :
    InTurn n w' := by
  rcases hstep.loops_cases with hsame | ⟨-, hnew⟩
  · exact h.same hsame
  · exact h.newConnection hnew

theorem inTurn_new {A : Type} {inetNtop : SockAddr A → List Char} {listenAddr : SockAddr A}
    {name : List Char} {numThreads : Nat} (hnew : new inetNtop listenAddr name numThreads = .ok w) :
    InTurn numThreads w := by
  obtain ⟨ipPort, -, hrest⟩ := bind_ok_inv hnew
  cases hrest
  refine ⟨rfl, ?_, fun k hk => absurd hk (Nat.not_lt_zero k)⟩
  cases numThreads with
  | zero => rfl
  | succ n => simp [turn]

/-- Connection `k` runs in the loop that the pool gives in its call `k`, so that no loop
has been given two connections more than another. -/
theorem connections_in_turn {A : Type} {inetNtop : SockAddr A → List Char}
    {listenAddr : SockAddr A} {name : List Char} {numThreads : Nat} {w₀ : TcpServer}
    {ls : List Event} (hnew : new inetNtop listenAddr name numThreads = .ok w₀)
    (hrun : Run Step w₀ ls w) :
    (∀ k < w.accepted, (w.members k).loop = turn numThreads k) ∧
    (∀ i < numThreads,
      ((List.range w.accepted).map fun k => (w.members k).loop).count (some i) =
        w.accepted / numThreads + if i < w.accepted % numThreads then 1 else 0) ∧
    ∀ {F : Type} (pool : EventLoopThreadPool F) ls', Run EventLoopThreadPool.Step .new ls' pool →
      pool.started = true → pool.loops.length = numThreads → pool.given.length = w.accepted →
      (pool.given = (List.range w.accepted).map fun k => (w.members k).loop) ∧
      pool.getNextLoop = .ok (w.getNextLoop.1, { pool with next := w.getNextLoop.2.next }) := by
  have h : InTurn numThreads w := hrun.invariant (inTurn_new hnew) fun _ _ _ h hstep => h.step hstep
  have hmembers : ((List.range w.accepted).map fun k => (w.members k).loop) =
      (List.range w.accepted).map (turn numThreads) := by
    refine List.map_congr_left fun k hk => ?_
    exact h.members k (List.mem_range.mp hk)
  refine ⟨h.members, fun i hi => ?_, ?_⟩
  · rw [hmembers, count_turn hi]
  · intro F pool ls' hpool hstarted hlength hcalls
    have hrotation := EventLoopThreadPool.rotation_of_run hpool
    have hgiven := hrotation.given
    have hcall := hrotation.getNextLoop hstarted
    rw [hlength, hcalls] at hgiven hcall
    rw [hmembers, hcall, h.getNextLoop]
    exact ⟨hgiven, rfl⟩

/-- Three connections on `0.0.0.0:80`, with two threads. -/
theorem three_accepted : ∃ w₀ ls w, new (fun _ : SockAddr Unit => "0.0.0.0".toList)
    ⟨.AF_INET, (), 80⟩ "rpc".toList 2 = .ok w₀ ∧ Run Step w₀ ls w ∧ w.accepted = 3 :=
  ⟨_, _, _, rfl, run_then (run_then (run_then .nil .newConnection .newConnection rfl)
    .newConnection .newConnection rfl) .newConnection .newConnection rfl, rfl⟩

theorem connections_in_turn_three : ∃ w : TcpServer, ∃ pool : EventLoopThreadPool Nat,
    (List.range 3).map (fun k => (w.members k).loop) = [some 0, some 1, some 0] ∧
    pool.given = (List.range 3).map fun k => (w.members k).loop := by
  obtain ⟨w₀, ls, w, hnew, hrun, haccepted⟩ := three_accepted
  obtain ⟨pool, ls', hpool, -, hstarted, hlength, hcalls⟩ := EventLoopThreadPool.two_threads
  obtain ⟨hmembers, -, hgiven⟩ := connections_in_turn hnew hrun
  rw [haccepted] at hmembers hgiven
  refine ⟨w, pool, ?_, (hgiven pool ls' hpool hstarted hlength hcalls).1⟩
  refine (List.map_congr_left fun k hk => hmembers k (List.mem_range.mp hk)).trans ?_
  rfl

end ProtoRpc.TcpServer
