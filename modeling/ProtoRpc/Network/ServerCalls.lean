import ProtoRpc.Network.ServerTable
import ProtoRpc.Network.ThreadCalls

/-!
A server whose connections are called by other threads, with these calls cut where they
look at the state, store it and queue a functor. The table stays exact as long as none of
them stores `kDisconnecting` in a connection that has gone down since its test: such a
connection can be closed and removed once more.
-/
namespace ProtoRpc
open Transition

/-- A call of another thread that looks at the state. -/
def TcpServer.Event.foreign : TcpServer.Event → Bool
  | .operate _ op => op.foreign
  | _ => false

/-- `calls` is what is left of the calls that other threads are in, each with its
connection. -/
structure ServerCalls where
  server : TcpServer
  calls : List (Nat × CallRest)

namespace ServerCalls

inductive Event where
  | server (e : TcpServer.Event)
  | enter (k : Nat) (call : ThreadCall)
  | store (k : Nat) (next : Option Functor)
  | queue (k : Nat) (f : Functor)

inductive Exec (s : ServerCalls) : Event → Except Fault ServerCalls → Prop where
  | server {e : TcpServer.Event} {r : Except Fault TcpServer} (he : e.foreign = false)
      (hexec : TcpServer.Exec s.server e r) :
      Exec s (.server e) (do
        let w ← r
        return { s with server := w })
  | enter {k : Nat} {call : ThreadCall} (hk : k < s.server.accepted)
      (henters : call.enters (s.server.members k).conn.state = true) :
      Exec s (.enter k call) (.ok { s with calls := s.calls ++ [(k, call.rest)] })
  | store {k : Nat} {next : Option Functor} (hcall : (k, .store next) ∈ s.calls) :
      Exec s (.store k next) (.ok
        { server := s.server.adopt k (s.server.members k).conn.store
          calls := s.calls.erase (k, .store next) ++ next.toList.map fun f => (k, .queue f) })
  | queue {k : Nat} {f : Functor} (hcall : (k, .queue f) ∈ s.calls) :
      Exec s (.queue k f) (.ok
        { server := s.server.adopt k ((s.server.members k).conn.queueInLoop f)
          calls := s.calls.erase (k, .queue f) })

def Step (s : ServerCalls) (e : Event) (s' : ServerCalls) : Prop := Exec s e (.ok s')

/-- A call that stores `kDisconnecting` finds its connection still up. -/
def Timely (s : ServerCalls) : Event → Prop
  | .store k _ =>
      (s.server.members k).conn.state = .kConnected ∨
        (s.server.members k).conn.state = .kDisconnecting
  | _ => True

def TimelyStep : ServerCalls → Event → ServerCalls → Prop := Guarded Step Timely

/-- The connection for which an event runs `removeConnectionInLoop`. -/
def Removes (s : ServerCalls) (k : Nat) : Event → Prop
  | .server e => s.server.Removes k e
  | _ => False

variable {s s' : ServerCalls} {e : Event}

theorem table_step (h : s.server.Table) (hstep : TimelyStep s e s') : s'.server.Table := by
  obtain ⟨htimely, hstep⟩ := hstep
  rw [Step] at hstep
  generalize hr : (Except.ok s' : Except Fault ServerCalls) = r at hstep
  cases hstep with
  | server he hexec =>
      obtain ⟨w, hw, hrest⟩ := bind_ok_inv hr.symm
      cases hrest
      subst hw
      exact h.step hexec
  | enter hk henters =>
      cases hr
      exact h
  | store hcall =>
      cases hr
      exact h.adopt (TcpServer.keeps_down (TcpConnection.store_keeps htimely))
  | queue hcall =>
      cases hr
      exact h.adopt Iff.rfl

/-- In a run in which no store comes too late the names of the connections differ, the
table holds those that have not been removed, and each removal takes its own connection
out. -/
theorem connections_exact {A : Type} {inetNtop : SockAddr A → List Char}
    {listenAddr : SockAddr A} {name : List Char} {numThreads : Nat} {init : TcpServer}
    {events : List Event} (hlength : (inetNtop listenAddr).length ≤ 39)
    (hnew : TcpServer.new inetNtop listenAddr name numThreads = .ok init)
    (hrun : Run TimelyStep ⟨init, []⟩ events s) :
    s.server.accepted < 2 ^ 31 - 1 ∧
    (∀ j k, j < s.server.accepted → k < s.server.accepted →
      (s.server.members j).name = (s.server.members k).name → j = k) ∧
    (∀ n k, s.server.connections n = some k ↔
      k < s.server.accepted ∧ k ∉ s.server.removed ∧ n = (s.server.members k).name) ∧
    ∀ e r k, Exec s e r → s.Removes k e →
      s.server.connections (s.server.members k).name = some k ∧
      ∃ s', r = .ok s' ∧ s'.server.removed = s.server.removed ++ [k] ∧
        s'.server.connections =
          Function.update s.server.connections (s.server.members k).name none := by
  have h : s.server.Table :=
    hrun.invariant (I := fun s => s.server.Table) (TcpServer.Table.new hlength hnew)
      fun _ _ _ h hstep => table_step h hstep
  refine ⟨h.bound_accepted, fun j k hj hk => h.name_injective hj hk, h.exact, ?_⟩
  intro e r k hexec hremoves
  cases hexec with
  | server he hexec =>
      obtain ⟨hlisted, w, rfl, hremoved, hconnections⟩ := h.removes hexec hremoves
      exact ⟨hlisted, _, rfl, hremoved, hconnections⟩
  | enter | store | queue => cases hremoves

/-- A run of a server whose calls are whole is one of the server whose calls are cut. -/
theorem run_server {init w : TcpServer} {events : List TcpServer.Event}
    (hrun : Run TcpServer.Step init events w) (hown : ∀ e ∈ events, e.foreign = false) :
    Run TimelyStep ⟨init, []⟩ (events.map .server) ⟨w, []⟩ := by
  induction hrun with
  | nil => exact .nil
  | @snoc events e w w' hrun hstep ih =>
      rw [List.map_append]
      refine (ih fun e he => hown e (List.mem_append_left _ he)).snoc ⟨trivial, ?_⟩
      exact .server (r := .ok w') (hown e (List.mem_append_right _ List.mem_cons_self)) hstep

section Examples

/-- A server on `0.0.0.0:80`, with the base loop only. -/
def listening : TcpServer :=
  { ipPort := "0.0.0.0:80".toList
    name := "rpc".toList
    nextConnId := 1
    connections := fun _ => none
    loops := 0
    next := 0
    members := fun _ => ⟨[], none, .new⟩
    accepted := 0
    establishing := []
    closing := []
    removals := []
    removed := []
    destroying := [] }

theorem listening_eq : TcpServer.new (fun _ : SockAddr Unit => "0.0.0.0".toList)
    ⟨.AF_INET, (), 80⟩ "rpc".toList 0 = .ok listening := rfl

/-- Of two connections the first is closed by a `forceClose` of another thread. -/
theorem connections_exact_two : ∃ events s, Run TimelyStep ⟨listening, []⟩ events s ∧
    s.server.accepted = 2 ∧ s.Removes 0 (.server (.closeCallback 0)) ∧
    s.server.connections (s.server.members 0).name = some 0 ∧
    s.server.connections (s.server.members 1).name = some 1 := by
  have hfirst := guarded_then (.nil : Run TimelyStep ⟨listening, []⟩ [] _)
    (.server .newConnection) trivial (.server rfl .newConnection) rfl
  have hsecond := guarded_then hfirst (.server .newConnection) trivial
    (.server rfl .newConnection) rfl
  have hentered := guarded_then hsecond (.enter 0 .forceClose) trivial
    (.enter (by decide) rfl) rfl
  have hstored := guarded_then hentered (.store 0 (some .forceCloseInLoop)) (Or.inl rfl)
    (.store List.mem_cons_self) rfl
  have hqueued := guarded_then hstored (.queue 0 .forceCloseInLoop) trivial
    (.queue List.mem_cons_self) rfl
  have hclosed := guarded_then hqueued (.server (.functor 0 (.wrote 0))) trivial
    (.server rfl (.functor (by decide) rfl)) rfl
  obtain ⟨-, -, hexact, hremoval⟩ := connections_exact (by decide) listening_eq hclosed
  have hremoves := hremoval (.server (.closeCallback 0)) _ 0
    (.server rfl (.closeCallback List.mem_cons_self)) ⟨rfl, rfl⟩
  refine ⟨_, _, hclosed, rfl, ⟨rfl, rfl⟩, hremoves.1, ?_⟩
  exact (hexact _ 1).mpr ⟨by decide, List.not_mem_nil, rfl⟩

/-- The peer closes while another thread is in `forceClose`, which then brings the
connection back: it is closed again, and its second removal fails. -/
theorem removed_twice : ∃ events s, Run Step ⟨listening, []⟩ events s ∧ s.server.accepted = 1 ∧
    s.server.removed = [0] ∧ s.Removes 0 (.server (.closeCallback 0)) ∧
    Exec s (.server (.closeCallback 0)) (.error .assertion) := by
  have hfirst := run_then (.nil : Run Step ⟨listening, []⟩ [] _) (.server .newConnection)
    (.server rfl .newConnection) rfl
  have hentered := run_then hfirst (.enter 0 .forceClose) (.enter (by decide) rfl) rfl
  have hclosed := run_then hentered (.server (.close 0)) (.server rfl (.close (by decide))) rfl
  have hremoved := run_then hclosed (.server (.closeCallback 0))
    (.server rfl (.closeCallback List.mem_cons_self)) rfl
  have hstored := run_then hremoved (.store 0 (some .forceCloseInLoop))
    (.store List.mem_cons_self) rfl
  have hqueued := run_then hstored (.queue 0 .forceCloseInLoop) (.queue List.mem_cons_self) rfl
  have hdestroyed := run_then hqueued (.server (.connectDestroyed 0))
    (.server rfl (.connectDestroyed List.mem_cons_self)) rfl
  have hagain := run_then hdestroyed (.server (.functor 0 (.wrote 0)))
    (.server rfl (.functor (by decide) rfl)) rfl
  exact ⟨_, _, hagain, rfl, rfl, ⟨rfl, rfl⟩, .server rfl (.closeCallback List.mem_cons_self)⟩

end Examples

end ServerCalls
end ProtoRpc
