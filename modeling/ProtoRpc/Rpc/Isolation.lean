import ProtoRpc.Rpc.DeferredReplies
import ProtoRpc.Rpc.Traffic

/-!
Each connection of a server is an endpoint of its own. What goes through the channel of one
connection, in a run of the server in which no closure loses its channel, is a run of one
`Endpoint`: the messages that it has received and the replies that it has sent are those of
this connection, in order, whatever the other connections and their services do meanwhile.
-/
namespace ProtoRpc

/-- A message as it passes a channel of a server. -/
inductive Passage where
  | received (m : RpcMessage)
  | sent (m : RpcMessage)

namespace Endpoint
variable {M : Type}

def passage : ProtoRpc.Event M → Option Passage
  | .received m => some (.received m)
  | .sent (.reply _) m => some (.sent m)
  | _ => none

/-- What a channel has received and replied, the earliest first. -/
def passages (h : List (ProtoRpc.Event M)) : List Passage := (h.filterMap passage).reverse

theorem passages_cons (ev : ProtoRpc.Event M) (h : List (ProtoRpc.Event M)) :
    passages (ev :: h) = passages h ++ (passage ev).toList := by
  cases hev : passage ev <;> simp [passages, hev]

end Endpoint

namespace Passage

/-- The requests among the messages. -/
def requests (passed : List Passage) : List RpcMessage :=
  passed.filterMap fun
    | .received m => if m.type = .request then some m else none
    | .sent _ => none

def replies (passed : List Passage) : List RpcMessage :=
  passed.filterMap fun
    | .received _ => none
    | .sent m => some m

variable {M : Type}

theorem requests_passages (h : List (Event M)) :
    requests (Endpoint.passages h) = ProtoRpc.requests h := by
  rw [requests, Endpoint.passages, List.filterMap_reverse, List.filterMap_filterMap,
    ProtoRpc.requests]
  congr 1
  refine List.filterMap_congr ?_
  intro ev _
  cases ev with
  | sent origin m => cases origin <;> rfl
  | _ => rfl

theorem replies_passages (h : List (Event M)) :
    replies (Endpoint.passages h) = ((ProtoRpc.replies h).map Prod.snd).reverse := by
  rw [replies, Endpoint.passages, List.filterMap_reverse, List.filterMap_filterMap,
    ProtoRpc.replies, List.map_filterMap]
  congr 1
  refine List.filterMap_congr ?_
  intro ev _
  cases ev with
  | sent origin m => cases origin <;> rfl
  | _ => rfl

end Passage

namespace Hosting
open Transition

variable {M : Type} {wire : Wire} {lib : Protobuf M} {w w' : Hosting M} {k n : Nat} {ev : Event M}

/-- The reply to a request that is refused. -/
def refusal (lib : Protobuf M) (services : ServiceTable M) (m : RpcMessage) : List Passage :=
  match m.type with
  | .request =>
      match RpcChannel.dispatch lib (some services) m with
      | .refuse error => [.sent (RpcChannel.errorReply m.id error)]
      | .invoke _ _ _ => []
  | _ => []

/-- What passes channel `n` of connection `k`. -/
def Event.passages (lib : Protobuf M) (services : ServiceTable M) (k n : Nat) :
    Event M → List Passage
  | .receive j m _ => if j = k then .received m :: refusal lib services m else []
  | .done c response _ _ =>
      if c.channel = n then [.sent (RpcChannel.doneReply lib response c.id)] else []
  | _ => []

/-- No message passes. -/
def Event.silent : Event M → Prop
  | .receive _ _ _ | .done _ _ _ _ => False
  | _ => True

theorem Event.passages_silent (hsilent : ev.silent) (services : ServiceTable M) :
    ev.passages lib services k n = [] := by
  cases ev with
  | receive | done => exact hsilent.elim
  | _ => rfl

/-- Connection `k` is up as `c`, and has been given its channel. -/
def withChannel (w : Hosting M) (k : Nat) (id : BitVec 64) (c : TcpConnection) : Hosting M :=
  { w with
    conns := Function.update w.conns k c
    channels := Function.update w.channels w.allocated
      ((RpcChannel.new (some c) id).setServices (some w.server.services))
    connOf := Function.update w.connOf w.allocated k
    allocated := w.allocated + 1
    messageCallback := Function.update w.messageCallback k (some w.allocated)
    context := Function.update w.context k (some w.allocated) }

/-- What a step does, all of it. -/
inductive Change (wire : Wire) (lib : Protobuf M) (w : Hosting M) : Event M → Hosting M → Prop where
  | moved {ev : Event M} {k accepted : Nat} {c : TcpConnection} (hsilent : ev.silent)
      (hborn : c.state = .kConnecting → (w.conns k).state = .kConnecting) :
      Change wire lib w ev { w.adopt k c with accepted := accepted }
  | up {k : Nat} {id : BitVec 64} {c : TcpConnection}
      (hconnecting : (w.conns k).state = .kConnecting) (hstate : c.state = .kConnected) :
      Change wire lib w (.connectEstablished k id) (w.withChannel k id c)
  | down {ev : Event M} {k : Nat} {c : TcpConnection} (hsilent : ev.silent)
      (hdown : w.TakesDown k ev) (hstate : c.state = .kDisconnected) :
      Change wire lib w ev ((w.adopt k c).setContext k none)
  | received {k n : Nat} {m : RpcMessage} {r : WriteResult} (hopen : w.Open k)
      (hcontext : w.context k = some n) :
      Change wire lib w (.receive k m r) (w.onRpcMessage wire lib n m r)
  | ran {c : DoneClosure M} {before after : List (DoneClosure M)} {response : M}
      {inLoopThread : Bool} {r : WriteResult} (hclosures : w.closures = before ++ c :: after) :
      Change wire lib w (.done c response inLoopThread r)
        ({ w with closures := before ++ after }.runDone wire lib c response inLoopThread r)

theorem handleClose_eq (hw' : w.handleClose k = .ok w') :
    ∃ c, c.state = .kDisconnected ∧ w' = (w.adopt k c).setContext k none := by
  obtain ⟨c, hc, hrest⟩ := bind_ok_inv hw'
  obtain ⟨-, hclosed⟩ := TcpConnection.handleClose_inv hc
  have hstate : c.state = .kDisconnected := by rw [hclosed]
  have hnot : ((w.adopt k c).conns k).state ≠ .kConnected := by
    simp [Hosting.adopt, hstate]
  rw [onConnection_down hnot] at hrest
  cases hrest
  exact ⟨c, hstate, rfl⟩

theorem adopt_adopt (c c' : TcpConnection) : (w.adopt k c).adopt k c' = w.adopt k c' := by
  simp [Hosting.adopt]

theorem change_connectEstablished (h : Owned w) {id : BitVec 64}
    (hw' : w.connectEstablished k id = .ok w') :
    Change wire lib w (.connectEstablished k id) w' := by
  obtain ⟨c, hc, hrest⟩ := bind_ok_inv hw'
  obtain ⟨hconnecting, hup⟩ := TcpConnection.connectEstablished_inv hc
  have hnone : w.context k = none := by
    cases hcontext : w.context k with
    | none => rfl
    | some n => exact absurd (h.context k n hcontext).1 (not_open_of_connecting hconnecting)
  have hstate : c.state = .kConnected := by rw [hup]
  have hconnected : ((w.adopt k c).conns k).state = .kConnected := by
    simpa [Hosting.adopt] using hstate
  rw [onConnection_up hconnected] at hrest
  cases hrest
  have hchange : Change wire lib w (.connectEstablished k id) _ := .up hconnecting hstate
  simpa [withChannel, Hosting.adopt, setContext, hnone] using hchange

theorem change_runFunctor {r : WriteResult} {f : Functor} {rest : List Functor}
    (hfunctors : (w.conns k).pendingFunctors = f :: rest)
    (hw' : (w.adopt k { w.conns k with pendingFunctors := rest }).runFunctor k r f = .ok w') :
    Change wire lib w (.functor k r) w' := by
  have hself : (w.adopt k { w.conns k with pendingFunctors := rest }).conns k =
      { w.conns k with pendingFunctors := rest } := Function.update_self _ _ _
  by_cases hf : f = .forceCloseInLoop
  · subst hf
    rw [Hosting.runFunctor, hself] at hw'
    split at hw'
    · rename_i hopen
      obtain ⟨c, hc, rfl⟩ := handleClose_eq hw'
      rw [adopt_adopt]
      refine .down trivial ⟨rfl, hopen, ?_⟩ hc
      rw [hfunctors]
      rfl
    · cases hw'
      exact .moved trivial id
  · have hrun : (do
        let c ← ({ w.conns k with pendingFunctors := rest } : TcpConnection).runFunctor r f
        pure ((w.adopt k { w.conns k with pendingFunctors := rest }).adopt k c)) =
          Except.ok w' := by
      cases f with
      | forceCloseInLoop => exact absurd rfl hf
      | _ =>
          rw [Hosting.runFunctor, hself] at hw'
          · exact hw'
          · exact fun hforce => by cases hforce
    obtain ⟨c, hc, hrest⟩ := bind_ok_inv hrun
    cases hrest
    rw [adopt_adopt]
    refine .moved trivial ?_
    rw [TcpConnection.runFunctor_state hf hc]
    exact id

theorem Owned.change (h : Owned w) (hstep : Step wire lib w ev w') : Change wire lib w ev w' := by
  rw [Step] at hstep
  generalize hr : (Except.ok w' : Except Fault (Hosting M)) = r at hstep
  cases hstep with
  | newConnection =>
      cases hr
      exact .moved trivial fun _ => h.unborn _ (Nat.le_refl _)
  | connectEstablished hk => exact change_connectEstablished h hr.symm
  | operate hk =>
      obtain ⟨c, hc, hrest⟩ := bind_ok_inv hr.symm
      cases hrest
      exact .moved trivial fun hstate => (ConnOp.run_keeps hc).connecting_iff.mp hstate
  | write hk =>
      obtain ⟨c, hc, hrest⟩ := bind_ok_inv hr.symm
      cases hrest
      refine .moved trivial ?_
      rw [TcpConnection.handleWrite_state hc]
      exact id
  | functor hk hfunctors => exact change_runFunctor hfunctors hr.symm
  | receive hopen hcallback =>
      cases hr
      exact .received hopen (h.callback _ _ hopen hcallback)
  | done hclosures =>
      cases hr
      exact .ran hclosures
  | close hk =>
      obtain ⟨c, hc, rfl⟩ := handleClose_eq hr.symm
      exact .down trivial rfl hc
  | @connectDestroyed k hk =>
      cases hr
      by_cases hconnected : (w.conns k).state = .kConnected
      · rw [connectDestroyed_connected hconnected]
        exact .down trivial ⟨rfl, hconnected⟩ rfl
      · rw [Hosting.connectDestroyed, if_neg hconnected]
        have hsame : { w.adopt k (w.conns k) with accepted := w.accepted } = w := by
          simp [Hosting.adopt]
        have hchange : Change wire lib w (.connectDestroyed k)
            { w.adopt k (w.conns k) with accepted := w.accepted } := .moved trivial id
        rwa [hsame] at hchange

/-- A connection that has a channel has been established, and has had no other. -/
structure Numbered (w : Hosting M) : Prop where
  born : ∀ n < w.allocated, (w.conns (w.connOf n)).state ≠ .kConnecting
  one : ∀ m n, m < w.allocated → n < w.allocated → w.connOf m = w.connOf n → m = n

theorem numbered_new (server : RpcServer M) : Numbered (new server) where
  born := fun _ hn => absurd hn (Nat.not_lt_zero _)
  one := fun _ _ hm => absurd hm (Nat.not_lt_zero _)

theorem adoptChannel_state {ch : RpcChannel M} {j : Nat}
    (hstate : (ch.conn.getD (w.conns (w.connOf n))).state = (w.conns (w.connOf n)).state) :
    ((w.adoptChannel n ch).conns j).state = (w.conns j).state := by
  change (Function.update w.conns (w.connOf n) (ch.conn.getD (w.conns (w.connOf n))) j).state = _
  by_cases hj : j = w.connOf n
  · rw [hj, Function.update_self, hstate]
  · rw [Function.update_of_ne hj]

theorem onRpcMessage_state (m : RpcMessage) (r : WriteResult) (j : Nat) :
    ((w.onRpcMessage wire lib n m r).conns j).state = (w.conns j).state := by
  rw [Hosting.onRpcMessage]
  split
  · refine adoptChannel_state ?_
    rw [handleResponseMsg_conn]
    rfl
  · split
    · exact adoptChannel_state (send_keeps w n true r _)
    · rfl
  · rfl

theorem runDone_state {c : DoneClosure M} {closures : List (DoneClosure M)} (response : M)
    (inLoopThread : Bool) (r : WriteResult) (j : Nat) :
    (({ w with closures := closures }.runDone wire lib c response inLoopThread r).conns j).state =
      (w.conns j).state :=
  adoptChannel_state (w := { w with
    closures := closures
    runs := (c.channel, !w.destroyed.contains c.channel) :: w.runs })
    (send_keeps w c.channel inLoopThread r _)

theorem connecting_of_update {c : TcpConnection} {j : Nat}
    (hborn : c.state = .kConnecting → (w.conns k).state = .kConnecting)
    (hstate : (Function.update w.conns k c j).state = .kConnecting) :
    (w.conns j).state = .kConnecting := by
  by_cases hj : j = k
  · subst hj
    rw [Function.update_self] at hstate
    exact hborn hstate
  · rwa [Function.update_of_ne hj] at hstate

/-- No step takes a connection back to where it started. -/
theorem Change.connecting (h : Change wire lib w ev w')
    (hstate : (w'.conns k).state = .kConnecting) : (w.conns k).state = .kConnecting := by
  cases h with
  | moved _ hborn => exact connecting_of_update hborn hstate
  | up hconnecting _ => exact connecting_of_update (fun _ => hconnecting) hstate
  | down _ _ hdown =>
      refine connecting_of_update (fun hc => ?_) hstate
      cases hdown.symm.trans hc
  | received _ _ => rwa [onRpcMessage_state] at hstate
  | ran _ => rwa [runDone_state] at hstate

/-- The channels that are there keep their connections, and there is one more at most. -/
theorem Change.connOf (h : Change wire lib w ev w') :
    (w'.allocated = w.allocated ∧ w'.connOf = w.connOf) ∨
      ∃ k id c, (w.conns k).state = .kConnecting ∧ c.state = .kConnected ∧
        w' = w.withChannel k id c := by
  cases h with
  | up hconnecting hstate => exact Or.inr ⟨_, _, _, hconnecting, hstate, rfl⟩
  | @received k n m r _ _ =>
      refine Or.inl ?_
      rw [onRpcMessage]
      split
      · exact ⟨rfl, rfl⟩
      · split <;> exact ⟨rfl, rfl⟩
      · exact ⟨rfl, rfl⟩
  | moved | down | ran => exact Or.inl ⟨rfl, rfl⟩

theorem Numbered.change (h : Numbered w) (hchange : Change wire lib w ev w') : Numbered w' := by
  rcases hchange.connOf with ⟨hallocated, hconnOf⟩ | ⟨k, id, c, hconnecting, hup, rfl⟩
  · refine ⟨?_, ?_⟩
    · rw [hallocated, hconnOf]
      exact fun n hn hstate => h.born n hn (hchange.connecting hstate)
    · rw [hallocated, hconnOf]
      exact h.one
  · have hold : ∀ n < w.allocated, (w.withChannel k id c).connOf n = w.connOf n :=
      fun n hn => Function.update_of_ne (Nat.ne_of_lt hn) _ _
    have hnew : (w.withChannel k id c).connOf w.allocated = k := Function.update_self _ _ _
    have hapart : ∀ n < w.allocated, w.connOf n ≠ k := by
      rintro n hn rfl
      exact h.born n hn hconnecting
    have hcases : ∀ n < (w.withChannel k id c).allocated, n < w.allocated ∨ n = w.allocated :=
      fun n hn => Nat.lt_succ_iff_lt_or_eq.mp hn
    refine ⟨?_, ?_⟩
    · intro n hn
      rcases hcases n hn with hlt | rfl
      · rw [hold n hlt]
        exact fun hstate => h.born n hlt (hchange.connecting hstate)
      · have hstate : ((w.withChannel k id c).conns k).state = .kConnected := by
          simpa [withChannel] using hup
        rw [hnew, hstate]
        decide
    · intro m n hm hn hsame
      rcases hcases m hm with hmlt | rfl
      · rcases hcases n hn with hnlt | rfl
        · rw [hold m hmlt, hold n hnlt] at hsame
          exact h.one m n hmlt hnlt hsame
        · rw [hold m hmlt, hnew] at hsame
          exact absurd hsame (hapart m hmlt)
      · rcases hcases n hn with hnlt | rfl
        · rw [hold n hnlt, hnew] at hsame
          exact absurd hsame.symm (hapart n hnlt)
        · rfl

/-- Endpoint `e` is as channel `n` is, between the events of its loop. -/
structure Mirrors (w : Hosting M) (n : Nat) (e : Endpoint M) : Prop where
  channel : e.channel = w.channel n
  handling : e.handling = .idle
  calling : e.calling = []
  outstandings : (w.channels n).outstandings = ∅
  services : (w.channels n).services = some w.server.services
  alive : e.alive = true ↔ n ∉ w.destroyed
  closures : e.closures.map (fun c => (⟨n, c.response, c.id⟩ : DoneClosure M)) =
    w.closures.filter fun c => c.channel = n

section
variable {e : Endpoint M}

/-- The channel is left alone, and its connection may be another. -/
theorem Mirrors.reconnect (h : Mirrors w n e) (hchannel : w'.channels n = w.channels n)
    (hserver : w'.server = w.server) (halive : n ∈ w'.destroyed ↔ n ∈ w.destroyed)
    (hclosures : (w'.closures.filter fun c => c.channel = n) =
      w.closures.filter fun c => c.channel = n) :
    ∃ e', Endpoint.Step wire lib e (.connection (some (w'.conns (w'.connOf n)))) e' ∧
      Mirrors w' n e' ∧ e'.history = e.history := by
  refine ⟨_, .connection _, ?_, rfl⟩
  refine ⟨?_, h.handling, h.calling, ?_, ?_, ?_, ?_⟩
  · rw [h.channel, Hosting.channel, Hosting.channel, hchannel]
    rfl
  · rw [hchannel]
    exact h.outstandings
  · rw [hchannel, hserver]
    exact h.services
  · rw [halive]
    exact h.alive
  · rw [hclosures]
    exact h.closures

/-- The channel is left as `ch`, and the endpoint has it so. -/
theorem Mirrors.adoptChannel (h : Mirrors w n e) {ch : RpcChannel M} {c : TcpConnection}
    (hconn : ch.conn = some c) (houtstandings : ch.outstandings = ∅)
    (hservices : ch.services = some w.server.services) {e' : Endpoint M}
    (hchannel : e'.channel = ch) (hhandling : e'.handling = .idle) (hcalling : e'.calling = [])
    (halive : e'.alive = e.alive) (hclosures : e'.closures = e.closures) :
    Mirrors (w.adoptChannel n ch) n e' := by
  have hself : (w.adoptChannel n ch).channels n = ch := Function.update_self _ _ _
  refine ⟨?_, hhandling, hcalling, ?_, ?_, ?_, ?_⟩
  · have hown : (w.adoptChannel n ch).conns (w.connOf n) = c := by
      simp [Hosting.adoptChannel, Hosting.adopt, hconn]
    change _ = ((w.adoptChannel n ch).channels n).setConnection
      (some ((w.adoptChannel n ch).conns (w.connOf n)))
    rw [hself, hown, hchannel, RpcChannel.setConnection, ← hconn]
  · rw [hself]
    exact houtstandings
  · rw [hself]
    exact hservices
  · rw [halive]
    exact h.alive
  · rw [hclosures]
    exact h.closures

theorem send_conn (wire : Wire) (ch : RpcChannel M) {c : TcpConnection} (hconn : ch.conn = some c)
    (inLoopThread : Bool) (r : WriteResult) (m : RpcMessage) :
    ∃ c', (ch.send wire inLoopThread r m).1.conn = some c' := by
  rw [RpcChannel.send]
  cases ProtoRpcCodec.send wire ch.conn inLoopThread r m with
  | ok c' => exact ⟨c', rfl⟩
  | error fault => exact ⟨c, hconn⟩

theorem Mirrors.response (h : Mirrors w n e) (halive : e.alive = true) {m : RpcMessage}
    (htype : m.type = .response) :
    ∃ e', Endpoint.Step wire lib e (.receive m) e' ∧
      Mirrors (w.adoptChannel n ((w.channel n).handleResponseMsg lib m).2) n e' ∧
      e'.history = .received m :: e.history := by
  have htake : e.channel.takeOutstanding m.id = (⟨none, none⟩, e.channel) := by
    refine Endpoint.takeOutstanding_of_none ?_
    rw [h.channel]
    change (w.channels n).outstandings.lookup m.id = none
    rw [h.outstandings]
    exact Finmap.lookup_empty _
  have hsame : ((w.channel n).handleResponseMsg lib m).2 = e.channel := by
    change ((w.channel n).takeOutstanding m.id).2 = _
    rw [← h.channel, htake]
  refine ⟨_, .response halive h.handling htype, ?_, rfl⟩
  rw [hsame]
  refine h.adoptChannel (by rw [h.channel]; rfl) ?_ ?_ ?_ ?_ h.calling rfl rfl
  · rw [h.channel]
    exact h.outstandings
  · rw [h.channel]
    exact h.services
  · rw [htake]
  · rw [htake]
    rfl

theorem Mirrors.refused (h : Mirrors w n e) (halive : e.alive = true) {m : RpcMessage}
    (htype : m.type = .request) {error : ErrorCode}
    (hdispatch : RpcChannel.dispatch lib (w.channel n).services m = .refuse error)
    (r : WriteResult) :
    ∃ e₁ e', Endpoint.Step wire lib e (.receive m) e₁ ∧ Endpoint.Step wire lib e₁ (.refuse r) e' ∧
      Mirrors (w.adoptChannel n
        ((w.channel n).send wire true r (RpcChannel.errorReply m.id error)).1) n e' ∧
      Endpoint.passages e'.history = Endpoint.passages e.history ++
        [.received m, .sent (RpcChannel.errorReply m.id error)] := by
  obtain ⟨c, hc⟩ := send_conn wire (w.channel n) rfl true r
    (RpcChannel.errorReply m.id error)
  refine ⟨_, _, .refused halive h.handling htype (by rw [h.channel]; exact hdispatch),
    .refuse rfl r, ?_, ?_⟩
  · refine h.adoptChannel hc ?_ ?_ ?_ rfl h.calling rfl rfl
    · rw [RpcChannel.send_outstandings]
      exact h.outstandings
    · rw [RpcChannel.send_services]
      exact h.services
    · rw [h.channel]
  · rw [Endpoint.passages_cons, Endpoint.passages_cons, List.append_assoc]
    rfl

theorem Mirrors.invoked (h : Mirrors w n e) (halive : e.alive = true) {m : RpcMessage}
    (htype : m.type = .request) {method : MethodDescriptor} {request response : M}
    (hdispatch : RpcChannel.dispatch lib (w.channel n).services m =
      .invoke method request response) :
    ∃ e₁ e', Endpoint.Step wire lib e (.receive m) e₁ ∧ Endpoint.Step wire lib e₁ .returned e' ∧
      Mirrors { w with closures := ⟨n, response, m.id⟩ :: w.closures } n e' ∧
      Endpoint.passages e'.history = Endpoint.passages e.history ++ [.received m] := by
  refine ⟨_, _, .invoke halive h.handling htype (by rw [h.channel]; exact hdispatch),
    .returned rfl, ?_, ?_⟩
  · refine ⟨h.channel, rfl, h.calling, h.outstandings, h.services, h.alive, ?_⟩
    rw [List.map_cons, h.closures]
    simp
  · rw [Endpoint.passages_cons, Endpoint.passages_cons, List.append_assoc]
    rfl

theorem Mirrors.completed (h : Mirrors w n e) (halive : e.alive = true) {c : DoneClosure M}
    (hc : c.channel = n) {before after : List (DoneClosure M)}
    (hclosures : w.closures = before ++ c :: after) (response : M) (inLoopThread : Bool)
    (r : WriteResult) :
    ∃ e', Endpoint.Step wire lib e (.complete inLoopThread r) e' ∧
      Mirrors ({ w with closures := before ++ after }.runDone wire lib c response inLoopThread r)
        n e' ∧
      Endpoint.passages e'.history = Endpoint.passages e.history ++
        [.sent (RpcChannel.doneReply lib response c.id)] := by
  obtain ⟨j, response₀, id⟩ := c
  obtain rfl : j = n := hc
  have hsplit := h.closures
  rw [hclosures, List.filter_append, List.filter_cons_of_pos (by simp),
    List.map_eq_append_iff] at hsplit
  obtain ⟨held, rest, hheld, hbefore, hrest⟩ := hsplit
  obtain ⟨d, rest, rfl, hd, hafter⟩ := List.map_eq_cons_iff.mp hrest
  obtain ⟨-, -, rfl⟩ := DoneClosure.mk.inj hd
  obtain ⟨c', hc'⟩ := send_conn wire (w.channel j) rfl inLoopThread r
    (RpcChannel.doneReply lib response d.id)
  have hpopped : Mirrors
      { w with
        closures := before ++ after
        runs := (j, !w.destroyed.contains j) :: w.runs } j { e with closures := held ++ rest } := by
    refine ⟨h.channel, h.handling, h.calling, h.outstandings, h.services, h.alive, ?_⟩
    rw [List.map_append, hbefore, hafter, List.filter_append]
  refine ⟨_, .complete halive hheld response inLoopThread r, ?_, ?_⟩
  · refine hpopped.adoptChannel hc' ?_ ?_ ?_ h.handling h.calling rfl rfl
    · rw [RpcChannel.send_outstandings]
      exact h.outstandings
    · rw [RpcChannel.send_services]
      exact h.services
    · rw [h.channel]
      rfl
  · rw [Endpoint.passages_cons, Endpoint.passages_cons, List.append_assoc]
    rfl

/-- Channel `n` is as an endpoint is that has taken some steps, and what has passed it is
what the event lets pass. -/
def Carried (wire : Wire) (lib : Protobuf M) (e : Endpoint M) (passed : List Passage)
    (w' : Hosting M) (n : Nat) : Prop :=
  ∃ labels e', Run (Endpoint.Step wire lib) e labels e' ∧ Mirrors w' n e' ∧
    Endpoint.passages e'.history = Endpoint.passages e.history ++ passed

theorem carried_reconnect (h : Mirrors w n e) (hchannel : w'.channels n = w.channels n)
    (hserver : w'.server = w.server) (halive : n ∈ w'.destroyed ↔ n ∈ w.destroyed)
    (hclosures : (w'.closures.filter fun c => c.channel = n) =
      w.closures.filter fun c => c.channel = n) : Carried wire lib e [] w' n := by
  obtain ⟨e', hstep, hmirrors, hhistory⟩ := h.reconnect hchannel hserver halive hclosures
  exact ⟨_, e', Run.nil.snoc hstep, hmirrors, by rw [hhistory, List.append_nil]⟩

/-- A channel without calls is destroyed. -/
theorem Mirrors.destroyed (h : Mirrors w n e) (halive : e.alive = true)
    (hdestroyed : n ∈ w'.destroyed) (hchannel : w'.channel n = w.channel n)
    (htable : w'.channels n = w.channels n) (hserver : w'.server = w.server)
    (hclosures : w'.closures = w.closures) :
    ∃ e', Endpoint.Step wire lib e .destroy e' ∧ Mirrors w' n e' ∧ e'.history = e.history := by
  have hfreed : (([] : List (BitVec 64 × OutstandingCall M)) : Multiset _) =
      Ledger.pairs e.channel.outstandings := by
    rw [h.channel]
    change _ = Ledger.pairs (w.channels n).outstandings
    rw [h.outstandings]
    rfl
  refine ⟨_, .destroy halive h.handling h.calling hfreed, ?_, rfl⟩
  refine ⟨h.channel.trans hchannel.symm, h.handling, h.calling, ?_, ?_, ?_, ?_⟩
  · rw [htable]
    exact h.outstandings
  · rw [htable, hserver]
    exact h.services
  · exact ⟨fun hdead => (by cases hdead), fun hfree => absurd hdestroyed hfree⟩
  · rw [hclosures]
    exact h.closures

/-- The channel goes with its connection. -/
theorem carried_down (h : Mirrors w n e) (howned : Owned w) {c : TcpConnection} :
    Carried wire lib e [] ((w.adopt k c).setContext k none) n := by
  by_cases hown : w.context k = some n
  · have hfree := (howned.context k n hown).2.2.1
    obtain ⟨e₁, hstep, h₁, hhistory⟩ :=
      @Mirrors.reconnect M wire lib w (w.adopt k c) n e h rfl rfl Iff.rfl rfl
    have hgone : n ∈ ((w.adopt k c).setContext k none).destroyed := by
      change n ∈ w.destroyed ++ (w.context k).toList
      simp [hown]
    obtain ⟨e', hstep', h', hhistory'⟩ := h₁.destroyed (h₁.alive.mpr hfree) hgone rfl rfl rfl rfl
    refine ⟨_, e', (Run.nil.snoc hstep).snoc hstep', h', ?_⟩
    rw [hhistory', hhistory, List.append_nil]
  · refine carried_reconnect h rfl rfl ?_ rfl
    change n ∈ w.destroyed ++ (w.context k).toList ↔ _
    simp [hown]

/-- A message that another channel gets. -/
theorem carried_elsewhere (h : Mirrors w n e) {j : Nat} (hj : n ≠ j) (m : RpcMessage)
    (r : WriteResult) : Carried wire lib e [] (w.onRpcMessage wire lib j m r) n := by
  rw [onRpcMessage]
  split
  · exact carried_reconnect h (Function.update_of_ne hj _ _) rfl Iff.rfl rfl
  · split
    · exact carried_reconnect h (Function.update_of_ne hj _ _) rfl Iff.rfl rfl
    · refine carried_reconnect h rfl rfl Iff.rfl ?_
      exact List.filter_cons_of_neg (by simpa using hj.symm)
  · exact carried_reconnect h rfl rfl Iff.rfl rfl

theorem carried_receive (h : Mirrors w n e) (halive : e.alive = true) (m : RpcMessage)
    (r : WriteResult) :
    Carried wire lib e (.received m :: refusal lib w.server.services m)
      (w.onRpcMessage wire lib n m r) n := by
  have hservices : (w.channel n).services = some w.server.services := h.services
  rw [onRpcMessage, refusal]
  cases htype : m.type with
  | response =>
      obtain ⟨e', hstep, hmirrors, hhistory⟩ := h.response halive htype
      refine ⟨_, e', Run.nil.snoc hstep, hmirrors, ?_⟩
      rw [hhistory, Endpoint.passages_cons]
      rfl
  | request =>
      dsimp only
      rw [hservices]
      cases hdispatch : RpcChannel.dispatch lib (some w.server.services) m with
      | refuse error =>
          obtain ⟨e₁, e', hstep, hstep', hmirrors, hpassages⟩ := h.refused halive htype
            (hservices ▸ hdispatch) r
          exact ⟨_, e', (Run.nil.snoc hstep).snoc hstep', hmirrors, hpassages⟩
      | invoke method request response =>
          obtain ⟨e₁, e', hstep, hstep', hmirrors, hpassages⟩ := h.invoked halive htype
            (hservices ▸ hdispatch)
          exact ⟨_, e', (Run.nil.snoc hstep).snoc hstep', hmirrors, hpassages⟩
  | unrecognized value hvalue =>
      have hother : m.type ≠ .response ∧ m.type ≠ .request := by simp [htype]
      refine ⟨_, _, Run.nil.snoc (.ignored halive h.handling hother.1 hother.2), ?_, ?_⟩
      · exact ⟨h.channel, h.handling, h.calling, h.outstandings, h.services, h.alive, h.closures⟩
      · rw [Endpoint.passages_cons]
        rfl

/-- Every step of the server, as channel `n` sees it. -/
theorem Mirrors.change (h : Mirrors w n e) (hlive : Live w) (hnumbered : Numbered w)
    (hn : n < w.allocated) (hchange : Change wire lib w ev w') :
    Carried wire lib e (ev.passages lib w.server.services (w.connOf n) n) w' n := by
  cases hchange with
  | moved hsilent _ =>
      rw [ev.passages_silent hsilent]
      exact carried_reconnect h rfl rfl Iff.rfl rfl
  | up _ _ =>
      refine carried_reconnect h ?_ rfl Iff.rfl rfl
      exact Function.update_of_ne (Nat.ne_of_lt hn) _ _
  | down hsilent _ _ =>
      rw [ev.passages_silent hsilent]
      exact carried_down h hlive.owned
  | @received k j m r hopen hcontext =>
      obtain ⟨-, hj, hfree, hconn⟩ := hlive.owned.context k j hcontext
      rw [Event.passages]
      by_cases hsame : n = j
      · subst hsame
        rw [if_pos hconn.symm]
        exact carried_receive h (h.alive.mpr hfree) m r
      · rw [if_neg]
        · exact carried_elsewhere h hsame m r
        · rintro rfl
          exact hsame (hnumbered.one n j hn hj hconn.symm)
  | @ran c before after response inLoopThread r hclosures =>
      rw [Event.passages]
      by_cases hsame : c.channel = n
      · rw [if_pos hsame]
        have hmem : c ∈ w.closures := by
          rw [hclosures]
          exact List.mem_append_right _ List.mem_cons_self
        obtain ⟨e', hstep, hmirrors, hpassages⟩ := h.completed
          (h.alive.mpr (hsame ▸ hlive.closures c hmem)) hsame hclosures response inLoopThread r
        exact ⟨_, e', Run.nil.snoc hstep, hmirrors, hpassages⟩
      · rw [if_neg hsame]
        refine carried_reconnect h (Function.update_of_ne (Ne.symm hsame) _ _) rfl Iff.rfl ?_
        change (before ++ after).filter _ = _
        rw [hclosures, List.filter_append, List.filter_append,
          List.filter_cons_of_neg (by simpa using hsame)]

end

/-- The run of the endpoint that channel `n` has been. -/
def Followed (wire : Wire) (lib : Protobuf M) (services : ServiceTable M) (ls : List (Event M))
    (w : Hosting M) (n : Nat) : Prop :=
  ∃ start id labels e, start.state = .kConnected ∧
    Run (Endpoint.Step wire lib)
      (Endpoint.new ((RpcChannel.new (some start) id).setServices (some services))) labels e ∧
    Mirrors w n e ∧
    Endpoint.passages e.history = ls.flatMap (Event.passages lib services (w.connOf n) n)

/-- What a run that no closure loses its channel in has come to. -/
structure Hosted (wire : Wire) (lib : Protobuf M) (server : RpcServer M) (ls : List (Event M))
    (w : Hosting M) : Prop where
  live : Live w
  serves : w.server = server
  numbered : Numbered w
  /-- nothing has passed a channel that is not there yet -/
  unheard : ∀ k n, (w.conns k).state = .kConnecting → w.allocated ≤ n →
    ls.flatMap (Event.passages lib server.services k n) = []
  followed : ∀ n < w.allocated, Followed wire lib server.services ls w n

theorem Change.allocated_le (h : Change wire lib w ev w') : w.allocated ≤ w'.allocated := by
  rcases h.connOf with ⟨hallocated, -⟩ | ⟨k, id, c, -, -, rfl⟩
  · exact hallocated.ge
  · exact Nat.le_succ _

theorem Change.server_eq (h : Change wire lib w ev w') : w'.server = w.server := by
  cases h with
  | @received k n m r _ _ =>
      rw [onRpcMessage]
      split
      · rfl
      · split <;> rfl
      · rfl
  | _ => rfl

/-- Nothing passes a channel before it is there. -/
theorem Change.unheard (h : Change wire lib w ev w') (howned : Owned w)
    (hstate : (w.conns k).state = .kConnecting) (hn : w.allocated ≤ n)
    (services : ServiceTable M) : ev.passages lib services k n = [] := by
  cases h with
  | moved hsilent _ | down hsilent _ _ => exact Event.passages_silent hsilent services
  | up _ _ => rfl
  | received hopen _ =>
      refine if_neg ?_
      rintro rfl
      exact absurd hopen (not_open_of_connecting hstate)
  | @ran c before after response inLoopThread r hclosures =>
      refine if_neg ?_
      rintro rfl
      have hlt := howned.closures c (hclosures ▸ List.mem_append_right _ List.mem_cons_self)
      omega

/-- A channel that has just been made. -/
theorem mirrors_withChannel {c : TcpConnection} (howned : Owned w) (id : BitVec 64) :
    Mirrors (w.withChannel k id c) w.allocated
      (Endpoint.new ((RpcChannel.new (some c) id).setServices (some w.server.services))) := by
  refine ⟨?_, rfl, rfl, ?_, ?_, ?_, ?_⟩
  · simp [withChannel, Hosting.channel, Endpoint.new, RpcChannel.setConnection,
      RpcChannel.setServices, RpcChannel.new]
  · simp [withChannel, RpcChannel.setServices, RpcChannel.new]
  · simp [withChannel, RpcChannel.setServices]
  · exact ⟨fun _ hfreed => absurd (howned.freed _ hfreed) (Nat.lt_irrefl _), fun _ => rfl⟩
  · refine (List.filter_eq_nil_iff.mpr ?_).symm
    intro d hd
    have hlt := howned.closures d hd
    simpa using Nat.ne_of_lt hlt

theorem Change.channels (h : Change wire lib w ev w') (howned : Owned w)
    (hn : n < w'.allocated) : (n < w.allocated ∧ w'.connOf n = w.connOf n) ∨
      ∃ start id, start.state = .kConnected ∧ (w.conns (w'.connOf n)).state = .kConnecting ∧
        w.allocated ≤ n ∧ Mirrors w' n
          (Endpoint.new ((RpcChannel.new (some start) id).setServices (some w.server.services))) := by
  rcases h.connOf with ⟨hallocated, hconnOf⟩ | ⟨k, id, c, hconnecting, hup, rfl⟩
  · rw [hconnOf]
    exact Or.inl ⟨hallocated ▸ hn, rfl⟩
  · rcases Nat.lt_succ_iff_lt_or_eq.mp hn with hlt | rfl
    · exact Or.inl ⟨hlt, Function.update_of_ne (Nat.ne_of_lt hlt) _ _⟩
    · refine Or.inr ⟨c, id, hup, ?_, Nat.le_refl _, mirrors_withChannel howned id⟩
      simpa [withChannel] using hconnecting

theorem Hosted.step {server : RpcServer M} {ls : List (Event M)} (h : Hosted wire lib server ls w)
    (hidle : w.GoesDownIdle ev) (hstep : Step wire lib w ev w') :
    Hosted wire lib server (ls ++ [ev]) w' := by
  have hchange := h.live.owned.change hstep
  have hpassages : ∀ k n, (ls ++ [ev]).flatMap (Event.passages lib server.services k n) =
      ls.flatMap (Event.passages lib server.services k n) ++
        ev.passages lib server.services k n := by simp
  have hfresh : ∀ k n, (w.conns k).state = .kConnecting → w.allocated ≤ n →
      (ls ++ [ev]).flatMap (Event.passages lib server.services k n) = [] := by
    intro k n hstate hn
    rw [hpassages, h.unheard k n hstate hn, hchange.unheard h.live.owned hstate hn]
    rfl
  refine ⟨h.live.step hidle hstep, hchange.server_eq.trans h.serves, h.numbered.change hchange,
    ?_, ?_⟩
  · intro k n hstate hn
    refine hfresh k n (hchange.connecting hstate) (hchange.allocated_le.trans hn)
  · intro n hn
    rcases hchange.channels h.live.owned hn with
      ⟨hlt, hconnOf⟩ | ⟨start, id, hup, hconnecting, hnew, hmirrors⟩
    · obtain ⟨start, id, labels, e, hup, hrun, hmirrors, hpassed⟩ := h.followed n hlt
      obtain ⟨labels', e', hrun', hmirrors', hpassed'⟩ :=
        hmirrors.change h.live h.numbered hlt hchange
      refine ⟨start, id, _, e', hup, hrun.append hrun', hmirrors', ?_⟩
      rw [hpassed', hpassed, hconnOf, h.serves, hpassages]
    · refine ⟨start, id, [], _, hup, .nil, h.serves ▸ hmirrors, ?_⟩
      rw [hfresh _ n hconnecting hnew]
      rfl

theorem hosted_of_run {server : RpcServer M} {ls : List (Event M)}
    (hrun : Run (Guarded (Step wire lib) GoesDownIdle) (new server) ls w) :
    Hosted wire lib server ls w := by
  refine hrun.trace_invariant ?_ ?_
  · exact ⟨live_new server, rfl, numbered_new server, fun _ _ _ _ => rfl,
      fun n hn => absurd hn (Nat.not_lt_zero n)⟩
  · rintro ls w ev w' h ⟨hidle, hstep⟩
    exact h.step hidle hstep

/-- Where no connection goes down while a service holds a closure of its channel, what one
channel goes through is a run of an endpoint with the services of the server: it is as that
endpoint is, and the messages of its connection have passed it, those and no others. -/
theorem channel_is_endpoint {server : RpcServer M} {ls : List (Event M)}
    (hrun : Run (Guarded (Step wire lib) GoesDownIdle) (new server) ls w)
    (hn : n < w.allocated) :
    ∃ start id labels e, start.state = .kConnected ∧
      Run (Endpoint.Step wire lib)
        (Endpoint.new ((RpcChannel.new (some start) id).setServices (some server.services)))
        labels e ∧
      Mirrors w n e ∧
      Endpoint.passages e.history =
        ls.flatMap (Event.passages lib server.services (w.connOf n) n) :=
  (hosted_of_run hrun).followed n hn

/-- Reply `m` is the one that the server gives to request `req`. -/
inductive AnswerTo (lib : Protobuf M) (services : ServiceTable M) (req m : RpcMessage) : Prop where
  | refused {error : ErrorCode}
      (hdispatch : RpcChannel.dispatch lib (some services) req = .refuse error)
      (hm : m = RpcChannel.errorReply req.id error)
  | served {method : MethodDescriptor} {request prototype response : M}
      (hdispatch : RpcChannel.dispatch lib (some services) req = .invoke method request prototype)
      (hm : m = RpcChannel.doneReply lib response req.id)

theorem answerTo_of_replied {services : ServiceTable M} {h : List (ProtoRpc.Event M)} {i : Nat}
    {req m : RpcMessage} (hreplied : Endpoint.Replied lib (some services) h i req m) :
    AnswerTo lib services req m := by
  cases hreplied with
  | refused hdispatch hm => exact .refused hdispatch hm
  | @served hserved response _ hm =>
      cases hdispatch : RpcChannel.dispatch lib (some services) req with
      | refuse error => exact absurd (Endpoint.isServed_of_refuse hdispatch) (by simp [hserved])
      | invoke method request prototype => exact .served hdispatch hm

/-- The requests that came over a connection are those whose replies were handed to the codec
for this connection and those whose closures services hold, each once; and every such reply is
the one to a request that came over this connection. -/
theorem requests_answered_here {server : RpcServer M} {ls : List (Event M)}
    (hrun : Run (Guarded (Step wire lib) GoesDownIdle) (new server) ls w)
    (hn : n < w.allocated) {passed : List Passage}
    (hpassed : passed = ls.flatMap (Event.passages lib server.services (w.connOf n) n)) :
    ((Passage.requests passed).map RpcMessage.id).Perm
        ((Passage.replies passed).map RpcMessage.id ++
          (w.closures.filter fun c => c.channel = n).map DoneClosure.id) ∧
      ∀ m ∈ Passage.replies passed, ∃ req ∈ Passage.requests passed,
        AnswerTo lib server.services req m := by
  obtain ⟨start, id, labels, e, -, hsteps, hmirrors, hpassages⟩ := (hosted_of_run hrun).followed n hn
  have hreplies : Endpoint.ReplyInvariant lib (some server.services) e :=
    hsteps.invariant (Endpoint.replyInvariant_new _ _) fun _ _ _ h hstep => h.step hstep
  rw [hpassed, ← hpassages, Passage.requests_passages, Passage.replies_passages]
  constructor
  · have hheld : (w.closures.filter fun c => c.channel = n).map DoneClosure.id =
        Endpoint.processing e := by
      rw [← hmirrors.closures, List.map_map, Endpoint.processing, hmirrors.handling,
        List.append_nil]
      rfl
    rw [hheld, List.map_reverse, List.map_map]
    refine hreplies.processed.trans (List.perm_append_comm.trans ?_)
    exact (List.reverse_perm _).symm.append_right _
  · intro m hm
    obtain ⟨⟨i, m⟩, hmem, rfl⟩ := List.mem_map.mp (List.mem_reverse.mp hm)
    obtain ⟨req, hreq, hreplied⟩ := hreplies.replied i m hmem
    exact ⟨req, List.mem_of_getElem? hreq, answerTo_of_replied hreplied⟩

/-- Of two clients one asks twice, the other goes, and one of the requests is answered. -/
theorem two_clients_run : ∃ ls w,
    Run (Guarded (Step protobufWire monitorProtobuf) GoesDownIdle) (new monitorServer) ls w ∧
      0 < w.allocated ∧ w.closures.map DoneClosure.channel = [0] := by
  let request := RpcChannel.requestMessage monitorProtobuf 1 monitorCall
  have hfirst : Run (Guarded (Step protobufWire monitorProtobuf) GoesDownIdle)
      (new monitorServer) _ _ := guarded_then .nil .newConnection nofun .newConnection rfl
  have hsecond := guarded_then hfirst .newConnection nofun .newConnection rfl
  have hfirst' := guarded_then hsecond (.connectEstablished 0 0) nofun
    (.connectEstablished (by decide)) rfl
  have hsecond' := guarded_then hfirst' (.connectEstablished 1 0) nofun
    (.connectEstablished (by decide)) rfl
  have hasked := guarded_then hsecond' (.receive 0 request (.wrote 0)) nofun
    (.receive (Or.inl rfl) rfl) rfl
  have hasked' := guarded_then hasked (.receive 0 { request with id := 2 } (.wrote 0)) nofun
    (.receive (Or.inl rfl) rfl) rfl
  have hclosed := guarded_then hasked' (.close 1) ?_ (.close (by decide)) rfl
  · have hdone := guarded_then hclosed
      (.done ⟨0, .testResponse false "", 1⟩ (.testResponse true "") false (.wrote 0)) nofun
      (Exec.done (show _ = [_] ++ _ :: [] from rfl)) rfl
    exact ⟨_, _, hdone, Nat.succ_pos 1, rfl⟩
  · rintro k hdown c hc
    obtain rfl : 1 = k := hdown
    have hfirst : c.channel = 0 := by
      rcases List.mem_cons.mp hc with rfl | hc
      · rfl
      · obtain rfl := List.mem_singleton.mp hc
        rfl
    rw [hfirst]
    exact nofun

theorem channel_is_endpoint_first : ∃ ls w,
    Run (Guarded (Step protobufWire monitorProtobuf) GoesDownIdle) (new monitorServer) ls w ∧
      ∃ start id labels e, start.state = .kConnected ∧
        Run (Endpoint.Step protobufWire monitorProtobuf)
          (Endpoint.new ((RpcChannel.new (some start) id).setServices
            (some monitorServer.services))) labels e ∧
        Mirrors w 0 e := by
  obtain ⟨ls, w, hrun, hn, -⟩ := two_clients_run
  obtain ⟨start, id, labels, e, hup, hsteps, hmirrors, -⟩ := channel_is_endpoint hrun hn
  exact ⟨ls, w, hrun, start, id, labels, e, hup, hsteps, hmirrors⟩

theorem requests_answered_here_first : ∃ ls w,
    Run (Guarded (Step protobufWire monitorProtobuf) GoesDownIdle) (new monitorServer) ls w ∧
      ((Passage.requests (ls.flatMap (Event.passages monitorProtobuf monitorServer.services
        (w.connOf 0) 0))).map RpcMessage.id).Perm
        ((Passage.replies (ls.flatMap (Event.passages monitorProtobuf monitorServer.services
          (w.connOf 0) 0))).map RpcMessage.id ++
          (w.closures.filter fun c => c.channel = 0).map DoneClosure.id) := by
  obtain ⟨ls, w, hrun, hn, -⟩ := two_clients_run
  exact ⟨ls, w, hrun, (requests_answered_here hrun hn rfl).1⟩

end Hosting
end ProtoRpc
