import ProtoRpc.Network.ClientCalls

/-!
From which calls on a client makes no connection before the next `connect`. `stop` clears
the flags of the client and of its connector, `disconnect` only the first, which nothing
reads once an attempt is under way. A flag that has been tested already is cleared too
late, and `Connector::restart` sets the flag of the connector again.
-/
namespace ProtoRpc
open Transition

/-- A flag is set. -/
def ClientAct.sets : ClientAct → Bool
  | .setConnect flag | .setStart flag => flag
  | _ => false

/-- A flag is set, or has been found set. -/
def LoopAct.furthers : LoopAct → Bool
  | .call a => a.sets
  | .newConnection _ | .restart => true
  | .test => false

namespace ClientCalls

/-- No `connect` is under way, no restart, and no socket is on its way to
`newConnection`. -/
structure Steady (s : ClientCalls) : Prop where
  busy : ∀ a ∈ s.busy, a.furthers = false
  calls : ∀ acts ∈ s.calls, ∀ a ∈ acts, a.sets = false

/-- A `startInLoop` is queued, or about to be queued or run. -/
def Starts (s : ClientCalls) : Prop :=
  .connector .startInLoop ∈ s.client.queue ∨ .call .startInLoop ∈ s.busy ∨
    ∃ acts ∈ s.calls, .startInLoop ∈ acts

/-- Nothing is left that could make a connection. -/
structure Quiet (s : ClientCalls) : Prop where
  empty : s.client.connector.pendingFunctors = []
  steady : s.Steady
  client : s.client.connectFlag = false
  connector : s.client.connector.connectFlag = true →
    s.client.connector.state ≠ .kConnecting ∧ ¬ s.Starts

/-- The same connections, and the same reports of a connection as up. -/
structure Same (s s' : ClientCalls) : Prop where
  established : s'.client.established = s.client.established
  ups : s'.client.ups = s.client.ups

def isConnect : Event → Bool
  | .call _ .connect => true
  | _ => false

/-- The steps that are not the beginning of a `connect`. -/
def Later : ClientCalls → Event → ClientCalls → Prop := Guarded Step fun _ e => isConnect e = false

variable {s s' : ClientCalls} {e : Event}

theorem Same.refl (s : ClientCalls) : Same s s := ⟨rfl, rfl⟩

theorem Same.trans {s'' : ClientCalls} (h : Same s s') (h' : Same s' s'') : Same s s'' :=
  ⟨h'.established.trans h.established, h'.ups.trans h.ups⟩

/-- The client proper furthers nothing, and neither does what is left of the calls. -/
theorem Quiet.calm (h : Quiet s) (hcalm : TcpClient.Calm s.client s'.client)
    (hempty : s'.client.connector.pendingFunctors = []) (hsteady : s'.Steady)
    (hbusy : .call .startInLoop ∈ s'.busy → .call .startInLoop ∈ s.busy)
    (hcalls : (∃ acts ∈ s'.calls, .startInLoop ∈ acts) → ∃ acts ∈ s.calls, .startInLoop ∈ acts) :
    Quiet s' ∧ Same s s' := by
  refine ⟨⟨hempty, hsteady, ?_, ?_⟩, hcalm.established, hcalm.ups⟩
  · cases hflag : s'.client.connectFlag with
    | true => cases h.client.symm.trans (hcalm.client hflag)
    | false => rfl
  · intro hflag
    obtain ⟨hstate, hstarts⟩ := h.connector (hcalm.connector hflag)
    refine ⟨fun hconnecting => hstate (hcalm.state hflag hconnecting), ?_⟩
    rintro (hqueue | hrest)
    · exact hstarts (Or.inl (hcalm.queue hqueue))
    · exact hstarts (Or.inr (hrest.imp hbusy hcalls))

/-- What is left of the calls is as it was. -/
theorem Quiet.calm_client (h : Quiet s) {w : TcpClient} (hcalm : TcpClient.Calm s.client w)
    (hempty : w.connector.pendingFunctors = []) :
    Quiet { s with client := w } ∧ Same s { s with client := w } :=
  h.calm hcalm hempty ⟨h.steady.busy, h.steady.calls⟩ id id

theorem calm_push {w : TcpClient} {f : ClientFunctor} (hf : f ≠ .connector .startInLoop) :
    TcpClient.Calm w { w with pendingFunctors := w.pendingFunctors ++ [f] } :=
  { TcpClient.Calm.refl w with
    queue := by
      intro hmem
      rcases TcpClient.mem_queue_append (w := w) hmem with hold | hnew
      · exact hold
      · exact absurd (List.mem_singleton.mp hnew).symm hf }

theorem Quiet.queueInLoop (h : Quiet s) {f : ClientFunctor} (hf : f ≠ .connector .startInLoop) :
    Quiet (s.queueInLoop f) ∧ Same s (s.queueInLoop f) := h.calm_client (calm_push hf) h.empty

theorem Quiet.clearConnect (h : Quiet s) :
    Quiet (s.setConnect false) ∧ Same s (s.setConnect false) :=
  h.calm_client { TcpClient.Calm.refl s.client with client := fun hgo => by cases hgo } h.empty

theorem Quiet.clearStart (h : Quiet s) : Quiet (s.setStart false) ∧ Same s (s.setStart false) :=
  h.calm_client
    { TcpClient.Calm.refl s.client with
      connector := fun hgo => by cases hgo
      state := fun hgo => by cases hgo } h.empty

/-- A call begins that is no `connect`. -/
theorem acts_quiet {c : ClientCall} (hc : c ≠ .connect) :
    ∀ a ∈ c.acts, a.sets = false ∧ a ≠ .startInLoop := by
  cases c with
  | connect => exact absurd rfl hc
  | disconnect | stop => simp [ClientCall.acts, ClientAct.sets]

theorem Quiet.pop (h : Quiet s) {a : LoopAct} {rest : List LoopAct} (hbusy : s.busy = a :: rest) :
    Quiet { s with busy := rest } := by
  have hsubset : ∀ b ∈ rest, b ∈ s.busy := fun b hb => hbusy ▸ List.mem_cons_of_mem _ hb
  have hcalm : Quiet { s with busy := rest } ∧ Same s { s with busy := rest } :=
    h.calm (TcpClient.Calm.refl s.client) h.empty
      ⟨fun b hb => h.steady.busy b (hsubset b hb), h.steady.calls⟩ (hsubset _) id
  exact hcalm.1

theorem Quiet.popCall (h : Quiet s) {a : ClientAct} {rest : List ClientAct}
    (hcall : a :: rest ∈ s.calls) :
    Quiet { s with calls := s.calls.erase (a :: rest) ++ [rest] } := by
  have hback : ∀ acts ∈ s.calls.erase (a :: rest) ++ [rest], ∃ acts' ∈ s.calls, acts ⊆ acts' := by
    intro acts hacts
    rcases List.mem_append.mp hacts with hold | hnew
    · exact ⟨acts, List.mem_of_mem_erase hold, fun _ => id⟩
    · cases List.mem_singleton.mp hnew
      exact ⟨_, hcall, List.subset_cons_self _ _⟩
  have hsteady : ∀ acts ∈ s.calls.erase (a :: rest) ++ [rest], ∀ b ∈ acts, b.sets = false := by
    intro acts hacts b hb
    obtain ⟨acts', hacts', hsubset⟩ := hback acts hacts
    exact h.steady.calls acts' hacts' b (hsubset hb)
  have hstart : (∃ acts ∈ s.calls.erase (a :: rest) ++ [rest], ClientAct.startInLoop ∈ acts) →
      ∃ acts ∈ s.calls, .startInLoop ∈ acts := by
    rintro ⟨acts, hacts, hmem⟩
    obtain ⟨acts', hacts', hsubset⟩ := hback acts hacts
    exact ⟨acts', hacts', hsubset hmem⟩
  have hcalm : Quiet { s with calls := s.calls.erase (a :: rest) ++ [rest] } ∧ Same s _ :=
    h.calm (TcpClient.Calm.refl s.client) h.empty ⟨h.steady.busy, hsteady⟩ id hstart
  exact hcalm.1

theorem Quiet.setConnCalls (h : Quiet s) (calls : List (Nat × CallRest)) :
    Quiet { s with connCalls := calls } :=
  ⟨h.empty, ⟨h.steady.busy, h.steady.calls⟩, h.client, h.connector⟩

/-- With the flag of its connector cleared the client may be told to start. -/
theorem Quiet.told (h : Quiet s) (hstop : s.client.connector.connectFlag = false) :
    Quiet (s.queueInLoop (.connector .startInLoop)) where
  empty := h.empty
  steady := ⟨h.steady.busy, h.steady.calls⟩
  client := h.client
  connector := fun hflag => by cases hstop.symm.trans hflag

theorem Quiet.runForeign (h : Quiet s) {a : ClientAct} {rest : List ClientAct}
    (hcall : a :: rest ∈ s.calls) :
    Quiet ({ s with calls := s.calls.erase (a :: rest) ++ [rest] }.runForeign a) ∧
      Same s ({ s with calls := s.calls.erase (a :: rest) ++ [rest] }.runForeign a) := by
  have hpop := h.popCall hcall
  have hsets := h.steady.calls _ hcall a List.mem_cons_self
  cases a with
  | setConnect flag =>
      cases flag with
      | true => cases hsets
      | false => exact ⟨hpop.clearConnect.1, rfl, rfl⟩
  | setStart flag =>
      cases flag with
      | true => cases hsets
      | false => exact ⟨hpop.clearStart.1, rfl, rfl⟩
  | startInLoop =>
      have hstop : s.client.connector.connectFlag = false := by
        cases hflag : s.client.connector.connectFlag with
        | true => exact absurd (Or.inr (Or.inr ⟨_, hcall, List.mem_cons_self⟩)) (h.connector hflag).2
        | false => rfl
      exact ⟨hpop.told hstop, rfl, rfl⟩
  | stopInLoop => exact ⟨(hpop.queueInLoop (by simp)).1, rfl, rfl⟩
  | shutdown =>
      rw [ClientCalls.runForeign]
      split
      · exact ⟨hpop, rfl, rfl⟩
      · split
        · exact ⟨hpop.setConnCalls _, rfl, rfl⟩
        · exact ⟨hpop, rfl, rfl⟩

theorem Quiet.runAct (h : Quiet s) {a : LoopAct} {rest : List LoopAct} {savedErrno : ConnectErrno}
    (hbusy : s.busy = a :: rest) (hs' : { s with busy := rest }.runAct savedErrno a = .ok s') :
    Quiet s' ∧ Same s s' := by
  have hpop := h.pop hbusy
  have hfurthers := h.steady.busy a (hbusy ▸ List.mem_cons_self)
  cases a with
  | call b =>
      cases b with
      | setConnect flag =>
          cases flag with
          | true => cases hfurthers
          | false =>
              cases hs'
              exact ⟨hpop.clearConnect.1, rfl, rfl⟩
      | setStart flag =>
          cases flag with
          | true => cases hfurthers
          | false =>
              cases hs'
              exact ⟨hpop.clearStart.1, rfl, rfl⟩
      | startInLoop =>
          obtain ⟨c, hc, hrest⟩ := bind_ok_inv hs'
          cases hrest
          have hstop : s.client.connector.connectFlag = false := by
            cases hflag : s.client.connector.connectFlag with
            | true =>
                exact absurd (Or.inr (Or.inl (hbusy ▸ List.mem_cons_self))) (h.connector hflag).2
            | false => rfl
          have hattempt := Connector.startInLoop_inv hc
          have hcalm := TcpClient.calm_adoptConnector hpop.empty hattempt fun hgo => by
            have hc' : c.connectFlag = false := by
              rw [← hstop]
              cases hattempt <;> rfl
            cases hc'.symm.trans hgo
          exact ⟨(hpop.calm_client hcalm rfl).1, rfl, rfl⟩
      | stopInLoop =>
          cases hs'
          exact ⟨(hpop.queueInLoop (by simp)).1, rfl, rfl⟩
      | shutdown =>
          rw [ClientCalls.runAct] at hs'
          split at hs'
          · cases hs'
            exact ⟨hpop, rfl, rfl⟩
          · cases hs'
            exact ⟨(hpop.calm_client (TcpClient.calm_adopt _ _ _) h.empty).1, rfl, rfl⟩
  | newConnection sockfd | restart => cases hfurthers
  | test =>
      rw [ClientCalls.runAct, h.client, Bool.and_false] at hs'
      cases hs'
      exact ⟨hpop, rfl, rfl⟩

theorem Quiet.handleWrite (h : Quiet s) {rest : List ClientFrame} {err selfConnect : Bool}
    (hs' : { s with client := { s.client with todo := rest } }.handleWrite err selfConnect = .ok s') :
    Quiet s' ∧ Same s s' := by
  obtain ⟨⟨c, sockfd⟩, hwritten, hrest⟩ := bind_ok_inv hs'
  cases hrest
  have hattempt := Connector.handleWrite_inv hwritten
  have hcalm := (TcpClient.calm_adoptConnector (w := { s.client with todo := rest }) h.empty
    hattempt fun _ => Connector.handleWrite_state hwritten)
  have hpopped : TcpClient.Calm s.client { s.client with todo := rest } :=
    { TcpClient.Calm.refl s.client with }
  have hnone : sockfd = none := by
    cases hattempt with
    | passed hstate hchannel hflag => exact absurd hstate (h.connector hflag).1
    | none | refused | opened | dropped => rfl
  subst hnone
  refine h.calm (hpopped.trans hcalm) rfl ⟨?_, h.steady.calls⟩ (fun ha => by cases ha) id
  intro a ha
  cases ha

/-- Until the next `connect` a quiet client makes no connection. -/
theorem Quiet.step (h : Quiet s) (hlater : Later s e s') : Quiet s' ∧ Same s s' := by
  obtain ⟨hnot, hstep⟩ := hlater
  rw [Step] at hstep
  generalize hr : (Except.ok s' : Except ClientFault ClientCalls) = r at hstep
  cases hstep with
  | client hbusy he hexec =>
      obtain ⟨w, hw, hrest⟩ := bind_ok_inv hr.symm
      cases hrest
      subst hw
      rcases TcpClient.calm_of_step h.empty hexec with hcalm | hbegins
      · exact h.calm_client hcalm (TcpClient.empty_of_step h.empty hexec)
      · cases hbegins with
        | connect => cases he
        | start hhead hflag => exact absurd (Or.inl hhead) (h.connector hflag).2
        | write hhead | restart hhead =>
            rw [TcpClient.Whole, hhead] at he
            cases he
  | enableRetry =>
      cases hr
      exact h.calm_client { TcpClient.Calm.refl s.client with } h.empty
  | otherFunctor =>
      cases hr
      exact h.queueInLoop (by simp)
  | handleWrite hbusy htodo => exact h.handleWrite hr.symm
  | closeCallback hbusy htodo =>
      rw [ClientCalls.removeConnection] at hr
      split at hr
      · cases hr
        have hcalm := calm_push (w := s.client) (f := .connectDestroyed ‹Nat›) (by simp)
        exact h.calm { hcalm with } h.empty
          ⟨fun a ha => by cases List.mem_singleton.mp ha; rfl, h.steady.calls⟩
          (fun ha => by cases List.mem_singleton.mp ha) id
      · cases hr
  | @callOwn c hbusy huser =>
      cases hr
      have hc : c ≠ .connect := by
        rintro rfl
        cases hnot
      refine h.calm { TcpClient.Calm.refl s.client with } h.empty ⟨?_, h.steady.calls⟩ ?_ id
      · intro a ha
        obtain ⟨b, hb, rfl⟩ := List.mem_map.mp ha
        exact (acts_quiet hc b hb).1
      · intro ha
        obtain ⟨b, hb, heq⟩ := List.mem_map.mp ha
        cases heq
        exact absurd rfl (acts_quiet hc _ hb).2
  | @callForeign c =>
      cases hr
      have hc : c ≠ .connect := by
        rintro rfl
        cases hnot
      refine h.calm { TcpClient.Calm.refl s.client with } h.empty ⟨h.steady.busy, ?_⟩ id ?_
      · intro acts hacts
        rcases List.mem_append.mp hacts with hold | hnew
        · exact h.steady.calls acts hold
        · cases List.mem_singleton.mp hnew
          exact fun a ha => (acts_quiet hc a ha).1
      · rintro ⟨acts, hacts, hmem⟩
        rcases List.mem_append.mp hacts with hold | hnew
        · exact ⟨acts, hold, hmem⟩
        · cases List.mem_singleton.mp hnew
          exact absurd rfl (acts_quiet hc _ hmem).2
  | act hbusy => exact h.runAct hbusy hr.symm
  | foreign hcall =>
      cases hr
      exact h.runForeign hcall
  | enter hk henters =>
      cases hr
      exact ⟨h.setConnCalls _, rfl, rfl⟩
  | @store k next hcall =>
      cases hr
      have hstored := h.calm_client
        (w := { s.client with
          conns := Function.update s.client.conns k (s.client.conns k).store })
        { TcpClient.Calm.refl s.client with } h.empty
      exact ⟨hstored.1.setConnCalls _, rfl, rfl⟩
  | queue hcall =>
      cases hr
      exact ⟨(h.queueInLoop (by simp)).1.setConnCalls _, rfl, rfl⟩

theorem Quiet.later (h : Quiet s) {events : List Event} (hlater : Run Later s events s') :
    Same s s' := by
  have hboth := hlater.invariant (I := fun t => Quiet t ∧ Same s t) ⟨h, .refl s⟩ fun t e t' ht hstep =>
    ⟨(ht.1.step hstep).1, ht.2.trans (ht.1.step hstep).2⟩
  exact hboth.2

theorem runForeign_empty (hempty : s.client.connector.pendingFunctors = []) (a : ClientAct) :
    (s.runForeign a).client.connector.pendingFunctors = [] := by
  cases a with
  | setConnect flag | setStart flag | startInLoop | stopInLoop => exact hempty
  | shutdown =>
      rw [runForeign]
      split
      · exact hempty
      · split <;> exact hempty

theorem runAct_empty (hempty : s.client.connector.pendingFunctors = []) {a : LoopAct}
    {savedErrno : ConnectErrno} (hs' : s.runAct savedErrno a = .ok s') :
    s'.client.connector.pendingFunctors = [] := by
  cases a with
  | call b =>
      cases b with
      | setConnect flag | setStart flag | stopInLoop =>
          cases hs'
          exact hempty
      | startInLoop =>
          obtain ⟨c, -, hrest⟩ := bind_ok_inv hs'
          cases hrest
          rfl
      | shutdown =>
          rw [runAct] at hs'
          split at hs' <;> cases hs' <;> exact hempty
  | newConnection sockfd =>
      obtain ⟨w, hw, hrest⟩ := bind_ok_inv hs'
      cases hrest
      obtain ⟨c, -, hnew⟩ := bind_ok_inv hw
      cases hnew
      exact hempty
  | test =>
      rw [runAct] at hs'
      split at hs' <;> cases hs' <;> exact hempty
  | restart =>
      cases hs'
      exact hempty

theorem empty_of_step (hempty : s.client.connector.pendingFunctors = []) (hstep : Step s e s') :
    s'.client.connector.pendingFunctors = [] := by
  rw [Step] at hstep
  generalize hr : (Except.ok s' : Except ClientFault ClientCalls) = r at hstep
  cases hstep with
  | client hbusy he hexec =>
      obtain ⟨w, hw, hrest⟩ := bind_ok_inv hr.symm
      cases hrest
      subst hw
      exact TcpClient.empty_of_step hempty hexec
  | handleWrite hbusy htodo =>
      obtain ⟨⟨c, sockfd⟩, -, hrest⟩ := bind_ok_inv hr.symm
      cases hrest
      rfl
  | closeCallback hbusy htodo =>
      rw [removeConnection] at hr
      split at hr
      · cases hr
        exact hempty
      · cases hr
  | act hbusy => exact runAct_empty (by exact hempty) hr.symm
  | foreign hcall =>
      cases hr
      exact runForeign_empty (by exact hempty) _
  | enableRetry | otherFunctor | callOwn | callForeign | enter | store | queue =>
      cases hr
      exact hempty

section Examples
open TcpClient

end Examples

end ClientCalls
end ProtoRpc
