import ProtoRpc.Network.TcpClient

/-!
What holds of a living `TcpClient` in every state that it reaches. `Wiring` is
about the connector and its loop: a channel is registered exactly in
`kConnecting`, one that was removed waits for the one `resetChannel` in the queue,
and every socket has one fate. `Holding` is about the connections: only the one in
`connection_` is open, while there is one the connector is in `kConnected`, and
until the channel that it came from is reset nothing can close it.
-/
namespace ProtoRpc

def ClientFunctor.resets : ClientFunctor → Option Nat
  | .connector f => f.resets
  | _ => none

def ClientFrame.ofConnector : ClientFrame → Bool
  | .connectorWrite | .connectorError => true
  | _ => false

def ClientFrame.closes : ClientFrame → Bool
  | .connection _ .closeCallback => true
  | _ => false

namespace TcpClient

def queue (w : TcpClient) : List ClientFunctor := w.functors ++ w.pendingFunctors

/-- What the loop runs before it resets the channel of the connector. -/
def beforeReset (w : TcpClient) : List ClientFunctor := w.queue.takeWhile fun f => f.resets.isNone

def Open (w : TcpClient) (k : Nat) : Prop :=
  (w.conns k).state = .kConnected ∨ (w.conns k).state = .kDisconnecting

structure Wiring (w : TcpClient) : Prop where
  empty : w.connector.pendingFunctors = []
  attempt : w.connector.state = .kConnecting ↔ ∃ n, w.connector.channel = some ⟨n, true⟩
  resets : w.queue.filterMap ClientFunctor.resets = w.connector.removed
  places : ∀ n, w.connector.places w.passed n = if n < w.connector.sockets then 1 else 0
  once : (w.remaining.map Prod.fst).Nodup
  reported : ∀ fd r, (Source.connector fd, r) ∈ w.remaining →
    w.connector.channel = some ⟨fd, true⟩
  handled : ∀ f ∈ w.todo, f.ofConnector = true →
    w.phase = .handling ∧ ∀ fd r, (Source.connector fd, r) ∉ w.remaining
  writing : w.todo.head? = some .connectorWrite → w.connector.state = .kConnecting
  written : .connectorWrite ∉ w.todo.tail
  idle : w.phase ≠ .handling → w.remaining = []
  batch : w.phase ≠ .functors → w.functors = []

/-- Connection `k` is so new that the channel it came from has not been reset. -/
structure Fresh (w : TcpClient) (k : Nat) : Prop where
  phase : w.phase ≠ .polling
  batch : w.phase = .functors → w.functors.filterMap ClientFunctor.resets ≠ []
  reports : ∀ r, (Source.connection k, r) ∉ w.remaining
  frames : ∀ f, .connection k f ∈ w.todo → f ≠ .close ∧ f ≠ .read
  functors : ∀ f, .own k f ∉ w.beforeReset

structure Holding (w : TcpClient) : Prop where
  connected : ∀ k, w.connection = some k → w.connector.state = .kConnected ∧ k < w.established
  unique : ∀ k, w.Open k → w.connection = some k
  unborn : ∀ k, w.established ≤ k → (w.conns k).state = .kConnecting
  closing : ∀ k, .connection k .closeCallback ∈ w.todo →
    w.connection = some k ∧ w.connector.channel = none ∧ ¬ w.Open k
  closes : w.todo.countP ClientFrame.closes ≤ 1
  reports : ∀ k r, (Source.connection k, r) ∈ w.remaining → k < w.established
  frames : ∀ k f, .connection k f ∈ w.todo → k < w.established
  functors : ∀ k f, .own k f ∈ w.queue → k < w.established
  fresh : ∀ k, w.connection = some k → w.connector.channel ≠ none → Fresh w k

structure Inv (w : TcpClient) : Prop where
  wiring : Wiring w
  holding : Holding w

theorem inv_new : Inv new where
  wiring :=
    { empty := rfl
      attempt := by
        constructor
        · intro h
          cases h
        · rintro ⟨n, h⟩
          cases h
      resets := rfl
      places := fun _ => rfl
      once := List.nodup_nil
      reported := fun _ _ h => by cases h
      handled := fun _ h => by cases h
      writing := fun h => by cases h
      written := List.not_mem_nil
      idle := fun _ => rfl
      batch := fun _ => rfl }
  holding :=
    { connected := fun _ h => by cases h
      unique := by
        rintro k (h | h)
        · cases h
        · cases h
      unborn := fun _ _ => rfl
      closing := fun _ h => by cases h
      closes := Nat.zero_le _
      reports := fun _ _ h => by cases h
      frames := fun _ _ h => by cases h
      functors := fun _ _ h => by cases h
      fresh := fun _ h => by cases h }

variable {w w' : TcpClient} {k : Nat}

theorem removed_ne_nil (h : Wiring w) (hk : w.connector.state ≠ .kConnecting)
    (hchannel : w.connector.channel ≠ none) : w.connector.removed ≠ [] := by
  rw [Connector.removed]
  cases hc : w.connector.channel with
  | none => exact absurd hc hchannel
  | some ch =>
      obtain ⟨fd, registered⟩ := ch
      cases registered with
      | true => exact absurd (h.attempt.mpr ⟨fd, hc⟩) hk
      | false => exact List.cons_ne_nil _ _

/-- What comes behind a queued reset does not run before it. -/
theorem beforeReset_append {l : List ClientFunctor} (l' : List ClientFunctor)
    (h : l.filterMap ClientFunctor.resets ≠ []) :
    (l ++ l').takeWhile (fun f => f.resets.isNone) = l.takeWhile fun f => f.resets.isNone := by
  induction l with
  | nil => exact absurd rfl h
  | cons f l ih =>
      rw [List.cons_append, List.takeWhile_cons, List.takeWhile_cons]
      cases hf : f.resets with
      | none =>
          rw [List.filterMap_cons_none hf] at h
          simp [ih h]
      | some fd => rfl

/-- Functors that neither reset the channel nor belong to an unborn connection go to
the end of the queue. -/
theorem Inv.append (h : Inv w) {l : List ClientFunctor}
    (hresets : l.filterMap ClientFunctor.resets = [])
    (hown : ∀ k f, .own k f ∈ l → k < w.established) :
    Inv { w with pendingFunctors := w.pendingFunctors ++ l } where
  wiring :=
    { h.wiring with
      resets := by
        have hold := h.wiring.resets
        simp only [queue, List.filterMap_append] at hold ⊢
        rw [hresets, List.append_nil, hold] }
  holding :=
    { h.holding with
      functors := by
        intro k f hf
        rw [queue, ← List.append_assoc] at hf
        cases List.mem_append.mp hf with
        | inl hold => exact h.holding.functors k f hold
        | inr hnew => exact hown k f hnew
      fresh := by
        intro k hk hchannel
        have hfresh := h.holding.fresh k hk hchannel
        refine { hfresh with functors := ?_ }
        have hstate := (h.holding.connected k hk).1
        have hremoved := removed_ne_nil h.wiring (by rw [hstate]; decide) hchannel
        intro f hf
        refine hfresh.functors f ?_
        rw [← h.wiring.resets] at hremoved
        have hbefore := beforeReset_append l hremoved
        rw [queue, List.append_assoc] at hbefore
        rw [beforeReset, queue, ← hbefore]
        exact hf }

/-- Connection `k` is not opened by what is made of it. -/
theorem Inv.update (h : Inv w) (hk : k < w.established) {c : TcpConnection}
    (hopen : c.state = .kConnected ∨ c.state = .kDisconnecting → w.Open k) :
    Inv { w with conns := Function.update w.conns k c } := by
  have hstate : ∀ k', (Function.update w.conns k c k').state = .kConnected ∨
      (Function.update w.conns k c k').state = .kDisconnecting → w.Open k' := by
    intro k'
    by_cases heq : k' = k
    · subst heq
      rw [Function.update_self]
      exact hopen
    · rw [Function.update_of_ne heq]
      exact id
  refine ⟨{ h.wiring with }, { h.holding with unique := ?_, unborn := ?_, closing := ?_, fresh := ?_ }⟩
  · intro k' hopen'
    exact h.holding.unique k' (hstate k' hopen')
  · intro k' hk'
    have hne : k' ≠ k := by
      rintro rfl
      exact absurd hk (Nat.not_lt.mpr hk')
    change (Function.update w.conns k c k').state = _
    rw [Function.update_of_ne hne]
    exact h.holding.unborn k' hk'
  · intro k' hclosing
    obtain ⟨hconnection, hchannel, hdown⟩ := h.holding.closing k' hclosing
    exact ⟨hconnection, hchannel, fun hopen' => hdown (hstate k' hopen')⟩
  · intro k' hconnection hchannel
    exact { h.holding.fresh k' hconnection hchannel with }

theorem Inv.adopt (h : Inv w) (hk : k < w.established) {c : TcpConnection}
    (hkeeps : (w.conns k).Keeps c) : Inv (w.adopt k c) := by
  refine (h.update hk (c := { c with pendingFunctors := [] }) hkeeps.open_iff.mp).append ?_ ?_
  · rw [List.filterMap_map]
    exact List.filterMap_eq_nil_iff.mpr fun f _ => rfl
  · intro k' f hf
    obtain ⟨g, -, hg⟩ := List.mem_map.mp hf
    cases hg
    exact hk

/-- A callback of the user is entered. -/
theorem Inv.push (h : Inv w) (hk : k < w.established) (hwrite : .connectorWrite ∉ w.todo)
    {f : Frame} (hf : f = .connectionCallback ∨ f = .messageCallback) :
    Inv { w with todo := .connection k f :: w.todo } where
  wiring :=
    { h.wiring with
      handled := by
        intro g hg hconnector
        cases List.mem_cons.mp hg with
        | inl hcallback =>
            rw [hcallback] at hconnector
            cases hconnector
        | inr hold => exact h.wiring.handled g hold hconnector
      writing := fun hhead => by cases hhead
      written := hwrite }
  holding :=
    { h.holding with
      unique := h.holding.unique
      unborn := h.holding.unborn
      closing := by
        intro k' hclosing
        cases List.mem_cons.mp hclosing with
        | inl hcallback =>
            cases hcallback
            simp at hf
        | inr hold => exact h.holding.closing k' hold
      closes := by
        have hcallback : (ClientFrame.connection k f).closes = false := by
          rcases hf with rfl | rfl <;> rfl
        change List.countP _ (_ :: w.todo) ≤ 1
        rw [List.countP_cons_of_neg (by rw [hcallback]; exact Bool.false_ne_true)]
        exact h.holding.closes
      frames := by
        intro k' g hg
        cases List.mem_cons.mp hg with
        | inl hcallback =>
            cases hcallback
            exact hk
        | inr hold => exact h.holding.frames k' g hold
      fresh := by
        intro k' hconnection hchannel
        have hfresh := h.holding.fresh k' hconnection hchannel
        refine { hfresh with frames := ?_ }
        intro g hg
        cases List.mem_cons.mp hg with
        | inl hcallback =>
            cases hcallback
            rcases hf with rfl | rfl <;> decide
        | inr hold => exact hfresh.frames g hold }

theorem Inv.notify (h : Inv w) (hk : k < w.established) (hwrite : .connectorWrite ∉ w.todo) :
    Inv (w.notify k) := by
  have hpushed := h.push hk hwrite (f := .connectionCallback) (Or.inl rfl)
  exact ⟨{ hpushed.wiring with }, { hpushed.holding with
    unique := hpushed.holding.unique
    unborn := hpushed.holding.unborn
    fresh := fun k hk hchannel => { hpushed.holding.fresh k hk hchannel with } }⟩

/-- A frame is taken off the stack. -/
theorem Inv.pop (h : Inv w) {f : ClientFrame} {rest : List ClientFrame}
    (htodo : w.todo = f :: rest) : Inv { w with todo := rest } where
  wiring :=
    { h.wiring with
      handled := by
        intro g hg
        exact h.wiring.handled g (htodo ▸ List.mem_cons_of_mem _ hg)
      writing := by
        intro hhead
        have hmem : .connectorWrite ∈ w.todo.tail := htodo ▸ List.mem_of_mem_head? hhead
        exact absurd hmem h.wiring.written
      written := by
        intro hmem
        exact h.wiring.written (htodo ▸ List.mem_of_mem_tail hmem) }
  holding :=
    { h.holding with
      unique := h.holding.unique
      unborn := h.holding.unborn
      closing := by
        intro k' hclosing
        exact h.holding.closing k' (htodo ▸ List.mem_cons_of_mem _ hclosing)
      closes := by
        refine Nat.le_trans ?_ h.holding.closes
        rw [htodo]
        exact (List.sublist_cons_self f rest).countP_le
      frames := by
        intro k' g hg
        exact h.holding.frames k' g (htodo ▸ List.mem_cons_of_mem _ hg)
      fresh := by
        intro k' hconnection hchannel
        have hfresh := h.holding.fresh k' hconnection hchannel
        refine { hfresh with frames := ?_ }
        intro g hg
        exact hfresh.frames g (htodo ▸ List.mem_cons_of_mem _ hg) }

theorem filterMap_connector (l : List ConnectorFunctor) :
    (l.map ClientFunctor.connector).filterMap ClientFunctor.resets =
      l.filterMap ConnectorFunctor.resets := by
  rw [List.filterMap_map]
  rfl

/-- The connector makes an attempt, while there is no connection and nothing more is
to come for the channel that it may have had. -/
theorem Inv.replace (h : Inv w) {c : Connector} {passed : Option Nat}
    (hattempt : w.connector.Attempt c passed) (hnone : w.connection = none)
    (hreports : ∀ fd r, (Source.connector fd, r) ∉ w.remaining)
    (hwrite : w.todo.head? ≠ some .connectorWrite) :
    Inv { w.adoptConnector c with passed := w.passed ++ passed.toList } where
  wiring :=
    { h.wiring with
      empty := rfl
      attempt := hattempt.watched h.wiring.attempt
      resets := by
        obtain ⟨l, hl, hremoved⟩ := hattempt.removed h.wiring.attempt
        change List.filterMap _ (w.functors ++ (w.pendingFunctors ++ _)) = c.removed
        rw [hremoved, ← h.wiring.resets, queue, ← List.append_assoc, List.filterMap_append,
          filterMap_connector, hl, h.wiring.empty, List.nil_append]
      places := hattempt.places h.wiring.attempt h.wiring.places
      reported := fun fd r hmem => absurd hmem (hreports fd r)
      writing := fun hhead => absurd hhead hwrite }
  holding :=
    { h.holding with
      connected := fun k hk => by
        cases hnone.symm.trans hk
      unique := h.holding.unique
      unborn := h.holding.unborn
      closing := fun k hclosing => by
        cases hnone.symm.trans (h.holding.closing k hclosing).1
      functors := by
        intro k f hf
        change _ ∈ w.functors ++ (w.pendingFunctors ++ _) at hf
        rw [← List.append_assoc] at hf
        cases List.mem_append.mp hf with
        | inl hold => exact h.holding.functors k f hold
        | inr hnew =>
            obtain ⟨g, -, hg⟩ := List.mem_map.mp hnew
            cases hg
      fresh := fun k hk => by
        cases hnone.symm.trans hk }

theorem Inv.connection_eq_none (h : Inv w) (hstate : w.connector.state ≠ .kConnected) :
    w.connection = none := by
  cases hk : w.connection with
  | none => rfl
  | some k => exact absurd (h.holding.connected k hk).1 hstate

theorem Inv.adoptConnector_self (h : Inv w) : w.adoptConnector w.connector = w := by
  have hempty := h.wiring.empty
  obtain ⟨⟨connectFlag, state, channel, pending, sockets, closed⟩, _⟩ := w
  cases hempty
  simp [adoptConnector]

/-- An attempt that passes no socket on. Where it may drop the socket that the
connector watches, nothing more may come for the channel. -/
theorem Inv.attempt (h : Inv w) {c : Connector} (hattempt : w.connector.Attempt c none)
    (hdone : w.connector.state = .kConnecting →
      (∀ fd r, (Source.connector fd, r) ∉ w.remaining) ∧ w.todo.head? ≠ some .connectorWrite) :
    Inv (w.adoptConnector c) := by
  have hreplace : w.connector.state ≠ .kConnected →
      (∀ fd r, (Source.connector fd, r) ∉ w.remaining) →
      w.todo.head? ≠ some .connectorWrite → Inv (w.adoptConnector c) := by
    intro hstate hreports hwrite
    have hkept := h.replace hattempt (h.connection_eq_none hstate) hreports hwrite
    rw [Option.toList_none, List.append_nil] at hkept
    exact hkept
  have hidle : w.connector.state = .kDisconnected → Inv (w.adoptConnector c) := by
    intro hstate
    refine hreplace (by rw [hstate]; decide) ?_ ?_
    · intro fd r hmem
      have hconnecting := h.wiring.attempt.mpr ⟨fd, h.wiring.reported fd r hmem⟩
      cases hstate.symm.trans hconnecting
    · intro hhead
      cases hstate.symm.trans (h.wiring.writing hhead)
  cases hattempt with
  | none =>
      rw [h.adoptConnector_self]
      exact h
  | refused hstate => exact hidle hstate
  | opened hstate hflag hchannel => exact hidle hstate
  | dropped hstate hchannel hafter =>
      exact hreplace (by rw [hstate]; decide) (hdone hstate).1 (hdone hstate).2

/-- `newConnection` up to its callback. -/
theorem Inv.establish (h : Inv w) (hnone : w.connection = none) (hphase : w.phase = .handling)
    (hstate : w.connector.state = .kConnected) {c : TcpConnection} :
    Inv { w with
      conns := Function.update w.conns w.established c
      connection := some w.established
      established := w.established + 1 } where
  wiring := { h.wiring with }
  holding :=
    { connected := by
        intro k hk
        cases hk
        exact ⟨hstate, Nat.lt_succ_self _⟩
      unique := by
        intro k hopen
        by_cases hk : k = w.established
        · rw [hk]
        · have hold : w.Open k := by
            simpa [Open, Function.update_of_ne hk] using hopen
          cases hnone.symm.trans (h.holding.unique k hold)
      unborn := by
        intro k hk
        have hne : k ≠ w.established := by
          rintro rfl
          exact absurd hk (Nat.not_succ_le_self _)
        change (Function.update w.conns w.established c k).state = _
        rw [Function.update_of_ne hne]
        exact h.holding.unborn k (Nat.le_of_succ_le hk)
      closing := by
        intro k hclosing
        cases hnone.symm.trans (h.holding.closing k hclosing).1
      closes := h.holding.closes
      reports := fun k r hmem => Nat.lt_succ_of_lt (h.holding.reports k r hmem)
      frames := fun k f hmem => Nat.lt_succ_of_lt (h.holding.frames k f hmem)
      functors := fun k f hmem => Nat.lt_succ_of_lt (h.holding.functors k f hmem)
      fresh := by
        intro k hk _
        cases hk
        refine ⟨?_, ?_, ?_, ?_, ?_⟩
        · change w.phase ≠ .polling
          rw [hphase]
          decide
        · intro hbatch
          cases hphase.symm.trans hbatch
        · intro r hmem
          exact absurd (h.holding.reports _ r hmem) (Nat.lt_irrefl _)
        · intro f hmem
          exact absurd (h.holding.frames _ f hmem) (Nat.lt_irrefl _)
        · intro f hmem
          have hqueue : .own w.established f ∈ w.queue := (List.takeWhile_sublist _).subset hmem
          exact absurd (h.holding.functors _ f hqueue) (Nat.lt_irrefl _) }

/-- The end of `handleClose` is pushed, for the only connection. -/
theorem Inv.pushClose (h : Inv w) (hconnection : w.connection = some k)
    (hchannel : w.connector.channel = none) (hdown : ¬ w.Open k)
    (hcloses : w.todo.countP ClientFrame.closes = 0) (hwrite : .connectorWrite ∉ w.todo) :
    Inv { w with todo := .connection k .closeCallback :: w.todo } where
  wiring :=
    { h.wiring with
      handled := by
        intro f hf hconnector
        cases List.mem_cons.mp hf with
        | inl hcallback =>
            rw [hcallback] at hconnector
            cases hconnector
        | inr hold => exact h.wiring.handled f hold hconnector
      writing := fun hhead => by cases hhead
      written := hwrite }
  holding :=
    { h.holding with
      unique := h.holding.unique
      unborn := h.holding.unborn
      closing := by
        intro k' hclosing
        cases List.mem_cons.mp hclosing with
        | inl hcallback =>
            cases hcallback
            exact ⟨hconnection, hchannel, hdown⟩
        | inr hold => exact h.holding.closing k' hold
      closes := by
        change List.countP _ (_ :: w.todo) ≤ 1
        rw [List.countP_cons_of_pos rfl, hcloses]
      frames := by
        intro k' f hf
        cases List.mem_cons.mp hf with
        | inl hcallback =>
            cases hcallback
            exact (h.holding.connected k hconnection).2
        | inr hold => exact h.holding.frames k' f hold
      fresh := fun _ _ hnot => absurd hchannel hnot }

/-- No other connection is being closed while one is open. -/
theorem Inv.closes_eq_zero (h : Inv w) (hopen : w.Open k) :
    w.todo.countP ClientFrame.closes = 0 := by
  rw [List.countP_eq_zero]
  intro f hf hcloses
  cases f with
  | connectorWrite => cases hcloses
  | connectorError => cases hcloses
  | connection k' g =>
      cases g with
      | closeCallback =>
          obtain ⟨hconnection, -, hdown⟩ := h.holding.closing k' hf
          cases hconnection.symm.trans (h.holding.unique k hopen)
          exact hdown hopen
      | _ => cases hcloses

theorem Inv.lt_established (h : Inv w) (hopen : w.Open k) : k < w.established :=
  (h.holding.connected k (h.holding.unique k hopen)).2

theorem Inv.handleClose (h : Inv w) (hchannel : w.Open k → w.connector.channel = none)
    (hwrite : .connectorWrite ∉ w.todo) (hw' : w.handleClose k = .ok w') : Inv w' := by
  obtain ⟨c, hclose, hrest⟩ := bind_ok_inv hw'
  obtain ⟨hopen, hc⟩ := TcpConnection.handleClose_inv (mapError_ok_inv hclose)
  have hdown : c.state = .kDisconnected := by rw [hc]
  have hlt := h.lt_established hopen
  have hclosed := h.update hlt (c := c) fun hup => by
    rw [hdown] at hup
    simp at hup
  have hpushed := hclosed.pushClose (h.holding.unique k hopen) (hchannel hopen)
    (fun hup => by simp [Open, hdown] at hup) (h.closes_eq_zero hopen) hwrite
  cases hrest
  refine hpushed.notify hlt ?_
  intro hmem
  cases List.mem_cons.mp hmem with
  | inl hcallback => cases hcallback
  | inr hold => exact hwrite hold

/-- `connection_.reset()` of a connection that is down. -/
theorem Inv.release (h : Inv w) (hconnection : w.connection = some k) (hdown : ¬ w.Open k)
    (hcloses : w.todo.countP ClientFrame.closes = 0) : Inv { w with connection := none } where
  wiring := { h.wiring with }
  holding :=
    { h.holding with
      connected := fun _ hk => by cases hk
      unique := by
        intro k' hopen
        cases hconnection.symm.trans (h.holding.unique k' hopen)
        exact absurd hopen hdown
      unborn := h.holding.unborn
      closing := fun k' hmem => absurd rfl (List.countP_eq_zero.mp hcloses _ hmem)
      fresh := fun _ hk => by cases hk }

theorem Inv.setConnectFlag (h : Inv w) (flag : Bool) :
    Inv { w with connector := { w.connector with connectFlag := flag } } where
  wiring := { h.wiring with }
  holding :=
    { h.holding with
      unique := h.holding.unique
      unborn := h.holding.unborn
      fresh := fun k hk hchannel => { h.holding.fresh k hk hchannel with } }

theorem Inv.setClientFlags (h : Inv w) (retry connect : Bool) :
    Inv { w with retryFlag := retry, connectFlag := connect } where
  wiring := { h.wiring with }
  holding :=
    { h.holding with
      unique := h.holding.unique
      unborn := h.holding.unborn
      fresh := fun k hk hchannel => { h.holding.fresh k hk hchannel with } }

/-- `restart` up to `startInLoop`. -/
theorem Inv.setDisconnected (h : Inv w) (hnone : w.connection = none)
    (hstate : w.connector.state = .kConnected) :
    Inv { w with connector := { w.connector with state := .kDisconnected } } := by
  have hnot : ∀ n, w.connector.channel ≠ some ⟨n, true⟩ := by
    intro n hn
    cases hstate.symm.trans (h.wiring.attempt.mpr ⟨n, hn⟩)
  refine ⟨{ h.wiring with attempt := ?_, places := ?_, writing := ?_ },
    { h.holding with
      connected := fun k hk => by cases hnone.symm.trans hk
      unique := h.holding.unique
      unborn := h.holding.unborn
      fresh := fun k hk => by cases hnone.symm.trans hk }⟩
  · constructor
    · intro hconnecting
      cases hconnecting
    · rintro ⟨n, hn⟩
      exact absurd hn (hnot n)
  · intro n
    have hn := h.wiring.places n
    simp only [Connector.places, hstate, reduceCtorEq, false_and] at hn ⊢
    exact hn
  · intro hhead
    cases hstate.symm.trans (h.wiring.writing hhead)

end TcpClient
end ProtoRpc
