import ProtoRpc.Foundation.Transition
import ProtoRpc.Network.ClientInvariant

/-!
The steps of a `TcpClient` keep its invariant: those of the loop, the calls of the
user, the frames and the functors.
-/
namespace ProtoRpc.TcpClient

variable {w w' : TcpClient} {k : Nat}

/-- A functor that resets nothing is taken from the batch. -/
theorem Inv.popFunctor (h : Inv w) {f : ClientFunctor} {rest : List ClientFunctor}
    (hphase : w.phase = .functors) (hfunctors : w.functors = f :: rest)
    (hresets : f.resets = none) : Inv { w with functors := rest } := by
  have hqueue : w.queue = f :: (rest ++ w.pendingFunctors) := by rw [queue, hfunctors]; rfl
  refine ⟨{ h.wiring with resets := ?_, batch := fun hnot => absurd hphase hnot },
    { h.holding with
      unique := h.holding.unique
      unborn := h.holding.unborn
      functors := ?_
      fresh := ?_ }⟩
  · have hold := h.wiring.resets
    rw [hqueue, List.filterMap_cons_none hresets] at hold
    exact hold
  · intro k g hg
    exact h.holding.functors k g (hqueue ▸ List.mem_cons_of_mem _ hg)
  · intro k hk hchannel
    have hfresh := h.holding.fresh k hk hchannel
    refine { hfresh with batch := ?_, functors := ?_ }
    · intro _
      have hbatch := hfresh.batch hphase
      rw [hfunctors, List.filterMap_cons_none hresets] at hbatch
      exact hbatch
    · intro g hg
      refine hfresh.functors g ?_
      rw [beforeReset, hqueue, List.takeWhile_cons, hresets]
      exact List.mem_cons_of_mem _ hg

/-- The channel that a queued reset finds is the one that it was queued for. -/
theorem Wiring.channel_of_reset (h : Wiring w) {fd : Nat} {rest : List ClientFunctor}
    (hfunctors : w.functors = .connector (.resetChannel fd) :: rest) :
    w.connector.channel = some ⟨fd, false⟩ ∧
      (rest ++ w.pendingFunctors).filterMap ClientFunctor.resets = [] := by
  have hresets := h.resets
  rw [queue, hfunctors, List.cons_append] at hresets
  change fd :: _ = w.connector.removed at hresets
  rw [Connector.removed] at hresets
  split at hresets
  · rename_i fd' hchannel
    obtain ⟨hfd, hrest⟩ := List.cons.inj hresets
    cases hfd
    exact ⟨hchannel, hrest⟩
  · cases hresets

theorem Inv.resetChannel (h : Inv w) {fd : Nat} {rest : List ClientFunctor}
    (hphase : w.phase = .functors)
    (hfunctors : w.functors = .connector (.resetChannel fd) :: rest) :
    Inv { w with connector := w.connector.resetChannel, functors := rest } := by
  obtain ⟨hchannel, hrest⟩ := h.wiring.channel_of_reset hfunctors
  have hstate : w.connector.state ≠ .kConnecting := by
    intro hconnecting
    obtain ⟨n, hn⟩ := h.wiring.attempt.mp hconnecting
    cases hchannel.symm.trans hn
  have hidle : w.remaining = [] := h.wiring.idle (by rw [hphase]; decide)
  refine ⟨{ h.wiring with
      attempt := ?_
      resets := hrest
      places := ?_
      reported := fun fd r hmem => by rw [hidle] at hmem; cases hmem
      batch := fun hnot => absurd hphase hnot },
    { h.holding with
      unique := h.holding.unique
      unborn := h.holding.unborn
      closing := ?_
      functors := ?_
      fresh := fun _ _ hnot => absurd rfl hnot }⟩
  · refine ⟨fun hconnecting => absurd hconnecting hstate, ?_⟩
    rintro ⟨n, hn⟩
    cases hn
  · intro n
    have hn := h.wiring.places n
    rw [Connector.places, if_neg fun hboth => hstate hboth.1] at hn
    rw [Connector.places, if_neg fun hboth => hstate hboth.1]
    exact hn
  · intro k hclosing
    exact ⟨(h.holding.closing k hclosing).1, rfl, (h.holding.closing k hclosing).2.2⟩
  · intro k g hg
    refine h.holding.functors k g ?_
    rw [queue, hfunctors]
    exact List.mem_cons_of_mem _ hg

theorem Inv.poll (h : Inv w) {reports : List (Source × Revents)} (hphase : w.phase = .polling)
    (htodo : w.todo = []) (hreports : w.Reports reports) :
    Inv { w with phase := .handling, remaining := reports } where
  wiring :=
    { h.wiring with
      once := hreports.once
      reported := fun fd r hmem => (hreports.connector fd r hmem).1
      handled := fun f hf => by rw [htodo] at hf; cases hf
      idle := fun hnot => absurd rfl hnot
      batch := fun _ => h.wiring.batch (by rw [hphase]; decide) }
  holding :=
    { h.holding with
      unique := h.holding.unique
      unborn := h.holding.unborn
      reports := hreports.connection
      fresh := fun k hk hchannel => absurd hphase (h.holding.fresh k hk hchannel).phase }

theorem connectorFrames_eq (r : Revents) :
    connectorFrames r = (if r.pollout then [.connectorWrite] else []) ++
      if r.pollerr || r.pollnval then [.connectorError] else [] := by
  simp only [connectorFrames, eventFrames, List.filterMap_append]
  split <;> split <;> split <;> split <;> rfl

theorem connectorWrite_notMem_tail (r : Revents) :
    .connectorWrite ∉ (connectorFrames r).tail := by
  rw [connectorFrames_eq]
  cases r.pollout <;> cases r.pollerr || r.pollnval <;> decide

theorem closes_connectorFrames (r : Revents) :
    (connectorFrames r).countP ClientFrame.closes = 0 := by
  rw [connectorFrames_eq]
  cases r.pollout <;> cases r.pollerr || r.pollnval <;> rfl

theorem mem_eventFrames {r : Revents} {f : Frame} (h : f ∈ eventFrames r) :
    f = .close ∨ f = .read ∨ f = .write ∨ f = .error := by
  simp only [eventFrames, List.mem_append] at h
  grind

/-- The next channel is taken, of the connector. -/
theorem Inv.handleConnector (h : Inv w) {fd : Nat} {r : Revents} {rest : List (Source × Revents)}
    (hphase : w.phase = .handling) (hremaining : w.remaining = (.connector fd, r) :: rest) :
    Inv { w with remaining := rest, todo := connectorFrames r } := by
  have hchannel := h.wiring.reported fd r (hremaining ▸ List.mem_cons_self)
  have honce := h.wiring.once
  rw [hremaining, List.map_cons, List.nodup_cons] at honce
  have hrest : ∀ fd' r', (Source.connector fd', r') ∉ rest := by
    intro fd' r' hmem
    have hother := h.wiring.reported fd' r' (hremaining ▸ List.mem_cons_of_mem _ hmem)
    cases hchannel.symm.trans hother
    exact honce.1 (List.mem_map.mpr ⟨_, hmem, rfl⟩)
  have hframes : ∀ k f, .connection k f ∉ connectorFrames r := by
    intro k f hf
    rw [connectorFrames_eq] at hf
    grind
  refine ⟨{ h.wiring with
      once := honce.2
      reported := fun fd' r' hmem => absurd hmem (hrest fd' r')
      handled := fun _ _ _ => ⟨hphase, hrest⟩
      writing := fun _ => h.wiring.attempt.mpr ⟨fd, hchannel⟩
      written := connectorWrite_notMem_tail r
      idle := fun hnot => absurd hphase hnot },
    { h.holding with
      unique := h.holding.unique
      unborn := h.holding.unborn
      closing := fun k hmem => absurd hmem (hframes k _)
      closes := (closes_connectorFrames r).trans_le (Nat.zero_le 1)
      reports := fun k r' hmem =>
        h.holding.reports k r' (hremaining ▸ List.mem_cons_of_mem _ hmem)
      frames := fun k f hmem => absurd hmem (hframes k f)
      fresh := ?_ }⟩
  · intro k hk hchannel'
    have hfresh := h.holding.fresh k hk hchannel'
    refine { hfresh with reports := ?_, frames := fun f hmem => absurd hmem (hframes k f) }
    intro r' hmem
    exact hfresh.reports r' (hremaining ▸ List.mem_cons_of_mem _ hmem)

/-- The next channel is taken, of a connection. -/
theorem Inv.handleConnection (h : Inv w) {r : Revents} {rest : List (Source × Revents)}
    (hphase : w.phase = .handling) (hremaining : w.remaining = (.connection k, r) :: rest) :
    Inv { w with remaining := rest, todo := (eventFrames r).map (.connection k) } := by
  have hk := h.holding.reports k r (hremaining ▸ List.mem_cons_self)
  have honce := h.wiring.once
  rw [hremaining, List.map_cons, List.nodup_cons] at honce
  have hframes : ∀ f ∈ (eventFrames r).map (ClientFrame.connection k), ∃ g, f = .connection k g ∧
      (g = .close ∨ g = .read ∨ g = .write ∨ g = .error) := by
    intro f hf
    obtain ⟨g, hg, rfl⟩ := List.mem_map.mp hf
    exact ⟨g, rfl, mem_eventFrames hg⟩
  refine ⟨{ h.wiring with
      once := honce.2
      reported := fun fd r' hmem =>
        h.wiring.reported fd r' (hremaining ▸ List.mem_cons_of_mem _ hmem)
      handled := ?_
      writing := ?_
      written := ?_
      idle := fun hnot => absurd hphase hnot },
    { h.holding with
      unique := h.holding.unique
      unborn := h.holding.unborn
      closing := ?_
      closes := ?_
      reports := fun k' r' hmem =>
        h.holding.reports k' r' (hremaining ▸ List.mem_cons_of_mem _ hmem)
      frames := ?_
      fresh := ?_ }⟩
  · intro f hf hconnector
    obtain ⟨g, rfl, -⟩ := hframes f hf
    cases hconnector
  · intro hhead
    obtain ⟨g, hg, -⟩ := hframes _ (List.mem_of_mem_head? hhead)
    cases hg
  · intro hmem
    obtain ⟨g, hg, -⟩ := hframes _ (List.mem_of_mem_tail hmem)
    cases hg
  · intro k' hmem
    obtain ⟨g, hg, hkind⟩ := hframes _ hmem
    cases hg
    simp at hkind
  · refine (List.countP_eq_zero.mpr ?_).trans_le (Nat.zero_le 1)
    intro f hf hcloses
    obtain ⟨g, rfl, hkind⟩ := hframes f hf
    rcases hkind with rfl | rfl | rfl | rfl <;> cases hcloses
  · intro k' f hmem
    obtain ⟨g, hg, -⟩ := hframes _ hmem
    cases hg
    exact hk
  · intro k' hk' hchannel
    have hfresh := h.holding.fresh k' hk' hchannel
    refine { hfresh with reports := ?_, frames := ?_ }
    · intro r' hmem
      exact hfresh.reports r' (hremaining ▸ List.mem_cons_of_mem _ hmem)
    · intro f hmem
      obtain ⟨g, hg, -⟩ := hframes _ hmem
      cases hg
      exact absurd (hremaining ▸ List.mem_cons_self) (hfresh.reports r)

theorem Inv.doPendingFunctors (h : Inv w) (hphase : w.phase = .handling) (htodo : w.todo = [])
    (hremaining : w.remaining = []) :
    Inv { w with phase := .functors, functors := w.pendingFunctors, pendingFunctors := [] } := by
  have hbatch : w.functors = [] := h.wiring.batch (by rw [hphase]; decide)
  have hqueue : w.queue = w.pendingFunctors ++ [] := by
    rw [queue, hbatch, List.nil_append, List.append_nil]
  refine ⟨{ h.wiring with
      resets := ?_
      handled := fun f hf => by rw [htodo] at hf; cases hf
      idle := fun _ => hremaining
      batch := fun hnot => absurd rfl hnot },
    { h.holding with
      unique := h.holding.unique
      unborn := h.holding.unborn
      functors := ?_
      fresh := ?_ }⟩
  · have hold := h.wiring.resets
    rw [hqueue] at hold
    exact hold
  · intro k f hf
    exact h.holding.functors k f (hqueue ▸ hf)
  · intro k hk hchannel
    have hfresh := h.holding.fresh k hk hchannel
    have hstate := (h.holding.connected k hk).1
    refine ⟨?_, fun _ => ?_, hfresh.reports, hfresh.frames, ?_⟩
    · change IoPhase.functors ≠ .polling
      decide
    · have hremoved := removed_ne_nil h.wiring (by rw [hstate]; decide) hchannel
      rw [← h.wiring.resets, hqueue, List.append_nil] at hremoved
      exact hremoved
    · intro f hf
      refine hfresh.functors f ?_
      rw [beforeReset, hqueue]
      exact hf

theorem Inv.endBatch (h : Inv w) (hphase : w.phase = .functors) (htodo : w.todo = [])
    (hfunctors : w.functors = []) : Inv { w with phase := .polling } where
  wiring :=
    { h.wiring with
      handled := fun f hf => by rw [htodo] at hf; cases hf
      idle := fun _ => h.wiring.idle (by rw [hphase]; decide)
      batch := fun _ => hfunctors }
  holding :=
    { h.holding with
      unique := h.holding.unique
      unborn := h.holding.unborn
      fresh := by
        intro k hk hchannel
        have hbatch := (h.holding.fresh k hk hchannel).batch hphase
        rw [hfunctors] at hbatch
        exact absurd rfl hbatch }

theorem Inv.connect (h : Inv w) {own : Bool} {savedErrno : ConnectErrno}
    (hw' : w.connect own savedErrno = .ok w') : Inv w' := by
  obtain ⟨c, hstart, hrest⟩ := bind_ok_inv hw'
  cases hrest
  have hset := (h.setConnectFlag true).setClientFlags w.retryFlag true
  cases own with
  | true =>
      have hdisconnected := (Connector.startInLoop_safe hstart).1
      refine hset.attempt (Connector.startInLoop_inv hstart) ?_
      intro hconnecting
      cases hdisconnected.symm.trans hconnecting
  | false =>
      cases hstart
      have hqueued := hset.append (l := [.connector .startInLoop]) rfl
        (fun k f hf => by simp at hf)
      have hempty := h.wiring.empty
      simpa [adoptConnector, Connector.queueInLoop, hempty] using hqueued

theorem Inv.disconnect (h : Inv w) (own : Bool) : Inv (w.disconnect own) := by
  have hset := h.setClientFlags w.retryFlag false
  cases hk : w.connection with
  | none => simpa [TcpClient.disconnect, hk] using hset
  | some k =>
      have hadopt := hset.adopt (h.holding.connected k hk).2 ((w.conns k).shutdown_keeps own)
      simpa [TcpClient.disconnect, hk] using hadopt

theorem Inv.stop (h : Inv w) : Inv w.stop := by
  have hset := (h.setConnectFlag false).setClientFlags w.retryFlag false
  have hqueued := hset.append (l := [.connector .stopInLoop]) rfl (fun k f hf => by simp at hf)
  have hempty := h.wiring.empty
  simpa [TcpClient.stop, Connector.stop, adoptConnector, Connector.queueInLoop, hempty]
    using hqueued

/-- What holds when `closeCallback_` is about to be called. -/
theorem Inv.removable (h : Inv w) {rest : List ClientFrame}
    (htodo : w.todo = .connection k .closeCallback :: rest) :
    w.connection = some k ∧ w.connector.channel = none ∧ ¬ w.Open k ∧
      w.connector.state = .kConnected ∧ rest.countP ClientFrame.closes = 0 := by
  obtain ⟨hconnection, hchannel, hdown⟩ := h.holding.closing k (htodo ▸ List.mem_cons_self)
  refine ⟨hconnection, hchannel, hdown, (h.holding.connected k hconnection).1, ?_⟩
  have hcloses := h.holding.closes
  rw [htodo, List.countP_cons_of_pos rfl] at hcloses
  omega

theorem Inv.removeConnection (h : Inv w) {rest : List ClientFrame} {savedErrno : ConnectErrno}
    (htodo : w.todo = .connection k .closeCallback :: rest)
    (hw' : { w with todo := rest }.removeConnection k savedErrno = .ok w') : Inv w' := by
  obtain ⟨hconnection, hchannel, hdown, hstate, hcloses⟩ := h.removable htodo
  have hreleased := ((h.pop htodo).release hconnection hdown hcloses).append
    (l := [.connectDestroyed k]) rfl (fun k f hf => by simp at hf)
  rw [TcpClient.removeConnection, if_pos hconnection] at hw'
  dsimp only at hw'
  split at hw'
  · obtain ⟨c, hrestart, hrest⟩ := bind_ok_inv hw'
    cases hrest
    have hdisconnected := (hreleased.setDisconnected rfl hstate).setConnectFlag true
    refine hdisconnected.attempt (Connector.startInLoop_inv hrestart) ?_
    intro hconnecting
    cases hconnecting
  · cases hw'
    exact hreleased

theorem Inv.connectDestroyed (h : Inv w) (hwrite : .connectorWrite ∉ w.todo) :
    Inv (w.connectDestroyed k) := by
  rw [TcpClient.connectDestroyed]
  split
  · rename_i hconnected
    have hlt := h.lt_established (k := k) (Or.inl hconnected)
    have hdown := h.update hlt
      (c := { w.conns k with state := .kDisconnected, isWriting := false }) fun hup => by simp at hup
    exact hdown.notify hlt hwrite
  · exact h

/-- A frame of a connection that may close it is not among those of a fresh one. -/
theorem Inv.channel_eq_none (h : Inv w) {f : Frame} (hmem : .connection k f ∈ w.todo)
    (hf : f = .close ∨ f = .read) (hopen : w.Open k) : w.connector.channel = none := by
  by_contra hchannel
  have hfresh := h.holding.fresh k (h.holding.unique k hopen) hchannel
  obtain ⟨hclose, hread⟩ := hfresh.frames f hmem
  exact hf.elim hclose hread

theorem Inv.handleRead (h : Inv w) (hk : k < w.established) {r : Buffer.ReadResult}
    (hchannel : w.Open k → w.connector.channel = none) (hwrite : .connectorWrite ∉ w.todo)
    (hw' : w.handleRead k r = .ok w') : Inv w' := by
  obtain ⟨⟨n, input⟩, -, hrest⟩ := bind_ok_inv hw'
  have hread := h.update hk (c := { w.conns k with inputBuffer := input }) id
  dsimp only at hrest
  split at hrest
  · cases hrest
    exact hread.push hk hwrite (Or.inr rfl)
  · split at hrest
    · refine hread.handleClose ?_ hwrite hrest
      intro hopen
      exact hchannel (by simpa [Open] using hopen)
    · cases hrest
      exact hread

theorem Inv.newConnection (h : Inv w) {rest : List ClientFrame} {c : Connector} {sockfd : Nat}
    (htodo : w.todo = .connectorWrite :: rest) (hattempt : w.connector.Attempt c (some sockfd))
    (hw' : ({ w with todo := rest }.adoptConnector c).newConnection sockfd = .ok w') : Inv w' := by
  obtain ⟨hphase, hreports⟩ := h.wiring.handled _ (htodo ▸ List.mem_cons_self) rfl
  have hrest : .connectorWrite ∉ rest := by
    have hwritten := h.wiring.written
    rw [htodo] at hwritten
    exact hwritten
  have hstate : w.connector.state = .kConnecting := h.wiring.writing (by rw [htodo]; rfl)
  have hnone := h.connection_eq_none (by rw [hstate]; decide)
  have hpassed := (h.pop htodo).replace hattempt hnone hreports
    fun hhead => hrest (List.mem_of_mem_head? hhead)
  have hconnected : c.state = .kConnected := by
    cases hattempt
    rfl
  obtain ⟨d, -, hnew⟩ := bind_ok_inv hw'
  cases hnew
  exact (hpassed.establish hnone hphase hconnected).notify (Nat.lt_succ_self _) hrest

theorem Inv.runFrame (h : Inv w) {f : ClientFrame} {rest : List ClientFrame} {x : Results}
    (htodo : w.todo = f :: rest) (hw' : { w with todo := rest }.runFrame x f = .ok w') : Inv w' := by
  have hpop := h.pop htodo
  have hwrite : .connectorWrite ∉ rest := by
    have hwritten := h.wiring.written
    rw [htodo] at hwritten
    exact hwritten
  have hhead : rest.head? ≠ some .connectorWrite := fun hhead => hwrite (List.mem_of_mem_head? hhead)
  have hmem : f ∈ w.todo := htodo ▸ List.mem_cons_self
  cases f with
  | connectorWrite =>
      obtain ⟨⟨c, passed⟩, hwritten, hrest⟩ := bind_ok_inv hw'
      have hattempt := Connector.handleWrite_inv hwritten
      have hreports := (h.wiring.handled _ hmem rfl).2
      cases passed with
      | none =>
          cases hrest
          exact hpop.attempt hattempt fun _ => ⟨hreports, hhead⟩
      | some sockfd => exact h.newConnection htodo hattempt hrest
  | connectorError =>
      obtain ⟨c, herror, hrest⟩ := bind_ok_inv hw'
      cases hrest
      exact hpop.attempt (Connector.handleError_inv herror)
        fun _ => ⟨(h.wiring.handled _ hmem rfl).2, hhead⟩
  | connection k g =>
      have hk := h.holding.frames k g hmem
      cases g with
      | close => exact hpop.handleClose (h.channel_eq_none hmem (Or.inl rfl)) hwrite hw'
      | read => exact hpop.handleRead hk (h.channel_eq_none hmem (Or.inr rfl)) hwrite hw'
      | write =>
          obtain ⟨c, hwritten, hrest⟩ := bind_ok_inv hw'
          cases hrest
          exact hpop.adopt hk (Or.inl (TcpConnection.handleWrite_state (mapError_ok_inv hwritten)))
      | closeCallback => exact h.removeConnection htodo hw'
      | error | connectionCallback | messageCallback | remove =>
          cases hw'
          exact hpop

theorem Inv.runFunctor (h : Inv w) {f : ClientFunctor} {rest : List ClientFunctor} {x : Results}
    (hphase : w.phase = .functors) (htodo : w.todo = []) (hfunctors : w.functors = f :: rest)
    (hw' : { w with functors := rest }.runFunctor x f = .ok w') : Inv w' := by
  have hidle : w.remaining = [] := h.wiring.idle (by rw [hphase]; decide)
  have hwrite : .connectorWrite ∉ w.todo := by
    rw [htodo]
    exact List.not_mem_nil
  have hdone : (∀ fd r, (Source.connector fd, r) ∉ w.remaining) ∧
      w.todo.head? ≠ some .connectorWrite := by
    rw [hidle, htodo]
    exact ⟨fun _ _ => List.not_mem_nil, fun hhead => by cases hhead⟩
  cases f with
  | connector g =>
      obtain ⟨c, hrun, hrest⟩ := bind_ok_inv hw'
      cases hrest
      cases g with
      | startInLoop =>
          exact (h.popFunctor hphase hfunctors rfl).attempt (Connector.startInLoop_inv hrun)
            fun _ => hdone
      | stopInLoop =>
          exact (h.popFunctor hphase hfunctors rfl).attempt (Connector.stopInLoop_inv hrun)
            fun _ => hdone
      | resetChannel fd =>
          cases hrun
          have hreset := h.resetChannel hphase hfunctors
          have hsame := hreset.adoptConnector_self
          exact hsame ▸ hreset
  | own k g =>
      have hpop := h.popFunctor hphase hfunctors rfl
      have hmem : .own k g ∈ w.queue := by
        rw [queue, hfunctors]
        exact List.mem_cons_self
      have hk := h.holding.functors k g hmem
      by_cases hforce : g = .forceCloseInLoop
      · subst hforce
        rw [TcpClient.runFunctor] at hw'
        split at hw'
        · refine hpop.handleClose ?_ hwrite hw'
          intro hopen
          by_contra hchannel
          have hfresh := h.holding.fresh k (h.holding.unique k hopen) hchannel
          refine hfresh.functors .forceCloseInLoop ?_
          rw [beforeReset, queue, hfunctors]
          exact List.mem_cons_self
        · cases hw'
          exact hpop
      · have hrun : (do
            let c ← ((w.conns k).runFunctor x.write g).mapError ClientFault.other
            pure (({ w with functors := rest } : TcpClient).adopt k c)) = Except.ok w' := by
          cases g with
          | forceCloseInLoop => exact absurd rfl hforce
          | _ => exact hw'
        obtain ⟨c, hok, hrest⟩ := bind_ok_inv hrun
        cases hrest
        exact hpop.adopt hk
          (Or.inl (TcpConnection.runFunctor_state hforce (mapError_ok_inv hok)))
  | connectDestroyed k =>
      cases hw'
      exact (h.popFunctor hphase hfunctors rfl).connectDestroyed hwrite
  | other =>
      cases hw'
      exact h.popFunctor hphase hfunctors rfl

/-- Every step keeps the invariant. -/
theorem Inv.step (h : Inv w) {e : Event} (hstep : Step w e w') : Inv w' := by
  rw [Step] at hstep
  generalize hr : (Except.ok w' : Except ClientFault TcpClient) = r at hstep
  cases hstep with
  | connect hown => exact h.connect hr.symm
  | disconnect hown =>
      cases hr
      exact h.disconnect _
  | stop =>
      cases hr
      exact h.stop
  | enableRetry =>
      cases hr
      exact h.setClientFlags true w.connectFlag
  | operate hk hown =>
      obtain ⟨c, hrun, hrest⟩ := bind_ok_inv hr.symm
      cases hrest
      exact h.adopt hk (ConnOp.run_keeps (mapError_ok_inv hrun))
  | poll hphase htodo hreports =>
      cases hr
      exact h.poll hphase htodo hreports
  | @handleEvent source r rest hphase htodo hremaining =>
      cases hr
      cases source with
      | connector fd => exact h.handleConnector hphase hremaining
      | connection k => exact h.handleConnection hphase hremaining
  | doPendingFunctors hphase htodo hremaining =>
      cases hr
      exact h.doPendingFunctors hphase htodo hremaining
  | functor hphase htodo hfunctors => exact h.runFunctor hphase htodo hfunctors hr.symm
  | endBatch hphase htodo hfunctors =>
      cases hr
      exact h.endBatch hphase htodo hfunctors
  | frame htodo => exact h.runFrame htodo hr.symm
  | otherFunctor =>
      cases hr
      exact h.append rfl fun k f hf => by simp at hf

theorem inv_run {ls : List Event} (hrun : Transition.Run Step new ls w) : Inv w :=
  hrun.invariant inv_new fun _ _ _ h hstep => h.step hstep

end ProtoRpc.TcpClient
