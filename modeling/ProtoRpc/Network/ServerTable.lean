import ProtoRpc.Network.TcpServer

/-!
The table of a `TcpServer` holds exactly the connections that have been accepted and
not yet removed, each under its own name. Names differ because the counter is never
cut off, and a connection is removed once because it is closed once: every connection
that is down is at one place on its way out. The calls of a connection are single steps
here.
-/
namespace ProtoRpc

theorem length_formatInt {n k : Nat} (hk : 0 < k) (hn : n < 10 ^ k) :
    (formatInt n).length ≤ k := by
  rw [formatInt, if_neg (Int.not_lt.mpr (Int.natCast_nonneg n)), Int.natAbs_natCast]
  exact (Nat.length_toDigits_le_iff (by decide) hk).mpr hn

theorem formatInt_injective {m n : Nat} (h : formatInt m = formatInt n) : m = n := by
  rw [formatInt, formatInt, if_neg (Int.not_lt.mpr (Int.natCast_nonneg m)),
    if_neg (Int.not_lt.mpr (Int.natCast_nonneg n)), Int.natAbs_natCast, Int.natAbs_natCast] at h
  have hdigits := congrArg (fun ds => Nat.ofDigitChars 10 ds 0) h
  simpa only [Nat.ofDigitChars_ten_toDigits] using hdigits

theorem length_snprintf_le (size : Nat) (text : List Char) :
    (snprintf size text).length ≤ text.length := by
  rw [snprintf, List.length_take]
  exact Nat.min_le_right _ _

theorem snprintf_eq {size : Nat} {text : List Char} (h : text.length < size) :
    snprintf size text = text := by
  rw [snprintf, List.take_of_length_le (by omega)]

namespace SockAddr

variable {A : Type} {inetNtop : SockAddr A → List Char}

theorem length_toIp {size : Nat} {a : SockAddr A} {ip : List Char}
    (h : a.toIp inetNtop size = .ok ip) : ip.length ≤ (inetNtop a).length := by
  obtain ⟨_, -, hip⟩ := bind_ok_inv h
  cases hip
  split
  · exact Nat.le_refl _
  · exact Nat.zero_le _

/-- An address of at most 39 characters makes a text of at most 47. -/
theorem length_toIpPort {a : SockAddr A} {ipPort : List Char} {size : Nat}
    (hlength : (inetNtop a).length ≤ 39) (h : a.toIpPort inetNtop size = .ok ipPort) :
    ipPort.length ≤ 47 := by
  have hport : (formatInt a.port.toNat).length ≤ 5 :=
    length_formatInt (by decide) (Nat.lt_trans a.port.toNat_lt (by decide))
  rw [toIpPort] at h
  split at h
  · obtain ⟨ip, hip, hrest⟩ := bind_ok_inv h
    obtain ⟨_, -, hrest⟩ := bind_ok_inv hrest
    cases hrest
    have htext := length_snprintf_le (size - ('[' :: ip).length) (']' :: ':' :: formatInt a.port.toNat)
    have := length_toIp hip
    simp only [List.length_append, List.length_cons] at htext ⊢
    omega
  · obtain ⟨ip, hip, hrest⟩ := bind_ok_inv h
    obtain ⟨_, -, hrest⟩ := bind_ok_inv hrest
    cases hrest
    have htext := length_snprintf_le (size - ip.length) (':' :: formatInt a.port.toNat)
    have := length_toIp hip
    simp only [List.length_append, List.length_cons] at htext ⊢
    omega

end SockAddr

namespace TcpServer

/-- The counter survives the buffer of 64 octets. -/
theorem connName_eq {name ipPort : List Char} (hipPort : ipPort.length ≤ 47) {id : Nat}
    (hid : (id : Int) ≤ intMax) :
    connName name ipPort id = name ++ '-' :: ipPort ++ '#' :: formatInt id := by
  have hdigits : (formatInt id).length ≤ 10 := by
    refine length_formatInt (by decide) ?_
    rw [intMax] at hid
    omega
  rw [connName, snprintf_eq]
  · simp
  · simp only [List.length_append, List.length_cons]
    omega

theorem connName_injective {name ipPort : List Char} (hipPort : ipPort.length ≤ 47) {i j : Nat}
    (hi : (i : Int) ≤ intMax) (hj : (j : Int) ≤ intMax)
    (h : connName name ipPort i = connName name ipPort j) : i = j := by
  rw [connName_eq hipPort hi, connName_eq hipPort hj] at h
  have htail := List.append_cancel_left h
  exact formatInt_injective (List.cons.inj htail).2

structure Table (w : TcpServer) : Prop where
  ipPort : w.ipPort.length ≤ 47
  ids : w.nextConnId = (w.accepted + 1 : Nat)
  bound : w.nextConnId ≤ intMax
  names : ∀ k < w.accepted, (w.members k).name = connName w.name w.ipPort (k + 1 : Nat)
  destroyed : ∀ k, k ∈ w.destroying → k ∈ w.removed
  exact : ∀ s k, w.connections s = some k ↔
    k < w.accepted ∧ k ∉ w.removed ∧ s = (w.members k).name
  once : ∀ k, w.closing.count k + w.removals.count k + w.removed.count k =
    if k < w.accepted ∧ (w.members k).conn.state = .kDisconnected then 1 else 0

variable {w w' : TcpServer} {k : Nat}

theorem Table.new {A : Type} {inetNtop : SockAddr A → List Char} {listenAddr : SockAddr A}
    {name : List Char} {numThreads : Nat} (hlength : (inetNtop listenAddr).length ≤ 39)
    (h : TcpServer.new inetNtop listenAddr name numThreads = .ok w) : Table w := by
  obtain ⟨ipPort, hipPort, hrest⟩ := bind_ok_inv h
  cases hrest
  refine ⟨SockAddr.length_toIpPort hlength hipPort, rfl, ?_, ?_, ?_, ?_, ?_⟩
  · change (1 : Int) ≤ intMax
    decide
  · intro k hk
    cases hk
  · intro k hk
    cases hk
  · intro s k
    constructor
    · intro hs
      cases hs
    · rintro ⟨hk, -⟩
      cases hk
  · intro k
    rw [if_neg fun hk => Nat.not_lt_zero k hk.1]
    rfl

theorem adopt_name (w : TcpServer) (k : Nat) (c : TcpConnection) (j : Nat) :
    ((w.adopt k c).members j).name = (w.members j).name := by
  by_cases hj : j = k
  · subst hj
    simp [adopt]
  · simp [adopt, Function.update_of_ne hj]

theorem adopt_conn (w : TcpServer) (k : Nat) (c : TcpConnection) (j : Nat) :
    ((w.adopt k c).members j).conn = if j = k then c else (w.members j).conn := by
  by_cases hj : j = k
  · subst hj
    simp [adopt]
  · simp [adopt, hj]

/-- A connection goes down no sooner than it is closed. -/
theorem Table.adopt (h : Table w) {c : TcpConnection}
    (hdown : c.state = .kDisconnected ↔ (w.members k).conn.state = .kDisconnected) :
    Table (w.adopt k c) where
  ipPort := h.ipPort
  ids := h.ids
  bound := h.bound
  names := by
    intro j hj
    rw [adopt_name]
    exact h.names j hj
  destroyed := h.destroyed
  exact := by
    intro s j
    rw [adopt_name]
    exact h.exact s j
  once := by
    intro j
    rw [adopt_conn]
    have hstate : (if j = k then c else (w.members j).conn).state = .kDisconnected ↔
        (w.members j).conn.state = .kDisconnected := by
      split
      · rename_i hj
        rw [hj]
        exact hdown
      · exact Iff.rfl
    simp only [hstate]
    exact h.once j

theorem keeps_down {c c' : TcpConnection} (h : c.Keeps c') :
    c'.state = .kDisconnected ↔ c.state = .kDisconnected := by
  rcases h with hsame | ⟨hopen | hopen, hdisconnecting⟩
  · rw [hsame]
  · simp [hopen, hdisconnecting]
  · simp [hopen, hdisconnecting]

theorem Table.connectEstablished (h : Table w) (hw' : w.connectEstablished k = .ok w') :
    Table w' := by
  obtain ⟨c, hc, hrest⟩ := bind_ok_inv hw'
  cases hrest
  obtain ⟨hconnecting, rfl⟩ := TcpConnection.connectEstablished_inv hc
  refine h.adopt ?_
  simp [hconnecting]

/-- The next connection that is accepted gets a name of its own. -/
theorem Table.fresh (h : Table w) {j : Nat} (hj : j < w.accepted) :
    (w.members j).name ≠ connName w.name w.ipPort w.nextConnId := by
  intro hname
  rw [h.names j hj, h.ids] at hname
  have hbound := h.bound
  rw [h.ids] at hbound
  have hle : ((j + 1 : Nat) : Int) ≤ intMax := by omega
  have := connName_injective h.ipPort hle hbound hname
  omega

/-- `newConnection` up to `connectEstablished`. -/
theorem Table.accept (h : Table w) (hbound : w.nextConnId + 1 ≤ intMax) (loop : Option Nat)
    (next : Nat) :
    Table { w with
      next := next
      nextConnId := w.nextConnId + 1
      accepted := w.accepted + 1
      members := Function.update w.members w.accepted
        ⟨connName w.name w.ipPort w.nextConnId, loop, .new⟩
      connections := Function.update w.connections (connName w.name w.ipPort w.nextConnId)
        (some w.accepted) } := by
  have hcounts := h.once w.accepted
  rw [if_neg fun hk => Nat.lt_irrefl _ hk.1] at hcounts
  have hold : ∀ {j}, j < w.accepted → j ≠ w.accepted := Nat.ne_of_lt
  refine ⟨h.ipPort, ?_, hbound, ?_, ?_, ?_, ?_⟩
  · change w.nextConnId + 1 = _
    rw [h.ids]
    rfl
  · intro j hj
    by_cases heq : j = w.accepted
    · rw [heq]
      simp [h.ids]
    · have hlt : j < w.accepted := by
        change j < w.accepted + 1 at hj
        omega
      change (Function.update w.members w.accepted _ j).name = _
      rw [Function.update_of_ne heq]
      exact h.names j hlt
  · exact h.destroyed
  · intro s j
    change Function.update w.connections _ _ s = some j ↔
      j < w.accepted + 1 ∧ j ∉ w.removed ∧ s = (Function.update w.members w.accepted _ j).name
    by_cases heq : j = w.accepted
    · subst heq
      rw [Function.update_self]
      have hremoved : w.accepted ∉ w.removed := List.count_eq_zero.mp (by omega)
      by_cases hs : s = connName w.name w.ipPort w.nextConnId
      · rw [hs, Function.update_self]
        exact ⟨fun _ => ⟨Nat.lt_succ_self _, hremoved, rfl⟩, fun _ => rfl⟩
      · rw [Function.update_of_ne hs]
        constructor
        · intro hsome
          exact absurd ((h.exact s _).mp hsome).1 (Nat.lt_irrefl _)
        · rintro ⟨-, -, hname⟩
          exact absurd hname hs
    · rw [Function.update_of_ne heq]
      by_cases hs : s = connName w.name w.ipPort w.nextConnId
      · rw [hs, Function.update_self]
        constructor
        · intro hsome
          exact absurd (Option.some.inj hsome).symm heq
        · rintro ⟨hlt, -, hname⟩
          exact absurd hname.symm (h.fresh (by omega))
      · rw [Function.update_of_ne hs, h.exact s j]
        constructor
        · rintro ⟨hlt, hrest⟩
          exact ⟨by omega, hrest⟩
        · rintro ⟨hlt, hrest⟩
          exact ⟨by omega, hrest⟩
  · intro j
    change _ = if j < w.accepted + 1 ∧
      (Function.update w.members w.accepted _ j).conn.state = .kDisconnected then 1 else 0
    by_cases heq : j = w.accepted
    · rw [heq, Function.update_self, if_neg fun hk => by cases hk.2]
      exact hcounts
    · rw [Function.update_of_ne heq]
      have hlt : j < w.accepted + 1 ↔ j < w.accepted := by omega
      simp only [hlt]
      exact h.once j

theorem getNextLoop_eq (w : TcpServer) :
    ∃ loop next, w.getNextLoop = (loop, { w with next := next }) := by
  rw [getNextLoop]
  split
  · exact ⟨none, w.next, rfl⟩
  · exact ⟨some w.next, _, rfl⟩

theorem Table.newConnection (h : Table w) (hw' : w.newConnection = .ok w') : Table w' := by
  obtain ⟨loop, next, hloop⟩ := getNextLoop_eq w
  rw [TcpServer.newConnection, hloop] at hw'
  dsimp only at hw'
  obtain ⟨id, hid, hrest⟩ := bind_ok_inv hw'
  obtain ⟨hbound, rfl⟩ : w.nextConnId + 1 ≤ intMax ∧ id = w.nextConnId + 1 := by
    by_cases hle : w.nextConnId + 1 ≤ intMax
    · rw [addInt_eq hle] at hid
      cases hid
      exact ⟨hle, rfl⟩
    · rw [addInt_error (Int.not_le.mp hle)] at hid
      cases hid
  have haccept := h.accept hbound loop next
  split at hrest
  · exact haccept.connectEstablished hrest
  · cases hrest
    exact { haccept with }

theorem Table.handleClose (h : Table w) (hk : k < w.accepted) (hw' : w.handleClose k = .ok w') :
    Table w' := by
  obtain ⟨c, hc, hrest⟩ := bind_ok_inv hw'
  cases hrest
  obtain ⟨hopen, rfl⟩ := TcpConnection.handleClose_inv hc
  have hup : (w.members k).conn.state ≠ .kDisconnected := by
    rcases hopen with hopen | hopen <;> simp [hopen]
  refine ⟨h.ipPort, h.ids, h.bound, ?_, h.destroyed, ?_, ?_⟩
  · intro j hj
    change ((w.adopt k _).members j).name = _
    rw [adopt_name]
    exact h.names j hj
  · intro s j
    change w.connections s = some j ↔ _ ∧ _ ∧ s = ((w.adopt k _).members j).name
    rw [adopt_name]
    exact h.exact s j
  · intro j
    have hj := h.once j
    change (k :: w.closing).count j + w.removals.count j + w.removed.count j =
      if j < w.accepted ∧ ((w.adopt k _).members j).conn.state = _ then 1 else 0
    rw [adopt_conn, List.count_cons]
    by_cases heq : j = k
    · subst heq
      rw [if_neg fun hdown => hup hdown.2] at hj
      simp [hk]
      omega
    · have hne : (k == j) = false := by simp [Ne.symm heq]
      rw [hne, if_neg heq]
      exact hj

/-- A connection that is on its way out is in the table. -/
theorem Table.removable (h : Table w) (hon : 0 < w.closing.count k + w.removals.count k) :
    k < w.accepted ∧ k ∉ w.removed ∧ w.connections (w.members k).name = some k := by
  have hk := h.once k
  have hdown : k < w.accepted ∧ (w.members k).conn.state = .kDisconnected := by
    by_contra hnot
    rw [if_neg hnot] at hk
    omega
  rw [if_pos hdown] at hk
  have hremoved : k ∉ w.removed := List.count_eq_zero.mp (by omega)
  exact ⟨hdown.1, hremoved, (h.exact _ k).mpr ⟨hdown.1, hremoved, rfl⟩⟩

theorem Table.down_of_removed (h : Table w) (hk : k ∈ w.removed) :
    (w.members k).conn.state = .kDisconnected := by
  have honce := h.once k
  have hcount := List.count_pos_iff.mpr hk
  by_contra hup
  rw [if_neg fun hboth => hup hboth.2] at honce
  omega

/-- All that `removeConnectionInLoop` does. -/
theorem removeConnectionInLoop_eq (hlisted : w.connections (w.members k).name = some k) :
    w.removeConnectionInLoop k = .ok
      { w with
        connections := Function.update w.connections (w.members k).name none
        removed := w.removed ++ [k]
        destroying := w.destroying ++ [k] } := by
  rw [TcpServer.removeConnectionInLoop, hlisted]
  rfl

/-- A connection leaves the table, from where it waited. -/
theorem Table.remove (h : Table w) (hon : 0 < w.closing.count k + w.removals.count k)
    {closing removals : List Nat}
    (hwait : ∀ j, closing.count j + removals.count j + (if j = k then 1 else 0) =
      w.closing.count j + w.removals.count j) :
    Table { w with
      closing := closing
      removals := removals
      connections := Function.update w.connections (w.members k).name none
      removed := w.removed ++ [k]
      destroying := w.destroying ++ [k] } := by
  obtain ⟨hk, hremoved, hlisted⟩ := h.removable hon
  refine ⟨h.ipPort, h.ids, h.bound, h.names, ?_, ?_, ?_⟩
  · intro j hj
    cases List.mem_append.mp hj with
    | inl hold => exact List.mem_append_left _ (h.destroyed j hold)
    | inr hnew => exact List.mem_append_right _ hnew
  · intro s j
    change Function.update w.connections _ none s = some j ↔
      j < w.accepted ∧ j ∉ w.removed ++ [k] ∧ s = (w.members j).name
    by_cases hs : s = (w.members k).name
    · rw [hs, Function.update_self]
      constructor
      · intro hnone
        cases hnone
      · rintro ⟨hj, hnot, hname⟩
        have hboth : w.connections (w.members k).name = some j :=
          (h.exact _ j).mpr ⟨hj, fun hmem => hnot (List.mem_append_left _ hmem), hname⟩
        cases hlisted.symm.trans hboth
        exact absurd (List.mem_append_right _ List.mem_cons_self) hnot
    · rw [Function.update_of_ne hs, h.exact s j]
      constructor
      · rintro ⟨hj, hnot, rfl⟩
        refine ⟨hj, ?_, rfl⟩
        intro hmem
        cases List.mem_append.mp hmem with
        | inl hold => exact hnot hold
        | inr hnew =>
            rw [List.mem_singleton.mp hnew] at hs
            exact hs rfl
      · rintro ⟨hj, hnot, hname⟩
        exact ⟨hj, fun hmem => hnot (List.mem_append_left _ hmem), hname⟩
  · intro j
    have hj := h.once j
    have hw := hwait j
    change closing.count j + removals.count j + (w.removed ++ [k]).count j = _
    rw [← hj, List.count_append, List.count_singleton]
    simp only [beq_iff_eq, eq_comm (a := k)]
    omega

theorem count_erase_add {l : List Nat} (hk : k ∈ l) (j : Nat) :
    (l.erase k).count j + (if j = k then 1 else 0) = l.count j := by
  have hpos := List.count_pos_iff.mpr hk
  rw [List.count_erase]
  by_cases hj : j = k
  · subst hj
    simp
    omega
  · simp [hj, Ne.symm hj]

theorem Table.removeConnection (h : Table w) (hk : k ∈ w.closing)
    (hw' : { w with closing := w.closing.erase k }.removeConnection k = .ok w') : Table w' := by
  have hcount := List.count_pos_iff.mpr hk
  have hon : 0 < w.closing.count k + w.removals.count k := by omega
  rw [TcpServer.removeConnection] at hw'
  split at hw'
  · have hremove := removeConnectionInLoop_eq (w := { w with closing := w.closing.erase k })
      (h.removable hon).2.2
    cases hremove.symm.trans hw'
    refine h.remove hon ?_
    intro j
    have herase := count_erase_add hk j
    change (w.closing.erase k).count j + w.removals.count j + _ = _
    omega
  · cases hw'
    refine { h with once := ?_ }
    intro j
    have herase := count_erase_add hk j
    change (w.closing.erase k).count j + (w.removals ++ [k]).count j + w.removed.count j = _
    rw [← h.once j, List.count_append, List.count_singleton]
    simp only [beq_iff_eq, eq_comm (a := k)]
    omega

theorem Table.runFunctor (h : Table w) (hk : k < w.accepted) {r : WriteResult} {f : Functor}
    (hw' : w.runFunctor k r f = .ok w') : Table w' := by
  by_cases hf : f = .forceCloseInLoop
  · subst hf
    rw [TcpServer.runFunctor] at hw'
    split at hw'
    · exact h.handleClose hk hw'
    · cases hw'
      exact h
  · have hrun : (do
        let c ← (w.members k).conn.runFunctor r f
        pure (w.adopt k c)) = Except.ok w' := by
      cases f with
      | forceCloseInLoop => exact absurd rfl hf
      | _ => exact hw'
    obtain ⟨c, hc, hrest⟩ := bind_ok_inv hrun
    cases hrest
    exact h.adopt (by rw [TcpConnection.runFunctor_state hf hc])

theorem Table.handleRead (h : Table w) (hk : k < w.accepted) {r : Buffer.ReadResult}
    (hw' : w.handleRead k r = .ok w') : Table w' := by
  obtain ⟨⟨n, input⟩, -, hrest⟩ := bind_ok_inv hw'
  have hread := h.adopt (k := k) (c := { (w.members k).conn with inputBuffer := input }) Iff.rfl
  dsimp only at hrest
  split at hrest
  · exact hread.handleClose hk hrest
  · cases hrest
    exact hread

/-- Every step keeps the table exact. -/
theorem Table.step (h : Table w) {e : Event} (hstep : Step w e w') : Table w' := by
  rw [Step] at hstep
  generalize hr : (Except.ok w' : Except Fault TcpServer) = r at hstep
  cases hstep with
  | newConnection => exact h.newConnection hr.symm
  | @connectEstablished k hk =>
      have herased : Table { w with establishing := w.establishing.erase k } := { h with }
      exact herased.connectEstablished hr.symm
  | operate hk =>
      obtain ⟨c, hc, hrest⟩ := bind_ok_inv hr.symm
      cases hrest
      exact h.adopt (keeps_down (ConnOp.run_keeps hc))
  | close hk => exact h.handleClose hk hr.symm
  | read hk => exact h.handleRead hk hr.symm
  | write hk =>
      obtain ⟨c, hc, hrest⟩ := bind_ok_inv hr.symm
      cases hrest
      exact h.adopt (by rw [TcpConnection.handleWrite_state hc])
  | @functor k r f rest hk hfunctors =>
      have hpop := h.adopt (k := k)
        (c := { (w.members k).conn with pendingFunctors := rest }) Iff.rfl
      exact hpop.runFunctor hk hr.symm
  | closeCallback hk => exact h.removeConnection hk hr.symm
  | @removeConnectionInLoop k rest hremovals =>
      have hon : 0 < w.closing.count k + w.removals.count k := by
        rw [hremovals, List.count_cons_self]
        omega
      have hremove := removeConnectionInLoop_eq (w := { w with removals := rest })
        (h.removable hon).2.2
      cases hremove.symm.trans hr.symm
      refine h.remove hon ?_
      intro j
      rw [hremovals, List.count_cons]
      simp only [beq_iff_eq, eq_comm (a := k)]
      omega
  | @connectDestroyed k hk =>
      cases hr
      have hdown := h.down_of_removed (h.destroyed k hk)
      rw [TcpServer.connectDestroyed, if_neg (by rw [hdown]; decide)]
      refine { h with destroyed := ?_ }
      intro j hj
      exact h.destroyed j (List.mem_of_mem_erase hj)

/-- The connection for which an event runs `removeConnectionInLoop`. -/
def Removes (w : TcpServer) (k : Nat) : Event → Prop
  | .closeCallback j => j = k ∧ (w.members k).loop = none
  | .removeConnectionInLoop => w.removals.head? = some k
  | _ => False

theorem Table.bound_accepted (h : Table w) : w.accepted < 2 ^ 31 - 1 := by
  have hbound := h.bound
  rw [h.ids, intMax] at hbound
  omega

theorem Table.name_injective (h : Table w) {j k : Nat} (hj : j < w.accepted) (hk : k < w.accepted)
    (hname : (w.members j).name = (w.members k).name) : j = k := by
  have hbound := h.bound_accepted
  rw [h.names j hj, h.names k hk] at hname
  have := connName_injective h.ipPort (by rw [intMax]; omega) (by rw [intMax]; omega) hname
  omega

/-- A removal takes its own connection out. -/
theorem Table.removes (h : Table w) {e : Event} {r : Except Fault TcpServer} (hexec : Exec w e r)
    (hremoves : w.Removes k e) : w.connections (w.members k).name = some k ∧
      ∃ w', r = .ok w' ∧ w'.removed = w.removed ++ [k] ∧
        w'.connections = Function.update w.connections (w.members k).name none := by
  cases hexec with
  | @closeCallback j hj =>
      obtain ⟨rfl, hloop⟩ := hremoves
      have hcount := List.count_pos_iff.mpr hj
      have hlisted := (h.removable (k := j) (by omega)).2.2
      have hremove := removeConnectionInLoop_eq (w := { w with closing := w.closing.erase j })
        hlisted
      exact ⟨hlisted, _, (if_pos hloop).trans hremove, rfl, rfl⟩
  | @removeConnectionInLoop j rest hremovals =>
      have hjk : j = k := by
        have hhead : w.removals.head? = some k := hremoves
        rw [hremovals] at hhead
        exact Option.some.inj hhead
      subst hjk
      have hcount : 0 < w.removals.count j := by
        rw [hremovals, List.count_cons_self]
        exact Nat.succ_pos _
      have hlisted := (h.removable (k := j) (by omega)).2.2
      have hremove := removeConnectionInLoop_eq (w := { w with removals := rest }) hlisted
      exact ⟨hlisted, _, hremove, rfl, rfl⟩
  | _ => cases hremoves

end TcpServer
end ProtoRpc
