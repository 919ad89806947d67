import ProtoRpc.Network.ConnectionInvariant

/-!
What the operations of a connection do to the reading of its channel. Reading is
switched on when the connection is established and by `startReadInLoop`, and by nothing
else; `handleEvent` apart, no operation leaves a `handleRead` to be run; and what the
connection queues for the loop can be run when its turn comes.
-/
namespace ProtoRpc

namespace Poller
variable {C : Type} [DecidableEq C] {chan : C} {p p' : Poller C}

/-- What was done to one channel. Others are as they were, and reading was not switched
on but where `up` allows it. -/
structure Steers (chan : C) (up : Prop) (p p' : Poller C) : Prop where
  agrees : p'.Agrees
  others : ∀ d, d ≠ chan → p'.table d = p.table d
  read : ¬ up → (p.table chan).events.read = false → (p'.table chan).events.read = false

omit [DecidableEq C] in
theorem steers_refl (h : p.Agrees) (up : Prop) : Steers chan up p p where
  agrees := h
  others := fun _ _ => rfl
  read := fun _ hread => hread

theorem steers_interestOp (h : p.Agrees) {op : InterestOp} {up : Prop}
    (hop : op = .enableReading → up) (hp : p.interestOp chan op = .ok p') :
    Steers chan up p p' where
  agrees := (interestOp_inv h hp).1
  others := by
    intro d hd
    have hallowed : p.Allowed (.interest chan op) := fun _ => sole_of_interestOp h hp
    exact table_of_exec h hallowed hd.symm hp
  read := by
    intro hnot hread
    rw [(interestOp_inv h hp).2.1]
    cases op with
    | enableReading => exact absurd (hop rfl) hnot
    | disableReading | disableAll => rfl
    | enableWriting | disableWriting => exact hread

theorem steers_remove (h : p.Agrees) (hp : p.remove chan = .ok p') (up : Prop) :
    Steers chan up p p' where
  agrees := (remove_inv h hp).2.1
  others := by
    intro d hd
    have hallowed : p.Allowed (.remove chan) := registered_of_remove h hp
    exact table_of_exec h hallowed hd.symm hp
  read := by
    intro _ hread
    rw [(remove_inv h hp).2.2.1]
    exact hread

end Poller

namespace ServerConnection
variable {C : Type} [DecidableEq C] {chan : C} {s s' : ServerConnection C}

/-- Only a connection that was accepted is established, and only one that is established
is known to the user. -/
structure Known (s : ServerConnection C) : Prop where
  accepted : s.conn.state ≠ .kConnecting → s.accepted = true
  established : s.notices ≠ [] → s.conn.state ≠ .kConnecting

/-- What an operation on a connection can do, as far as reading goes. -/
structure Acts (chan : C) (s s' : ServerConnection C) : Prop where
  poller : s.poller.Agrees → Poller.Steers chan (s.conn.state = .kConnecting) s.poller s'.poller
  established : s.conn.state ≠ .kConnecting → s'.conn.state ≠ .kConnecting
  known : s.Known → s'.Known
  accepted : s.accepted = true → s'.accepted = true
  todo : ∃ called, .read ∉ called ∧ s'.todo = called ++ s.todo
  queued : .connectEstablished ∈ s'.pendingFunctors →
    .connectEstablished ∈ s.pendingFunctors ∨ s'.accepted = true

omit [DecidableEq C] in
theorem acts_of_same
    (hpoller : s.poller.Agrees →
      Poller.Steers chan (s.conn.state = .kConnecting) s.poller s'.poller)
    (hstate : s'.conn.state = .kConnecting ↔ s.conn.state = .kConnecting)
    (hnotices : s'.notices = s.notices) (haccepted : s'.accepted = s.accepted)
    (htodo : ∃ called, .read ∉ called ∧ s'.todo = called ++ s.todo)
    (hqueued : .connectEstablished ∈ s'.pendingFunctors →
      .connectEstablished ∈ s.pendingFunctors) : Acts chan s s' where
  poller := hpoller
  established := fun hup hconnecting => hup (hstate.mp hconnecting)
  known := by
    intro hknown
    refine ⟨?_, ?_⟩
    · intro hup
      rw [haccepted]
      exact hknown.accepted fun hconnecting => hup (hstate.mpr hconnecting)
    · intro hsome hconnecting
      rw [hnotices] at hsome
      exact hknown.established hsome (hstate.mp hconnecting)
  accepted := by
    rw [haccepted]
    exact id
  todo := htodo
  queued := fun hmem => Or.inl (hqueued hmem)

theorem acts_adopt {c : TcpConnection} (hkeeps : s.conn.Keeps c) (hs : s.adopt chan c = .ok s') :
    Acts chan s s' := by
  obtain ⟨p, hfollows, rfl⟩ := adopt_inv hs
  refine acts_of_same ?_ hkeeps.connecting_iff rfl rfl ⟨[], List.not_mem_nil, rfl⟩ ?_
  · intro hagrees
    rcases hfollows with ⟨-, rfl⟩ | ⟨-, hp⟩
    · exact Poller.steers_refl hagrees _
    · refine Poller.steers_interestOp hagrees ?_ hp
      split
      · exact fun h => by cases h
      · exact fun h => by cases h
  · simp

omit [DecidableEq C] in
/-- Nothing that matters was done, but for the callbacks that were called. -/
theorem acts_called (called : List Frame) (hcalled : .read ∉ called)
    (hpoller : s'.poller = s.poller) (hstate : s'.conn.state = s.conn.state)
    (hnotices : s'.notices = s.notices) (haccepted : s'.accepted = s.accepted)
    (htodo : s'.todo = called ++ s.todo)
    (hqueued : .connectEstablished ∈ s'.pendingFunctors →
      .connectEstablished ∈ s.pendingFunctors) : Acts chan s s' := by
  refine acts_of_same ?_ (by rw [hstate]) hnotices haccepted ⟨called, hcalled, htodo⟩ hqueued
  intro hagrees
  rw [hpoller]
  exact Poller.steers_refl hagrees _

omit [DecidableEq C] in
theorem acts_refl (s : ServerConnection C) : Acts chan s s :=
  acts_called [] List.not_mem_nil rfl rfl rfl rfl rfl id

omit [DecidableEq C] in
theorem Acts.trans {s₁ : ServerConnection C} (h : Acts chan s s₁) (h₁ : Acts chan s₁ s') :
    Acts chan s s' where
  poller := by
    intro hagrees
    have hfirst := h.poller hagrees
    have hsecond := h₁.poller hfirst.agrees
    exact
      { agrees := hsecond.agrees
        others := fun d hd => (hsecond.others d hd).trans (hfirst.others d hd)
        read := fun hup hread => hsecond.read (h.established hup) (hfirst.read hup hread) }
  established := fun hup => h₁.established (h.established hup)
  known := fun hknown => h₁.known (h.known hknown)
  accepted := fun haccepted => h₁.accepted (h.accepted haccepted)
  todo := by
    obtain ⟨called, hcalled, htodo⟩ := h.todo
    obtain ⟨called₁, hcalled₁, htodo₁⟩ := h₁.todo
    refine ⟨called₁ ++ called, ?_, ?_⟩
    · simp [hcalled, hcalled₁]
    · rw [htodo₁, htodo, List.append_assoc]
  queued := by
    intro hmem
    rcases h₁.queued hmem with hmem₁ | haccepted
    · exact (h.queued hmem₁).imp_right h₁.accepted
    · exact Or.inr haccepted

/-- The connection goes down: its channel wants nothing more. -/
theorem acts_down (called : List Frame) (hcalled : .read ∉ called)
    (hup : s.conn.state ≠ .kConnecting)
    (hp : s.poller.interestOp chan .disableAll = .ok s'.poller)
    (hdown : s'.conn.state = .kDisconnected) (haccepted : s'.accepted = s.accepted)
    (htodo : s'.todo = called ++ s.todo)
    (hqueue : s'.pendingFunctors = s.pendingFunctors) : Acts chan s s' := by
  have hstate : s'.conn.state ≠ .kConnecting := by
    rw [hdown]
    decide
  exact
    { poller := fun hagrees => Poller.steers_interestOp hagrees (fun h => by cases h) hp
      established := fun _ => hstate
      known := fun hknown => ⟨fun _ => haccepted.trans (hknown.accepted hup), fun _ => hstate⟩
      accepted := haccepted.trans
      todo := ⟨called, hcalled, htodo⟩
      queued := fun hmem => Or.inl (hqueue ▸ hmem) }

theorem acts_handleClose (hs : s.handleClose chan = .ok s') : Acts chan s s' := by
  obtain ⟨hopen, p, hp, rfl⟩ := handleClose_inv hs
  have hup : s.conn.state ≠ .kConnecting := by
    rcases hopen with hstate | hstate
    · rw [hstate]
      decide
    · rw [hstate]
      decide
  exact acts_down [.connectionCallback, .closeCallback] (by decide) hup hp rfl rfl rfl rfl

theorem acts_connectEstablished (haccepted : s.accepted = true)
    (hs : s.connectEstablished chan = .ok s') : Acts chan s s' := by
  obtain ⟨hconnecting, p, hp, rfl⟩ := connectEstablished_inv hs
  exact
    { poller := fun hagrees => Poller.steers_interestOp hagrees (fun _ => hconnecting) hp
      established := fun hup => absurd hconnecting hup
      known := fun _ => ⟨fun _ => haccepted, fun _ hstate => by cases hstate⟩
      accepted := id
      todo := ⟨[.connectionCallback], by decide, rfl⟩
      queued := Or.inl }

theorem acts_connectDestroyed (hs : s.connectDestroyed chan = .ok s') : Acts chan s s' := by
  have hbegin : Acts chan s
      { s with destroyed := s.destroyed + 1, todo := .remove :: s.todo } :=
    acts_called [.remove] (by decide) rfl rfl rfl rfl rfl id
  rw [connectDestroyed] at hs
  split at hs
  · rename_i hconnected
    obtain ⟨s₁, hs₁, hrest⟩ := bind_ok_inv hs
    obtain ⟨p, hp, rfl⟩ := interestOp_inv hs₁
    cases hrest
    refine hbegin.trans (acts_down [.connectionCallback] (by decide) ?_ hp rfl rfl rfl rfl)
    rw [hconnected]
    decide
  · cases hs
    exact hbegin

omit [DecidableEq C] in
theorem acts_removeConnectionInLoop (hs : s.removeConnectionInLoop = .ok s') :
    Acts chan s s' := by
  obtain rfl := removeConnectionInLoop_inv hs
  exact acts_called [] List.not_mem_nil rfl rfl rfl rfl rfl (by simp)

omit [DecidableEq C] in
theorem acts_closeCallback {oneLoop : Bool} (hs : s.closeCallback oneLoop = .ok s') :
    Acts chan s s' := by
  have hcalled : Acts chan s { s with closeCallbacks := s.closeCallbacks + 1 } :=
    acts_called [] List.not_mem_nil rfl rfl rfl rfl rfl id
  cases oneLoop with
  | true => exact hcalled.trans (acts_removeConnectionInLoop hs)
  | false =>
      cases hs
      exact acts_called [] List.not_mem_nil rfl rfl rfl rfl rfl id

theorem acts_removeChannel (hs : s.removeChannel chan = .ok s') : Acts chan s s' := by
  obtain ⟨p, hp, rfl⟩ := removeChannel_inv hs
  exact acts_of_same (fun hagrees => Poller.steers_remove hagrees hp _) Iff.rfl rfl rfl
    ⟨[], List.not_mem_nil, rfl⟩ id

omit [DecidableEq C] in
theorem acts_setInput (s : ServerConnection C) (input : Buffer) :
    Acts chan s { s with conn := { s.conn with inputBuffer := input } } :=
  acts_called [] List.not_mem_nil rfl rfl rfl rfl rfl id

theorem acts_handleRead {r : Buffer.ReadResult} (hs : s.handleRead chan r = .ok s') :
    Acts chan s s' := by
  obtain ⟨⟨n, input⟩, -, hrest⟩ := bind_ok_inv hs
  dsimp only at hrest
  split at hrest
  · cases hrest
    exact acts_called [.messageCallback] (by decide) rfl rfl rfl rfl rfl id
  · split at hrest
    · exact (acts_setInput s input).trans (acts_handleClose hrest)
    · cases hrest
      exact acts_setInput s input

theorem acts_newConnection {oneLoop : Bool} (hs : s.newConnection chan oneLoop = .ok s') :
    Acts chan s s' := by
  have haccepted : Acts chan s { s with accepted := true, listed := true } :=
    { poller := fun hagrees => Poller.steers_refl hagrees _
      established := id
      known := fun hknown => ⟨fun _ => rfl, hknown.established⟩
      accepted := fun _ => rfl
      todo := ⟨[], List.not_mem_nil, rfl⟩
      queued := Or.inl }
  cases oneLoop with
  | true => exact haccepted.trans (acts_connectEstablished rfl hs)
  | false =>
      cases hs
      exact
        { poller := haccepted.poller
          established := id
          known := fun hknown => ⟨fun _ => rfl, hknown.established⟩
          accepted := fun _ => rfl
          todo := ⟨[], List.not_mem_nil, rfl⟩
          queued := fun _ => Or.inr rfl }

theorem acts_runFunctor {r : WriteResult} {f : IoFunctor}
    (haccepted : f = .connectEstablished → s.accepted = true)
    (hs : s.runFunctor chan r f = .ok s') : Acts chan s s' := by
  cases f with
  | connectEstablished => exact acts_connectEstablished (haccepted rfl) hs
  | connectDestroyed => exact acts_connectDestroyed hs
  | other =>
      cases hs
      exact acts_refl s
  | own f =>
      cases f with
      | forceCloseInLoop =>
          simp only [runFunctor] at hs
          split at hs
          · exact acts_handleClose hs
          · cases hs
            exact acts_refl s
      | _ =>
          obtain ⟨c, hc, hs⟩ := bind_ok_inv hs
          exact acts_adopt (Or.inl (TcpConnection.runFunctor_state (by simp) hc)) hs

/-- The frame has been popped. -/
theorem acts_runFrame {oneLoop : Bool} {read : Buffer.ReadResult} {write : WriteResult} {f : Frame}
    (hs : s.runFrame chan oneLoop read write f = .ok s') : Acts chan s s' := by
  cases f with
  | close => exact acts_handleClose hs
  | read => exact acts_handleRead hs
  | write =>
      obtain ⟨c, hc, hs⟩ := bind_ok_inv hs
      exact acts_adopt (Or.inl (TcpConnection.handleWrite_state hc)) hs
  | closeCallback => exact acts_closeCallback hs
  | remove => exact acts_removeChannel hs
  | _ =>
      cases hs
      exact acts_refl s

theorem adopt_todo {c : TcpConnection} (hs : s.adopt chan c = .ok s') : s'.todo = s.todo := by
  obtain ⟨p, -, rfl⟩ := adopt_inv hs
  rfl

end ServerConnection

/-- A connection is established when it was accepted, and reading is stopped when it was
established. -/
def ConnTask.Ready {C : Type} (s : ServerConnection C) : ConnTask → Prop
  | .io .connectEstablished => s.accepted = true
  | .stopReadInLoop => s.conn.state ≠ .kConnecting
  | _ => True

theorem ConnTask.Ready.stays {C : Type} {s s' : ServerConnection C} {t : ConnTask} (h : t.Ready s)
    (haccepted : s.accepted = true → s'.accepted = true)
    (hestablished : s.conn.state ≠ .kConnecting → s'.conn.state ≠ .kConnecting) : t.Ready s' := by
  cases t with
  | io f =>
      cases f with
      | connectEstablished => exact haccepted h
      | _ => trivial
  | startReadInLoop => trivial
  | stopReadInLoop => exact hestablished h

namespace Connection
variable {C : Type} [DecidableEq C] {chan : C} {up : Prop} {v v' : Connection C}
  {s : ServerConnection C}

/-- What a step of a connection can do, as far as reading goes: `up` where it runs
`startReadInLoop`. -/
structure Moves (chan : C) (up : Prop) (v v' : Connection C) : Prop where
  poller : v.server.poller.Agrees →
    Poller.Steers chan (up ∨ v.server.conn.state = .kConnecting) v.server.poller v'.server.poller
  established : v.server.conn.state ≠ .kConnecting → v'.server.conn.state ≠ .kConnecting
  known : v.server.Known → v'.server.Known
  accepted : v.server.accepted = true → v'.server.accepted = true
  todo : .read ∉ v.server.todo.tail → v'.server.todo = v.server.todo ∨ .read ∉ v'.server.todo
  queued : v.server.Known → v.server.pendingFunctors = [] →
    ∀ t ∈ v'.pendingTasks, t ∈ v.pendingTasks ∨ t.Ready v'.server

omit [DecidableEq C] in
/-- The loop thread may have gone on to `todo` before. -/
theorem moves_collect {todo : List Frame}
    (h : ServerConnection.Acts chan { v.server with todo := todo } s)
    (htodo : .read ∉ v.server.todo.tail → s.todo = v.server.todo ∨ .read ∉ s.todo) :
    Moves chan up v (v.collect s) where
  poller := by
    intro hagrees
    have hsteers := h.poller hagrees
    exact
      { agrees := hsteers.agrees
        others := hsteers.others
        read := fun hup => hsteers.read fun hconnecting => hup (Or.inr hconnecting) }
  established := h.established
  known := by
    intro hknown
    have hknown' := h.known ⟨hknown.accepted, hknown.established⟩
    exact ⟨hknown'.accepted, hknown'.established⟩
  accepted := h.accepted
  todo := htodo
  queued := by
    intro _ hnone t ht
    rcases List.mem_append.mp ht with hold | hnew
    · exact Or.inl hold
    · obtain ⟨f, hf, rfl⟩ := List.mem_map.mp hnew
      refine Or.inr ?_
      cases f with
      | connectEstablished =>
          rcases h.queued hf with hbefore | haccepted
          · rw [hnone] at hbefore
            cases hbefore
          · exact haccepted
      | _ => trivial

theorem moves_adopt {c : TcpConnection} (hkeeps : v.server.conn.Keeps c)
    (hs : v.server.adopt chan c = .ok s) : Moves chan up v (v.collect s) :=
  moves_collect (ServerConnection.acts_adopt hkeeps hs)
    fun _ => Or.inl (ServerConnection.adopt_todo hs)

omit [DecidableEq C] in
/-- With nothing left to read, what is called reads nothing. -/
theorem moves_acts (h : ServerConnection.Acts chan v.server s) (hread : .read ∉ v.server.todo) :
    Moves chan up v (v.collect s) := by
  refine moves_collect h fun _ => Or.inr ?_
  obtain ⟨called, hcalled, htodo⟩ := h.todo
  rw [htodo]
  simp [hcalled, hread]

/-- The frame is the only one that may read. -/
theorem moves_frame {oneLoop : Bool} {read : Buffer.ReadResult} {write : WriteResult} {f : Frame}
    {rest : List Frame} (htodo : v.server.todo = f :: rest)
    (hs : { v.server with todo := rest }.runFrame chan oneLoop read write f = .ok s) :
    Moves chan up v (v.collect s) := by
  have hacts := ServerConnection.acts_runFrame hs
  refine moves_collect hacts fun htail => Or.inr ?_
  obtain ⟨called, hcalled, htodo'⟩ := hacts.todo
  rw [htodo] at htail
  rw [htodo']
  simp only [List.mem_append, not_or]
  exact ⟨hcalled, htail⟩

omit [DecidableEq C] in
theorem moves_refl (v : Connection C) : Moves chan up v v where
  poller := fun hagrees => Poller.steers_refl hagrees _
  established := id
  known := id
  accepted := id
  todo := fun _ => Or.inl rfl
  queued := fun _ _ _ ht => Or.inl ht

theorem moves_setReading {op : InterestOp} {p : Poller C} {reading : Bool}
    (hop : op = .enableReading → up) (hp : v.server.poller.interestOp chan op = .ok p) :
    Moves chan up v { v with server := { v.server with poller := p }, reading := reading } where
  poller := fun hagrees => Poller.steers_interestOp hagrees (fun h => Or.inl (hop h)) hp
  established := id
  known := fun hknown => ⟨hknown.accepted, hknown.established⟩
  accepted := id
  todo := fun _ => Or.inl rfl
  queued := fun _ _ _ ht => Or.inl ht

theorem moves_startReadInLoop (hup : up) (hv' : v.startReadInLoop chan = .ok v') :
    Moves chan up v v' := by
  rcases startReadInLoop_inv hv' with ⟨-, p, hp, rfl⟩ | ⟨-, rfl⟩
  · exact moves_setReading (fun _ => hup) hp
  · exact moves_refl v'

theorem moves_stopReadInLoop (hv' : v.stopReadInLoop chan = .ok v') : Moves chan up v v' := by
  rcases stopReadInLoop_inv hv' with ⟨-, p, hp, rfl⟩ | ⟨-, rfl⟩
  · exact moves_setReading (fun h => by cases h) hp
  · exact moves_refl v'

omit [DecidableEq C] in
theorem moves_queueInLoop {t : ConnTask} (ht : v.server.Known → t.Ready v.server) :
    Moves chan up v (v.queueInLoop t) where
  poller := fun hagrees => Poller.steers_refl hagrees _
  established := id
  known := id
  accepted := id
  todo := fun _ => Or.inl rfl
  queued := by
    intro hknown _ t' ht'
    rcases List.mem_append.mp ht' with hold | hnew
    · exact Or.inl hold
    · rw [List.mem_singleton.mp hnew]
      exact Or.inr (ht hknown)

theorem moves_runTask {r : WriteResult} {t : ConnTask} (hidle : v.server.todo = [])
    (hready : t.Ready v.server) (hup : t = .startReadInLoop → up)
    (hv' : v.runTask chan r t = .ok v') : Moves chan up v v' := by
  cases t with
  | io f =>
      obtain ⟨s, hs, hrest⟩ := bind_ok_inv hv'
      cases hrest
      refine moves_acts (ServerConnection.acts_runFunctor ?_ hs) ?_
      · rintro rfl
        exact hready
      · rw [hidle]
        exact List.not_mem_nil
  | startReadInLoop => exact moves_startReadInLoop (hup rfl) hv'
  | stopReadInLoop => exact moves_stopReadInLoop hv'

end Connection
end ProtoRpc
