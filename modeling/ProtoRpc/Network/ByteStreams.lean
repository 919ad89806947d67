import ProtoRpc.Network.ConnectionInvariant
import ProtoRpc.Network.HalfClose
import ProtoRpc.Network.LoopRuns
import ProtoRpc.Network.OutputStream
import ProtoRpc.Network.StopRead

/-!
The bytes that go through the connections of a loop, in both directions. What the socket of
a connection gave is what its callbacks have retrieved and then what its input buffer holds;
and until the connection is down, what the kernel took and then what its output buffer holds
are the messages in the order in which they were sent, whichever thread they came from and
whatever else the loop did in between.
-/
namespace ProtoRpc
open Transition

namespace TcpConnection
variable {c c' : TcpConnection} {read taken : List UInt8} {sent : List Attempt}

/-- What goes in and out of a connection in a step. -/
structure Carries (c c' : TcpConnection) (read taken : List UInt8) (sent : List Attempt) :
    Prop where
  wf : c'.WF
  input : c.inputBuffer.content ++ read = taken ++ c'.inputBuffer.content
  up : c'.state ≠ .kDisconnected → c.state ≠ .kDisconnected
  output : c'.state ≠ .kDisconnected → c'.outgoing = c.outgoing ++ Output.accepted sent

theorem carries_of_same (hwf : c'.WF) (hinput : c'.inputBuffer = c.inputBuffer)
    (hup : c'.state ≠ .kDisconnected → c.state ≠ .kDisconnected)
    (hout : c'.state ≠ .kDisconnected → c'.outgoing = c.outgoing) : Carries c c' [] [] [] where
  wf := hwf
  input := by rw [hinput, List.append_nil, List.nil_append]
  up := hup
  output := fun hstate => (hout hstate).trans (List.append_nil _).symm

theorem carries_refl (hwf : c.WF) : Carries c c [] [] [] :=
  carries_of_same hwf rfl id fun _ => rfl

theorem carries_sendInLoop (hwf : c.WF) {handed : List (List UInt8)} {message : List UInt8}
    {r : WriteResult} (hsend : { c with handed := handed }.sendInLoop message r = .ok c') :
    Carries c c' [] [] (Output.attempt c message r) := by
  by_cases hdown : c.state = .kDisconnected
  · rw [sendInLoop, if_pos hdown] at hsend
    cases hsend
    rw [Output.attempt, if_pos hdown]
    exact carries_of_same ⟨hwf.input, hwf.output⟩ rfl id fun _ => rfl
  · obtain ⟨c₁, hc₁, hwf₁, hsame, -, -, hout⟩ := sendInLoop_spec
      (c := { c with handed := handed }) ⟨hwf.input, hwf.output⟩ hdown message r
    cases hc₁.symm.trans hsend
    refine ⟨hwf₁, ?_, fun _ => hdown, fun _ => ?_⟩
    · rw [hsame.inputBuffer, List.append_nil, List.nil_append]
    · rw [Output.accepted_attempt hdown]
      exact hout

theorem carries_send (hwf : c.WF) {own : Bool} {buf buf' : Buffer} (hbuf : buf.WF)
    {r : WriteResult} (hsend : c.send own buf r = .ok (c', buf')) :
    Carries c c' [] []
      (if own = true ∧ c.state = .kConnected then Output.attempt c buf.content r else []) := by
  by_cases hconnected : c.state = .kConnected
  · cases own with
    | true =>
        rw [if_pos ⟨rfl, hconnected⟩]
        rw [send, if_pos hconnected, if_pos rfl, Buffer.peek_readableBytes hbuf] at hsend
        obtain ⟨c₁, hc₁, hrest⟩ := bind_ok_inv hsend
        cases hrest
        exact carries_sendInLoop hwf hc₁
    | false =>
        rw [if_neg (by simp)]
        obtain ⟨c₁, buf₁, hc₁, hwf₁, hsame, -, haccepted⟩ :=
          send_connected hwf hconnected hbuf false r
        cases hc₁.symm.trans hsend
        cases haccepted with
        | queued hpending hout =>
            exact carries_of_same hwf₁ hsame.inputBuffer (fun hup => hsame.state ▸ hup)
              fun _ => hout
  · rw [if_neg (fun h => hconnected h.2)]
    rw [send_notConnected hconnected] at hsend
    cases hsend
    exact carries_refl hwf

theorem carries_handleClose (hwf : c.WF) : Carries c
    { c with state := .kDisconnected, isWriting := false } [] [] [] :=
  carries_of_same ⟨hwf.input, hwf.output⟩ rfl (fun hup => absurd rfl hup) fun hup => absurd rfl hup

/-- Both buffers and what was written stay. -/
def Unmoved (c c' : TcpConnection) : Prop :=
  c'.inputBuffer = c.inputBuffer ∧ c'.outputBuffer = c.outputBuffer ∧ c'.written = c.written

theorem carries_of_unmoved (hwf : c.WF) (hkeeps : c.Keeps c') (hsame : c.Unmoved c') :
    Carries c c' [] [] [] := by
  obtain ⟨hinput, houtput, hwritten⟩ := hsame
  refine carries_of_same ⟨hinput ▸ hwf.input, houtput ▸ hwf.output⟩ hinput
    hkeeps.down_iff.not.mp fun _ => ?_
  rw [outgoing, outgoing, houtput, hwritten]

theorem unmoved_shutdownInLoop (c : TcpConnection) : c.Unmoved c.shutdownInLoop := by
  rw [shutdownInLoop]
  split <;> exact ⟨rfl, rfl, rfl⟩

theorem unmoved_shutdown (c : TcpConnection) (own : Bool) : c.Unmoved (c.shutdown own) := by
  rw [shutdown]
  split
  · cases own with
    | true => exact unmoved_shutdownInLoop { c with state := .kDisconnecting }
    | false => exact ⟨rfl, rfl, rfl⟩
  · exact ⟨rfl, rfl, rfl⟩

theorem unmoved_forceClose (c : TcpConnection) : c.Unmoved c.forceClose := by
  rw [forceClose]
  split <;> exact ⟨rfl, rfl, rfl⟩

theorem unmoved_forceCloseWithDelay (c : TcpConnection) : c.Unmoved c.forceCloseWithDelay := by
  rw [forceCloseWithDelay]
  split <;> exact ⟨rfl, rfl, rfl⟩

theorem carries_runFunctor (hwf : c.WF) {r : WriteResult} {f : Functor}
    (hf : f ≠ .forceCloseInLoop) (hrun : c.runFunctor r f = .ok c') :
    Carries c c' [] [] (Output.ofFunctor c r f) := by
  cases f with
  | sendInLoop message =>
      have hsend : { c with handed := c.handed }.sendInLoop message r = .ok c' := hrun
      exact carries_sendInLoop hwf hsend
  | shutdownInLoop =>
      cases hrun
      exact carries_of_unmoved hwf (Or.inl (shutdownInLoop_state c)) (unmoved_shutdownInLoop c)
  | forceCloseInLoop => exact absurd rfl hf

theorem carries_handleWrite (hwf : c.WF) {r : WriteResult}
    (hr : r.Within c.outputBuffer.readableBytes) (hwrite : c.handleWrite r = .ok c') :
    Carries c c' [] [] [] := by
  obtain ⟨c₁, hc₁, hwf₁, hsame, -, -, hout⟩ := handleWrite_spec hwf hr
  cases hc₁.symm.trans hwrite
  exact carries_of_same hwf₁ hsame.inputBuffer (fun hup => hsame.state ▸ hup) fun _ => hout

/-- The functors leave with the queue of the loop. -/
theorem Carries.queued (h : Carries c c' read taken sent) (pending : List Functor) :
    Carries c { c' with pendingFunctors := pending } read taken sent :=
  ⟨⟨h.wf.input, h.wf.output⟩, h.input, h.up, h.output⟩

end TcpConnection

namespace ServerConnection
open TcpConnection
variable {C : Type} [DecidableEq C] {chan : C} {s s' : ServerConnection C}
  {read taken : List UInt8} {sent : List Attempt}

theorem carries_adopt {c : TcpConnection} (h : Carries s.conn c read taken sent)
    (hs : s.adopt chan c = .ok s') : Carries s.conn s'.conn read taken sent := by
  obtain ⟨p, -, rfl⟩ := adopt_inv hs
  exact h.queued []

theorem carries_handleClose (hwf : s.conn.WF) (hs : s.handleClose chan = .ok s') :
    Carries s.conn s'.conn [] [] [] := by
  obtain ⟨-, p, -, rfl⟩ := handleClose_inv hs
  exact TcpConnection.carries_handleClose hwf

theorem carries_connectEstablished (hwf : s.conn.WF) (hs : s.connectEstablished chan = .ok s') :
    Carries s.conn s'.conn [] [] [] := by
  obtain ⟨hstate, p, -, rfl⟩ := connectEstablished_inv hs
  exact carries_of_same ⟨hwf.input, hwf.output⟩ rfl (fun _ => by rw [hstate]; decide) fun _ => rfl

theorem carries_connectDestroyed (hwf : s.conn.WF) (hs : s.connectDestroyed chan = .ok s') :
    Carries s.conn s'.conn [] [] [] := by
  rw [connectDestroyed] at hs
  split at hs
  · obtain ⟨s₁, hs₁, hrest⟩ := bind_ok_inv hs
    obtain ⟨p, -, rfl⟩ := interestOp_inv hs₁
    cases hrest
    exact TcpConnection.carries_handleClose hwf
  · cases hs
    exact carries_refl hwf

omit [DecidableEq C] in
theorem carries_closeCallback (hwf : s.conn.WF) {oneLoop : Bool}
    (hs : s.closeCallback oneLoop = .ok s') : Carries s.conn s'.conn [] [] [] := by
  cases oneLoop with
  | true =>
      obtain rfl := removeConnectionInLoop_inv hs
      exact carries_refl hwf
  | false =>
      cases hs
      exact carries_refl hwf

theorem carries_newConnection (hwf : s.conn.WF) {oneLoop : Bool}
    (hs : s.newConnection chan oneLoop = .ok s') : Carries s.conn s'.conn [] [] [] := by
  cases oneLoop with
  | true => exact carries_connectEstablished (s := { s with accepted := true, listed := true }) hwf hs
  | false =>
      cases hs
      exact carries_refl hwf

/-- What `readv` stored. -/
def stored : Buffer.ReadResult → List UInt8
  | .data bytes => bytes
  | .error _ => []

theorem carries_handleRead (hwf : s.conn.WF) {r : Buffer.ReadResult}
    (hs : s.handleRead chan r = .ok s') : Carries s.conn s'.conn (stored r) [] [] := by
  cases r with
  | error errno =>
      cases hs
      exact carries_refl hwf
  | data bytes =>
      obtain ⟨input, hread, hinput, hcontent⟩ := Buffer.readFd_spec hwf.input bytes
      simp only [ServerConnection.handleRead, hread, ok_bind] at hs
      have hfilled : ∀ c', Carries { s.conn with inputBuffer := input } c' [] [] [] →
          Carries s.conn c' bytes [] [] := by
        intro c' h
        refine ⟨h.wf, ?_, h.up, h.output⟩
        rw [← hcontent]
        exact (List.append_nil _).symm.trans h.input
      split at hs
      · cases hs
        exact hfilled _ (carries_refl ⟨hinput, hwf.output⟩)
      · split at hs
        · exact hfilled _ (carries_handleClose
            (s := { s with conn := { s.conn with inputBuffer := input } }) ⟨hinput, hwf.output⟩ hs)
        · cases hs
          exact hfilled _ (carries_refl ⟨hinput, hwf.output⟩)

/-- The `sendInLoop` that a functor of the loop executes. -/
def ofIoFunctor (c : TcpConnection) (r : WriteResult) : IoFunctor → List Attempt
  | .own f => Output.ofFunctor c r f
  | _ => []

theorem carries_runFunctor (hwf : s.conn.WF) {r : WriteResult} {f : IoFunctor}
    (hs : s.runFunctor chan r f = .ok s') :
    Carries s.conn s'.conn [] [] (ofIoFunctor s.conn r f) := by
  cases f with
  | connectEstablished => exact carries_connectEstablished hwf hs
  | connectDestroyed => exact carries_connectDestroyed hwf hs
  | other =>
      cases hs
      exact carries_refl hwf
  | own f =>
      cases f with
      | forceCloseInLoop =>
          simp only [runFunctor] at hs
          split at hs
          · exact carries_handleClose hwf hs
          · cases hs
            exact carries_refl hwf
      | sendInLoop message =>
          obtain ⟨c, hc, hs⟩ := bind_ok_inv hs
          exact carries_adopt (TcpConnection.carries_runFunctor hwf (by simp) hc) hs
      | shutdownInLoop =>
          obtain ⟨c, hc, hs⟩ := bind_ok_inv hs
          exact carries_adopt (TcpConnection.carries_runFunctor hwf (by simp) hc) hs

/-- The bytes that a frame reads. -/
def readBy (r : Buffer.ReadResult) : Frame → List UInt8
  | .read => stored r
  | _ => []

theorem carries_runFrame (hwf : s.conn.WF) {oneLoop : Bool} {read : Buffer.ReadResult}
    {write : WriteResult} (hwrite : write.Within s.conn.outputBuffer.readableBytes) {f : Frame}
    (hs : s.runFrame chan oneLoop read write f = .ok s') :
    Carries s.conn s'.conn (readBy read f) [] [] := by
  cases f with
  | close => exact carries_handleClose hwf hs
  | read => exact carries_handleRead hwf hs
  | write =>
      obtain ⟨c, hc, hs⟩ := bind_ok_inv hs
      exact carries_adopt (carries_handleWrite hwf hwrite hc) hs
  | closeCallback => exact carries_closeCallback hwf hs
  | remove =>
      obtain ⟨p, -, rfl⟩ := removeChannel_inv hs
      exact carries_refl hwf
  | _ =>
      cases hs
      exact carries_refl hwf

end ServerConnection
/-- What has gone through a connection. -/
structure Traffic where
  /-- what the socket gave -/
  received : List UInt8
  /-- what the callbacks have retrieved -/
  retrieved : List UInt8
  /-- every `sendInLoop`, with what it found -/
  attempts : List TcpConnection.Attempt

def Traffic.none : Traffic := ⟨[], [], []⟩

namespace TcpConnection

/-- Neither direction has lost, repeated or reordered anything. -/
structure Conveys (c : TcpConnection) (t : Traffic) : Prop where
  wf : c.WF
  input : t.received = t.retrieved ++ c.inputBuffer.content
  output : c.state ≠ .kDisconnected → c.outgoing = Output.accepted t.attempts

theorem conveys_new : new.Conveys .none where
  wf := new_wf
  input := by simp [Traffic.none, new]
  output := fun _ => by simp [Traffic.none, new, outgoing, Output.accepted]

theorem Conveys.carries {c c' : TcpConnection} {t : Traffic} {read taken : List UInt8}
    {sent : List Attempt} (h : c.Conveys t) (hc : c.Carries c' read taken sent) :
    c'.Conveys ⟨t.received ++ read, t.retrieved ++ taken, t.attempts ++ sent⟩ where
  wf := hc.wf
  input := by
    change t.received ++ read = t.retrieved ++ taken ++ c'.inputBuffer.content
    rw [h.input, List.append_assoc, hc.input, List.append_assoc]
  output := by
    intro hup
    rw [hc.output hup, h.output (hc.up hup), Output.accepted_append]

theorem Conveys.unmoved {c c' : TcpConnection} {t : Traffic} (h : c.Conveys t)
    (hc : c.Carries c' [] [] []) : c'.Conveys t := by
  have h' := h.carries hc
  simp only [List.append_nil] at h'
  exact h'

end TcpConnection

namespace Connection
open TcpConnection
variable {C : Type} [DecidableEq C] {chan : C} {oneLoop : Bool} {v v' : Connection C} {t : Traffic}

/-- What an event of the connection adds to what has gone through it. -/
def note (v : Connection C) (e : Event C) (t : Traffic) : Traffic :=
  match e with
  | .server (.frame read _) =>
      { t with received := t.received ++ v.server.todo.head?.elim [] (ServerConnection.readBy read) }
  | .server (.retrieve n) =>
      { t with retrieved := t.retrieved ++ v.server.conn.inputBuffer.content.take n }
  | .server (.send own buf r) =>
      { t with attempts := t.attempts ++
          if own = true ∧ v.server.conn.state = .kConnected then
            Output.attempt v.server.conn buf.content r
          else [] }
  | _ => t

theorem conveys_server {e : ServerConnection.Event C} {s : ServerConnection C}
    (he : (Event.server e).ofMember = true) (h : v.server.conn.Conveys t)
    (hexec : ServerConnection.Exec chan oneLoop v.server e (.ok s)) :
    s.conn.Conveys (v.note (.server e) t) := by
  generalize hs : Except.ok s = result at hexec
  cases hexec with
  | newConnection => exact h.unmoved (ServerConnection.carries_newConnection h.wf hs.symm)
  | send hown hbuf hr =>
      obtain ⟨⟨c, buf⟩, hc, hs⟩ := bind_ok_inv hs.symm
      have h' := h.carries (ServerConnection.carries_adopt (carries_send h.wf hbuf hc) hs)
      simp only [List.append_nil] at h'
      exact h'
  | shutdown =>
      exact h.unmoved (ServerConnection.carries_adopt
        (carries_of_unmoved h.wf (shutdown_keeps _ _) (unmoved_shutdown _ _)) hs.symm)
  | forceClose =>
      exact h.unmoved (ServerConnection.carries_adopt
        (carries_of_unmoved h.wf (forceClose_keeps _) (unmoved_forceClose _)) hs.symm)
  | retrieve htodo hn =>
      obtain ⟨input, hinput, hs⟩ := bind_ok_inv hs.symm
      cases hs
      obtain ⟨input', hretrieve, hwf, hcontent⟩ := Buffer.retrieve_spec h.wf.input hn
      cases hretrieve.symm.trans hinput
      refine ⟨⟨hwf, h.wf.output⟩, ?_, h.output⟩
      change t.received = t.retrieved ++ _ ++ input.content
      rw [h.input, hcontent, List.append_assoc, List.take_append_drop]
  | frame htodo hwrite =>
      rename_i f rest read write
      have hframe : ServerConnection.runFrame chan oneLoop { v.server with todo := rest } read write f
          = .ok s := hs.symm
      have h' := h.carries (ServerConnection.carries_runFrame
        (s := { v.server with todo := rest }) h.wf hwrite hframe)
      simp only [List.append_nil] at h'
      simpa only [note, htodo, List.head?_cons, Option.elim_some] using h'
  | removeConnectionInLoop hremovals =>
      obtain rfl := ServerConnection.removeConnectionInLoop_inv hs.symm
      exact h
  | _ => cases he

theorem conveys_exec {e : Event C} (he : e.ofMember = true) (h : v.server.conn.Conveys t)
    (hexec : Exec chan oneLoop v e (.ok v')) : v'.server.conn.Conveys (v.note e t) := by
  generalize hr : Except.ok v' = result at hexec
  cases hexec with
  | server hqueue hexec =>
      obtain ⟨s, rfl, hv'⟩ := bind_ok_inv hr.symm
      cases hv'
      have hserver : s.conn.Conveys _ := conveys_server he h hexec
      exact hserver
  | startRead =>
      rename_i own hexposed hown
      cases own with
      | true =>
          rcases startReadInLoop_inv hr.symm with ⟨-, p, -, rfl⟩ | ⟨-, rfl⟩ <;> exact h
      | false =>
          cases hr
          exact h
  | stopRead =>
      rename_i own hexposed hown
      cases own with
      | true =>
          rcases stopReadInLoop_inv hr.symm with ⟨-, p, -, rfl⟩ | ⟨-, rfl⟩ <;> exact h
      | false =>
          cases hr
          exact h
  | forceCloseWithDelay =>
      obtain ⟨s, hs, hv'⟩ := bind_ok_inv hr.symm
      cases hv'
      have hserver : s.conn.Conveys t := h.unmoved (ServerConnection.carries_adopt
        (carries_of_unmoved h.wf (forceCloseWithDelay_keeps _) (unmoved_forceCloseWithDelay _)) hs)
      exact hserver
  | _ => cases he

/-- What a task of the connection adds. -/
def noteTask (v : Connection C) (r : WriteResult) (task : ConnTask) (t : Traffic) : Traffic :=
  match task with
  | .io f => { t with attempts := t.attempts ++ ServerConnection.ofIoFunctor v.server.conn r f }
  | _ => t

theorem conveys_runTask {r : WriteResult} {task : ConnTask} (h : v.server.conn.Conveys t)
    (hv : v.runTask chan r task = .ok v') : v'.server.conn.Conveys (v.noteTask r task t) := by
  cases task with
  | io f =>
      obtain ⟨s, hs, hv'⟩ := bind_ok_inv hv
      cases hv'
      have h' := h.carries (ServerConnection.carries_runFunctor h.wf hs)
      simp only [List.append_nil] at h'
      exact h'
  | startReadInLoop =>
      rcases startReadInLoop_inv hv with ⟨-, p, -, rfl⟩ | ⟨-, rfl⟩ <;> exact h
  | stopReadInLoop =>
      rcases stopReadInLoop_inv hv with ⟨-, p, -, rfl⟩ | ⟨-, rfl⟩ <;> exact h

end Connection

namespace IoLoop
variable {C : Type} [DecidableEq C] {oneLoop : C → Bool} {w w' : IoLoop C} {t : C → Traffic}

/-- What a step of the loop adds to what has gone through each connection. -/
def note (w : IoLoop C) (e : Event C) (t : C → Traffic) : C → Traffic :=
  match e with
  | .member c e => Function.update t c ((w.view c).note e (t c))
  | .task r =>
      match w.tasks with
      | (c, task) :: _ => Function.update t c ((w.view c).noteTask r task (t c))
      | [] => t
  | _ => t

/-- Every connection of the loop conveys its traffic. -/
def Conveys (w : IoLoop C) (t : C → Traffic) : Prop := ∀ c, (w.members c).conn.Conveys (t c)

theorem Conveys.put (h : w.Conveys t) {c : C} {v : Connection C} {t' : Traffic}
    (hv : v.server.conn.Conveys t') : (w.put c v).Conveys (Function.update t c t') := by
  intro d
  by_cases hd : d = c
  · subst hd
    simpa only [IoLoop.put, Function.update_self] using hv
  · simpa only [IoLoop.put, Function.update_of_ne hd] using h d

theorem Conveys.exec (h : w.Conveys t) {e : Event C} (hexec : Exec oneLoop w e (.ok w')) :
    w'.Conveys (w.note e t) := by
  generalize hr : Except.ok w' = result at hexec
  cases hexec with
  | member hpermits hexec =>
      rename_i c e r
      obtain ⟨v, rfl, hw'⟩ := bind_ok_inv hr.symm
      cases hw'
      exact h.put (Connection.conveys_exec (ofMember_of_permits hpermits) (h c) hexec)
  | poll hphase hidle hreports =>
      obtain ⟨active, -, hw'⟩ := bind_ok_inv hr.symm
      cases hw'
      exact h
  | handleEvent hphase hidle hremaining =>
      rename_i c r rest
      cases hr
      change Conveys _ t
      intro d
      by_cases hd : d = c
      · subst hd
        simpa only [Function.update_self] using h d
      · simpa only [Function.update_of_ne hd] using h d
  | task hphase hidle htasks hwithin =>
      rename_i c task rest r
      obtain ⟨v, hv, hw'⟩ := bind_ok_inv hr.symm
      cases hw'
      simp only [note, htasks]
      exact Conveys.put (w := { w with tasks := rest }) h (Connection.conveys_runTask (h c) hv)
  | otherChannel hother hallowed hfresh =>
      obtain ⟨p, -, hw'⟩ := bind_ok_inv hr.symm
      cases hw'
      exact h
  | _ =>
      cases hr
      exact h

/-- In every state of a loop, each connection has delivered what its socket gave, without what
its input buffer still holds, and has passed on or holds what was sent, in order. -/
theorem streams_intact {fd : C → Int} {events : List (Event C)} {t : C → Traffic}
    (hrun : Run (Recorded (Step oneLoop) note) (new fd, fun _ => .none) events (w, t)) (c : C) :
    (t c).received = (t c).retrieved ++ (w.members c).conn.inputBuffer.content ∧
      ((w.members c).conn.state ≠ .kDisconnected →
        (w.members c).conn.written ++ (w.members c).conn.outputBuffer.content =
          TcpConnection.Output.accepted (t c).attempts) := by
  have h : w.Conveys t := by
    refine hrun.invariant (I := fun p => p.1.Conveys p.2) (fun _ => TcpConnection.conveys_new) ?_
    rintro ⟨w, t⟩ e ⟨w', t'⟩ h ⟨hstep, rfl⟩
    exact h.exec hstep
  exact ⟨(h c).input, (h c).output⟩

/-- A connection is established, sends three octets of which the kernel takes one, and reads
an octet, which its callback has yet to retrieve. -/
theorem read_run : ∃ (events : List (Event Unit)) (w : IoLoop Unit),
    Run (Step fun _ => true) (new fun _ => 7) events w ∧
      (w.members ()).conn.state = .kConnected ∧ (w.members ()).conn.written = [1] ∧
      (w.members ()).conn.outputBuffer.content = [2, 3] ∧
      (w.members ()).conn.inputBuffer.content = [1] := by
  have hquiet : ∀ n, (WriteResult.wrote 0).Within n := Nat.zero_le
  have hothers : ∀ {w : IoLoop Unit} (d : Unit), d ≠ () → (w.members d).todo = [] :=
    fun _ hd => absurd rfl hd
  have hnew := run_then (.nil : Run (Step fun _ => true) (new fun _ : Unit => 7) [] _)
    (.member () (.server .newConnection))
    (.member ⟨fun _ hd => absurd rfl hd, fun _ _ => rfl⟩
      (.server rfl (.newConnection rfl (fun _ hd => absurd rfl hd) fun _ => rfl))) rfl
  have hcalled := run_then hnew (.member () (.server (.frame (.data []) (.wrote 0))))
    (.member hothers (.server rfl (.frame rfl (hquiet _)))) rfl
  obtain ⟨message, rest, out, hmessage, hwithin, -, houtput, hsend⟩ := Connection.send_partial
  have hsent := hcalled.snoc (.member (c := ()) (e := .server (.send true message (.wrote 1)))
    (r := .ok _) (fun _ _ => rfl)
    (Connection.step_send (fun _ => rfl) hmessage hwithin hsend rfl))
  have hpolled := run_then hsent (.poll 16 [⟨pollin, ()⟩])
    (.poll rfl (fun _ => rfl) ⟨by decide, by decide,
      List.forall_mem_singleton.mpr ⟨7, ⟨true, true⟩, rfl, pollin_within rfl⟩⟩) rfl
  have hhandled := run_then hpolled .handleEvent (.handleEvent rfl (fun _ => rfl) rfl) rfl
  obtain ⟨input, hfd, -, hcontent⟩ := Buffer.readFd_spec (Buffer.new_wf Buffer.kInitialSize) [1]
  refine ⟨_, _, hhandled.snoc (step_read (c := ()) hothers rfl (by decide) hfd), rfl, rfl, houtput, ?_⟩
  exact hcontent.trans (by rw [Buffer.new_content]; rfl)

theorem streams_intact_read : ∃ (events : List (Event Unit)) (w : IoLoop Unit) (t : Unit → Traffic),
    Run (Recorded (Step fun _ => true) note) (new fun _ => 7, fun _ => .none) events (w, t) ∧
      (w.members ()).conn.outputBuffer.content = [2, 3] ∧
      (t ()).received = (t ()).retrieved ++ [1] ∧
      TcpConnection.Output.accepted (t ()).attempts = [1, 2, 3] := by
  obtain ⟨events, w, hrun, hstate, hwritten, houtput, hinput⟩ := read_run
  obtain ⟨t, hrun⟩ := hrun.recorded note fun _ => Traffic.none
  obtain ⟨hreceived, hsent⟩ := streams_intact hrun ()
  refine ⟨events, w, t, hrun, houtput, ?_, ?_⟩
  · rw [hreceived, hinput]
  · rw [← hsent (by rw [hstate]; decide), hwritten, houtput]
    rfl

end IoLoop
end ProtoRpc
