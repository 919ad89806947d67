import ProtoRpc.Foundation.Transition
import ProtoRpc.Network.TcpConnection

/-!
The output stream of a connection over whole runs. Senders in the loop thread and
queued senders alternate with `handleWrite`, and the kernel answers each write as
it likes. A run keeps a record of every `sendInLoop` that was executed while the
connection was not down, with what it found and what its write returned.

`send` tests the state before it acts, and another thread can change the state in
between; so the two actions that may follow the test are steps of their own.
-/
namespace ProtoRpc.TcpConnection
open Transition

/-- One execution of `sendInLoop`. -/
structure Attempt where
  message : List UInt8
  isWriting : Bool
  buffered : Nat
  result : WriteResult
  deriving DecidableEq, Repr

/-- Nothing was queued, and the direct write failed with `EPIPE` or `ECONNRESET`. -/
def Attempt.leftOut (a : Attempt) : Bool :=
  !a.isWriting && a.buffered == 0 && a.result.faultError

structure Output where
  conn : TcpConnection
  attempts : List Attempt
  deriving DecidableEq, Repr

namespace Output

def new : Output := ⟨TcpConnection.new, []⟩

def attempt (c : TcpConnection) (message : List UInt8) (r : WriteResult) : List Attempt :=
  if c.state = .kDisconnected then []
  else [⟨message, c.isWriting, c.outputBuffer.readableBytes, r⟩]

/-- The bytes of the messages that were not left out, in the order of their execution. -/
def accepted (attempts : List Attempt) : List UInt8 :=
  ((attempts.filter fun a => !a.leftOut).map Attempt.message).flatten

inductive Event where
  | connectEstablished
  | send (inLoopThread : Bool) (buf : Buffer) (r : WriteResult)
  | sendInLoop (message : List UInt8) (r : WriteResult)
  | queueInLoop (f : Functor)
  | runFunctor (r : WriteResult)
  | handleWrite (r : WriteResult)
  | handleRead (r : Buffer.ReadResult)
  | shutdown (inLoopThread : Bool)
  | forceClose
  | handleClose

/-- The `sendInLoop` that a functor executes. -/
def ofFunctor (c : TcpConnection) (r : WriteResult) : Functor → List Attempt
  | .sendInLoop message => attempt c message r
  | _ => []

/-- What a functor asks `write(2)` for. -/
def requested : Functor → Nat
  | .sendInLoop message => message.length
  | _ => 0

/-- The message callback takes its own steps after `handleRead`. -/
inductive Step (s : Output) : Event → Output → Prop where
  | connectEstablished {c : TcpConnection} (h : s.conn.connectEstablished = .ok c) :
      Step s .connectEstablished ⟨c, s.attempts⟩
  | sendInLoopThread {buf buf' : Buffer} {r : WriteResult} {c : TcpConnection} (hbuf : buf.WF)
      (hr : r.Within buf.readableBytes) (h : s.conn.send true buf r = .ok (c, buf')) :
      Step s (.send true buf r)
        ⟨c, s.attempts ++ if s.conn.state = .kConnected then attempt s.conn buf.content r else []⟩
  | sendQueued {buf buf' : Buffer} {r : WriteResult} {c : TcpConnection} (hbuf : buf.WF)
      (h : s.conn.send false buf r = .ok (c, buf')) :
      Step s (.send false buf r) ⟨c, s.attempts⟩
  | sendInLoop {message : List UInt8} {r : WriteResult} {c : TcpConnection}
      (hr : r.Within message.length) (h : s.conn.sendInLoop message r = .ok c) :
      Step s (.sendInLoop message r) ⟨c, s.attempts ++ attempt s.conn message r⟩
  | queueInLoop {f : Functor} :
      Step s (.queueInLoop f)
        ⟨{ s.conn with pendingFunctors := s.conn.pendingFunctors ++ [f] }, s.attempts⟩
  | runFunctor {f : Functor} {rest : List Functor} {r : WriteResult} {c : TcpConnection}
      (hpending : s.conn.pendingFunctors = f :: rest) (hr : r.Within (requested f))
      (h : { s.conn with pendingFunctors := rest }.runFunctor r f = .ok c) :
      Step s (.runFunctor r) ⟨c, s.attempts ++ ofFunctor s.conn r f⟩
  | handleWrite {r : WriteResult} {c : TcpConnection}
      (hr : r.Within s.conn.outputBuffer.readableBytes) (h : s.conn.handleWrite r = .ok c) :
      Step s (.handleWrite r) ⟨c, s.attempts⟩
  | handleRead {r : Buffer.ReadResult} {c : TcpConnection}
      (h : TcpConnection.handleRead (fun _ c => .ok ((), c)) () s.conn r = .ok ((), c)) :
      Step s (.handleRead r) ⟨c, s.attempts⟩
  | shutdown {inLoopThread : Bool} :
      Step s (.shutdown inLoopThread) ⟨s.conn.shutdown inLoopThread, s.attempts⟩
  | forceClose : Step s .forceClose ⟨s.conn.forceClose, s.attempts⟩
  | handleClose {c : TcpConnection} (h : s.conn.handleClose = .ok c) :
      Step s .handleClose ⟨c, s.attempts⟩

/-- What is kept until the connection is down. -/
structure Intact (s : Output) : Prop where
  wf : s.conn.WF
  stream : s.conn.state ≠ .kDisconnected → s.conn.outgoing = accepted s.attempts

theorem accepted_append (l₁ l₂ : List Attempt) :
    accepted (l₁ ++ l₂) = accepted l₁ ++ accepted l₂ := by
  simp [accepted]

theorem accepted_attempt {c : TcpConnection} (hstate : c.state ≠ .kDisconnected)
    (message : List UInt8) (r : WriteResult) :
    accepted (attempt c message r) = if c.leavesOut r then [] else message := by
  rw [attempt, if_neg hstate]
  have hleft : (⟨message, c.isWriting, c.outputBuffer.readableBytes, r⟩ : Attempt).leftOut =
      c.leavesOut r := rfl
  cases hout : c.leavesOut r with
  | true => simp [accepted, hleft, hout]
  | false => simp [accepted, hleft, hout]

/-- Every way to `sendInLoop` adds to both sides alike. -/
theorem Intact.sendInLoop {s : Output} (h : s.Intact) {pending : List Functor}
    {handed : List (List UInt8)} {message : List UInt8} {r : WriteResult} {c : TcpConnection}
    (hsend : { s.conn with pendingFunctors := pending, handed := handed }.sendInLoop message r
      = .ok c) :
    Intact ⟨c, s.attempts ++ attempt s.conn message r⟩ := by
  by_cases hdown : s.conn.state = .kDisconnected
  · rw [TcpConnection.sendInLoop, if_pos hdown] at hsend
    cases hsend
    exact ⟨⟨h.wf.input, h.wf.output⟩, fun hup => absurd hdown hup⟩
  · obtain ⟨c', hc', hwf, -, -, -, hout⟩ := sendInLoop_spec
      (c := { s.conn with pendingFunctors := pending, handed := handed })
      ⟨h.wf.input, h.wf.output⟩ hdown message r
    cases hc'.symm.trans hsend
    refine ⟨hwf, ?_⟩
    intro _
    rw [accepted_append, accepted_attempt hdown, ← h.stream hdown]
    exact hout

/-- A step that sends nothing keeps the stream, and does not bring a connection up
that was down. -/
theorem Intact.unsent {s : Output} (h : s.Intact) {c : TcpConnection} (hwf : c.WF)
    (hstate : c.state ≠ .kDisconnected → s.conn.state ≠ .kDisconnected)
    (hout : c.outgoing = s.conn.outgoing) : Intact ⟨c, s.attempts⟩ :=
  ⟨hwf, fun hup => hout.trans (h.stream (hstate hup))⟩

theorem Intact.handleClose {s : Output} (h : s.Intact) {c : TcpConnection} {input : Buffer}
    (hinput : input.WF) {pending : List Functor}
    (hclose : { s.conn with inputBuffer := input, pendingFunctors := pending }.handleClose = .ok c) :
    Intact ⟨c, s.attempts⟩ := by
  obtain ⟨-, rfl⟩ := handleClose_inv hclose
  exact ⟨⟨hinput, h.wf.output⟩, fun hup => absurd rfl hup⟩

theorem Intact.shutdownInLoop {s : Output} (h : s.Intact) {c : TcpConnection} (hwf : c.WF)
    (hstate : c.state ≠ .kDisconnected → s.conn.state ≠ .kDisconnected)
    (hout : c.outgoing = s.conn.outgoing) : Intact ⟨c.shutdownInLoop, s.attempts⟩ := by
  rw [TcpConnection.shutdownInLoop]
  split
  · exact h.unsent hwf hstate hout
  · exact h.unsent ⟨hwf.input, hwf.output⟩ hstate hout

theorem Intact.step {s s' : Output} {e : Event} (h : s.Intact) (hstep : Step s e s') :
    s'.Intact := by
  cases hstep with
  | connectEstablished hc =>
      obtain ⟨hconnecting, rfl⟩ := connectEstablished_inv hc
      exact h.unsent ⟨h.wf.input, h.wf.output⟩ (fun _ => by rw [hconnecting]; decide) rfl
  | sendInLoopThread hbuf hr hc =>
      rename_i buf buf' r c
      by_cases hconnected : s.conn.state = .kConnected
      · rw [if_pos hconnected]
        rw [send, if_pos hconnected, if_pos rfl, Buffer.peek_readableBytes hbuf] at hc
        cases hsend : TcpConnection.sendInLoop
            { s.conn with handed := s.conn.handed ++ [buf.content] } buf.content r with
        | error fault =>
            rw [hsend] at hc
            cases hc
        | ok c' =>
            rw [hsend] at hc
            cases hc
            exact h.sendInLoop hsend
      · rw [send_notConnected hconnected] at hc
        cases hc
        rw [if_neg hconnected, List.append_nil]
        exact h
  | sendQueued hbuf hc =>
      rename_i buf buf' r c
      by_cases hconnected : s.conn.state = .kConnected
      · obtain ⟨c', buf'', hc', hwf, hsame, -, haccepted⟩ :=
          send_connected h.wf hconnected hbuf false r
        cases hc'.symm.trans hc
        cases haccepted with
        | queued hpending hout => exact h.unsent hwf (fun hup => hsame.state ▸ hup) hout
      · rw [send_notConnected hconnected] at hc
        cases hc
        exact h
  | sendInLoop hr hc => exact h.sendInLoop hc
  | queueInLoop => exact h.unsent ⟨h.wf.input, h.wf.output⟩ id rfl
  | runFunctor hpending hr hc =>
      rename_i f rest r c
      cases f with
      | sendInLoop message => exact h.sendInLoop hc
      | shutdownInLoop =>
          cases hc
          change Intact ⟨_, s.attempts ++ []⟩
          rw [List.append_nil]
          exact h.shutdownInLoop ⟨h.wf.input, h.wf.output⟩ id rfl
      | forceCloseInLoop =>
          change Intact ⟨_, s.attempts ++ []⟩
          rw [List.append_nil]
          change TcpConnection.forceCloseInLoop _ = .ok c at hc
          rw [forceCloseInLoop] at hc
          split at hc
          · exact h.handleClose h.wf.input hc
          · cases hc
            exact h.unsent ⟨h.wf.input, h.wf.output⟩ id rfl
  | handleWrite hr hc =>
      obtain ⟨c', hc', hwf, hsame, -, -, hout⟩ := handleWrite_spec h.wf hr
      cases hc'.symm.trans hc
      exact h.unsent hwf (fun hup => hsame.state ▸ hup) hout
  | handleRead hc =>
      obtain ⟨input, hinput, rfl | hclose⟩ := handleRead_inv h.wf.input hc
      · exact h.unsent ⟨hinput, h.wf.output⟩ id rfl
      · exact h.handleClose hinput hclose
  | shutdown =>
      rename_i inLoopThread
      rw [TcpConnection.shutdown]
      split
      · rename_i hconnected
        have hup : s.conn.state ≠ .kDisconnected := by rw [hconnected]; decide
        cases inLoopThread with
        | true => exact h.shutdownInLoop ⟨h.wf.input, h.wf.output⟩ (fun _ => hup) rfl
        | false => exact h.unsent ⟨h.wf.input, h.wf.output⟩ (fun _ => hup) rfl
      · exact h
  | forceClose =>
      rw [TcpConnection.forceClose]
      split
      · rename_i hopen
        refine h.unsent ⟨h.wf.input, h.wf.output⟩ (fun _ hdown => ?_) rfl
        rw [hdown] at hopen
        simp at hopen
      · exact h
  | handleClose hc => exact h.handleClose h.wf.input hc

/-- Until the connection is down, what the kernel accepted and what is buffered
are together the whole messages in the order of their `sendInLoop`, without those
whose direct write met a broken connection. -/
theorem output_stream_intact {s : Output} {events : List Event} (hrun : Run Step new events s)
    (hstate : s.conn.state ≠ .kDisconnected) :
    s.conn.written ++ s.conn.outputBuffer.content = accepted s.attempts := by
  have hnew : new.Intact := ⟨new_wf, fun _ => by simp [new, outgoing, TcpConnection.new, accepted]⟩
  have h : s.Intact := hrun.invariant hnew fun _ _ _ h hstep => h.step hstep
  exact h.stream hstate

/-- The first message is left out, the second is buffered whole. -/
theorem output_stream_intact_after_fault : ∃ s : Output,
    Run Step new [.connectEstablished, .sendInLoop [1, 2] (.failed .EPIPE),
      .sendInLoop [3, 4] (.failed .EWOULDBLOCK)] s ∧
    s.conn.written ++ s.conn.outputBuffer.content = [3, 4] := by
  obtain ⟨c₀, hc₀, hwf₀, hup₀, hdirect⟩ : ∃ c₀, TcpConnection.new.connectEstablished = .ok c₀ ∧
      c₀.WF ∧ c₀.state ≠ .kDisconnected ∧ c₀.writesDirectly = true :=
    ⟨_, rfl, ⟨new_wf.input, new_wf.output⟩, by decide, by
      simp [writesDirectly, TcpConnection.new, Buffer.new, Buffer.readableBytes]⟩
  obtain ⟨c₁, hc₁, hwf₁, hsame₁, -⟩ := sendInLoop_spec hwf₀ hup₀ [1, 2] (.failed .EPIPE)
  have hup₁ : c₁.state ≠ .kDisconnected := hsame₁.state ▸ hup₀
  obtain ⟨c₂, hc₂, -, hsame₂, -⟩ := sendInLoop_spec hwf₁ hup₁ [3, 4] (.failed .EWOULDBLOCK)
  have hup₂ : c₂.state ≠ .kDisconnected := hsame₂.state ▸ hup₁
  have hrun : Run Step new _ ⟨c₂, [] ++ attempt c₀ [1, 2] (.failed .EPIPE) ++
      attempt c₁ [3, 4] (.failed .EWOULDBLOCK)⟩ :=
    ((Run.nil.snoc (.connectEstablished hc₀)).snoc
      (.sendInLoop (r := .failed .EPIPE) trivial hc₁)).snoc
      (.sendInLoop (r := .failed .EWOULDBLOCK) trivial hc₂)
  refine ⟨_, hrun, ?_⟩
  rw [output_stream_intact hrun hup₂, List.nil_append, accepted_append, accepted_attempt hup₀,
    accepted_attempt hup₁]
  simp [leavesOut, hdirect, WriteResult.faultError]

end Output
end ProtoRpc.TcpConnection
