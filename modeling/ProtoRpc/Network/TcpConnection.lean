import ProtoRpc.Network.Buffer

/-!
The part of `TcpConnection` that moves bytes and decides whether it may: the
life-cycle state, `send` with its direct write and its queued path, the
buffered writes of `handleWrite`, the read that feeds the message callback, and
the closing operations. Results of `read(2)` and `write(2)` are arguments.

Two fields only record history: `handed` holds what `send` accepted while the
connection was up, and `written` the bytes that the kernel accepted. No
`writeCompleteCallback` is installed by the RPC layer, so it is left out.
-/
namespace ProtoRpc

inductive StateE where
  | kDisconnected
  | kConnecting
  | kConnected
  | kDisconnecting
  deriving DecidableEq, Repr

inductive Errno where
  | EWOULDBLOCK
  | EPIPE
  | ECONNRESET
  | other (n : Nat)
  deriving DecidableEq, Repr

inductive WriteResult where
  | wrote (n : Nat)
  | failed (errno : Errno)
  deriving DecidableEq, Repr

namespace WriteResult

/-- `write(2)` accepts at most what it is given. -/
def Within (len : Nat) : WriteResult → Prop
  | .wrote n => n ≤ len
  | .failed _ => True

/-- The errors that make `sendInLoop` drop the message. -/
def faultError : WriteResult → Bool
  | .failed .EPIPE | .failed .ECONNRESET => true
  | _ => false

def count : WriteResult → Nat
  | .wrote n => n
  | .failed _ => 0

theorem count_le {len : Nat} {r : WriteResult} (h : r.Within len) : r.count ≤ len := by
  cases r with
  | wrote n => exact h
  | failed e => exact Nat.zero_le _

end WriteResult

/-- What the connection queues in its loop. -/
inductive Functor where
  | sendInLoop (message : List UInt8)
  | shutdownInLoop
  | forceCloseInLoop
  deriving DecidableEq, Repr

structure TcpConnection where
  state : StateE
  /-- `channel_->isWriting()` -/
  isWriting : Bool
  inputBuffer : Buffer
  outputBuffer : Buffer
  pendingFunctors : List Functor
  /-- `socket_->shutdownWrite()` has been called -/
  writeShutdown : Bool
  handed : List (List UInt8)
  written : List UInt8
  deriving DecidableEq, Repr

namespace TcpConnection

/-- A connection as its constructor leaves it. -/
def new : TcpConnection :=
  { state := .kConnecting
    isWriting := false
    inputBuffer := Buffer.new Buffer.kInitialSize
    outputBuffer := Buffer.new Buffer.kInitialSize
    pendingFunctors := []
    writeShutdown := false
    handed := []
    written := [] }

/-- The end of `sendInLoop`: what the direct write left over is buffered. -/
def bufferRemaining (c : TcpConnection) (remaining : List UInt8) (faultError : Bool) :
    Except Fault TcpConnection :=
  if faultError = false ∧ 0 < remaining.length then do
    let out ← c.outputBuffer.append remaining
    return { c with outputBuffer := out, isWriting := true }
  else
    .ok c

def sendInLoop (c : TcpConnection) (data : List UInt8) (r : WriteResult) :
    Except Fault TcpConnection :=
  if c.state = .kDisconnected then
    .ok c
  else
    let direct := !c.isWriting && c.outputBuffer.readableBytes == 0
    let nwrote := if direct then r.count else 0
    let c' := { c with written := c.written ++ data.take nwrote }
    c'.bufferRemaining (data.drop nwrote) (direct && r.faultError)

def send (c : TcpConnection) (inLoopThread : Bool) (buf : Buffer) (r : WriteResult) :
    Except Fault (TcpConnection × Buffer) :=
  if c.state = .kConnected then
    let handed := c.handed ++ [buf.content]
    if inLoopThread then do
      let c ← { c with handed := handed }.sendInLoop (buf.peek buf.readableBytes) r
      return (c, buf.retrieveAll)
    else do
      let (message, buf) ← buf.retrieveAllAsString
      let pending := c.pendingFunctors ++ [.sendInLoop message]
      return ({ c with handed := handed, pendingFunctors := pending }, buf)
  else
    .ok (c, buf)

def shutdownInLoop (c : TcpConnection) : TcpConnection :=
  if c.isWriting then c else { c with writeShutdown := true }

def shutdown (c : TcpConnection) (inLoopThread : Bool) : TcpConnection :=
  if c.state = .kConnected then
    let c := { c with state := .kDisconnecting }
    if inLoopThread then c.shutdownInLoop
    else { c with pendingFunctors := c.pendingFunctors ++ [.shutdownInLoop] }
  else c

def forceClose (c : TcpConnection) : TcpConnection :=
  if c.state = .kConnected ∨ c.state = .kDisconnecting then
    { c with
      state := .kDisconnecting
      pendingFunctors := c.pendingFunctors ++ [.forceCloseInLoop] }
  else c

/-- The timer that would call `forceClose` is commented out. -/
def forceCloseWithDelay (c : TcpConnection) : TcpConnection :=
  if c.state = .kConnected ∨ c.state = .kDisconnecting then { c with state := .kDisconnecting }
  else c

/-- The callbacks of the owner that follow are the owner's steps. -/
def handleClose (c : TcpConnection) : Except Fault TcpConnection := do
  require .assertion (c.state = .kConnected ∨ c.state = .kDisconnecting)
  return { c with state := .kDisconnected, isWriting := false }

def forceCloseInLoop (c : TcpConnection) : Except Fault TcpConnection :=
  if c.state = .kConnected ∨ c.state = .kDisconnecting then c.handleClose else .ok c

def runFunctor (c : TcpConnection) (r : WriteResult) : Functor → Except Fault TcpConnection
  | .sendInLoop message => c.sendInLoop message r
  | .shutdownInLoop => .ok c.shutdownInLoop
  | .forceCloseInLoop => c.forceCloseInLoop

def connectEstablished (c : TcpConnection) : Except Fault TcpConnection := do
  require .assertion (c.state = .kConnecting)
  return { c with state := .kConnected }

section HandleRead
variable {σ : Type} (messageCallback : σ → TcpConnection → Except Fault (σ × TcpConnection))

/-- The message callback owns the state `s` and is passed the connection with
its input buffer. -/
def handleRead (s : σ) (c : TcpConnection) (r : Buffer.ReadResult) :
    Except Fault (σ × TcpConnection) := do
  let (n, input) ← c.inputBuffer.readFd r
  let c := { c with inputBuffer := input }
  if 0 < n then
    messageCallback s c
  else if n = 0 then
    let c ← c.handleClose
    return (s, c)
  else
    return (s, c)

end HandleRead

def handleWrite (c : TcpConnection) (r : WriteResult) : Except Fault TcpConnection :=
  if c.isWriting then
    if 0 < r.count then do
      let sent := c.outputBuffer.peek r.count
      let out ← c.outputBuffer.retrieve r.count
      let c := { c with outputBuffer := out, written := c.written ++ sent }
      if out.readableBytes = 0 then
        let c := { c with isWriting := false }
        return if c.state = .kDisconnecting then c.shutdownInLoop else c
      else
        return c
    else
      .ok c
  else
    .ok c

/-- Both buffers keep their layout. -/
structure WF (c : TcpConnection) : Prop where
  input : c.inputBuffer.WF
  output : c.outputBuffer.WF

/-- The output stream: what the kernel took, and then what waits for it. -/
def outgoing (c : TcpConnection) : List UInt8 := c.written ++ c.outputBuffer.content

/-- The messages of queued senders, in the order in which they will be sent. -/
def queued (c : TcpConnection) : List (List UInt8) :=
  c.pendingFunctors.filterMap fun
    | .sendInLoop message => some message
    | _ => none

/-- What a send leaves alone: the state, the input, and what was written. -/
structure SameInput (c c' : TcpConnection) : Prop where
  state : c'.state = c.state
  inputBuffer : c'.inputBuffer = c.inputBuffer
  written : c.written <+: c'.written

theorem new_wf : new.WF := ⟨Buffer.new_wf _, Buffer.new_wf _⟩

private theorem content_eq_nil {b : Buffer} (h : b.WF) (hempty : b.readableBytes = 0) :
    b.content = [] :=
  List.length_eq_zero_iff.mp ((Buffer.length_content h).trans hempty)

/-- `sendInLoop` tries a direct write. -/
def writesDirectly (c : TcpConnection) : Bool :=
  !c.isWriting && c.outputBuffer.readableBytes == 0

/-- A direct write that meets a broken connection makes `sendInLoop` leave the
message out. -/
def leavesOut (c : TcpConnection) (r : WriteResult) : Bool := c.writesDirectly && r.faultError

/-- How much of a message `sendInLoop` writes, and what it buffers then. -/
def directly (c : TcpConnection) (r : WriteResult) : Nat := if c.writesDirectly then r.count else 0

def remaining (c : TcpConnection) (data : List UInt8) (r : WriteResult) : List UInt8 :=
  if c.leavesOut r then [] else data.drop (c.directly r)

theorem directly_of_leavesOut {c : TcpConnection} {r : WriteResult} (h : c.leavesOut r = true) :
    c.directly r = 0 := by
  have hfault : r.faultError = true := (Bool.and_eq_true_iff.mp h).2
  cases r with
  | wrote n => cases hfault
  | failed e => simp [directly, WriteResult.count]

theorem take_append_remaining (c : TcpConnection) (data : List UInt8) (r : WriteResult) :
    data.take (c.directly r) ++ c.remaining data r = if c.leavesOut r then [] else data := by
  rw [remaining]
  split
  · rename_i h
    rw [directly_of_leavesOut h]
    rfl
  · exact List.take_append_drop _ _

/-- All that `sendInLoop` does while the connection is not down. -/
theorem sendInLoop_eq {c : TcpConnection} (h : c.WF) (hstate : c.state ≠ .kDisconnected)
    (data : List UInt8) (r : WriteResult) :
    ∃ out : Buffer, out.WF ∧
      out.content = c.outputBuffer.content ++ c.remaining data r ∧
      c.sendInLoop data r = .ok
        { c with
          written := c.written ++ data.take (c.directly r)
          outputBuffer := out
          isWriting := c.isWriting || (c.remaining data r).length != 0 } := by
  have hsend : c.sendInLoop data r =
      ({ c with written := c.written ++ data.take (c.directly r) } : TcpConnection).bufferRemaining
        (data.drop (c.directly r)) (c.leavesOut r) := by
    rw [sendInLoop, if_neg hstate]
    rfl
  rw [hsend, bufferRemaining]
  by_cases hout : c.leavesOut r = true
  · refine ⟨c.outputBuffer, h.output, ?_, ?_⟩
    · simp [remaining, hout]
    · simp [remaining, hout]
  · have hkept : c.leavesOut r = false := by simpa using hout
    have hremaining : c.remaining data r = data.drop (c.directly r) := by simp [remaining, hkept]
    rw [hremaining]
    by_cases hrest : 0 < (data.drop (c.directly r)).length
    · obtain ⟨out, happend, hwf, hcontent, -⟩ := Buffer.append_spec h.output
        (data.drop (c.directly r))
      refine ⟨out, hwf, hcontent, ?_⟩
      have hwriting : ((data.drop (c.directly r)).length != 0) = true :=
        bne_iff_ne.mpr (Nat.ne_of_gt hrest)
      rw [if_pos ⟨hkept, hrest⟩, happend, hwriting, Bool.or_true]
      rfl
    · have hnil : data.drop (c.directly r) = [] := List.length_eq_zero_iff.mp (by omega)
      refine ⟨c.outputBuffer, h.output, ?_, ?_⟩
      · rw [hnil, List.append_nil]
      · rw [if_neg fun hboth => hrest hboth.2, hnil]
        simp

theorem sendInLoop_inv {c c' : TcpConnection} (h : c.WF) {data : List UInt8} {r : WriteResult}
    (hsend : c.sendInLoop data r = .ok c') :
    (c.state = .kDisconnected ∧ c' = c) ∨
      (c.state ≠ .kDisconnected ∧ ∃ out : Buffer, out.WF ∧
        out.content = c.outputBuffer.content ++ c.remaining data r ∧
        c' =
          { c with
            written := c.written ++ data.take (c.directly r)
            outputBuffer := out
            isWriting := c.isWriting || (c.remaining data r).length != 0 }) := by
  by_cases hdown : c.state = .kDisconnected
  · rw [sendInLoop, if_pos hdown] at hsend
    cases hsend
    exact Or.inl ⟨hdown, rfl⟩
  · obtain ⟨out, hwf, hcontent, heq⟩ := sendInLoop_eq h hdown data r
    cases heq.symm.trans hsend
    exact Or.inr ⟨hdown, out, hwf, hcontent, rfl⟩

/-- `sendInLoop` adds the message to the end of the output stream as a whole,
or leaves it out as a whole when a direct write meets a broken connection. -/
theorem sendInLoop_spec {c : TcpConnection} (h : c.WF) (hstate : c.state ≠ .kDisconnected)
    (data : List UInt8) (r : WriteResult) :
    ∃ c', c.sendInLoop data r = .ok c' ∧ c'.WF ∧ SameInput c c' ∧
      c'.handed = c.handed ∧ c'.pendingFunctors = c.pendingFunctors ∧
      c'.outgoing = c.outgoing ++ if c.leavesOut r then [] else data := by
  obtain ⟨out, hwf, hcontent, hsend⟩ := sendInLoop_eq h hstate data r
  refine ⟨_, hsend, ⟨h.input, hwf⟩, ⟨rfl, rfl, List.prefix_append _ _⟩, rfl, rfl, ?_⟩
  rw [← take_append_remaining]
  simp only [outgoing, hcontent]
  by_cases hempty : c.writesDirectly = true
  · have hnil : c.outputBuffer.content = [] := by
      simp only [writesDirectly, Bool.and_eq_true, beq_iff_eq] at hempty
      exact content_eq_nil h.output hempty.2
    simp [hnil]
  · simp [directly, hempty]

theorem outgoing_cases {c c' : TcpConnection} {data : List UInt8} {r : WriteResult}
    (h : c'.outgoing = c.outgoing ++ if c.leavesOut r then [] else data) :
    c'.outgoing = c.outgoing ++ data ∨ (r.faultError = true ∧ c'.outgoing = c.outgoing) := by
  split at h
  · rename_i hout
    exact Or.inr ⟨(Bool.and_eq_true_iff.mp hout).2, by rw [h, List.append_nil]⟩
  · exact Or.inl h

/-- The two ways in which a connection that is up accepts the bytes of a
buffer: into the output stream, or into the queue of its loop. -/
inductive Accepted (c c' : TcpConnection) (bytes : List UInt8) (r : WriteResult) :
    Bool → Prop where
  | inLoop (hpending : c'.pendingFunctors = c.pendingFunctors)
      (hout : c'.outgoing = c.outgoing ++ bytes ∨
        (r.faultError = true ∧ c'.outgoing = c.outgoing)) : Accepted c c' bytes r true
  | queued (hpending : c'.pendingFunctors = c.pendingFunctors ++ [.sendInLoop bytes])
      (hout : c'.outgoing = c.outgoing) : Accepted c c' bytes r false

theorem send_connected {c : TcpConnection} (h : c.WF) (hstate : c.state = .kConnected)
    {buf : Buffer} (hbuf : buf.WF) (inLoopThread : Bool) (r : WriteResult) :
    ∃ c' buf', c.send inLoopThread buf r = .ok (c', buf') ∧ c'.WF ∧ SameInput c c' ∧
      c'.handed = c.handed ++ [buf.content] ∧ Accepted c c' buf.content r inLoopThread := by
  have hpeek := Buffer.peek_readableBytes hbuf
  cases inLoopThread with
  | true =>
      let c₀ : TcpConnection := { c with handed := c.handed ++ [buf.content] }
      have hup : c₀.state ≠ .kDisconnected := by
        change c.state ≠ .kDisconnected
        rw [hstate]
        decide
      obtain ⟨c', hc', hwf, hsame, hhanded, hpending, hout⟩ :=
        sendInLoop_spec (c := c₀) ⟨h.input, h.output⟩ hup buf.content r
      refine ⟨c', buf.retrieveAll, ?_, hwf, ⟨hsame.state, hsame.inputBuffer, hsame.written⟩, hhanded,
        .inLoop hpending (outgoing_cases hout)⟩
      rw [send, if_pos hstate, hpeek]
      simp only [if_true]
      rw [show ({ c with handed := c.handed ++ [buf.content] } : TcpConnection) = c₀ from rfl, hc']
      rfl
  | false =>
      obtain ⟨buf', hbuf', -, -⟩ := Buffer.retrieveAllAsString_spec hbuf
      let c' : TcpConnection :=
        { c with
          handed := c.handed ++ [buf.content]
          pendingFunctors := c.pendingFunctors ++ [.sendInLoop buf.content] }
      refine ⟨c', buf', ?_, ⟨h.input, h.output⟩, ⟨rfl, rfl, List.prefix_rfl⟩, rfl,
        .queued rfl rfl⟩
      simp [send, hstate, hbuf', c']

/-- In every other state the message is dropped without a sign. -/
theorem send_notConnected {c : TcpConnection} (hstate : c.state ≠ .kConnected)
    (buf : Buffer) (inLoopThread : Bool) (r : WriteResult) :
    c.send inLoopThread buf r = .ok (c, buf) :=
  if_neg hstate

/-- All that `handleWrite` does: nothing, or it moves bytes from the buffer to
the kernel, and at the end of the buffer stops writing. -/
theorem handleWrite_cases {c : TcpConnection} (h : c.WF) {r : WriteResult}
    (hr : r.Within c.outputBuffer.readableBytes) :
    (c.handleWrite r = .ok c ∧ (c.isWriting = true → r.count = 0)) ∨
      (c.isWriting = true ∧ 0 < r.count ∧ ∃ out : Buffer, out.WF ∧
        out.content = c.outputBuffer.content.drop r.count ∧
        c.handleWrite r = .ok
          { c with
            outputBuffer := out
            written := c.written ++ c.outputBuffer.content.take r.count
            isWriting := out.content.length != 0
            writeShutdown :=
              c.writeShutdown || (out.content.length == 0 && c.state == .kDisconnecting) }) := by
  rw [handleWrite]
  by_cases hwriting : c.isWriting = true
  · by_cases hcount : 0 < r.count
    · have hle := WriteResult.count_le hr
      obtain ⟨out, hout, hwf, hcontent⟩ := Buffer.retrieve_spec h.output hle
      refine Or.inr ⟨hwriting, hcount, out, hwf, hcontent, ?_⟩
      rw [if_pos hwriting, if_pos hcount, hout, ok_bind, Buffer.peek_eq hle,
        Buffer.length_content hwf]
      by_cases hempty : out.readableBytes = 0
      · by_cases hstate : c.state = .kDisconnecting
        · simp [hempty, hstate, shutdownInLoop]
        · simp [hempty, hstate]
      · simp [hempty, hwriting]
    · refine Or.inl ⟨?_, fun _ => by omega⟩
      rw [if_pos hwriting, if_neg hcount]
  · refine Or.inl ⟨if_neg hwriting, fun hnot => absurd hnot hwriting⟩

/-- `handleWrite` moves bytes within the output stream and changes none. -/
theorem handleWrite_spec {c : TcpConnection} (h : c.WF) {r : WriteResult}
    (hr : r.Within c.outputBuffer.readableBytes) :
    ∃ c', c.handleWrite r = .ok c' ∧ c'.WF ∧ SameInput c c' ∧
      c'.handed = c.handed ∧ c'.pendingFunctors = c.pendingFunctors ∧
      c'.outgoing = c.outgoing := by
  rcases handleWrite_cases h hr with ⟨hsame, -⟩ | ⟨-, -, out, hwf, hcontent, hwrite⟩
  · exact ⟨c, hsame, h, ⟨rfl, rfl, List.prefix_rfl⟩, rfl, rfl, rfl⟩
  · refine ⟨_, hwrite, ⟨h.input, hwf⟩, ⟨rfl, rfl, List.prefix_append _ _⟩, rfl, rfl, ?_⟩
    simp only [outgoing, hcontent, List.append_assoc, List.take_append_drop]

section
variable {σ : Type}

theorem handleClose_inv {c c' : TcpConnection} (h : c.handleClose = .ok c') :
    (c.state = .kConnected ∨ c.state = .kDisconnecting) ∧
      c' = { c with state := .kDisconnected, isWriting := false } := by
  rw [handleClose] at h
  by_cases hopen : c.state = .kConnected ∨ c.state = .kDisconnecting
  · rw [require_of_true hopen] at h
    cases h
    exact ⟨hopen, rfl⟩
  · rw [require_of_false hopen] at h
    cases h

theorem connectEstablished_inv {c c' : TcpConnection} (h : c.connectEstablished = .ok c') :
    c.state = .kConnecting ∧ c' = { c with state := .kConnected } := by
  rw [connectEstablished] at h
  by_cases hconnecting : c.state = .kConnecting
  · rw [require_of_true hconnecting] at h
    cases h
    exact ⟨hconnecting, rfl⟩
  · rw [require_of_false hconnecting] at h
    cases h

/-- `handleRead` up to its message callback changes the input buffer, and may
close. -/
theorem handleRead_inv {c c' : TcpConnection} (h : c.inputBuffer.WF) {r : Buffer.ReadResult}
    (hread : handleRead (fun _ c => .ok ((), c)) () c r = .ok ((), c')) :
    ∃ input : Buffer, input.WF ∧ (c' = { c with inputBuffer := input } ∨
      { c with inputBuffer := input }.handleClose = .ok c') := by
  cases r with
  | error errno =>
      cases hread
      exact ⟨c.inputBuffer, h, Or.inl rfl⟩
  | data bytes =>
      obtain ⟨input, hfd, hwf, -⟩ := Buffer.readFd_spec h bytes
      refine ⟨input, hwf, ?_⟩
      simp only [handleRead, hfd, ok_bind] at hread
      split at hread
      · cases hread
        exact Or.inl rfl
      · split at hread
        · cases hclose : handleClose { c with inputBuffer := input } with
          | error fault =>
              rw [hclose] at hread
              cases hread
          | ok d =>
              rw [hclose] at hread
              cases hread
              exact Or.inr rfl
        · cases hread
          exact Or.inl rfl

/-- Bytes from the socket go to the end of the input buffer before the callback
sees it. -/
theorem handleRead_data (messageCallback : σ → TcpConnection → Except Fault (σ × TcpConnection))
    {c : TcpConnection} (h : c.inputBuffer.WF) {bytes : List UInt8}
    (hbytes : bytes ≠ []) :
    ∃ input, input.WF ∧ input.content = c.inputBuffer.content ++ bytes ∧
      ∀ s, handleRead messageCallback s c (.data bytes) =
        messageCallback s { c with inputBuffer := input } := by
  obtain ⟨input, hread, hwf, hcontent⟩ := Buffer.readFd_spec h bytes
  refine ⟨input, hwf, hcontent, ?_⟩
  intro s
  have hpos : (0 : Int) < bytes.length := by
    exact_mod_cast List.length_pos_iff.mpr hbytes
  simp only [handleRead, hread, ok_bind, hpos, if_true]

/-- Without bytes the input buffer keeps its contents. -/
theorem handleRead_nothing
    {messageCallback : σ → TcpConnection → Except Fault (σ × TcpConnection)} {s s' : σ}
    {c c' : TcpConnection} (h : c.inputBuffer.WF) {r : Buffer.ReadResult}
    (hr : ∀ bytes, r = .data bytes → bytes = [])
    (hread : handleRead messageCallback s c r = .ok (s', c')) :
    c'.inputBuffer.WF ∧ c'.inputBuffer.content = c.inputBuffer.content := by
  cases r with
  | error errno =>
      cases hread
      exact ⟨h, rfl⟩
  | data bytes =>
      obtain rfl := hr bytes rfl
      obtain ⟨input, hfd, hwf, hcontent⟩ := Buffer.readFd_spec h []
      simp only [handleRead, hfd, ok_bind, List.length_nil, Int.natCast_zero, Int.lt_irrefl,
        if_false, if_true] at hread
      cases hclose : handleClose { c with inputBuffer := input } with
      | error fault =>
          rw [hclose] at hread
          cases hread
      | ok d =>
          rw [hclose] at hread
          cases hread
          rw [(handleClose_inv hclose).2]
          exact ⟨hwf, hcontent.trans (List.append_nil _)⟩

end

/-- An operation leaves the connection open or closed, as it was. -/
def Keeps (c c' : TcpConnection) : Prop :=
  c'.state = c.state ∨
    ((c.state = .kConnected ∨ c.state = .kDisconnecting) ∧ c'.state = .kDisconnecting)

section
variable {c c' : TcpConnection}

theorem Keeps.open_iff (h : c.Keeps c') :
    (c'.state = .kConnected ∨ c'.state = .kDisconnecting) ↔
      (c.state = .kConnected ∨ c.state = .kDisconnecting) := by
  rcases h with hsame | ⟨hopen, hdisconnecting⟩
  · rw [hsame]
  · exact ⟨fun _ => hopen, fun _ => Or.inr hdisconnecting⟩

theorem Keeps.down_iff (h : c.Keeps c') :
    c'.state = .kDisconnected ↔ c.state = .kDisconnected := by
  rcases h with hsame | ⟨hopen, hdisconnecting⟩
  · rw [hsame]
  · rcases hopen with hstate | hstate
    · simp [hstate, hdisconnecting]
    · simp [hstate, hdisconnecting]

theorem Keeps.connecting_iff (h : c.Keeps c') :
    c'.state = .kConnecting ↔ c.state = .kConnecting := by
  rcases h with hsame | ⟨hopen, hdisconnecting⟩
  · rw [hsame]
  · rcases hopen with hstate | hstate
    · simp [hstate, hdisconnecting]
    · simp [hstate, hdisconnecting]

theorem ne_down_of_open (h : c.state = .kConnected ∨ c.state = .kDisconnecting) :
    c.state ≠ .kDisconnected := by
  rcases h with hstate | hstate
  · rw [hstate]
    decide
  · rw [hstate]
    decide

theorem bufferRemaining_state {remaining : List UInt8} {faultError : Bool}
    (h : c.bufferRemaining remaining faultError = .ok c') : c'.state = c.state := by
  rw [bufferRemaining] at h
  split at h
  · obtain ⟨out, -, hout⟩ := bind_ok_inv h
    cases hout
    rfl
  · cases h
    rfl

theorem sendInLoop_state {data : List UInt8} {r : WriteResult}
    (h : c.sendInLoop data r = .ok c') : c'.state = c.state := by
  rw [sendInLoop] at h
  split at h
  · cases h
    rfl
  · dsimp only at h
    rw [bufferRemaining_state h]

theorem send_state {own : Bool} {buf buf' : Buffer} {r : WriteResult}
    (h : c.send own buf r = .ok (c', buf')) : c'.state = c.state := by
  rw [send] at h
  split at h
  · cases own with
    | true =>
        obtain ⟨c₁, hsend, hrest⟩ := bind_ok_inv h
        cases hrest
        rw [sendInLoop_state hsend]
    | false =>
        obtain ⟨⟨message, b⟩, -, hrest⟩ := bind_ok_inv h
        cases hrest
        rfl
  · cases h
    rfl

theorem shutdownInLoop_state (c : TcpConnection) : c.shutdownInLoop.state = c.state := by
  rw [shutdownInLoop]
  split <;> rfl

theorem shutdown_keeps (c : TcpConnection) (own : Bool) : c.Keeps (c.shutdown own) := by
  rw [shutdown]
  split
  · rename_i hconnected
    refine Or.inr ⟨Or.inl hconnected, ?_⟩
    cases own with
    | true => exact shutdownInLoop_state _
    | false => rfl
  · exact Or.inl rfl

theorem forceClose_keeps (c : TcpConnection) : c.Keeps c.forceClose := by
  rw [forceClose]
  split
  · rename_i hopen
    exact Or.inr ⟨hopen, rfl⟩
  · exact Or.inl rfl

theorem forceCloseWithDelay_keeps (c : TcpConnection) : c.Keeps c.forceCloseWithDelay := by
  rw [forceCloseWithDelay]
  split
  · rename_i hopen
    exact Or.inr ⟨hopen, rfl⟩
  · exact Or.inl rfl

theorem handleWrite_state {r : WriteResult} (h : c.handleWrite r = .ok c') :
    c'.state = c.state := by
  rw [handleWrite] at h
  split at h
  · split at h
    · obtain ⟨out, -, hrest⟩ := bind_ok_inv h
      dsimp only at hrest
      split at hrest
      · cases hrest
        split
        · exact shutdownInLoop_state _
        · rfl
      · cases hrest
        rfl
    · cases h
      rfl
  · cases h
    rfl

theorem runFunctor_state {r : WriteResult} {f : Functor} (hf : f ≠ .forceCloseInLoop)
    (h : c.runFunctor r f = .ok c') : c'.state = c.state := by
  cases f with
  | sendInLoop message => exact sendInLoop_state h
  | shutdownInLoop =>
      cases h
      exact shutdownInLoop_state c
  | forceCloseInLoop => exact absurd rfl hf

end

end TcpConnection

/-- What anybody does with a connection. -/
inductive ConnOp where
  | send (own : Bool) (buf : Buffer) (r : WriteResult)
  | shutdown (own : Bool)
  | forceClose
  | forceCloseWithDelay

namespace ConnOp

def run (c : TcpConnection) : ConnOp → Except Fault TcpConnection
  | .send own buf r => do
      let (c, _) ← c.send own buf r
      return c
  | .shutdown own => .ok (c.shutdown own)
  | .forceClose => .ok c.forceClose
  | .forceCloseWithDelay => .ok c.forceCloseWithDelay

/-- In the loop thread. -/
def own : ConnOp → Bool
  | .send own _ _ | .shutdown own => own
  | _ => false

end ConnOp

theorem ConnOp.run_keeps {op : ConnOp} {c c' : TcpConnection} (h : op.run c = .ok c') :
    c.Keeps c' := by
  cases op with
  | send own buf r =>
      obtain ⟨⟨c₁, b⟩, hsend, hrest⟩ := bind_ok_inv h
      cases hrest
      exact Or.inl (TcpConnection.send_state hsend)
  | shutdown own =>
      cases h
      exact c.shutdown_keeps own
  | forceClose =>
      cases h
      exact c.forceClose_keeps
  | forceCloseWithDelay =>
      cases h
      exact c.forceCloseWithDelay_keeps

end ProtoRpc
