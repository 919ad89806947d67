import ProtoRpc.Foundation.Transition
import ProtoRpc.Network.Buffer

/-!
`Buffer` as a byte queue. A caller of a `Buffer` sees the readable bytes; every
operation does to them what it does to a list, whatever growth, compaction and
prepends have left of the layout. `size_t` sums are natural numbers here, so the
sizes are the ones that do not wrap.
-/
namespace ProtoRpc.Buffer

/-- The public operations. `store` is the caller writing through `beginWrite()`. -/
inductive Op where
  | append (data : List UInt8)
  | ensureWritableBytes (len : Nat)
  | store (data : List UInt8)
  | hasWritten (len : Nat)
  | unwrite (len : Nat)
  | retrieve (len : Nat)
  | retrieveAll
  | retrieveAsString (len : Nat)
  | prepend (data : List UInt8)
  | readFd (result : ReadResult)
  deriving DecidableEq, Repr

/-- What an operation returns. -/
inductive Output where
  | none
  | string (bytes : List UInt8)
  | count (n : Int)
  deriving DecidableEq, Repr

namespace Op

def run (b : Buffer) : Op → Except Fault (Output × Buffer)
  | .append data => return (.none, ← b.append data)
  | .ensureWritableBytes len => return (.none, ← b.ensureWritableBytes len)
  | .store data => return (.none, ← b.store data)
  | .hasWritten len => return (.none, ← b.hasWritten len)
  | .unwrite len => return (.none, ← b.unwrite len)
  | .retrieve len => return (.none, ← b.retrieve len)
  | .retrieveAll => return (.none, b.retrieveAll)
  | .retrieveAsString len => do
      let (bytes, b) ← b.retrieveAsString len
      return (.string bytes, b)
  | .prepend data => return (.none, ← b.prepend data)
  | .readFd result => do
      let (n, b) ← b.readFd result
      return (.count n, b)

/-- What the caller has to see to: the assertion at the head of the operation,
the end of the vector for a store, and for `readFd` what `readv` can return. -/
def Allowed (b : Buffer) : Op → Prop
  | .store data => data.length ≤ b.writableBytes
  | .hasWritten len => len ≤ b.writableBytes
  | .unwrite len | .retrieve len | .retrieveAsString len => len ≤ b.readableBytes
  | .prepend data => data.length ≤ b.prependableBytes
  | .readFd (.data bytes) => bytes.length ≤ b.readCapacity
  | _ => True

instance (b : Buffer) : (op : Op) → Decidable (op.Allowed b)
  | .store _ | .hasWritten _ | .unwrite _ | .retrieve _ | .retrieveAsString _ | .prepend _
  | .readFd (.data _) => inferInstanceAs (Decidable (_ ≤ _))
  | .append _ | .ensureWritableBytes _ | .retrieveAll | .readFd (.error _) =>
      inferInstanceAs (Decidable True)

/-- The operation on a queue of bytes, where `stored` are the bytes that stand
behind it. -/
def onQueue (stored queue : List UInt8) : Op → Output × List UInt8
  | .append data => (.none, queue ++ data)
  | .ensureWritableBytes _ | .store _ => (.none, queue)
  | .hasWritten len => (.none, queue ++ stored.take len)
  | .unwrite len => (.none, queue.take (queue.length - len))
  | .retrieve len => (.none, queue.drop len)
  | .retrieveAll => (.none, [])
  | .retrieveAsString len => (.string (queue.take len), queue.drop len)
  | .prepend data => (.none, data ++ queue)
  | .readFd (.data bytes) => (.count bytes.length, queue ++ bytes)
  | .readFd (.error _) => (.count (-1), queue)

end Op

/-- A call: the operation, the bytes at `beginWrite()` before it, and its output. -/
structure Call where
  op : Op
  stored : List UInt8
  output : Output

/-- The bytes at `beginWrite()`. -/
def stored (b : Buffer) : List UInt8 := b.buffer.drop b.writerIndex

/-- A call that meets its preconditions, and returns. -/
def Step (b : Buffer) (call : Call) (b' : Buffer) : Prop :=
  call.op.Allowed b ∧ call.stored = b.stored ∧ call.op.run b = .ok (call.output, b')

def QueueStep (queue : List UInt8) (call : Call) (queue' : List UInt8) : Prop :=
  call.op.onQueue call.stored queue = (call.output, queue')

section
variable {b : Buffer}

theorem hasWritten_spec (h : b.WF) {len : Nat} (hlen : len ≤ b.writableBytes) :
    ∃ b', b.hasWritten len = .ok b' ∧ b'.WF ∧ b'.content = b.content ++ b.stored.take len := by
  obtain ⟨hrw, hws, hcheap⟩ := h
  refine ⟨{ b with writerIndex := b.writerIndex + len }, by simp [hasWritten, hlen],
    ⟨?_, ?_, hcheap⟩, ?_⟩
  · exact hrw.trans (Nat.le_add_right _ _)
  · simp only [writableBytes] at hlen
    change b.writerIndex + len ≤ b.buffer.length
    omega
  · have hhead : b.readerIndex ≤ (b.buffer.take b.writerIndex).length := by
      rw [List.length_take, Nat.min_eq_left hws]
      exact hrw
    rw [content, content, stored, List.take_add, List.drop_append_of_le_length hhead]

theorem unwrite_spec (h : b.WF) {len : Nat} (hlen : len ≤ b.readableBytes) :
    ∃ b', b.unwrite len = .ok b' ∧ b'.WF ∧
      b'.content = b.content.take (b.content.length - len) := by
  have hall : len ≤ b.writerIndex - b.readerIndex := hlen
  have hcontent := length_content h
  obtain ⟨hrw, hws, hcheap⟩ := h
  refine ⟨{ b with writerIndex := b.writerIndex - len }, by simp [unwrite, hlen],
    ⟨?_, ?_, hcheap⟩, ?_⟩
  · change b.readerIndex ≤ b.writerIndex - len
    omega
  · exact (Nat.sub_le _ _).trans hws
  · rw [hcontent, content, content, readableBytes, List.drop_take, List.drop_take, List.take_take]
    congr 1
    change b.writerIndex - len - b.readerIndex = _
    omega

theorem retrieveAsString_spec (h : b.WF) {len : Nat} (hlen : len ≤ b.readableBytes) :
    ∃ b', b.retrieveAsString len = .ok (b.content.take len, b') ∧ b'.WF ∧
      b'.content = b.content.drop len := by
  obtain ⟨b', hb', hwf, hcontent⟩ := retrieve_spec h hlen
  refine ⟨b', ?_, hwf, hcontent⟩
  simp [retrieveAsString, hlen, hb', peek_eq hlen]

/-- An operation whose precondition holds finds no fault, keeps the layout and
does to the contents what it does to a list. -/
theorem Op.run_spec (h : b.WF) {op : Op} (hallowed : op.Allowed b) :
    ∃ b', op.run b = .ok ((op.onQueue b.stored b.content).1, b') ∧ b'.WF ∧
      b'.content = (op.onQueue b.stored b.content).2 := by
  cases op with
  | append data =>
      obtain ⟨b', hb', hwf, hcontent, -⟩ := append_spec h data
      exact ⟨b', by simp [run, hb', onQueue], hwf, hcontent⟩
  | ensureWritableBytes len =>
      obtain ⟨b', hb', hroom⟩ := ensureWritableBytes_spec h len
      exact ⟨b', by simp [run, hb', onQueue], hroom.wf, hroom.content⟩
  | store data =>
      obtain ⟨b', hb', hwf, hcontent⟩ := store_spec h hallowed
      exact ⟨b', by simp [run, hb', onQueue], hwf, hcontent⟩
  | hasWritten len =>
      obtain ⟨b', hb', hwf, hcontent⟩ := hasWritten_spec h hallowed
      exact ⟨b', by simp [run, hb', onQueue], hwf, hcontent⟩
  | unwrite len =>
      obtain ⟨b', hb', hwf, hcontent⟩ := unwrite_spec h hallowed
      exact ⟨b', by simp [run, hb', onQueue], hwf, hcontent⟩
  | retrieve len =>
      obtain ⟨b', hb', hwf, hcontent⟩ := retrieve_spec h hallowed
      exact ⟨b', by simp [run, hb', onQueue], hwf, hcontent⟩
  | retrieveAll => exact ⟨b.retrieveAll, rfl, retrieveAll_wf h, retrieveAll_content b⟩
  | retrieveAsString len =>
      obtain ⟨b', hb', hwf, hcontent⟩ := retrieveAsString_spec h hallowed
      exact ⟨b', by simp [run, hb', onQueue], hwf, hcontent⟩
  | prepend data =>
      obtain ⟨b', hb', hwf, hcontent⟩ := prepend_spec h hallowed
      exact ⟨b', by simp [run, hb', onQueue], hwf, hcontent⟩
  | readFd result =>
      cases result with
      | error errno => exact ⟨b, rfl, h, rfl⟩
      | data bytes =>
          obtain ⟨b', hb', hwf, hcontent⟩ := readFd_spec h bytes
          exact ⟨b', by simp [run, hb', onQueue], hwf, hcontent⟩

theorem Step.ofRun (op : Op) {output : Output} {b' : Buffer} (hallowed : op.Allowed b)
    (hrun : op.run b = .ok (output, b')) : Step b ⟨op, b.stored, output⟩ b' :=
  ⟨hallowed, rfl, hrun⟩

theorem Step.refines {b' : Buffer} {call : Call} (h : b.WF) (hstep : Step b call b') :
    b'.WF ∧ QueueStep b.content call b'.content := by
  obtain ⟨hallowed, hstored, hrun⟩ := hstep
  obtain ⟨b'', hb'', hwf, hcontent⟩ := Op.run_spec h hallowed
  obtain ⟨hout, rfl⟩ := Prod.mk.inj (Except.ok.inj (hb''.symm.trans hrun))
  refine ⟨hwf, ?_⟩
  rw [QueueStep, hstored, ← hout, hcontent]

/-- Every sequence of calls that meet their preconditions is the sequence on a
queue, and every call that could follow returns. -/
theorem refines_queue (initialSize : Nat) (calls : List Call) (b : Buffer)
    (hcalls : Transition.Run Step (new initialSize) calls b) :
    b.WF ∧ Transition.Run QueueStep [] calls b.content ∧
      ∀ op : Op, op.Allowed b → ∃ b', op.run b = .ok ((op.onQueue b.stored b.content).1, b') ∧
        b'.WF ∧ b'.content = (op.onQueue b.stored b.content).2 := by
  obtain ⟨hwf, hqueue⟩ := hcalls.refines content (new_wf initialSize)
    fun b call b' h hstep => hstep.refines h
  rw [new_content] at hqueue
  exact ⟨hwf, hqueue, fun op hallowed => op.run_spec hwf hallowed⟩

end

/-- A prepend below `kCheapPrepend`, growth, a partial read, compaction, and the
`unwrite` of a byte that was stored by hand. -/
theorem refines_queue_compacting :
    ∃ calls b, Transition.Run Step (new 2) calls b ∧ b.readerIndex = kCheapPrepend ∧
      b.content = [2, 3] ∧ b.WF ∧ Transition.Run QueueStep [] calls b.content := by
  have hrun : ∃ calls b, Transition.Run Step (new 2) calls b ∧
      b.readerIndex = kCheapPrepend ∧ b.content = [2, 3] := by
    refine ⟨_, _, .snoc (.snoc (.snoc (.snoc (.snoc (.snoc (.snoc .nil
      (.ofRun (.prepend [7]) (by decide) rfl))
      (.ofRun (.append [1, 2, 3]) (by decide) rfl))
      (.ofRun (.retrieveAsString 2) (by decide) rfl))
      (.ofRun (.ensureWritableBytes 1) (by decide) rfl))
      (.ofRun (.store [9]) (by decide) rfl))
      (.ofRun (.hasWritten 1) (by decide) rfl))
      (.ofRun (.unwrite 1) (by decide) rfl), rfl, rfl⟩
  obtain ⟨calls, b, hcalls, hreader, hcontent⟩ := hrun
  obtain ⟨hwf, hqueue, -⟩ := refines_queue 2 calls b hcalls
  exact ⟨calls, b, hcalls, hreader, hcontent, hwf, hqueue⟩

end ProtoRpc.Buffer
