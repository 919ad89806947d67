import ProtoRpc.Rpc.Link

/-!
The byte streams between two joined ends. What an end has sent is what its peer
has received, followed by the messages on their way, however the stream is cut
and whichever thread sends: the bytes between the sender's output and the
receiver's decoder are whole frames, seen from the decoder's position on.
-/
namespace ProtoRpc

open ProtoRpcCodec

namespace LinkEnd
variable {M : Type}

/-- The connection of an end is up, with its buffers laid out. -/
structure Up (x : LinkEnd M) : Prop where
  conn : x.endpoint.channel.conn = some x.conn
  wf : x.conn.WF
  state : x.conn.state = .kConnected

/-- What a step of an end adds to its stream. -/
inductive SendEffect (w : Wire) (x x' : LinkEnd M) : Prop where
  | none (hsent : sentMessages x'.endpoint.history = sentMessages x.endpoint.history)
      (hout : x'.conn.outgoing = x.conn.outgoing)
      (hqueue : x'.conn.pendingFunctors = x.conn.pendingFunctors)
  | direct {m : RpcMessage}
      (hsent : sentMessages x'.endpoint.history = m :: sentMessages x.endpoint.history)
      (hout : x'.conn.outgoing = x.conn.outgoing ++ frameBytes w m)
      (hqueue : x'.conn.pendingFunctors = x.conn.pendingFunctors)
  | queued {m : RpcMessage}
      (hsent : sentMessages x'.endpoint.history = m :: sentMessages x.endpoint.history)
      (hout : x'.conn.outgoing = x.conn.outgoing)
      (hqueue : x'.conn.pendingFunctors =
        x.conn.pendingFunctors ++ [.sendInLoop (frameBytes w m)])
  | functor {bytes : List UInt8} {rest : List Functor}
      (hsent : sentMessages x'.endpoint.history = sentMessages x.endpoint.history)
      (hqueue : x.conn.pendingFunctors = .sendInLoop bytes :: rest)
      (hqueue' : x'.conn.pendingFunctors = rest)
      (hout : x'.conn.outgoing = x.conn.outgoing ++ bytes)

/-- What a step of an end takes from its peer's stream. -/
inductive ReceiveEffect (w : Wire) (peer x x' : LinkEnd M) : Prop where
  | none (hreceived : receivedMessages x'.endpoint.history = receivedMessages x.endpoint.history)
      (hunread : x'.unread = x.unread) (htaken : x'.taken = x.taken)
  | read {bytes : List UInt8}
      (hreceived : receivedMessages x'.endpoint.history = receivedMessages x.endpoint.history)
      (harrived : bytes <+: peer.conn.written.drop x.taken)
      (hunread : x'.unread = x.unread ++ bytes) (htaken : x'.taken = x.taken + bytes.length)
  | deliver {m : RpcMessage} {n : Nat}
      (hframe : nextFrame w x.conn.inputBuffer = .ok (some (m, n)))
      (hreceived : receivedMessages x'.endpoint.history = m :: receivedMessages x.endpoint.history)
      (hunread : x.unread = x.conn.inputBuffer.content)
      (hunread' : x'.unread = x.conn.inputBuffer.content.drop n) (htaken : x'.taken = x.taken)

structure Effects (w : Wire) (peer x x' : LinkEnd M) : Prop where
  up : x'.Up
  send : SendEffect w x x'
  receive : ReceiveEffect w peer x x'
  written : x.conn.written <+: x'.conn.written

section
variable {w : Wire} {lib : Protobuf M} {x x' peer : LinkEnd M}

@[simp] theorem conn_withConn (x : LinkEnd M) (c : TcpConnection) : (x.withConn c).conn = c := rfl

theorem up_of_conn {c : TcpConnection} (hconn : x.endpoint.channel.conn = some c) (hwf : c.WF)
    (hstate : c.state = .kConnected) : x.Up := by
  have hc : x.conn = c := by rw [conn, hconn]; rfl
  exact ⟨by rw [hc, hconn], by rw [hc]; exact hwf, by rw [hc]; exact hstate⟩

theorem conn_eq {c : TcpConnection} (hconn : x.endpoint.channel.conn = some c) : x.conn = c := by
  rw [conn, hconn]
  rfl

/-- A buffer that `retrieve` has shortened. -/
theorem retrieve_inv {b b' : Buffer} (h : b.WF) {n : Nat} (hretrieve : b.retrieve n = .ok b') :
    b'.WF ∧ b'.content = b.content.drop n := by
  by_cases hn : n ≤ b.readableBytes
  · obtain ⟨b'', hb'', hwf, hcontent⟩ := Buffer.retrieve_spec h hn
    cases hb''.symm.trans hretrieve
    exact ⟨hwf, hcontent⟩
  · rw [Buffer.retrieve, require_of_false hn] at hretrieve
    cases hretrieve

theorem receivedMessages_receive {m : RpcMessage} {e e' : Endpoint M}
    (hstep : Endpoint.Step w lib e (.receive m) e') :
    receivedMessages e'.history = m :: receivedMessages e.history := by
  cases hstep with
  | response | refused | invoke | ignored => rfl

theorem receivedMessages_other {l : Label M} (hl : ∀ m, l ≠ .receive m) {e e' : Endpoint M}
    (hstep : Endpoint.Step w lib e l e') :
    receivedMessages e'.history = receivedMessages e.history := by
  cases hstep with
  | response | refused | invoke | ignored => exact absurd rfl (hl _)
  | destroy => simp [receivedMessages, List.filterMap_map]
  | _ => rfl

/-- A step of the endpoint that the environment leaves alone, on a connection
that is up and with messages that the codec can size. -/
theorem endpoint_effect {l : Label M} {e : Endpoint M} (hup : x.Up)
    (hl : ∀ conn, l ≠ .connection conn)
    (hclean : ∀ inLoopThread r, l.sends = some (inLoopThread, r) → r.faultError = false)
    (hfits : ∀ m ∈ sentMessages e.history, Encodable w m)
    (hstep : Endpoint.Step w lib x.endpoint l e) (reading : Reading) :
    let x' : LinkEnd M := { x with endpoint := e, reading := reading }
    x'.Up ∧ SendEffect w x x' ∧ x.conn.written <+: x'.conn.written ∧
      x'.conn.inputBuffer = x.conn.inputBuffer := by
  intro x'
  cases hstep.onConnection with
  | same hconn hsent =>
      have hc : x'.conn = x.conn := conn_eq (hconn.trans hup.conn)
      exact ⟨up_of_conn (hconn.trans hup.conn) hup.wf hup.state,
        .none hsent (by rw [hc]) (by rw [hc]), by rw [hc], by rw [hc]⟩
  | connection => exact absurd rfl (hl _)
  | @sends l inLoopThread r m hlabel hconn hsent =>
      have hlaid : LaidOut x.endpoint.channel.conn := by
        intro c hc
        obtain rfl := Option.some.inj (hup.conn.symm.trans hc)
        exact hup.wf
      have hspec := RpcChannel.send_outcome w hlaid inLoopThread r m
      have hfit : Encodable w m := hfits m (by rw [hsent]; exact List.mem_cons_self)
      cases houtcome : x.endpoint.channel.send w inLoopThread r m with
      | mk ch fault =>
          rw [houtcome] at hspec hconn
          cases hspec with
          | unchanged hcannot => exact absurd ⟨⟨_, hup.conn, hup.state⟩, hfit⟩ hcannot
          | @handed c c' hc _ _ hwf hsame _ haccepted =>
              obtain rfl := Option.some.inj (hup.conn.symm.trans hc)
              have hc' : x'.conn = c' := conn_eq hconn
              have hrfault := hclean inLoopThread r hlabel
              refine ⟨up_of_conn hconn hwf (hsame.state.trans hup.state), ?_,
                by rw [hc']; exact hsame.written, by rw [hc']; exact hsame.inputBuffer⟩
              cases haccepted with
              | inLoop hpending hout =>
                  refine .direct hsent ?_ (by rw [hc']; exact hpending)
                  rw [hc']
                  cases hout with
                  | inl hout => exact hout
                  | inr hout => exact absurd hout.1 (by simp [hrfault])
              | queued hpending hout =>
                  exact .queued hsent (by rw [hc']; exact hout) (by rw [hc']; exact hpending)

/-- The loop of an end that is up, while its queue holds only sends. -/
theorem Step.effects (hup : x.Up)
    (hqueue : ∀ f ∈ x.conn.pendingFunctors, ∃ bytes, f = .sendInLoop bytes)
    (hfits : ∀ m ∈ sentMessages x'.endpoint.history, Encodable w m)
    (hstep : Step w lib x peer x') : Effects w peer x x' := by
  cases hstep with
  | @run l e hl hstep =>
      have hlabel : (∀ conn, l ≠ .connection conn) ∧ (∀ m, l ≠ .receive m) ∧
          ∀ inLoopThread r, l.sends = some (inLoopThread, r) → r.faultError = false := by
        cases l with
        | receive | connection | destroy => exact absurd hl id
        | _ => exact ⟨by simp, by simp, hl⟩
      obtain ⟨hup', hsend, hwritten, hinput⟩ :=
        endpoint_effect hup hlabel.1 hlabel.2.2 hfits hstep x.reading
      refine ⟨hup', hsend, .none (receivedMessages_other hlabel.2.1 hstep) ?_ rfl, hwritten⟩
      simp only [unread, hinput]
  | @deliver m n e hhead hframe hstep =>
      obtain ⟨hup', hsend, hwritten, hinput⟩ := endpoint_effect hup (fun conn => by simp)
        (fun _ _ h => by cases h) hfits hstep (.callback n)
      refine ⟨hup', hsend, ?_, hwritten⟩
      refine .deliver hframe (receivedMessages_receive hstep) (by rw [unread, hhead]) ?_ rfl
      simp only [unread, hinput]
  | @read bytes input hidle hbytes harrived hroom hread =>
      obtain ⟨input', hread', hwf, hcontent⟩ := Buffer.readFd_spec hup.wf.input bytes
      cases hread'.symm.trans hread
      refine ⟨⟨rfl, ⟨hwf, hup.wf.output⟩, hup.state⟩, .none rfl rfl rfl,
        .read rfl harrived ?_ rfl, List.prefix_rfl⟩
      rw [unread, unread, hidle]
      exact hcontent
  | @retrieve n input hcallback hidle hretrieve =>
      obtain ⟨hwf, hcontent⟩ := retrieve_inv hup.wf.input hretrieve
      refine ⟨⟨rfl, ⟨hwf, hup.wf.output⟩, hup.state⟩, .none rfl rfl rfl, .none rfl ?_ rfl,
        List.prefix_rfl⟩
      rw [unread, unread, hcallback]
      exact hcontent
  | leave hhead hnone =>
      refine ⟨⟨hup.conn, hup.wf, hup.state⟩, .none rfl rfl rfl, .none rfl ?_ rfl,
        List.prefix_rfl⟩
      rw [unread, unread, hhead]
      rfl
  | @write r c hidle hr hwrite =>
      obtain ⟨c', hc', hwf, hsame, -, hpending, hout⟩ := TcpConnection.handleWrite_spec hup.wf hr
      cases hc'.symm.trans hwrite
      refine ⟨⟨rfl, hwf, hsame.state.trans hup.state⟩, .none rfl hout hpending,
        .none rfl ?_ rfl, hsame.written⟩
      simp only [unread, conn_withConn, hsame.inputBuffer]
      rfl
  | @functor f rest r c hidle hpending hr hrun =>
      obtain ⟨bytes, rfl⟩ := hqueue f (by rw [hpending]; exact List.mem_cons_self)
      have hstate : x.conn.state ≠ .kDisconnected := by
        rw [hup.state]
        decide
      obtain ⟨c', hc', hwf, hsame, -, hqueue', hout⟩ := TcpConnection.sendInLoop_spec
        (c := { x.conn with pendingFunctors := rest }) ⟨hup.wf.input, hup.wf.output⟩ hstate bytes r
      cases hc'.symm.trans hrun
      refine ⟨⟨rfl, hwf, hsame.state.trans hup.state⟩, ?_, .none rfl ?_ rfl, hsame.written⟩
      · refine .functor rfl hpending hqueue' ?_
        cases TcpConnection.outgoing_cases hout with
        | inl hout => exact hout
        | inr hout => exact absurd hout.1 (by simp [hr])
      · simp only [unread, conn_withConn, hsame.inputBuffer]
        rfl

/-- The first frame of a stream of whole frames, once it is complete. -/
theorem nextFrame_of_frames (hparse : w.ParsesSerialized) {buf : Buffer} (h : buf.WF)
    {msgs : List RpcMessage} (hmsgs : ∀ m ∈ msgs, Deliverable w m) {rest : List UInt8}
    (hstream : buf.content ++ rest = (msgs.map (frameBytes w)).flatten) {m : RpcMessage} {n : Nat}
    (hnext : nextFrame w buf = .ok (some (m, n))) :
    ∃ tail, msgs = m :: tail ∧
      buf.content.drop n ++ rest = (tail.map (frameBytes w)).flatten := by
  cases msgs with
  | nil =>
      have hempty : buf.content = [] := (List.append_eq_nil_iff.mp hstream).1
      have hnone : nextFrame w buf = .ok none := by
        refine nextFrame_stuck h (Or.inr ⟨[], [], [], .nil, ?_⟩) ?_
        · rw [hempty]
          rfl
        · rw [hempty]
          exact Framing.stuck_nil
      cases hnone.symm.trans hnext
  | cons m₀ tail =>
      have hframe := isFrame_frameBytes hparse (hmsgs m₀ List.mem_cons_self)
      rw [List.map_cons, List.flatten_cons] at hstream
      cases List.append_eq_append_iff.mp hstream with
      | inl hshort =>
          obtain ⟨more, heq, hrest⟩ := hshort
          by_cases hmore : more = []
          · subst hmore
            rw [List.append_nil] at heq
            have hcontent : buf.content = frameBytes w m₀ ++ [] := by rw [heq, List.append_nil]
            cases (nextFrame_frame h hframe hcontent).symm.trans hnext
            refine ⟨tail, rfl, ?_⟩
            rw [heq, List.drop_length, hrest]
            rfl
          · rw [heq] at hframe
            have hnone : nextFrame w buf = .ok none := by
              refine nextFrame_stuck h (Or.inr ⟨_, _, more, .cons hframe .nil, ?_⟩) ?_
              · simp
              · exact Framing.stuck_of_properPrefix (F := wireFraming w) hframe hmore
            cases hnone.symm.trans hnext
      | inr hlong =>
          obtain ⟨t, hcontent, hrest⟩ := hlong
          cases (nextFrame_frame h hframe hcontent).symm.trans hnext
          refine ⟨tail, rfl, ?_⟩
          rw [hcontent, List.drop_left, hrest]

end
end LinkEnd

/-- The messages on their way from `a` to `b`: frames that `b` has still to
decode, and frames queued in the loop of `a`. -/
structure Flow {M : Type} (w : Wire) (a b : LinkEnd M) (pending queued : List RpcMessage) :
    Prop where
  sent : (sentMessages a.endpoint.history).Perm
    (receivedMessages b.endpoint.history ++ (pending ++ queued))
  bytes : b.unread ++ a.conn.outgoing.drop b.taken = (pending.map (frameBytes w)).flatten
  queue : a.conn.pendingFunctors = queued.map fun m => .sendInLoop (frameBytes w m)
  taken : b.taken ≤ a.conn.written.length

section
variable {M : Type} {w : Wire} {a a' b b' : LinkEnd M} {pending queued : List RpcMessage}

theorem TcpConnection.length_written_le (c : TcpConnection) :
    c.written.length ≤ c.outgoing.length := by
  rw [TcpConnection.outgoing, List.length_append]
  exact Nat.le_add_right _ _

theorem Flow.send (h : Flow w a b pending queued) (hsend : LinkEnd.SendEffect w a a')
    (hwritten : a.conn.written <+: a'.conn.written) :
    ∃ pending' queued', Flow w a' b pending' queued' := by
  have htaken : b.taken ≤ a'.conn.written.length := h.taken.trans hwritten.length_le
  have hdrop : ∀ bytes, (a.conn.outgoing ++ bytes).drop b.taken =
      a.conn.outgoing.drop b.taken ++ bytes := fun bytes =>
    List.drop_append_of_le_length (h.taken.trans (TcpConnection.length_written_le _))
  cases hsend with
  | none hsent hout hqueue =>
      exact ⟨pending, queued, hsent ▸ h.sent, hout ▸ h.bytes, hqueue.trans h.queue, htaken⟩
  | @direct m hsent hout hqueue =>
      refine ⟨pending ++ [m], queued, ?_, ?_, hqueue.trans h.queue, htaken⟩
      · rw [hsent]
        refine (h.sent.cons m).trans ?_
        simp only [List.append_assoc, List.cons_append, List.nil_append]
        exact ((List.perm_middle.append_left _).trans List.perm_middle).symm
      · rw [hout, hdrop, ← List.append_assoc, h.bytes]
        simp
  | @queued m hsent hout hqueue =>
      refine ⟨pending, queued ++ [m], ?_, hout ▸ h.bytes, ?_, htaken⟩
      · rw [hsent]
        refine (h.sent.cons m).trans ?_
        simp only [← List.append_assoc]
        exact (List.perm_append_singleton m _).symm
      · rw [hqueue, h.queue]
        simp
  | @functor bytes rest hsent hqueue hqueue' hout =>
      rw [h.queue] at hqueue
      cases queued with
      | nil => cases hqueue
      | cons m queued =>
          obtain ⟨hm, hrest⟩ := List.cons.inj hqueue
          obtain rfl := Functor.sendInLoop.inj hm
          refine ⟨pending ++ [m], queued, ?_, ?_, hqueue'.trans hrest.symm, htaken⟩
          · rw [hsent]
            simpa using h.sent
          · rw [hout, hdrop, ← List.append_assoc, h.bytes]
            simp

theorem Flow.receive (hparse : w.ParsesSerialized) (h : Flow w a b pending queued)
    (hwf : b.conn.inputBuffer.WF) (hmsgs : ∀ m ∈ pending, Deliverable w m)
    (hreceive : LinkEnd.ReceiveEffect w a b b') : ∃ pending', Flow w a b' pending' queued := by
  cases hreceive with
  | none hreceived hunread htaken =>
      refine ⟨pending, hreceived ▸ h.sent, ?_, h.queue, htaken ▸ h.taken⟩
      rw [hunread, htaken]
      exact h.bytes
  | @read bytes hreceived harrived hunread htaken =>
      have hlength : b.taken + bytes.length ≤ a.conn.written.length := by
        have hle := harrived.length_le
        rw [List.length_drop] at hle
        have htaken := h.taken
        omega
      obtain ⟨later, hlater⟩ := harrived
      have hfrom : a.conn.outgoing.drop b.taken =
          bytes ++ a.conn.outgoing.drop (b.taken + bytes.length) := by
        rw [← List.drop_drop, TcpConnection.outgoing, List.drop_append_of_le_length h.taken,
          ← hlater, List.append_assoc, List.drop_left]
      refine ⟨pending, hreceived ▸ h.sent, ?_, h.queue, htaken ▸ hlength⟩
      rw [hunread, htaken, List.append_assoc, ← hfrom]
      exact h.bytes
  | @deliver m n hframe hreceived hunread hunread' htaken =>
      have hbytes := h.bytes
      rw [hunread] at hbytes
      obtain ⟨tail, rfl, hrest⟩ := LinkEnd.nextFrame_of_frames hparse hwf hmsgs hbytes hframe
      refine ⟨tail, ?_, ?_, h.queue, htaken ▸ h.taken⟩
      · rw [hreceived]
        exact h.sent.trans List.perm_middle
      · rw [hunread', htaken]
        exact hrest

/-- Both ends are up, with whole frames between them in both directions. -/
structure Joined {M : Type} (w : Wire) (a b : LinkEnd M) : Prop where
  left : a.Up
  right : b.Up
  out : ∃ pending queued, Flow w a b pending queued
  back : ∃ pending queued, Flow w b a pending queued

theorem Joined.symm (h : Joined w a b) : Joined w b a := ⟨h.right, h.left, h.back, h.out⟩

theorem joined_new (leftId rightId : BitVec 64)
    (leftServices rightServices : Option (ServiceTable M)) :
    Joined w (LinkEnd.new leftId leftServices) (LinkEnd.new rightId rightServices) := by
  have hup : ∀ (id : BitVec 64) (services : Option (ServiceTable M)),
      (LinkEnd.new id services).Up := fun id services =>
    ⟨rfl, ⟨Buffer.new_wf _, Buffer.new_wf _⟩, rfl⟩
  have hflow : ∀ (aId bId : BitVec 64) (aServices bServices : Option (ServiceTable M)),
      Flow w (LinkEnd.new aId aServices) (LinkEnd.new bId bServices) [] [] := by
    intro aId bId aServices bServices
    refine ⟨List.Perm.refl _, ?_, rfl, Nat.zero_le _⟩
    change established.inputBuffer.content ++ established.outgoing.drop 0 = []
    rw [List.drop_zero, TcpConnection.outgoing]
    exact List.append_eq_nil_iff.mpr
      ⟨Buffer.new_content _, List.append_eq_nil_iff.mpr ⟨rfl, Buffer.new_content _⟩⟩
  exact ⟨hup _ _, hup _ _, ⟨_, _, hflow _ _ _ _⟩, ⟨_, _, hflow _ _ _ _⟩⟩

/-- A step of one end. The messages that it has to decode were sent by its peer. -/
theorem Joined.step {lib : Protobuf M} (hparse : w.ParsesSerialized) (h : Joined w a b)
    (hown : ∀ m ∈ sentMessages a'.endpoint.history, Deliverable w m)
    (hpeer : ∀ m ∈ sentMessages b.endpoint.history, Deliverable w m)
    (hstep : LinkEnd.Step w lib a b a') : Joined w a' b := by
  obtain ⟨pending, queued, hout⟩ := h.out
  obtain ⟨arriving, waiting, hback⟩ := h.back
  have hqueue : ∀ f ∈ a.conn.pendingFunctors, ∃ bytes, f = .sendInLoop bytes := by
    intro f hf
    rw [hout.queue] at hf
    obtain ⟨m, -, rfl⟩ := List.mem_map.mp hf
    exact ⟨_, rfl⟩
  have heffects := hstep.effects h.left hqueue fun m hm => (hown m hm).encodable
  have harriving : ∀ m ∈ arriving, Deliverable w m := by
    intro m hm
    refine hpeer m (hback.sent.mem_iff.mpr ?_)
    exact List.mem_append_right _ (List.mem_append_left _ hm)
  obtain ⟨arriving', hback'⟩ :=
    hback.receive hparse h.left.wf.input harriving heffects.receive
  exact ⟨heffects.up, h.right, hout.send heffects.send heffects.written, _, _, hback'⟩

end

namespace LinkEnd
variable {M : Type} {w : Wire} {lib : Protobuf M} {x x' peer : LinkEnd M}

/-- A step of an end is a step of its endpoint, or moves nothing in it. -/
theorem Step.endpoint_cases (hstep : Step w lib x peer x') :
    x'.endpoint = x.endpoint ∨ ∃ l, Endpoint.Step w lib x.endpoint l x'.endpoint := by
  cases hstep with
  | run hl hstep => exact Or.inr ⟨_, hstep⟩
  | deliver hhead hframe hstep => exact Or.inr ⟨_, hstep⟩
  | leave => exact Or.inl rfl
  | read | retrieve | write | functor => exact Or.inr ⟨_, .connection _⟩

theorem Step.history_suffix (hstep : Step w lib x peer x') :
    x.endpoint.history <:+ x'.endpoint.history := by
  cases hstep.endpoint_cases with
  | inl heq => rw [heq]
  | inr hstep =>
      obtain ⟨l, hstep⟩ := hstep
      exact hstep.history_suffix

theorem Step.reaches {conn : Option TcpConnection} {id : BitVec 64}
    {services : Option (ServiceTable M)} (hstep : Step w lib x peer x')
    (h : Endpoint.Reaches w lib (fun _ _ => True) conn id services x.endpoint) :
    Endpoint.Reaches w lib (fun _ _ => True) conn id services x'.endpoint := by
  cases hstep.endpoint_cases with
  | inl heq => exact heq ▸ h
  | inr hstep =>
      obtain ⟨l, hstep⟩ := hstep
      exact h.tail ⟨l, trivial, hstep⟩

end LinkEnd
end ProtoRpc
