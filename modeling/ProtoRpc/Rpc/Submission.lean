import ProtoRpc.Rpc.Calls
import ProtoRpc.Rpc.ChannelSend
import ProtoRpc.Rpc.CodecStream

/-!
Whether a call that `CallMethod` registers is also sent. The entry is made
before the codec and the connection are tried, and nothing takes it back, so a
call is left pending exactly when there is no connection, or it is not up, or
the request cannot be sized.
-/
namespace ProtoRpc

open ProtoRpcCodec

section
variable {M : Type}

/-- The complete frame of `message` goes to a connection that is up. -/
def Submitted (w : Wire) (ch ch' : RpcChannel M) (message : RpcMessage) : Prop :=
  ∃ c c', ch.conn = some c ∧ c.state = .kConnected ∧ ch'.conn = some c' ∧
    c'.handed = c.handed ++ [frameBytes w message]

theorem RpcChannel.submitted_send_iff (w : Wire) (ch : RpcChannel M) (h : LaidOut ch.conn)
    (inLoopThread : Bool) (r : WriteResult) (m : RpcMessage) :
    Submitted w ch (ch.send w inLoopThread r m).1 m ↔ CanSubmit w ch.conn m := by
  have hspec := RpcChannel.send_outcome w h inLoopThread r m
  cases houtcome : ch.send w inLoopThread r m with
  | mk ch' fault =>
      rw [houtcome] at hspec
      cases hspec with
      | unchanged hcannot =>
          refine iff_of_false ?_ hcannot
          rintro ⟨c, c', hc, -, hc', hhanded⟩
          obtain rfl := Option.some.inj (hc.symm.trans hc')
          exact absurd hhanded (by simp)
      | handed hconn hup hfit _ _ hhanded _ =>
          exact iff_of_true ⟨_, _, hconn, hup, rfl, hhanded⟩ ⟨⟨_, hconn, hup⟩, hfit⟩

end

namespace Endpoint
variable {M : Type}

/-- Any change of connection, `setConnection` included. -/
def AnyConnection (_ : Endpoint M) : Label M → Prop
  | .connection conn => LaidOut conn
  | _ => True

section
variable {w : Wire} {lib : Protobuf M} {e e' : Endpoint M} {conn : Option TcpConnection}
  {id : BitVec 64} {services : Option (ServiceTable M)}

theorem laidOut_step {l : Label M} (h : LaidOut e.channel.conn) (hallowed : AnyConnection e l)
    (hstep : Step w lib e l e') : LaidOut e'.channel.conn := by
  cases hstep.onConnection with
  | same hconn hsent => exact hconn ▸ h
  | connection hconn hsent => exact hconn ▸ hallowed
  | @sends l inLoopThread r m hlabel hconn hsent =>
      have hspec := RpcChannel.send_outcome w h inLoopThread r m
      cases houtcome : e.channel.send w inLoopThread r m with
      | mk ch fault =>
          rw [houtcome] at hspec hconn
          cases hspec with
          | unchanged => exact hconn ▸ h
          | handed _ _ _ hwf =>
              intro c hc
              obtain rfl := Option.some.inj (hconn.symm.trans hc)
              exact hwf

theorem laidOut_of_reaches (hconn : LaidOut conn)
    (h : Reaches w lib AnyConnection conn id services e) : LaidOut e.channel.conn := by
  induction h with
  | refl => exact hconn
  | tail _ hmove ih =>
      obtain ⟨l, hallowed, hstep⟩ := hmove
      exact laidOut_step ih hallowed hstep

/-- The next id is not outstanding. -/
theorem CallInvariant.fresh (h : CallInvariant id e)
    (hcount : (enteredCalls e.history).length + 1 < 2 ^ 64) :
    e.channel.outstandings.lookup (e.channel.id + 1#64) = none := by
  rw [h.lookup]
  apply Ledger.current_eq_none
  intro hmem
  have hissued : e.channel.id + 1#64 ∈ issuedIds id (enteredCalls e.history).length := by
    rw [← h.issued, (h.entered.map Prod.fst).mem_iff, List.map_append]
    exact List.mem_append_right _ hmem
  have hnext : e.channel.id + 1#64 =
      id + BitVec.ofNat 64 ((enteredCalls e.history).length + 1) := by
    rw [h.nextId, BitVec.ofNat_add, BitVec.add_assoc]
  have hnodup := issuedIds_nodup id hcount
  rw [issuedIds, List.nodup_cons] at hnodup
  exact hnodup.1 (hnext ▸ hissued)

end

/-- A call run without interruption, and the last step of one that is
interleaved with anything else: the frame is submitted, or the call leaves no
entry behind, exactly when it can be submitted. -/
theorem callMethod_submitted_or_unregistered_iff (w : Wire) (lib : Protobuf M)
    (conn : Option TcpConnection) (hconn : LaidOut conn) (id : BitVec 64)
    (services : Option (ServiceTable M)) (e : Endpoint M)
    (hreach : Reaches w lib AnyConnection conn id services e)
    (hcount : (enteredCalls e.history).length + 1 < 2 ^ 64)
    (inLoopThread : Bool) (r : WriteResult) :
    (∀ call : Call M,
      let message := RpcChannel.requestMessage lib (e.channel.id + 1#64) call
      let ch := (e.channel.callMethod w lib call inLoopThread r).1
      (Submitted w e.channel ch message ∨ ch.outstandings = e.channel.outstandings) ↔
        CanSubmit w e.channel.conn message) ∧
    ∀ before a after, e.calling = before ++ a :: after → a.registered = true →
      let ch := (e.channel.send w inLoopThread r a.message).1
      (Submitted w e.channel ch a.message ∨ ch.outstandings.lookup a.id = none) ↔
        (CanSubmit w e.channel.conn a.message ∨
          e.channel.outstandings.lookup a.id = none) := by
  have hlaid := laidOut_of_reaches hconn hreach
  have hfresh := (callInvariant_of_reaches hreach).fresh hcount
  refine ⟨?_, ?_⟩
  · intro call message ch
    let registered := (e.channel.fetchId.2).register (e.channel.id + 1#64)
      ⟨call.response, call.done⟩
    have hch : ch = (registered.send w inLoopThread r message).1 := rfl
    have hleft : ch.outstandings ≠ e.channel.outstandings := by
      intro hsame
      rw [hch, RpcChannel.send_outstandings] at hsame
      rw [← hsame] at hfresh
      exact absurd hfresh (by simp [registered, RpcChannel.register])
    have hsubmitted := RpcChannel.submitted_send_iff w registered hlaid inLoopThread r message
    rw [← hch] at hsubmitted
    constructor
    · rintro (hsub | hsame)
      · exact hsubmitted.mp hsub
      · exact absurd hsame hleft
    · intro hcan
      exact Or.inl (hsubmitted.mpr hcan)
  · intro before a after _ _ ch
    rw [RpcChannel.submitted_send_iff w _ hlaid, RpcChannel.send_outstandings]

/-- The example client's first call, on a connection that has come up. -/
theorem callMethod_submitted_when_up :
    let ch : RpcChannel MonitorMessage := RpcChannel.new (some established) 0
    let after := (ch.callMethod protobufWire monitorProtobuf monitorCall false (.wrote 0)).1
    Submitted protobufWire ch after
        (RpcChannel.requestMessage monitorProtobuf (ch.id + 1#64) monitorCall) ∨
      after.outstandings = ch.outstandings := by
  intro ch after
  have hlaid : LaidOut (some established) := by
    intro c hc
    obtain rfl := Option.some.inj hc
    exact ⟨Buffer.new_wf _, Buffer.new_wf _⟩
  have hcan : CanSubmit protobufWire (some established)
      (RpcChannel.requestMessage monitorProtobuf (ch.id + 1#64) monitorCall) :=
    ⟨⟨established, rfl, rfl⟩, by decide⟩
  exact ((callMethod_submitted_or_unregistered_iff protobufWire monitorProtobuf _ hlaid 0
    none _ .refl (by decide) false (.wrote 0)).1 monitorCall).mpr hcan

/-- After the connection is lost the client keeps the old one: the next call is
registered, dropped without a fault, and stays outstanding. -/
theorem callMethod_left_pending :
    ∃ e, Reaches protobufWire monitorProtobuf AnyConnection (some established) 0 none e ∧
      (e.channel.callMethod protobufWire monitorProtobuf monitorCall false (.wrote 0)).2 = none ∧
      ¬ (Submitted protobufWire e.channel
          (e.channel.callMethod protobufWire monitorProtobuf monitorCall false (.wrote 0)).1
          (RpcChannel.requestMessage monitorProtobuf (e.channel.id + 1#64) monitorCall) ∨
        (e.channel.callMethod protobufWire monitorProtobuf monitorCall false
          (.wrote 0)).1.outstandings = e.channel.outstandings) := by
  let down : TcpConnection := { established with state := .kDisconnected }
  have hdown : LaidOut (some down) := by
    intro c hc
    obtain rfl := Option.some.inj hc
    exact ⟨Buffer.new_wf _, Buffer.new_wf _⟩
  refine ⟨_, .tail .refl ⟨.connection (some down), hdown, .connection _⟩, ?_, ?_⟩
  · have hfit : Encodable protobufWire
        (RpcChannel.requestMessage monitorProtobuf (0 + 1#64) monitorCall) := by decide
    have hsend := ProtoRpcCodec.send_notConnected (c := down) hfit (by decide) false (.wrote 0)
    change (RpcChannel.afterSend _ (ProtoRpcCodec.send protobufWire (some down) false (.wrote 0)
      (RpcChannel.requestMessage monitorProtobuf (0 + 1#64) monitorCall))).2 = none
    rw [hsend]
    rfl
  · rintro (⟨c, -, hc, hup, -⟩ | hsame)
    · obtain rfl := Option.some.inj hc
      exact absurd hup (by decide)
    · rw [RpcChannel.callMethod, RpcChannel.send_outstandings] at hsame
      exact absurd (congrArg (Finmap.lookup 1#64) hsame) (by decide)

end Endpoint
end ProtoRpc
