import ProtoRpc.Rpc.Channel
import ProtoRpc.Rpc.CodecEncoding

/-!
What `codec_.send(conn_, message)` does to a channel, once for all of its three
callers: the frame is handed over, or nothing changes. In the second case the
source may have dropped the message without a sign or have faulted.
-/
namespace ProtoRpc

open ProtoRpcCodec

variable {M : Type}

/-- The connection is set and up, and the codec can size the message. -/
def CanSubmit (w : Wire) (conn : Option TcpConnection) (message : RpcMessage) : Prop :=
  (∃ c, conn = some c ∧ c.state = .kConnected) ∧ Encodable w message

/-- Connections come with both buffers laid out. -/
def LaidOut (conn : Option TcpConnection) : Prop := ∀ c, conn = some c → c.WF

namespace RpcChannel

inductive SendOutcome (w : Wire) (ch : RpcChannel M) (inLoopThread : Bool) (r : WriteResult)
    (m : RpcMessage) : RpcChannel M × Option Fault → Prop where
  | unchanged (h : ¬ CanSubmit w ch.conn m) (fault : Option Fault) :
      SendOutcome w ch inLoopThread r m (ch, fault)
  | handed {c c' : TcpConnection} (hconn : ch.conn = some c) (hup : c.state = .kConnected)
      (hfit : Encodable w m) (hwf : c'.WF) (hsame : c.SameInput c')
      (hhanded : c'.handed = c.handed ++ [frameBytes w m])
      (haccepted : c.Accepted c' (frameBytes w m) r inLoopThread) :
      SendOutcome w ch inLoopThread r m (ch.setConnection (some c'), none)

theorem send_outcome (w : Wire) {ch : RpcChannel M} (h : LaidOut ch.conn) (inLoopThread : Bool)
    (r : WriteResult) (m : RpcMessage) :
    SendOutcome w ch inLoopThread r m (ch.send w inLoopThread r m) := by
  rw [send]
  by_cases hfit : Encodable w m
  · cases hconn : ch.conn with
    | none =>
        rw [send_null hfit]
        refine .unchanged ?_ _
        rintro ⟨⟨c, hc, -⟩, -⟩
        cases hconn.symm.trans hc
    | some c =>
        by_cases hup : c.state = .kConnected
        · obtain ⟨c', hsend, hwf, hsame, hhanded, haccepted⟩ :=
            ProtoRpcCodec.send_connected hfit (h c hconn) hup inLoopThread r
          rw [hsend]
          exact .handed hconn hup hfit hwf hsame hhanded haccepted
        · rw [ProtoRpcCodec.send_notConnected hfit hup]
          have hself : ch.setConnection (some c) = ch := by
            rw [setConnection, ← hconn]
          rw [afterSend, hself]
          refine .unchanged ?_ _
          rintro ⟨⟨d, hd, hdup⟩, -⟩
          obtain rfl := Option.some.inj (hconn.symm.trans hd)
          exact hup hdup
  · obtain ⟨fault, hfault⟩ := send_fault hfit ch.conn inLoopThread r
    rw [hfault]
    exact .unchanged (fun hcan => hfit hcan.2) _

end RpcChannel
end ProtoRpc
