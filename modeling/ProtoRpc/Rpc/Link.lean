import ProtoRpc.Rpc.Traffic

/-!
Two ends joined by a connection pair that stays up. A step is a step of one of
the endpoints, or its loop moving bytes: a read of some of the bytes that the
peer's kernel has taken, one turn of the decoding loop, a queued functor, or a
buffered write. The loop calls the channel before it retrieves the frame, so
the frame being handled is in the input buffer and is no longer unread.

The messages on their way in one direction are the frames between the sender's
output and the receiver's decoder, and the ones queued in the sender's loop.
-/
namespace ProtoRpc

open ProtoRpcCodec

/-- Where the loop thread is in `handleRead`: not in it, at the test of the
decoding loop, or in the callback for a frame of `n` bytes. -/
inductive Reading where
  | idle
  | head
  | callback (n : Nat)

/-- `taken` counts the bytes of the peer's stream that were read. -/
structure LinkEnd (M : Type) where
  endpoint : Endpoint M
  reading : Reading
  taken : Nat

structure Link (M : Type) where
  left : LinkEnd M
  right : LinkEnd M

namespace LinkEnd
variable {M : Type}

def new (id : BitVec 64) (services : Option (ServiceTable M)) : LinkEnd M :=
  { endpoint := .new ((RpcChannel.new (some established) id).setServices services)
    reading := .idle
    taken := 0 }

def conn (x : LinkEnd M) : TcpConnection := x.endpoint.channel.conn.getD established

/-- The loop has changed its connection. -/
def withConn (x : LinkEnd M) (c : TcpConnection) : LinkEnd M :=
  { x with endpoint :=
      { x.endpoint with channel := x.endpoint.channel.setConnection (some c) } }

/-- The bytes that have been read and not decoded. -/
def unread (x : LinkEnd M) : List UInt8 :=
  match x.reading with
  | .callback n => x.conn.inputBuffer.content.drop n
  | _ => x.conn.inputBuffer.content

/-- The steps of an endpoint that are its own, and meet no write error. -/
def Internal : Label M → Prop
  | .receive _ | .connection _ | .destroy => False
  | l => ∀ inLoopThread r, l.sends = some (inLoopThread, r) → r.faultError = false

section
variable (w : Wire) (lib : Protobuf M)

inductive Step (own peer : LinkEnd M) : LinkEnd M → Prop where
  | run {l : Label M} {e : Endpoint M} (hl : Internal l)
      (hstep : Endpoint.Step w lib own.endpoint l e) : Step own peer { own with endpoint := e }
  | read {bytes : List UInt8} {input : Buffer} (hidle : own.reading = .idle)
      (hbytes : bytes ≠ []) (harrived : bytes <+: peer.conn.written.drop own.taken)
      (hroom : bytes.length ≤ own.conn.inputBuffer.readCapacity)
      (hread : own.conn.inputBuffer.readFd (.data bytes) = .ok (bytes.length, input)) :
      Step own peer
        { own.withConn { own.conn with inputBuffer := input } with
          reading := .head
          taken := own.taken + bytes.length }
  | deliver {m : RpcMessage} {n : Nat} {e : Endpoint M} (hhead : own.reading = .head)
      (hframe : nextFrame w own.conn.inputBuffer = .ok (some (m, n)))
      (hstep : Endpoint.Step w lib own.endpoint (.receive m) e) :
      Step own peer { own with endpoint := e, reading := .callback n }
  | retrieve {n : Nat} {input : Buffer} (hcallback : own.reading = .callback n)
      (hidle : own.endpoint.handling = .idle)
      (hretrieve : own.conn.inputBuffer.retrieve n = .ok input) :
      Step own peer
        { own.withConn { own.conn with inputBuffer := input } with reading := .head }
  | leave (hhead : own.reading = .head)
      (hnone : nextFrame w own.conn.inputBuffer = .ok none) :
      Step own peer { own with reading := .idle }
  | write {r : WriteResult} {c : TcpConnection} (hidle : own.reading = .idle)
      (hr : r.Within own.conn.outputBuffer.readableBytes)
      (hwrite : own.conn.handleWrite r = .ok c) : Step own peer (own.withConn c)
  | functor {f : Functor} {rest : List Functor} {r : WriteResult} {c : TcpConnection}
      (hidle : own.reading = .idle) (hpending : own.conn.pendingFunctors = f :: rest)
      (hr : r.faultError = false)
      (hrun : TcpConnection.runFunctor { own.conn with pendingFunctors := rest } r f = .ok c) :
      Step own peer (own.withConn c)

end
end LinkEnd

namespace Link
variable {M : Type} (w : Wire) (lib : Protobuf M)

inductive Step (L : Link M) : Link M → Prop where
  | left {x : LinkEnd M} (hstep : LinkEnd.Step w lib L.left L.right x) : Step L ⟨x, L.right⟩
  | right {x : LinkEnd M} (hstep : LinkEnd.Step w lib L.right L.left x) : Step L ⟨L.left, x⟩

/-- The states that two new channels on a new connection pair can come to. -/
def Reaches (leftId rightId : BitVec 64) (leftServices rightServices : Option (ServiceTable M))
    (L : Link M) : Prop :=
  Relation.ReflTransGen (Step w lib)
    ⟨LinkEnd.new leftId leftServices, LinkEnd.new rightId rightServices⟩ L

end Link
end ProtoRpc
