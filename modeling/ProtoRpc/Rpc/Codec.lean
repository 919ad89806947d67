import ProtoRpc.Foundation.Framing
import ProtoRpc.Network.TcpConnection
import ProtoRpc.Rpc.Message

/-!
`ProtoRpcCodec`: the frame built by `fillEmptyBuffer` and the decoding loop of
`onMessage`. Bytes of a received frame are read through `readAt`, which is a
fault outside of the frame, and `int` arithmetic is checked where the source
does it on a size that it does not bound.

The loop calls `messageCallback` on the state that the callback owns before it
retrieves the frame. Its fuel is one turn more than the bytes at hand.
-/
namespace ProtoRpc.ProtoRpcCodec

def kHeaderLen : Int := 4
def kChecksumLen : Int := 4
def kMaxMessageLen : Int := 64 * 1024 * 1024
def kMinMessageLen : Int := 4

/-- `tag_`, the octets of "RPC0". -/
def tag : List UInt8 := [0x52, 0x50, 0x43, 0x30]

inductive ErrorCode where
  | kNoError
  | kInvalidLength
  | kCheckSumError
  | kInvalidNameLen
  | kUnknownMessageType
  | kParseError
  deriving DecidableEq, Repr

/-- `n` bytes at `buf + pos`, where `buf` points to the frame. -/
def readAt (frame : List UInt8) (pos n : Int) : Except Fault (List UInt8) := do
  require .outOfBounds (0 ≤ pos ∧ 0 ≤ n ∧ pos + n ≤ frame.length)
  return (frame.drop pos.toNat).take n.toNat

def asInt32 (bytes : List UInt8) : BitVec 32 :=
  networkToHost32 (ofObjectBytes 4 bytes)

def checksum (w : Wire) (bytes : List UInt8) : BitVec 32 :=
  (w.adler32 1#64 bytes).setWidth 32

def validateChecksum (w : Wire) (frame : List UInt8) (len : Int) : Except Fault Bool := do
  let stored ← readAt frame (len - kChecksumLen) 4
  let expectedCheckSum := asInt32 stored
  let covered ← readAt frame 0 (len - kChecksumLen)
  return checksum w covered == expectedCheckSum

def parse (w : Wire) (frame : List UInt8) (len : Int) :
    Except Fault (ErrorCode × Option RpcMessage) := do
  if ← validateChecksum w frame len then
    let head ← readAt frame 0 tag.length
    if head = tag then
      let dataLen := len - kChecksumLen - tag.length
      let data ← readAt frame tag.length dataLen
      match w.parse data with
      | some message => return (.kNoError, some message)
      | none => return (.kParseError, none)
    else
      return (.kUnknownMessageType, none)
  else
    return (.kCheckSumError, none)

/-- The tests of one turn of the loop in `onMessage`: the message at the head
of the buffer and the bytes it takes, or nothing when the loop breaks. -/
def nextFrame (w : Wire) (buf : Buffer) : Except Fault (Option (RpcMessage × Nat)) := do
  if kMinMessageLen + kHeaderLen ≤ buf.readableBytes then
    let len := (← buf.peekInt32).toInt
    if kMaxMessageLen < len ∨ len < kMinMessageLen then
      return none
    else if (kHeaderLen + len).toNat ≤ buf.readableBytes then
      let frame := (buf.peek (kHeaderLen + len).toNat).drop kHeaderLen.toNat
      match ← parse w frame len with
      | (.kNoError, some message) => return some (message, (kHeaderLen + len).toNat)
      | _ => return none
    else
      return none
  else
    return none

section Loop
variable {σ : Type} (w : Wire) (messageCallback : σ → RpcMessage → Except Fault σ)

def onMessageLoop : Nat → σ → Buffer → Except Fault (σ × Buffer)
  | 0, s, buf => .ok (s, buf)
  | fuel + 1, s, buf => do
      match ← nextFrame w buf with
      | none => return (s, buf)
      | some (message, n) =>
          let s ← messageCallback s message
          let buf ← buf.retrieve n
          onMessageLoop fuel s buf

def onMessage (s : σ) (buf : Buffer) : Except Fault (σ × Buffer) :=
  onMessageLoop w messageCallback (buf.readableBytes + 1) s buf

end Loop

/-- `ByteSizeLong` and `SerializeWithCachedSizesToArray` are taken from one
serialisation, so the empty branch on `end - start` is never reached. -/
def serializeToBuffer (w : Wire) (message : RpcMessage) (buf : Buffer) :
    Except Fault (Int × Buffer) := do
  let bytes := w.serialize message
  require .messageTooLarge (bytes.length ≤ intMax)
  let room ← addInt bytes.length kChecksumLen
  let buf ← buf.ensureWritableBytes room.toNat
  let buf ← buf.store bytes
  let buf ← buf.hasWritten bytes.length
  return (bytes.length, buf)

def fillEmptyBuffer (w : Wire) (buf : Buffer) (message : RpcMessage) : Except Fault Buffer := do
  require .assertion (buf.readableBytes = 0)
  let buf ← buf.append tag
  let (byteSize, buf) ← serializeToBuffer w message buf
  let checkSum := checksum w (buf.peek (toInt32 buf.readableBytes).toNat)
  let buf ← buf.appendInt32 checkSum
  require .assertion ((buf.readableBytes : Int) = tag.length + byteSize + kChecksumLen)
  let len := hostToNetwork32 (toInt32 buf.readableBytes)
  buf.prepend (objectBytes 4 len)

/-- `conn` may be null: `RpcChannel` is constructed without a connection on the
client side. -/
def send (w : Wire) (conn : Option TcpConnection) (inLoopThread : Bool) (r : WriteResult)
    (message : RpcMessage) : Except Fault TcpConnection := do
  let buf ← fillEmptyBuffer w (Buffer.new Buffer.kInitialSize) message
  match conn with
  | none => .error .nullPointer
  | some c =>
      let (c, _) ← c.send inLoopThread buf r
      return c

end ProtoRpc.ProtoRpcCodec
