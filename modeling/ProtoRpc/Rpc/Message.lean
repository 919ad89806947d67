import ProtoRpc.Foundation.Adler32
import ProtoRpc.Network.Machine

/-!
The messages of `rpc.proto` and the third-party functions that the codec calls
on them: protobuf's serialisation and parse of an `RpcMessage`, and zlib's
`adler32`. They are parameters of the development. What is documented about
them is stated here once, as `Wire.ParsesSerialized` and `Wire.Rfc1950`, and a
result names the one it uses.

Enumerations are open in proto3, so a received message may carry a number that
`rpc.proto` does not name.
-/
namespace ProtoRpc

inductive MessageType where
  | request
  | response
  | unrecognized (value : BitVec 32) (h : 2 ≤ value.toNat)
  deriving DecidableEq

inductive ErrorCode where
  | noError
  | wrongProto
  | noService
  | noMethod
  | invalidRequest
  | invalidResponse
  | timeout
  | unrecognized (value : BitVec 32) (h : 7 ≤ value.toNat)
  deriving DecidableEq

structure RpcMessage where
  type : MessageType
  id : BitVec 64
  service : String
  method : String
  request : List UInt8
  response : List UInt8
  error : ErrorCode
  deriving DecidableEq

/-- `RpcMessage()`: every field has its proto3 default. -/
def RpcMessage.new : RpcMessage :=
  { type := .request
    id := 0
    service := ""
    method := ""
    request := []
    response := []
    error := .noError }

/-- The library functions below the codec. -/
structure Wire where
  /-- `SerializeWithCachedSizesToArray` -/
  serialize : RpcMessage → List UInt8
  /-- `ParseFromArray` into a new message -/
  parse : List UInt8 → Option RpcMessage
  /-- `adler32` of zlib -/
  adler32 : BitVec 64 → List UInt8 → BitVec 64

namespace Wire

/-- Parsing undoes serialising, for every message that protobuf can size. -/
def ParsesSerialized (w : Wire) : Prop :=
  ∀ m, (w.serialize m).length ≤ intMax → w.parse (w.serialize m) = some m

/-- The checksum is the one of RFC 1950, started from 1. -/
def Rfc1950 (w : Wire) : Prop :=
  ∀ bs, (w.adler32 1#64 bs).toNat = Adler32.adler32 1 bs

end Wire
end ProtoRpc
