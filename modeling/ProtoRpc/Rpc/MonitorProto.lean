import ProtoRpc.Rpc.Channel
import ProtoRpc.Rpc.RpcProto

/-!
The messages and the service of `monitor.proto`, the service that the example
client calls, with the code that protobuf generates for them. They are an
instance of the channel's parameters, and parsing undoes serialising for them.
As for `rpc.proto`, only what a serialiser writes is parsed as the library does.
-/
namespace ProtoRpc

open Proto3

inductive MonitorMessage where
  | testRequest (name : String) (count : BitVec 32)
  | testResponse (status : Bool) (cpuInfo : String)
  deriving DecidableEq

namespace MonitorMessage

def typeName : MonitorMessage → String
  | .testRequest _ _ => "monitor.TestRequest"
  | .testResponse _ _ => "monitor.TestResponse"

/-- The object after `Clear()`. -/
def clear : MonitorMessage → MonitorMessage
  | .testRequest _ _ => .testRequest "" 0
  | .testResponse _ _ => .testResponse false ""

def toFields : MonitorMessage → List Field
  | .testRequest name count => octets 1 (ofString name) ++ scalar 2 (enumVarint count)
  | .testResponse status cpuInfo => scalar 1 status.toNat ++ octets 2 (ofString cpuInfo)

def applyField : MonitorMessage → Field → Option MonitorMessage
  | .testRequest _ count, (1, .len bs) => (toString? bs).map fun s => .testRequest s count
  | .testRequest name _, (2, .varint n) => some (.testRequest name (BitVec.ofNat 32 n))
  | .testResponse _ cpuInfo, (1, .varint n) => some (.testResponse (n != 0) cpuInfo)
  | .testResponse status _, (2, .len bs) => (toString? bs).map fun s => .testResponse status s
  | m, _ => some m

def serialize (m : MonitorMessage) : List UInt8 := m.toFields.flatMap writeField

def parse (o : MonitorMessage) (bs : List UInt8) : Bool × MonitorMessage :=
  mergeFields applyField bs.length o.clear bs

theorem foldlM_toFields (m : MonitorMessage) : m.toFields.foldlM applyField m.clear = some m := by
  cases m with
  | testRequest name count =>
      simp only [toFields, clear, List.foldlM_append]
      rw [foldlM_octets applyField (b := .testRequest name 0)
        (by simp [applyField, toString?_ofString]) (fun h => by rw [ofString_eq_nil h])]
      simp only [Option.bind_eq_bind, Option.bind_some]
      exact foldlM_scalar applyField (by simp [applyField, ofNat_enumVarint])
        (fun h => by rw [enumVarint_eq_zero h])
  | testResponse status cpuInfo =>
      simp only [toFields, clear, List.foldlM_append]
      rw [foldlM_scalar applyField (b := .testResponse status "")
        (by cases status <;> rfl) (fun h => by cases status <;> simp_all)]
      simp only [Option.bind_eq_bind, Option.bind_some]
      exact foldlM_octets applyField (by simp [applyField, toString?_ofString])
        (fun h => by rw [ofString_eq_nil h])

theorem toFields_valid {m : MonitorMessage} (h : m.serialize.length < 2 ^ 64) :
    ∀ f ∈ m.toFields, f.Valid := by
  intro f hf
  cases m with
  | testRequest name count =>
      have hname := length_le_flatMap_octets 1 (ofString name)
      simp only [serialize, toFields, List.flatMap_append, List.length_append] at h
      simp only [toFields, List.mem_append] at hf
      cases hf with
      | inl hf => exact octets_valid (by decide) (by decide) (by omega) f hf
      | inr hf => exact scalar_valid (by decide) (by decide) (count.signExtend 64).isLt f hf
  | testResponse status cpuInfo =>
      have hinfo := length_le_flatMap_octets 2 (ofString cpuInfo)
      simp only [serialize, toFields, List.flatMap_append, List.length_append] at h
      simp only [toFields, List.mem_append] at hf
      cases hf with
      | inl hf => exact scalar_valid (by decide) (by decide) (by cases status <;> decide) f hf
      | inr hf => exact octets_valid (by decide) (by decide) (by omega) f hf

theorem clear_eq {o r : MonitorMessage} (h : o.typeName = r.typeName) : o.clear = r.clear := by
  cases o with
  | testRequest | testResponse =>
      cases r with
      | testRequest | testResponse => first | rfl | exact absurd h (by simp [typeName])

end MonitorMessage

def monitorProtobuf : Protobuf MonitorMessage where
  getTypeName := MonitorMessage.typeName
  serializeAsString := MonitorMessage.serialize
  parseFromString := MonitorMessage.parse

theorem monitorProtobuf_parsesSerialized : monitorProtobuf.ParsesSerialized := by
  intro o r htype hsize
  have hlen : r.serialize.length < 2 ^ 64 := by
    simp only [monitorProtobuf, intMax] at hsize
    omega
  change mergeFields MonitorMessage.applyField r.serialize.length o.clear r.serialize = _
  rw [MonitorMessage.clear_eq htype]
  exact mergeFields_writeField _ r.toFields (MonitorMessage.toFields_valid hlen) _ _ _
    (Nat.le_refl _) r.foldlM_toFields

def monitorInfo : MethodDescriptor := ⟨"monitor.TestService", "MonitorInfo"⟩

/-- `monitor.TestService` -/
def testService : Service MonitorMessage where
  fullName := "monitor.TestService"
  findMethodByName := fun name => if name = "MonitorInfo" then some monitorInfo else none
  getRequestPrototype := fun _ => .testRequest "" 0
  getResponsePrototype := fun _ => .testResponse false ""

/-- The server of the example, with its one service. -/
def monitorServer : RpcServer MonitorMessage :=
  RpcServer.registerService ⟨fun _ => none⟩ testService

/-- A call of the example client. -/
def monitorCall : Call MonitorMessage :=
  { method := monitorInfo
    controller := ⟨false, ""⟩
    request := .testRequest "cpu0" 1
    response := some ⟨16, .testResponse false ""⟩
    done := some 32 }

/-- The example server has a service for the example client's call. -/
theorem dispatch_monitorCall (id : BitVec 64) :
    RpcChannel.dispatch monitorProtobuf (some monitorServer.services)
        (RpcChannel.requestMessage monitorProtobuf id monitorCall) =
      .invoke monitorInfo (.testRequest "cpu0" 1) (.testResponse false "") := by
  have hparse := monitorProtobuf_parsesSerialized (.testRequest "" 0#32)
    (.testRequest "cpu0" 1#32) rfl (by decide)
  simp [RpcChannel.dispatch, RpcChannel.requestMessage, monitorCall, monitorServer,
    RpcServer.registerService, testService, monitorInfo, hparse]

end ProtoRpc
