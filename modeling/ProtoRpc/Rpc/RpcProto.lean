import ProtoRpc.Foundation.Proto3
import ProtoRpc.Rpc.Message

/-!
The encoding of `rpc.proto` that protobuf generates: field numbers, wire types
and proto3 defaults of `RpcMessage`. Together with the checksum of RFC 1950 it
is an instance of the codec's parameters, and both documented laws hold of it.
It stands for the library on what a serialiser writes. On other octets, such as
groups, varints with octets to spare, and what a failed parse leaves in a
string, the two may differ.
-/
namespace ProtoRpc

open Proto3

/-- An `enum` field is an `int32`, widened with its sign on the wire. -/
def MessageType.number : MessageType → BitVec 32
  | .request => 0
  | .response => 1
  | .unrecognized v _ => v

def MessageType.ofNumber (v : BitVec 32) : MessageType :=
  if h : 2 ≤ v.toNat then .unrecognized v h
  else if v.toNat = 1 then .response
  else .request

theorem MessageType.ofNumber_number (t : MessageType) : ofNumber t.number = t := by
  cases t with
  | request | response => rfl
  | unrecognized v h => simp [number, ofNumber, h]

def ErrorCode.number : ErrorCode → BitVec 32
  | .noError => 0
  | .wrongProto => 1
  | .noService => 2
  | .noMethod => 3
  | .invalidRequest => 4
  | .invalidResponse => 5
  | .timeout => 6
  | .unrecognized v _ => v

def ErrorCode.ofNumber (v : BitVec 32) : ErrorCode :=
  if h : 7 ≤ v.toNat then .unrecognized v h
  else match v.toNat with
    | 1 => .wrongProto
    | 2 => .noService
    | 3 => .noMethod
    | 4 => .invalidRequest
    | 5 => .invalidResponse
    | 6 => .timeout
    | _ => .noError

theorem ErrorCode.ofNumber_number (e : ErrorCode) : ofNumber e.number = e := by
  cases e with
  | unrecognized v h => simp [number, ofNumber, h]
  | _ => rfl

/-- The varint of an `enum` value. -/
def enumVarint (v : BitVec 32) : Nat := (v.signExtend 64).toNat

theorem ofNat_enumVarint (v : BitVec 32) : BitVec.ofNat 32 (enumVarint v) = v := by
  apply BitVec.eq_of_toNat_eq
  rw [BitVec.toNat_ofNat, enumVarint, BitVec.toNat_signExtend, BitVec.toNat_setWidth]
  have hv := v.isLt
  split <;> omega

theorem enumVarint_eq_zero {v : BitVec 32} (h : enumVarint v = 0) : v = 0 := by
  rw [← ofNat_enumVarint v, h]
  rfl

namespace RpcMessage

def toFields (m : RpcMessage) : List Field :=
  scalar 1 (enumVarint m.type.number) ++ (scalar 2 m.id.toNat ++
    (octets 3 (ofString m.service) ++ (octets 4 (ofString m.method) ++
      (octets 5 m.request ++ (octets 6 m.response ++ scalar 7 (enumVarint m.error.number))))))

/-- A later occurrence of a field replaces an earlier one, and a field that the
message does not declare is skipped. -/
def applyField (m : RpcMessage) : Field → Option RpcMessage
  | (1, .varint n) => some { m with type := MessageType.ofNumber (BitVec.ofNat 32 n) }
  | (2, .varint n) => some { m with id := BitVec.ofNat 64 n }
  | (3, .len bs) => (toString? bs).map (fun s => { m with service := s })
  | (4, .len bs) => (toString? bs).map (fun s => { m with method := s })
  | (5, .len bs) => some { m with request := bs }
  | (6, .len bs) => some { m with response := bs }
  | (7, .varint n) => some { m with error := ErrorCode.ofNumber (BitVec.ofNat 32 n) }
  | _ => some m

def serialize (m : RpcMessage) : List UInt8 := m.toFields.flatMap writeField

def parse (bs : List UInt8) : Option RpcMessage :=
  (readFields bs.length bs).bind (fun fs => fs.foldlM applyField RpcMessage.new)

/-- The fields of a message, read into a new one in order, give it back. -/
theorem foldlM_toFields (m : RpcMessage) :
    m.toFields.foldlM applyField RpcMessage.new = some m := by
  obtain ⟨type, id, service, method, request, response, error⟩ := m
  have htype := MessageType.ofNumber_number type
  have herror := ErrorCode.ofNumber_number error
  simp only [toFields, List.foldlM_append]
  rw [foldlM_scalar applyField (b := { RpcMessage.new with type := type })
    (by simp [applyField, ofNat_enumVarint, htype])
    (fun h => by rw [enumVarint_eq_zero h] at htype; rw [← htype]; rfl)]
  simp only [Option.bind_eq_bind, Option.bind_some]
  rw [foldlM_scalar applyField (b := { RpcMessage.new with type := type, id := id })
    (by simp [applyField])
    (fun h => by rw [show id = 0 from BitVec.eq_of_toNat_eq h]; rfl)]
  simp only [Option.bind_some]
  rw [foldlM_octets applyField
    (b := { RpcMessage.new with type := type, id := id, service := service })
    (by simp [applyField, toString?_ofString])
    (fun h => by rw [ofString_eq_nil h]; rfl)]
  simp only [Option.bind_some]
  rw [foldlM_octets applyField
    (b := { RpcMessage.new with type := type, id := id, service := service, method := method })
    (by simp [applyField, toString?_ofString])
    (fun h => by rw [ofString_eq_nil h]; rfl)]
  simp only [Option.bind_some]
  rw [foldlM_octets applyField (b := ⟨type, id, service, method, request, [], .noError⟩)
    (by simp [applyField, RpcMessage.new]) (fun h => by rw [h]; rfl)]
  simp only [Option.bind_some]
  rw [foldlM_octets applyField (b := ⟨type, id, service, method, request, response, .noError⟩)
    (by simp [applyField]) (fun h => by rw [h])]
  simp only [Option.bind_some]
  exact foldlM_scalar applyField (by simp [applyField, ofNat_enumVarint, herror])
    (fun h => by rw [enumVarint_eq_zero h] at herror; rw [← herror]; rfl)

theorem toFields_valid {m : RpcMessage} (h : m.serialize.length < 2 ^ 64) :
    ∀ f ∈ m.toFields, f.Valid := by
  have htype : enumVarint m.type.number < 2 ^ 64 := (m.type.number.signExtend 64).isLt
  have herror : enumVarint m.error.number < 2 ^ 64 := (m.error.number.signExtend 64).isLt
  have h₃ := length_le_flatMap_octets 3 (ofString m.service)
  have h₄ := length_le_flatMap_octets 4 (ofString m.method)
  have h₅ := length_le_flatMap_octets 5 m.request
  have h₆ := length_le_flatMap_octets 6 m.response
  simp only [serialize, toFields, List.flatMap_append, List.length_append] at h
  intro f hf
  simp only [toFields, List.mem_append] at hf
  rcases hf with hf | hf | hf | hf | hf | hf | hf
  · exact scalar_valid (by decide) (by decide) htype f hf
  · exact scalar_valid (by decide) (by decide) m.id.isLt f hf
  · exact octets_valid (by decide) (by decide) (by omega) f hf
  · exact octets_valid (by decide) (by decide) (by omega) f hf
  · exact octets_valid (by decide) (by decide) (by omega) f hf
  · exact octets_valid (by decide) (by decide) (by omega) f hf
  · exact scalar_valid (by decide) (by decide) herror f hf

theorem parse_serialize {m : RpcMessage} (h : m.serialize.length < 2 ^ 64) :
    parse m.serialize = some m := by
  have hfields := readFields_writeField m.toFields (toFields_valid h) m.serialize.length
    (Nat.le_refl _)
  rw [parse, serialize] at *
  rw [hfields, Option.bind_some, foldlM_toFields]

end RpcMessage

/-- The libraries that the repository links against. -/
def protobufWire : Wire where
  serialize := RpcMessage.serialize
  parse := RpcMessage.parse
  adler32 := fun start bs => BitVec.ofNat 64 (Adler32.adler32 start.toNat bs)

theorem protobufWire_parsesSerialized : protobufWire.ParsesSerialized := by
  intro m hsize
  apply RpcMessage.parse_serialize
  simp only [protobufWire, intMax] at hsize
  omega

theorem protobufWire_rfc1950 : protobufWire.Rfc1950 := by
  intro bs
  have hlt := Adler32.adler32_lt 1 bs
  change (BitVec.ofNat 64 (Adler32.adler32 1 bs)).toNat = Adler32.adler32 1 bs
  rw [BitVec.toNat_ofNat, Nat.mod_eq_of_lt (by omega)]

end ProtoRpc
