import Hwi.Spec.Protobuf
import Hwi.Spec.Serialize

/-! How messages pass between `trezorlib` and a device: `ProtocolV1` of
`transport/protocol.py`, `mapping.py`, and `_raw_write` and `_raw_read` of `client.py` -/

namespace Hwi

namespace Trezorlib

open Protobuf

inductive WireError
  | protobuf (e : Protobuf.Error)
  | exc (e : Exc)
  | attributeError
  /-- The read waits for a chunk that the device does not send. -/
  | waiting

/-- Reads of chunks that the device sent. -/
abbrev Receiving (α : Type) := Procedure WireError (List Bytes) α

namespace ProtocolV1

def replen : ℕ := 64

/-- `struct.pack(">HL", message_type, length)` -/
def packHeader (messageType length : ℕ) : Except Exc Bytes := do
  let h ← pack 2 messageType
  let l ← pack 4 length
  return h.reverse ++ l.reverse

/-- The chunks for what is left of the buffer. -/
def writeLoop (buffer : Bytes) : List Bytes :=
  if h : buffer = [] then []
  else
    -- report ID, data padded to 63 bytes
    let chunk := 0x3F :: buffer.take (replen - 1)
    (chunk ++ List.replicate (replen - chunk.length) 0) :: writeLoop (buffer.drop 63)
termination_by buffer.length
decreasing_by
  rw [List.length_drop]
  have hpos := List.length_pos_of_ne_nil h
  omega

/-- The chunks that are written for a message. -/
def write (messageType : ℕ) (messageData : Bytes) : Except Exc (List Bytes) := do
  let header ← packHeader messageType messageData.length
  return writeLoop ([0x23, 0x23] ++ header ++ messageData)

def readChunk : Receiving Bytes := fun chunks =>
  match chunks with
  | [] => .error .waiting []
  | chunk :: chunks => .ok chunk chunks

def readFirst : Receiving (ℕ × ℕ × Bytes) := do
  let chunk ← readChunk
  if chunk.take 3 ≠ [0x3F, 0x23, 0x23] then
    throw (.exc (.runtimeError "Unexpected magic characters"))
  let header := (chunk.take 9).drop 3
  if header.length ≠ 6 then
    throw (.exc (.runtimeError "Cannot parse header"))
  return (ofLE (header.take 2).reverse, ofLE (header.drop 2).reverse, chunk.drop 9)

/-- The loop of `read` with `read_next`. -/
def readRest (datalen : ℕ) : Bytes → List Bytes → EStateM.Result WireError (List Bytes) Bytes
  | buffer, [] => if datalen ≤ buffer.length then .ok buffer [] else .error .waiting []
  | buffer, chunk :: chunks =>
    if datalen ≤ buffer.length then .ok buffer (chunk :: chunks)
    else if chunk.take 1 ≠ [0x3F] then
      .error (.exc (.runtimeError "Unexpected magic characters")) chunks
    else readRest datalen (buffer ++ chunk.drop 1) chunks

def read : Receiving (ℕ × Bytes) := do
  let (msgType, datalen, firstChunk) ← readFirst
  let buffer ← (readRest datalen firstChunk : Receiving Bytes)
  return (msgType, buffer.take datalen)

end ProtocolV1

/-! ### The mapping of messages to their types -/

/-- `type_to_class` and, by the names of the classes, `class_to_type_override` -/
structure ProtobufMapping where
  typeToClass : Dict ℕ MessageClass
  classToTypeOverride : Dict String ℕ

/-- The enumeration `MessageType` of a module. -/
structure MessageTypes where
  entries : List (String × ℕ)
  nodup : (entries.map Prod.snd).Nodup

namespace ProtobufMapping

def new : ProtobufMapping := ⟨∅, ∅⟩

def register (self : ProtobufMapping) (msgClass : MessageClass) (msgWireType : Option ℕ) :
    Except WireError ProtobufMapping :=
  match msgWireType with
  | some wireType => .ok
      { typeToClass := self.typeToClass.set wireType msgClass
        classToTypeOverride := self.classToTypeOverride.set msgClass.name wireType }
  | none =>
    match msgClass.messageWireType with
    | none => .error (.exc (.valueError "Cannot register class without wire type"))
    | some wireType => .ok { self with typeToClass := self.typeToClass.set wireType msgClass }

def encode (M : Messages) (self : ProtobufMapping) : Value → Except WireError (ℕ × Bytes)
  | .message cls attrs =>
    match M cls with
    | some (.message mtype) =>
      match (self.classToTypeOverride.get? cls).or mtype.messageWireType with
      | none => .error (.exc (.valueError "Cannot encode class without wire type"))
      | some wireType => do
        let msgBytes ← (dumpMessage M (.message cls attrs)).mapError .protobuf
        return (wireType, msgBytes)
    | _ => .error (.exc .typeError)
  | _ => .error (.exc .typeError)

def decode (M : Messages) (self : ProtobufMapping) (msgWireType : ℕ) (msgBytes : Bytes) :
    Except WireError Value :=
  match self.typeToClass.get? msgWireType with
  | none => .error (.exc .keyError)
  | some cls => (loadMessage M msgBytes cls).mapError .protobuf

/-- One round of `from_module` -/
def registerEntry (M : Messages) (self : ProtobufMapping) (entry : String × ℕ) :
    Except WireError ProtobufMapping :=
  match M entry.1 with
  | some (.message msgClass) =>
    if msgClass.messageWireType ≠ some entry.2 then
      .error (.exc (.valueError
        ("Inconsistent wire type and MessageType record for '" ++ entry.1 ++ "'")))
    else self.register msgClass none
  -- an enumeration of that name has no wire type
  | some (.enum _) => .error .attributeError
  | none =>
    .error (.exc (.valueError
      ("Implementation of protobuf message '" ++ entry.1 ++ "' is missing")))

def fromModule (M : Messages) (messageTypes : MessageTypes) : Except WireError ProtobufMapping :=
  messageTypes.entries.foldlM (registerEntry M) new

end ProtobufMapping

/-! ### Messages on the wire -/

def rawWrite (M : Messages) (mapping : ProtobufMapping) (msg : Value) : Except WireError (List Bytes) := do
  let (msgType, msgBytes) ← mapping.encode M msg
  (ProtocolV1.write msgType msgBytes).mapError .exc

def rawRead (M : Messages) (mapping : ProtobufMapping) : Receiving Value := do
  let (msgType, msgBytes) ← ProtocolV1.read
  Procedure.ofExcept (mapping.decode M msgType msgBytes)

end Trezorlib

end Hwi
