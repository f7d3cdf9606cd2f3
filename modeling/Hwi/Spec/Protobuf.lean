import Hwi.Lib.Dict
import Hwi.Lib.Limited
import Hwi.Spec.LedgerWallet
import Hwi.Spec.Path

/-! The protobuf codec of `trezorlib`: `protobuf.py` -/

namespace Hwi

namespace Trezorlib

namespace Protobuf

open LedgerBitcoin (utf8 utf8Decode)

mutual

/-- The values of the fields. -/
inductive Value
  | int (n : ℤ)
  | bool (b : Bool)
  | bytes (b : Bytes)
  | str (s : Str)
  | message (cls : String) (attrs : List Attr)

/-- An attribute of a message: `None`, `REQUIRED_FIELD_PLACEHOLDER`, a value or a list. -/
inductive Attr
  | none
  | placeholder
  | one (value : Value)
  | many (values : List Value)

end

inductive Error
  | eofError
  | ioError (msg : String)
  | valueError (msg : String)
  /-- The text of the `ValueError` starts with the value, or the list. -/
  | badValue (value : Value) (msg : String)
  | badValues (values : List Value) (msg : String)
  | typeError
  | assertionError
  | unicodeDecodeError

/-! ### Fields and messages -/

/-- The type of a field; the others are found by their name in `messages`. -/
inductive FieldType
  | uint32 | uint64 | sint32 | sint64 | bool | bytes | string
  | named (name : String)
deriving DecidableEq

namespace FieldType

def text : FieldType → String
  | uint32 => "uint32"
  | uint64 => "uint64"
  | sint32 => "sint32"
  | sint64 => "sint64"
  | bool => "bool"
  | bytes => "bytes"
  | string => "string"
  | named name => name

end FieldType

structure Field where
  name : String
  type : FieldType
  repeated : Bool
  required : Bool
  default : Option Value

/-- A subclass of `MessageType` with its `FIELDS`, which `__init__` takes by their names. -/
structure MessageClass where
  name : String
  messageWireType : Option ℕ
  fields : List (ℕ × Field)
  nodup_tags : (fields.map Prod.fst).Nodup
  nodup_names : (fields.map fun f => f.2.name).Nodup

/-- What the name of a type stands for in `messages`. -/
inductive TypeObject
  | message (cls : MessageClass)
  | enum (members : List ℤ)

/-- The module `messages`. -/
abbrev Messages := String → Option TypeObject

def wireTypeInt : ℕ := 0
def wireTypeLength : ℕ := 2

def getFieldTypeObject (M : Messages) (field : Field) : Option TypeObject :=
  match field.type with
  | .named name => M name
  | _ => none

namespace Field

def wireType (M : Messages) (field : Field) : Except Error ℕ :=
  match field.type with
  | .uint32 | .uint64 | .sint32 | .sint64 | .bool => .ok wireTypeInt
  | .bytes | .string => .ok wireTypeLength
  | .named _ =>
    match getFieldTypeObject M field with
    | some (.message _) => .ok wireTypeLength
    | some (.enum _) => .ok wireTypeInt
    | none => .error (.valueError ("Unrecognized type for field " ++ field.name))

def valueFits (field : Field) (value : ℤ) : Except Error Bool :=
  match field.type with
  | .uint32 => .ok (0 ≤ value ∧ value < 2 ^ 32)
  | .uint64 => .ok (0 ≤ value ∧ value < 2 ^ 64)
  | .sint32 => .ok (-(2 ^ 31) ≤ value ∧ value < 2 ^ 31)
  | .sint64 => .ok (-(2 ^ 63) ≤ value ∧ value < 2 ^ 63)
  | _ => .error (.valueError ("Cannot check range bounds for " ++ field.type.text))

/-- The attribute when no value is received for a field that is not required. -/
def defaultAttr (field : Field) : Attr :=
  match field.default with
  | some value => .one value
  | none => .none

end Field

/-! ### Numbers -/

/-- A bit of seven and whether more follow. -/
def dumpUvarintLoop : ℕ → ℕ → Bytes
  | 0, _ => []
  | fuel + 1, n =>
    let shifted := n >>> 7
    UInt8.ofNat ((n &&& 0x7F) ||| if shifted ≠ 0 then 0x80 else 0x00) ::
      if shifted ≠ 0 then dumpUvarintLoop fuel shifted else []

def dumpUvarint (n : ℤ) : Except Error Bytes :=
  if n < 0 then .error (.valueError "Cannot dump signed value, convert it to unsigned first.")
  else .ok (dumpUvarintLoop (n.toNat + 1) n.toNat)

def sintToUint (sint : ℤ) : ℤ :=
  let res := sint * 2
  if sint < 0 then -res - 1 else res

def uintToSint (uint : ℕ) : ℤ :=
  let res : ℤ := uint >>> 1
  if uint &&& 1 ≠ 0 then -res - 1 else res

/-! ### Dumping -/

/-- The integer that a value is in Python. -/
def Value.asInt? : Value → Option ℤ
  | .int n => some n
  | .bool b => some (if b then 1 else 0)
  | _ => none

/-- `int(svalue)` -/
def Value.toInt : Value → Except Error ℤ
  | .int n => .ok n
  | .bool b => .ok (if b then 1 else 0)
  | .str s => (Hwi.int s).mapError fun e => match e with
    | .valueError msg => .valueError msg
    | _ => .typeError
  | .bytes b =>
    -- the digits and the white space of ASCII only
    if b.any fun c => 128 ≤ c.toNat then
      .error (.valueError "invalid literal for int() with base 10")
    else (Hwi.int (b.map fun c => Char.ofNat c.toNat)).mapError fun e => match e with
      | .valueError msg => .valueError msg
      | _ => .typeError
  | .message _ _ => .error .typeError

/-- What a loop over a value goes through: the characters of a text, the numbers of bytes. -/
def Value.iterate? : Value → Option (List Value)
  | .str s => some (s.map fun c => .str [c])
  | .bytes b => some (b.map fun c => .int c.toNat)
  | _ => none

/-- The number of a value that has to fit into the type of its field. -/
def dumpInt (field : Field) (svalue : Value) : Except Error ℤ :=
  match svalue.asInt? with
  | none => .error .typeError
  | some n => do
    if !(← field.valueFits n) then
      throw (.badValue svalue (" in field " ++ field.name ++ " does not fit into " ++ field.type.text))
    return n

/-- A value that is not a message. -/
def dumpSimple (M : Messages) (field : Field) (svalue : Value) : Except Error Bytes :=
  match field.type with
  | .named name =>
    match M name with
    | some (.message cls) =>
      .error (.badValue svalue (" in field " ++ field.name ++ " is not " ++ cls.name))
    | some (.enum members) =>
      match svalue.asInt? with
      | some n =>
        if n ∈ members then dumpUvarint n
        else .error (.badValue svalue (" in field " ++ field.name ++ " unknown for " ++ field.type.text))
      | none => .error (.badValue svalue (" in field " ++ field.name ++ " unknown for " ++ field.type.text))
    | none => .error .typeError
  | .uint32 | .uint64 => do
    let n ← dumpInt field svalue
    dumpUvarint n
  | .sint32 | .sint64 => do
    let n ← dumpInt field svalue
    dumpUvarint (sintToUint n)
  | .bool => do
    let n ← svalue.toInt
    dumpUvarint n
  | .bytes =>
    match svalue with
    | .bytes b => do
      let size ← dumpUvarint b.length
      return size ++ b
    | _ => .error .assertionError
  | .string =>
    match svalue with
    | .str s => do
      let size ← dumpUvarint (utf8 s).length
      return size ++ utf8 s
    | _ => .error .assertionError

/-- The loop over what a single value in a repeated field consists of. -/
def dumpSimples (M : Messages) (fkey : ℕ) (field : Field) : List Value → Except Error Bytes
  | [] => .ok []
  | svalue :: svalues => do
    let key ← dumpUvarint fkey
    let value ← dumpSimple M field svalue
    let rest ← dumpSimples M fkey field svalues
    return key ++ value ++ rest

/-- What a list raises that is the value of a field that is not repeated. -/
def listError (M : Messages) (field : Field) (values : List Value) : Error :=
  match field.type with
  | .named name =>
    match M name with
    | some (.message cls) => .badValues values (" in field " ++ field.name ++ " is not " ++ cls.name)
    | some (.enum _) => .badValues values (" in field " ++ field.name ++ " unknown for " ++ field.type.text)
    | none => .typeError
  | .bytes | .string => .assertionError
  | _ => .typeError

mutual

/-- A value of a field, without its key. -/
def dumpValue (M : Messages) (field : Field) : Value → Except Error Bytes
  | .message cls attrs =>
    match getFieldTypeObject M field with
    | some (.message mtype) =>
      if cls = mtype.name then do
        let content ← dumpFields M mtype.fields attrs
        let size ← dumpUvarint content.length
        return size ++ content
      else
        .error (.badValue (.message cls attrs) (" in field " ++ field.name ++ " is not " ++ mtype.name))
    | _ => dumpSimple M field (.message cls attrs)
  | .int n => dumpSimple M field (.int n)
  | .bool b => dumpSimple M field (.bool b)
  | .bytes b => dumpSimple M field (.bytes b)
  | .str s => dumpSimple M field (.str s)

def dumpValues (M : Messages) (fkey : ℕ) (field : Field) : List Value → Except Error Bytes
  | [] => .ok []
  | svalue :: svalues => do
    let key ← dumpUvarint fkey
    let value ← dumpValue M field svalue
    let rest ← dumpValues M fkey field svalues
    return key ++ value ++ rest

def dumpAttr (M : Messages) (ftag : ℕ) (field : Field) : Attr → Except Error Bytes
  | .placeholder =>
    .error (.valueError ("Required value of field " ++ field.name ++ " was not provided"))
  | .none => .ok []
  | .one value => do
    let wireType ← field.wireType M
    let fkey := ftag <<< 3 ||| wireType
    if field.repeated then
      match value.iterate? with
      | none => throw .typeError
      | some values => dumpSimples M fkey field values
    else
      let key ← dumpUvarint fkey
      let value ← dumpValue M field value
      return key ++ value
  | .many values => do
    let wireType ← field.wireType M
    let fkey := ftag <<< 3 ||| wireType
    if field.repeated then dumpValues M fkey field values
    else throw (listError M field values)

/-- The attributes of a message in the order of its fields. -/
def dumpFields (M : Messages) : List (ℕ × Field) → List Attr → Except Error Bytes
  | (ftag, field) :: fields, fvalue :: attrs => do
    let b ← dumpAttr M ftag field fvalue
    let rest ← dumpFields M fields attrs
    return b ++ rest
  | _, _ => .ok []

end

/-- What is written for a message of a class of `messages`. -/
def dumpMessage (M : Messages) : Value → Except Error Bytes
  | .message cls attrs =>
    match M cls with
    | some (.message mtype) => dumpFields M mtype.fields attrs
    | _ => .error .typeError
  | _ => .error .typeError

/-! ### Loading -/

/-- A reader of the bytes of a message, which may raise. -/
abbrev Loader (α : Type) := Procedure Error (Source UInt8) α

open Source

/-- Each round takes a byte, so there are no more rounds than bytes. -/
def loadUvarintLoop : ℕ → ℕ → ℕ → ℕ → Loader ℕ
  | 0, result, _, _ => pure result
  | fuel + 1, result, shift, bytesRead => do
    match ← readinto 1 with
    | [] => if bytesRead > 0 then throw (.ioError "Interrupted UVarint") else throw .eofError
    | byte :: _ =>
      let result := result + (byte.toNat &&& 0x7F) <<< shift
      if byte.toNat &&& 0x80 ≠ 0 then loadUvarintLoop fuel result (shift + 7) (bytesRead + 1)
      else return result

def loadUvarint : Loader ℕ := do
  let s ← get
  loadUvarintLoop (s.data.length + 1) 0 0 0

/-- `buf = bytearray(n); reader.readinto(buf)`: what is not read stays zero. -/
def readBuffer (n : ℕ) : Loader Bytes := do
  let b ← readinto n
  return b ++ List.replicate (n - b.length) 0

def decodeVarintField (M : Messages) (field : Field) : Loader Value := do
  let wireType ← Procedure.ofExcept (field.wireType M)
  if wireType ≠ wireTypeInt then throw .assertionError
  let value ← loadUvarint
  match field.type with
  -- what is no member of an enumeration is only logged
  | .named _ => return .int value
  -- and so is what does not fit
  | .uint32 | .uint64 => return .int value
  | .sint32 | .sint64 => return .int (uintToSint value)
  | .bool => return .bool (value ≠ 0)
  | _ => throw .typeError

/-- The values until `EOFError`; each takes a byte. -/
def packedLoop (M : Messages) (field : Field) : ℕ → Loader (List Value)
  | 0 => pure []
  | fuel + 1 => fun s =>
    match decodeVarintField M field s with
    | .ok value s' => (packedLoop M field fuel >>= fun values => pure (value :: values)) s'
    | .error .eofError s' => .ok [] s'
    | .error e s' => .error e s'

def decodePackedArrayField (M : Messages) (field : Field) : Loader (List Value) := do
  if !field.repeated then throw .assertionError
  let length ← loadUvarint
  let s ← get
  within length (packedLoop M field (s.data.length + 1))

def decodeLengthDelimitedField (M : Messages) (load : MessageClass → Loader Value) (field : Field) :
    Loader Value := do
  let value ← loadUvarint
  match field.type with
  | .bytes => do
    let buf ← readBuffer value
    return .bytes buf
  | .string => do
    let buf ← readBuffer value
    match utf8Decode buf with
    | .ok s => return .str s
    | .error _ => throw .unicodeDecodeError
  | _ =>
    match getFieldTypeObject M field with
    | some (.message cls) => within value (load cls)
    | _ => throw .typeError

/-- The value of an unknown field. -/
def skipField (wtype : ℕ) : Loader Unit := do
  if wtype = wireTypeInt then
    let _ ← loadUvarint
  else if wtype = wireTypeLength then
    let ivalue ← loadUvarint
    let _ ← readinto ivalue
  else
    throw (.valueError "")

/-- The values for a known field. -/
def decodeField (M : Messages) (load : MessageClass → Loader Value) (field : Field) (wtype : ℕ) :
    Loader (List Value) := do
  let wireType ← Procedure.ofExcept (field.wireType M)
  if wtype = wireTypeLength ∧ wireType = wireTypeInt ∧ field.repeated then
    decodePackedArrayField M field
  else if wtype ≠ wireType then
    throw (.valueError ("Field " ++ field.name ++ " received value does not match schema"))
  else if wtype = wireTypeLength then
    let value ← decodeLengthDelimitedField M load field
    return [value]
  else if wtype = wireTypeInt then
    let value ← decodeVarintField M field
    return [value]
  else
    throw .typeError

/-- The attributes by the names of their fields. -/
abbrev MsgDict := Dict String Attr

namespace MessageClass

/-- `msg_dict` before anything is read -/
def seed (cls : MessageClass) : MsgDict :=
  cls.fields.foldl (fun d f =>
    if f.2.repeated then d.set f.2.name (.many [])
    else if !f.2.required then d.set f.2.name f.2.defaultAttr
    else d) ∅

/-- `msg_type(**msg_dict)`, if no required field is missing -/
def construct (cls : MessageClass) (msgDict : MsgDict) : Except Error Value :=
  match cls.fields.find? fun f => f.2.required && !msgDict.contains f.2.name with
  | some f => .error (.valueError ("Did not receive value for field " ++ f.2.name))
  | none => .ok (.message cls.name (cls.fields.map fun f => (msgDict.get? f.2.name).getD .none))

end MessageClass

/-- `msg_dict[field.name]` with the values that were read -/
def store (field : Field) (fvalues : List Value) (msgDict : MsgDict) : Except Error MsgDict :=
  if field.repeated then
    match msgDict.get? field.name with
    | some (.many values) => .ok (msgDict.set field.name (.many (values ++ fvalues)))
    | _ => .error .typeError
  else
    match fvalues with
    | [value] => .ok (msgDict.set field.name (.one value))
    | _ => .error (.valueError "Unexpected multiple values in non-repeating field")

/-- The key of the next field, none at the end. -/
def loadKey : Loader (Option ℕ) := fun s =>
  match loadUvarint s with
  | .ok fkey s' => .ok (some fkey) s'
  | .error .eofError s' => .ok none s'
  | .error e s' => .error e s'

/-- Each field takes a byte, so there are no more fields, inner ones included, than bytes. -/
def loadFields (M : Messages) : ℕ → MessageClass → MsgDict → Loader MsgDict
  | 0, _, msgDict => pure msgDict
  | fuel + 1, cls, msgDict => do
    match ← loadKey with
    | none => return msgDict
    | some fkey =>
      let wtype := fkey &&& 7
      match cls.fields.lookup (fkey >>> 3) with
      | none =>
        skipField wtype
        loadFields M fuel cls msgDict
      | some field =>
        let load := fun inner => do
          let innerDict ← loadFields M fuel inner inner.seed
          Procedure.ofExcept (inner.construct innerDict)
        let fvalues ← decodeField M load field wtype
        let msgDict ← Procedure.ofExcept (store field fvalues msgDict)
        loadFields M fuel cls msgDict

/-- A message of a class from all there is to read. -/
def loadMessageFrom (M : Messages) (fuel : ℕ) (cls : MessageClass) : Loader Value := do
  let msgDict ← loadFields M fuel cls cls.seed
  Procedure.ofExcept (cls.construct msgDict)

/-- `load_message(io.BytesIO(data), msg_type)` -/
def loadMessage (M : Messages) (data : Bytes) (cls : MessageClass) : Except Error Value :=
  match (loadMessageFrom M (data.length + 1) cls).run ⟨data, []⟩ with
  | .ok msg _ => .ok msg
  | .error e _ => .error e

end Protobuf

end Trezorlib

end Hwi
