import Hwi.Spec.ExtendedKey

/-! The values `json.loads` reads, and what the operators of Python and `base58.decode`
do with them. -/

namespace Hwi

/-- A value of a JSON text. The fields of a dictionary have different names. Of a number
that is no `int` only the integer it equals matters, if there is one. -/
inductive Json
  | null
  | bool (b : Bool)
  | int (n : ℤ)
  | float (equals : Option ℤ)
  | str (s : Str)
  | list (items : List Json)
  | dict (fields : List (Str × Json))

namespace Json

/-- `value[key]` with a text as the key. -/
def getItem (key : String) : Json → Except Exc Json
  | dict fields => match fields.lookup key.toList with
    | some value => .ok value
    | none => .error .keyError
  | _ => .error .typeError

/-- `value[0]`; the keys of a dictionary are texts. -/
def first : Json → Except Exc Json
  | list (item :: _) => .ok item
  | str (c :: _) => .ok (str [c])
  | list [] | str [] => .error .indexError
  | dict _ => .error .keyError
  | _ => .error .typeError

/-- What `for item in value` runs through. -/
def iter : Json → Except Exc (List Json)
  | list items => .ok items
  | str s => .ok (s.map fun c => str [c])
  | dict fields => .ok (fields.map fun field => str field.1)
  | _ => .error .typeError

/-- `not value` -/
def isFalsy : Json → Bool
  | null | bool false | str [] | list [] | dict [] => true
  | int n => n = 0
  | float equals => equals = some 0
  | _ => false

/-- `binascii.unhexlify(value)` -/
def unhexlify : Json → Except Exc Bytes
  | str s => Hwi.unhexlify s
  | _ => .error .typeError

/-- The place of a text among the digits, of which it may be several. -/
def digit (s : Str) : Option ℕ := Base58.b58Digits.tails.findIdx? fun t => s.isPrefixOf t

/-- The integer of a list of digits. -/
def fromDigits : List Json → ℕ → Except Exc ℕ
  | [], n => .ok n
  | str s :: rest, n => match digit s with
    | some d => fromDigits rest (n * 58 + d)
    | none => .error (.badArgumentError
      ("Character " ++ Base58.reprStr s ++ " is not a valid base58 character"))
  | _ :: _, _ => .error .typeError

def isOne : Json → Bool
  | str s => s = ['1']
  | _ => false

/-- `base58.decode(value)`, which is meant for a text. The digits of a list are its
items, those of a dictionary its keys, but a dictionary cannot be sliced. -/
def decodeBase58 : Json → Except Exc Bytes
  | str s => Base58.decode s
  | list items => if items = [] then .ok [] else do
    let n ← fromDigits items 0
    let pad := (items.dropLast.takeWhile isOne).length
    return List.replicate pad 0x00 ++ Base58.toBytes n
  | dict fields => if fields = [] then .ok [] else do
    let _ ← fromDigits (fields.map fun field => str field.1) 0
    throw .typeError
  | value => if value.isFalsy then .ok [] else .error .typeError

end Json

end Hwi
