import Hwi.Spec.Common
import Mathlib.Data.Int.Notation

/-! The script classifiers of `_script.py`. -/

namespace Hwi

/-- `script[i]`, with the exception Python raises past the end. -/
def byteAt (script : Bytes) (i : ℕ) : Except Exc UInt8 :=
  match script[i]? with
  | some b => .ok b
  | none => .error .indexError

def isOpreturn (script : Bytes) : Except Exc Bool := do
  let b ← byteAt script 0
  return b = 0x6a

def isP2sh (script : Bytes) : Bool :=
  script.length = 23 ∧ script[0]? = some 0xa9 ∧ script[1]? = some 0x14 ∧ script[22]? = some 0x87

def isP2pkh (script : Bytes) : Bool :=
  script.length = 25 ∧ script[0]? = some 0x76 ∧ script[1]? = some 0xa9 ∧ script[2]? = some 0x14 ∧
    script[23]? = some 0x88 ∧ script[24]? = some 0xac

def isP2pk (script : Bytes) : Bool :=
  (script.length = 35 ∨ script.length = 67) ∧
    (script[0]? = some 0x21 ∨ script[0]? = some 0x41) ∧ script.getLast? = some 0xac

/-- Whether a script is a segwit output script, its version and its program. -/
def isWitness (script : Bytes) : Bool × ℕ × Bytes :=
  match script with
  | v :: n :: prog =>
    if script.length < 4 ∨ script.length > 42 then (false, 0, [])
    else if v ≠ 0 ∧ (v < 81 ∨ v > 96) then (false, 0, [])
    else if n.toNat + 2 = script.length then (true, if v ≠ 0 then v.toNat - 0x50 else 0, prog)
    else (false, 0, [])
  | _ => (false, 0, [])

def isP2wpkh (script : Bytes) : Bool :=
  let (isWit, witVer, witProg) := isWitness script
  isWit ∧ witVer = 0 ∧ witProg.length = 20

def isP2wsh (script : Bytes) : Bool :=
  let (isWit, witVer, witProg) := isWitness script
  isWit ∧ witVer = 0 ∧ witProg.length = 32

def isP2tr (script : Bytes) : Bool :=
  let (isWit, witVer, witProg) := isWitness script
  isWit ∧ witVer = 1 ∧ witProg.length = 32

/-- The loop over the pushed keys, on `script[offset:]`: the keys and what is
left from the first byte that is not a push of 33 bytes. A push that is cut off
still advances the offset by 33. -/
def parseMultisigKeys : ℕ → Bytes → Except Exc (List Bytes × Bytes)
  | 0, _ => .error .indexError
  | _ + 1, [] => .error .indexError
  | fuel + 1, pubkeyLen :: rest =>
    if pubkeyLen ≠ 33 then .ok ([], pubkeyLen :: rest)
    else do
      let (pubkeys, rest') ← parseMultisigKeys fuel (rest.drop 33)
      return (rest.take 33 :: pubkeys, rest')

/-- Determine whether a script is a multisig script. Only handles up to 15 of
15. Returns `m` and the public keys. -/
def parseMultisig (script : Bytes) : Except Exc (Option (ℕ × List Bytes)) := do
  -- Get m
  let m ← byteAt script 0
  if m < 81 ∨ m > 95 then return none
  -- Get pubkeys
  let (pubkeys, rest) ← parseMultisigKeys script.length (script.drop 1)
  -- Check things at the end
  let n ← byteAt rest 0
  if (n.toNat : ℤ) - 80 ≠ pubkeys.length then return none
  let opCms ← byteAt rest 1
  if opCms ≠ 174 then return none
  return some (m.toNat - 80, pubkeys)

end Hwi
