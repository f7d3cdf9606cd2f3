import Hwi.Spec.Common
import Mathlib.Data.Nat.Digits.Defs

/-! The conversions of `_base58.py`. -/

namespace Hwi

namespace Base58

def b58Digits : List Char := "123456789ABCDEFGHJKLMNPQRSTUVWXYZabcdefghijkmnopqrstuvwxyz".toList

/-- The integer of the hexadecimal string of some bytes, `int.from_bytes(b, "big")`. -/
def toInt (b : Bytes) : ℕ := Nat.ofDigits 256 (b.reverse.map UInt8.toNat)

/-- Encode bytes to a base58-encoded string. -/
def encode (b : Bytes) : Str :=
  -- Divide the integer into base58
  let res := ((Nat.digits 58 (toInt b)).map fun r => b58Digits.getD r '1').reverse
  -- Encode leading zeros as base58 zeros
  let pad := (b.takeWhile fun c => c = 0).length
  List.replicate pad '1' ++ res

/-- A text as `%r` shows it. Characters past Latin-1 are taken as printable. -/
def reprStr (s : Str) : String :=
  let quote := if '\'' ∈ s ∧ '"' ∉ s then '"' else '\''
  String.ofList ([quote] ++ s.flatMap (escape quote) ++ [quote])
where
  escape (quote c : Char) : Str :=
    if c = quote ∨ c = '\\' then ['\\', c]
    else if c = '\n' then ['\\', 'n']
    else if c = '\r' then ['\\', 'r']
    else if c = '\t' then ['\\', 't']
    else if c.toNat < 0x20 ∨ 0x7f ≤ c.toNat ∧ c.toNat ≤ 0xa0 ∨ c.toNat = 0xad then
      ['\\', 'x', Nat.digitChar (c.toNat / 16), Nat.digitChar (c.toNat % 16)]
    else [c]

/-- Convert the string to an integer. -/
def fromDigits : Str → ℕ → Except Exc ℕ
  | [], n => .ok n
  | c :: s, n =>
    if c ∈ b58Digits then fromDigits s (n * 58 + b58Digits.idxOf c)
    else .error (.badArgumentError
      ("Character " ++ reprStr [c] ++ " is not a valid base58 character"))

/-- Convert the integer to bytes; zero is one byte. -/
def toBytes (n : ℕ) : Bytes :=
  if n = 0 then [0x00] else ((Nat.digits 256 n).map UInt8.ofNat).reverse

/-- Decode a base58-encoding string, returning bytes. -/
def decode (s : Str) : Except Exc Bytes :=
  if s = [] then .ok []
  else do
    let n ← fromDigits s 0
    let res := toBytes n
    -- Add padding back.
    let pad := (s.dropLast.takeWhile fun c => c = '1').length
    return List.replicate pad 0x00 ++ res

/-- Decode a Base58Check encoded string. -/
def decodeCheck (R : Runtime) (s : Str) : Except Exc Bytes := do
  let data ← decode s
  let payload := data.take (data.length - 4)
  let checksum := data.drop (data.length - 4)
  if checksum ≠ (R.hash256 payload).take 4 then throw (.valueError "Invalid checksum")
  return payload

def encodeCheck (R : Runtime) (b : Bytes) : Str :=
  let checksum := (R.hash256 b).take 4
  let data := b ++ checksum
  encode data

/-- Base58 Check Encode the data with the version number. -/
def toAddress (R : Runtime) (b : Bytes) (version : Bytes) : Str :=
  let data := version ++ b
  let checksum := (R.hash256 data).take 4
  encode (data ++ checksum)

end Base58

end Hwi
