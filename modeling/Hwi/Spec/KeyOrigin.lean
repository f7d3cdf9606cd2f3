import Hwi.Spec.Serialize

/-! `KeyOriginInfo` of `key.py` as PSBTs store it, and paths as strings. -/

namespace Hwi

/-- A hexadecimal digit as `binascii.hexlify` writes it. -/
def hexDigit (n : ℕ) : Char := if n < 10 then Char.ofNat (0x30 + n) else Char.ofNat (0x57 + n)

/-- `binascii.hexlify(b).decode()` -/
def hexlify (b : Bytes) : Str := b.flatMap fun c => [hexDigit (c.toNat / 16), hexDigit (c.toNat % 16)]

/-- `str(i)` -/
def str (i : ℤ) : Str := (toString i).toList

/-- The value `1 << 31`. -/
def HARDENED_FLAG : ℤ := 2147483648

/-- Whether bit 31 of an index is set, the index as an infinite two's complement. -/
def isHardened (i : ℤ) : Bool := i / HARDENED_FLAG % 2 = 1

def indexToStr (hardenedChar : Char) (i : ℤ) : Str :=
  if isHardened i then str (i - HARDENED_FLAG) ++ [hardenedChar] else str i

def pathToString (path : List ℤ) (hardenedChar : Char) : Str :=
  path.flatMap fun i => '/' :: indexToStr hardenedChar i

/-- The origin of a key: the fingerprint of a parent key and the path from it. -/
structure KeyOriginInfo where
  fingerprint : Bytes
  path : List ℤ
deriving DecidableEq, Repr

/-- `struct.unpack("<" + "I" * (len(s) // 4), s)` -/
def unpackWords : Bytes → Except Exc (List ℕ)
  | [] => .ok []
  | a :: b :: c :: d :: s => do
    let path ← unpackWords s
    return ofLE [a, b, c, d] :: path
  | _ => .error .structError

/-- `struct.pack("<" + "I" * len(path), *path)` -/
def packWords (path : List ℤ) : Except Exc Bytes := do
  let r ← path.mapM (pack 4)
  return r.flatten

namespace KeyOriginInfo

def deserialize (s : Bytes) : Except Exc KeyOriginInfo := do
  let path ← unpackWords (s.drop 4)
  return { fingerprint := s.take 4, path := path.map Int.ofNat }

def serialize (self : KeyOriginInfo) : Except Exc Bytes := do
  let path ← packWords self.path
  return self.fingerprint ++ path

/-- The origin as descriptors show it. -/
def toString (self : KeyOriginInfo) (hardenedChar : Char) : Str :=
  hexlify self.fingerprint ++ pathToString self.path hardenedChar

def getDerivationPath (self : KeyOriginInfo) : Str := 'm' :: pathToString self.path 'h'

end KeyOriginInfo

end Hwi
