import Hwi.Lib.LittleEndian
import Hwi.Lib.Stream
import Hwi.Spec.Common

/-! The primitives of `_serialize.py` over a byte stream. -/

namespace Hwi

/-- A reader of the byte stream that may raise. -/
abbrev Read (α : Type) := Reader Exc UInt8 α

/-- The longest `bytes` object. -/
def maxBytes : ℕ := 2 ^ 63 - 34

/-- `f.read(n)` of a few bytes: fewer than asked for when the stream ends first. -/
def read (n : ℕ) : Read Bytes := fun f => .ok (f.take n) (f.drop n)

/-- `f.read(n)` of an announced number of bytes. The buffered reader makes a `bytes`
object of that length first; for the bytes that are there memory is taken to suffice. -/
def readAnnounced (R : Runtime) (n : ℕ) : Read Bytes := fun f =>
  if maxBytes < n then .error .overflowError f
  else if f.length < n ∧ R.memory < n then .error .memoryError f
  else .ok (f.take n) (f.drop n)

/-- `f.read()` -/
def readAll : Read Bytes := fun f => .ok f []

/-- `struct.unpack` of one unsigned integer of `k` bytes. -/
def unpack (k : ℕ) (b : Bytes) : Except Exc ℕ :=
  if b.length = k then .ok (ofLE b) else .error .structError

/-- `struct.unpack` of one signed integer of `k` bytes. -/
def unpackSigned (k : ℕ) (b : Bytes) : Except Exc ℤ :=
  if b.length = k then .ok (ofSignedLE b) else .error .structError

/-- `struct.pack` of one unsigned integer of `k` bytes. -/
def pack (k : ℕ) (n : ℤ) : Except Exc Bytes :=
  if 0 ≤ n ∧ n < 256 ^ k then .ok (toLE k n.toNat) else .error .structError

/-- `struct.pack` of one signed integer of `k` bytes. -/
def packSigned (k : ℕ) (n : ℤ) : Except Exc Bytes :=
  if SignedFits k n then .ok (toSignedLE k n) else .error .structError

/-- `struct.unpack("<I", f.read(4))[0]` and its like. -/
def readInt (k : ℕ) : Read ℕ := do
  let b ← read k
  Reader.ofExcept (unpack k b)

def readSigned (k : ℕ) : Read ℤ := do
  let b ← read k
  Reader.ofExcept (unpackSigned k b)

/-- The sizes in the program are lengths of byte strings and lists, so they
always fit the eight bytes of the last case. -/
def serCompactSize (size : ℕ) : Bytes :=
  if size < 253 then toLE 1 size
  else if size < 0x10000 then 253 :: toLE 2 size
  else if size < 0x100000000 then 254 :: toLE 4 size
  else 255 :: toLE 8 size

def deserCompactSize : Read ℕ := do
  let nit ← readInt 1
  if nit = 253 then readInt 2
  else if nit = 254 then readInt 4
  else if nit = 255 then readInt 8
  else pure nit

def deserString (R : Runtime) : Read Bytes := do
  let nit ← deserCompactSize
  readAnnounced R nit

def serString (s : Bytes) : Bytes := serCompactSize s.length ++ s

/-- The sum of `t[i] << (i * 32)`. -/
def ofWords : List ℕ → ℕ
  | [] => 0
  | t :: ts => t + 2 ^ 32 * ofWords ts

def deserUint256 : Read ℕ := do
  let ts ← Reader.readN (readInt 4) 8
  pure (ofWords ts)

/-- The low 256 bits of `u`, word by word. -/
def serUint256 (u : ℕ) : Bytes :=
  (List.range 8).flatMap fun i => toLE 4 (u >>> (32 * i))

/-- `struct.unpack` refuses a string of fewer than 32 bytes. -/
def uint256FromStr (s : Bytes) : Except Exc ℕ := unpack 32 (s.take 32)

def deserVector {α : Type} (c : Read α) : Read (List α) := do
  let nit ← deserCompactSize
  Reader.readN c nit

def deserStringVector (R : Runtime) : Read (List Bytes) := deserVector (deserString R)

def serStringVector (v : List Bytes) : Bytes :=
  serCompactSize v.length ++ v.flatMap serString

/-- An integer of a DER signature: as short as possible, with a zero byte in
front where the first bit would read as a sign. -/
def derInteger (r : Bytes) : Except Exc Bytes :=
  match r.dropWhile (fun b => b = 0) with
  | [] => .error .indexError
  | first :: rest => .ok (if first &&& 0x80 ≠ 0 then 0x00 :: first :: rest else first :: rest)

/-- An ECDSA signature in DER with the byte of SIGHASH_ALL. -/
def serSigDer (r s : Bytes) : Except Exc Bytes := do
  let r ← derInteger r
  let s ← derInteger s
  let totalLen ← pack 1 (r.length + s.length + 4)
  let rLen ← pack 1 r.length
  let sLen ← pack 1 s.length
  return [0x30] ++ totalLen ++ [0x02] ++ rLen ++ r ++ [0x02] ++ sLen ++ s ++ [0x01]

end Hwi
