import Hwi.Lib.Cut
import Hwi.Lib.Digits
import Hwi.Spec.ExtendedKey
import Hwi.Spec.Psbt

/-! The strings of BIP 32 paths and key origins, as `key.py` parses and prints
them. -/

namespace Hwi

/-! ### Integers -/

/-- The code points of the decimal digits zero. -/
def decimalZeros : List ℕ :=
  [0x30, 0x660, 0x6f0, 0x7c0, 0x966, 0x9e6, 0xa66, 0xae6, 0xb66, 0xbe6, 0xc66, 0xce6, 0xd66, 0xde6,
    0xe50, 0xed0, 0xf20, 0x1040, 0x1090, 0x17e0, 0x1810, 0x1946, 0x19d0, 0x1a80, 0x1a90, 0x1b50,
    0x1bb0, 0x1c40, 0x1c50, 0xa620, 0xa8d0, 0xa900, 0xa9d0, 0xa9f0, 0xaa50, 0xabf0, 0xff10, 0x104a0,
    0x10d30, 0x11066, 0x110f0, 0x11136, 0x111d0, 0x112f0, 0x11450, 0x114d0, 0x11650, 0x116c0,
    0x11730, 0x118e0, 0x11950, 0x11c50, 0x11d50, 0x11da0, 0x16a60, 0x16ac0, 0x16b50, 0x1d7ce,
    0x1d7d8, 0x1d7e2, 0x1d7ec, 0x1d7f6, 0x1e140, 0x1e2f0, 0x1e950, 0x1fbf0]

/-- `unicodedata.decimal(c, None)` -/
def decimal (c : Char) : Option ℕ :=
  (decimalZeros.find? fun z => z ≤ c.toNat ∧ c.toNat < z + 10).map fun z => c.toNat - z

/-- What `int` takes for white space: of `isSpace`, not the separators of ASCII. -/
def isIntSpace (c : Char) : Bool := isSpace c && !decide (0x1c ≤ c.toNat ∧ c.toNat ≤ 0x1f)

/-- The most digits `int` reads. -/
def maxStrDigits : ℕ := 4300

/-- Decimal digits with single underscores between them. -/
def intDigits (s : Str) : Option (List ℕ) :=
  let groups := s.splitOn '_'
  if [] ∈ groups then none else groups.flatten.mapM decimal

/-- Whether there is a minus sign, and what follows the sign. -/
def intSign : Str → Bool × Str
  | '-' :: digits => (true, digits)
  | '+' :: digits => (false, digits)
  | digits => (false, digits)

/-- `int(s)`, its message without the text it refuses. -/
def int (s : Str) : Except Exc ℤ :=
  let (negative, digits) := intSign ((s.dropWhile isIntSpace).reverse.dropWhile isIntSpace).reverse
  match intDigits digits with
  | none => .error (.valueError "invalid literal for int() with base 10")
  | some ds =>
    if maxStrDigits < ds.length then
      .error (.valueError "Exceeds the limit (4300 digits) for integer string conversion")
    else if negative then .ok (-(ofBE 10 ds : ℤ))
    else .ok (ofBE 10 ds : ℤ)

/-! ### Paths -/

def strToHarden (x : Str) : Except Exc ℤ := do
  if x.head? = some '-' then
    let i ← int x
    return harden |i|
  else if x.getLast? = some 'h' ∨ x.getLast? = some '\'' then
    let i ← int x.dropLast
    return harden i
  else int x

/-- The indices of one step, and whether a multipath step was seen. -/
def parseIndex (allowMultipath : Bool) (x : Str) (seenMultipath : Bool) :
    Except Exc (List ℤ × Bool) := do
  if x.head? = some '<' then
    if seenMultipath then throw (.valueError "Cannot have multiple multipath specifiers")
    if !allowMultipath then
      throw (.valueError ("Multipath specifier not allowed: " ++ String.ofList x))
    if x.getLast? ≠ some '>' then
      throw (.valueError ("Invalid multipath specification, missing trailing '>': " ++ String.ofList x))
    let mp := x.tail.dropLast.splitOn ';'
    if mp.length < 2 then
      throw (.valueError
        ("Invalid multipath specification, less than 2 indexes specified: " ++ String.ofList x))
    let idx ← mp.mapM strToHarden
    return (idx, true)
  else
    let i ← strToHarden x
    return ([i], seenMultipath)

/-- The loop of `_parse_path` over the steps. -/
def parseIndices (allowMultipath : Bool) : List Str → Bool → Except Exc (List (List ℤ))
  | [], _ => .ok []
  | x :: n, seenMultipath => do
    let (idx, seenMultipath) ← parseIndex allowMultipath x seenMultipath
    let path ← parseIndices allowMultipath n seenMultipath
    return idx :: path

/-- `_parse_path` -/
def parseSteps (nstr : Str) (allowMultipath : Bool) : Except Exc (List (List ℤ)) :=
  if nstr = [] then .ok []
  else
    let n := nstr.splitOn '/'
    -- m/a/b/c => a/b/c
    let n := if n.head? = some ['m'] then n.tail else n
    parseIndices allowMultipath n false

/-- Convert a BIP 32 path string to a list of integers with hardened flags. -/
def parsePath (nstr : Str) : Except Exc (List ℤ) := do
  let path ← parseSteps nstr false
  path.mapM fun i => match i with
    | [] => .error .indexError
    | a :: _ => .ok a

/-- Convert a multipath string as in BIP 389 to a list of lists of integers. -/
def parseMultipath (s : Str) : Except Exc (List (List ℤ)) := parseSteps s true

/-- One step of a path, with the slash before it. -/
def stepToString (hardenedChar : Char) : List ℤ → Str
  | [i] => '/' :: indexToStr hardenedChar i
  | mp => ['/', '<'] ++ List.intercalate [';'] (mp.map (indexToStr hardenedChar)) ++ ['>']

def multipathToString (path : List (List ℤ)) (hardenedChar : Char) : Str :=
  path.flatMap (stepToString hardenedChar)

/-! ### Key origins -/

/-- `s.lower()` of a character: in ASCII, and the one character that turns into
two. No other change of case makes a difference to what is parsed. -/
def lower (c : Char) : Str :=
  if c = 'İ' then ['i', '\u0307'] else [c.toLower]

/-- Create the origin from its string. -/
def KeyOriginInfo.fromString (s : Str) : Except Exc KeyOriginInfo := do
  let s := s.flatMap lower
  let entries := s.splitOn '/'
  let fingerprint ← unhexlify (s.take 8)
  if 1 < entries.length then
    let path ← parsePath (s.drop 9)
    return { fingerprint, path }
  else return { fingerprint, path := [] }

end Hwi
