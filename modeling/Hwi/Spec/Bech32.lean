import Hwi.Spec.Common

/-! Segwit addresses of `_bech32.py`. -/

namespace Hwi

namespace Bech32

def CHARSET : List Char := "qpzry9x8gf2tvdw0s3jn54khce6mua7l".toList

def BECH32_CONST : ℕ := 1
def BECH32M_CONST : ℕ := 0x2bc830a3

inductive Encoding
  | bech32 | bech32m
deriving DecidableEq, Repr

def generator : List ℕ := [0x3b6a57b2, 0x26508e6d, 0x1ea119fa, 0x3d4233dd, 0x2a1462b3]

/-- `for i in range(5): chk ^= generator[i] if ((top >> i) & 1) else 0`, the
generators still to come with the bits of `top` left for them. -/
def applyGenerators : List ℕ → ℕ → ℕ → ℕ
  | [], _, chk => chk
  | g :: gs, top, chk => applyGenerators gs (top >>> 1) (chk ^^^ if top &&& 1 = 1 then g else 0)

/-- One round of the checksum. -/
def polymodStep (chk value : ℕ) : ℕ :=
  applyGenerators generator (chk >>> 25) ((chk &&& 0x1ffffff) <<< 5 ^^^ value)

/-- Internal function that computes the Bech32 checksum. -/
def polymod (values : List ℕ) : ℕ := values.foldl polymodStep 1

/-- Expand the HRP into values for checksum computation. -/
def hrpExpand (hrp : Str) : List ℕ :=
  hrp.map (fun x => x.toNat >>> 5) ++ [0] ++ hrp.map (fun x => x.toNat &&& 31)

/-- Verify a checksum given HRP and converted data characters. -/
def verifyChecksum (hrp : Str) (data : List ℕ) : Option Encoding :=
  let check := polymod (hrpExpand hrp ++ data)
  if check = BECH32_CONST then some .bech32
  else if check = BECH32M_CONST then some .bech32m
  else none

def checksumConst : Encoding → ℕ
  | .bech32 => BECH32_CONST
  | .bech32m => BECH32M_CONST

/-- Compute the checksum values given HRP and data. -/
def createChecksum (encoding : Encoding) (hrp : Str) (data : List ℕ) : List ℕ :=
  let values := hrpExpand hrp ++ data
  let polymod := polymod (values ++ [0, 0, 0, 0, 0, 0]) ^^^ checksumConst encoding
  (List.range 6).map fun i => polymod >>> (5 * (5 - i)) &&& 31

/-- Compute a Bech32 string given HRP and data values. -/
def bech32Encode (encoding : Encoding) (hrp : Str) (data : List ℕ) : Str :=
  let combined := data ++ createChecksum encoding hrp data
  hrp ++ ['1'] ++ combined.map fun d => CHARSET.getD d 'q'

/-- `s.rfind(c)` -/
def rfind (s : Str) (c : Char) : Option ℕ := (s.reverse.idxOf? c).map fun i => s.length - 1 - i

/-- Validate a Bech32 string, and determine HRP and data. -/
def bech32Decode (bech : Str) : Option (Encoding × Str × List ℕ) :=
  if bech.any (fun x => x.toNat < 33 ∨ 126 < x.toNat) ∨
      bech.map Char.toLower ≠ bech ∧ bech.map Char.toUpper ≠ bech then none
  else
    let bech := bech.map Char.toLower
    match rfind bech '1' with
    | none => none
    | some pos =>
      if pos < 1 ∨ bech.length < pos + 7 ∨ 90 < bech.length then none
      else if ¬(bech.drop (pos + 1)).all fun x => x ∈ CHARSET then none
      else
        let hrp := bech.take pos
        let data := (bech.drop (pos + 1)).map CHARSET.idxOf
        match verifyChecksum hrp data with
        | none => none
        | some encoding => some (encoding, hrp, data.take (data.length - 6))

/-- `while bits >= tobits: ...`: the values that are complete, and the bits left. -/
def emit (tobits acc bits : ℕ) : List ℕ × ℕ :=
  if 0 < tobits ∧ tobits ≤ bits then
    let (ret, rest) := emit tobits acc (bits - tobits)
    ((acc >>> (bits - tobits) &&& (1 <<< tobits - 1)) :: ret, rest)
  else ([], bits)
termination_by bits

/-- The loop of `convertbits`: the values appended from here on, and the
accumulator with its number of bits at the end. -/
def convertbitsLoop (frombits tobits : ℕ) : List ℕ → ℕ → ℕ → Option (List ℕ × ℕ × ℕ)
  | [], acc, bits => some ([], acc, bits)
  | value :: data, acc, bits =>
    if value >>> frombits ≠ 0 then none
    else
      let maxAcc := 1 <<< (frombits + tobits - 1) - 1
      let acc := (acc <<< frombits ||| value) &&& maxAcc
      let (out, bits) := emit tobits acc (bits + frombits)
      match convertbitsLoop frombits tobits data acc bits with
      | none => none
      | some (ret, acc, bits) => some (out ++ ret, acc, bits)

/-- General power-of-2 base conversion. -/
def convertbits (data : List ℕ) (frombits tobits : ℕ) (pad : Bool) : Option (List ℕ) :=
  match convertbitsLoop frombits tobits data 0 0 with
  | none => none
  | some (ret, acc, bits) =>
    let maxv := 1 <<< tobits - 1
    let last := acc <<< (tobits - bits) &&& maxv
    if pad then
      if bits ≠ 0 then some (ret ++ [last]) else some ret
    else if frombits ≤ bits ∨ last ≠ 0 then none
    else some ret

/-- Decode a segwit address. -/
def decode (hrp : Str) (addr : Str) : Option (ℕ × List ℕ) :=
  match bech32Decode addr with
  | none => none
  | some (encoding, hrpgot, data) =>
    if hrpgot ≠ hrp then none
    else match convertbits (data.drop 1) 5 8 false with
      | none => none
      | some decoded =>
        if decoded.length < 2 ∨ 40 < decoded.length then none
        else
          let witver := data.headD 0
          if 16 < witver then none
          else if witver = 0 ∧ decoded.length ≠ 20 ∧ decoded.length ≠ 32 then none
          else if witver = 0 ∧ encoding ≠ .bech32 ∨ witver ≠ 0 ∧ encoding ≠ .bech32m then none
          else some (witver, decoded)

/-- Encode a segwit address. -/
def encode (hrp : Str) (witver : ℕ) (witprog : Bytes) : Option Str :=
  let encoding := if witver = 0 then .bech32 else .bech32m
  match convertbits (witprog.map UInt8.toNat) 8 5 true with
  | none => none
  | some convBits =>
    let ret := bech32Encode encoding hrp (witver :: convBits)
    match decode hrp ret with
    | none => none
    | some _ => some ret

end Bech32

end Hwi
