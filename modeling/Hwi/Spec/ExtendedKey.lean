import Hwi.Spec.Base58
import Hwi.Spec.KeyOrigin

/-! Extended keys and BIP 44 paths of `key.py`, and the key expressions of
`descriptor.py` without a derivation path of their own. -/

namespace Hwi

/-- The bytes two hexadecimal digits each stand for. -/
def hexBytes : Str → Except Exc Bytes
  | [] => .ok []
  | a :: b :: rest => do
    let hi ← hexValue a
    let lo ← hexValue b
    let bytes ← hexBytes rest
    return UInt8.ofNat (16 * hi + lo) :: bytes
  | _ => .error .binasciiError
where
  hexValue (c : Char) : Except Exc ℕ :=
    if '0' ≤ c ∧ c ≤ '9' then .ok (c.toNat - 0x30)
    else if 'a' ≤ c ∧ c ≤ 'f' then .ok (c.toNat - 0x57)
    else if 'A' ≤ c ∧ c ≤ 'F' then .ok (c.toNat - 0x37)
    else .error .binasciiError

/-- `binascii.unhexlify` of a `str`. -/
def unhexlify (s : Str) : Except Exc Bytes :=
  if s.all fun c => c.toNat < 128 then hexBytes s
  else .error (.valueError "string argument should contain only ASCII characters")

namespace Curve

/-- `p`, the order of the field. -/
def fieldOrder : ℤ := 0xFFFFFFFFFFFFFFFFFFFFFFFFFFFFFFFFFFFFFFFFFFFFFFFFFFFFFFFEFFFFFC2F

/-- `None` is the point at infinity. -/
abbrev Point := Option (ℤ × ℤ)

def G : Point := some (0x79BE667EF9DCBBAC55A06295CE870B07029BFCDB2DCE28D959F2815B16F81798,
  0x483ADA7726A3C4655DA4FBFC0E1108A8FD17B448A68554199C47D08FFB10D4B8)

/-- `pow(b, e, m)`, by squaring over `bits` binary digits of `e`. -/
def powMod (m : ℤ) : ℕ → ℤ → ℕ → ℤ
  | 0, _, _ => 1 % m
  | bits + 1, b, e =>
    let r := powMod m bits (b * b % m) (e / 2)
    if e % 2 = 1 then b * r % m else r

/-- `pow(x, p - 2, p)` -/
def inverse (x : ℤ) : ℤ := powMod fieldOrder 256 (x % fieldOrder) (fieldOrder - 2).toNat

def pointAdd : Point → Point → Point
  | none, p2 => p2
  | p1, none => p1
  | some (x1, y1), some (x2, y2) =>
    if x1 = x2 ∧ y1 ≠ y2 then none
    else
      let lam :=
        if x1 = x2 then 3 * x1 * x1 * inverse (2 * y1) % fieldOrder
        else (y2 - y1) * inverse (x2 - x1) % fieldOrder
      let x3 := (lam * lam - x1 - x2) % fieldOrder
      some (x3, (lam * (x1 - x3) - y1) % fieldOrder)

/-- The loop of `point_mul` over the lowest `bits` bits of `n`. -/
def pointMulLoop : ℕ → Point → Point → ℕ → Point
  | 0, r, _, _ => r
  | bits + 1, r, p, n =>
    pointMulLoop bits (if n % 2 = 1 then pointAdd r p else r) (pointAdd p p) (n / 2)

def pointMul (p : Point) (n : ℕ) : Point := pointMulLoop 256 none p n

def pointToBytes : Point → Except Exc Bytes
  | none => .error (.valueError "Cannot convert None to bytes")
  | some (x, y) => .ok ((if y % 2 = 1 then 0x03 else 0x02) :: (toLE 32 x.toNat).reverse)

end Curve

/-- A BIP 32 extended key. -/
structure ExtendedKey where
  version : Bytes
  depth : UInt8
  parentFingerprint : Bytes
  childNum : ℕ
  chaincode : Bytes
  privkey : Option Bytes
  pubkey : Bytes
deriving DecidableEq, Repr

namespace ExtendedKey

def MAINNET_PUBLIC : Bytes := [0x04, 0x88, 0xb2, 0x1e]
def MAINNET_PRIVATE : Bytes := [0x04, 0x88, 0xad, 0xe4]
def TESTNET_PUBLIC : Bytes := [0x04, 0x35, 0x87, 0xcf]
def TESTNET_PRIVATE : Bytes := [0x04, 0x35, 0x83, 0x94]

def isPrivate (version : Bytes) : Bool := version = MAINNET_PRIVATE ∨ version = TESTNET_PRIVATE

/-- Create an extended key from a serialized xpub. -/
def fromBytes (data : Bytes) : Except Exc ExtendedKey := do
  let version := data.take 4
  if version ∉ [MAINNET_PRIVATE, MAINNET_PUBLIC, TESTNET_PRIVATE, TESTNET_PUBLIC] then
    throw (.badArgumentError
      ("Extended key magic of " ++ String.ofList (hexlify version) ++ " is invalid"))
  let depth ← match data[4]? with
    | some depth => pure depth
    | none => throw .indexError
  let parentFingerprint := (data.drop 5).take 4
  let childNum ← unpack 4 ((data.drop 9).take 4).reverse
  let chaincode := (data.drop 13).take 32
  if isPrivate version then
    let privkey := data.drop 46
    let pubkey ← Curve.pointToBytes (Curve.pointMul Curve.G (Base58.toInt privkey))
    return {
      version, depth, parentFingerprint, childNum, chaincode, privkey := some privkey, pubkey }
  else
    let pubkey := (data.drop 45).take 33
    return {
      version, depth, parentFingerprint, childNum, chaincode, privkey := none, pubkey }

/-- Create an extended key from a Base58 check encoded xpub. -/
def deserialize (xpub : Str) : Except Exc ExtendedKey := do
  -- Decoded xpub without checksum
  let data ← Base58.decode xpub
  fromBytes (data.take (data.length - 4))

/-- Serialize with the serialization format described in BIP 32. -/
def serialize (self : ExtendedKey) : Except Exc Bytes := do
  let childNum ← pack 4 self.childNum
  let r := self.version ++ [self.depth] ++ self.parentFingerprint ++ childNum.reverse ++
    self.chaincode
  if isPrivate self.version then
    match self.privkey with
    | none => throw (.valueError "Somehow we are private but don't have a privkey")
    | some privkey => return r ++ [0x00] ++ privkey
  else return r ++ self.pubkey

/-- Serialize as a Base58 check encoded xpub string. -/
def toString (R : Runtime) (self : ExtendedKey) : Except Exc Str := do
  let data ← self.serialize
  let checksum := (R.hash256 data).take 4
  return Base58.encode (data ++ checksum)

end ExtendedKey

/-- `H_(x)`: the index with bit 31 set. -/
def harden (x : ℤ) : ℤ := if isHardened x then x else x + HARDENED_FLAG

/-- The BIP 44 purpose of an address type. -/
def getBip44Purpose : AddressType → ℤ
  | .legacy => 44
  | .shWit => 49
  | .wit => 84
  | .tap => 86

/-- The BIP 44 coin type of a chain. -/
def getBip44Chain : Chain → ℤ
  | .main => 0
  | _ => 1

def getAddrtypeFromBip44Purpose (index : ℤ) : Option AddressType :=
  let purpose := if isHardened index then index - HARDENED_FLAG else index
  if purpose = 44 then some .legacy
  else if purpose = 49 then some .shWit
  else if purpose = 84 then some .wit
  else if purpose = 86 then some .tap
  else none

def isStandardPath (path : List ℤ) (addrtype : AddressType) (chain : Chain) : Bool :=
  match path with
  | [purpose, coin, account, change, index] =>
    isHardened purpose && isHardened coin && isHardened account &&
      !isHardened change && !isHardened index &&
      decide (getAddrtypeFromBip44Purpose purpose = some addrtype) &&
      decide (coin = harden (getBip44Chain chain)) && decide (change ∈ [0, 1])
  | _ => false

/-- `PubkeyProvider(origin, pubkey, None, 0, False).to_string(hardened_char="'")`:
the constructor takes what is not hexadecimal for an extended key. -/
def keyExpression (origin : KeyOriginInfo) (pubkey : Str) : Except Exc Str := do
  match unhexlify pubkey with
  | .ok _ => pure ()
  | .error _ => do
    let _ ← ExtendedKey.deserialize pubkey
  return ['['] ++ origin.toString '\'' ++ [']'] ++ pubkey

end Hwi
