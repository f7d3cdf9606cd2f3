import Hwi.Spec.DigitalBitbox
import Hwi.Spec.Path

/-! Public keys as points, public derivation, and the drivers that change the
version of the key they return. -/

namespace Hwi

namespace Curve

/-- The point of a compressed key: `y` is a power of what should be its square, with
the parity of the first byte. -/
def deserializePoint : Bytes → Except Exc Point
  | [] => .error .indexError
  | header :: b =>
    let x : ℤ := Base58.toInt b
    let y := powMod fieldOrder 256 ((x * x * x + 7) % fieldOrder) ((fieldOrder + 1) / 4).toNat
    let y := if y % 2 ≠ header.toNat % 2 then fieldOrder - y else y
    .ok (some (x, y))

/-- `int(binascii.hexlify(b), 16)` -/
def intHexlify (b : Bytes) : Except Exc ℤ :=
  if b = [] then .error (.valueError "invalid literal for int() with base 16: b''")
  else .ok (Base58.toInt b)

def bytesToPoint : Bytes → Except Exc Point
  | [] => .error .indexError
  | header :: b =>
    if header = 4 then do
      let x := b.take 32
      -- `point_bytes` is now the slice `x`
      let y := (x.drop 33).take 32
      let x ← intHexlify x
      let y ← intHexlify y
      return some (x, y)
    else deserializePoint (header :: b)

end Curve

/-! ### Extended keys as objects -/

/-- An `ExtendedKey` with the flags that its constructor computes from the version. All
fields can be assigned. -/
structure KeyObject where
  version : Bytes
  isTestnet : Bool
  isPrivate : Bool
  depth : ℕ
  parentFingerprint : Bytes
  childNum : ℤ
  chaincode : Bytes
  pubkey : Bytes
  privkey : Option Bytes
deriving DecidableEq, Repr

namespace KeyObject

/-- The constructor. -/
def new (version : Bytes) (depth : ℕ) (parentFingerprint : Bytes) (childNum : ℤ) (chaincode : Bytes)
    (privkey : Option Bytes) (pubkey : Bytes) : KeyObject where
  version := version
  isTestnet := version = ExtendedKey.TESTNET_PUBLIC ∨ version = ExtendedKey.TESTNET_PRIVATE
  isPrivate := version = ExtendedKey.MAINNET_PRIVATE ∨ version = ExtendedKey.TESTNET_PRIVATE
  depth := depth
  parentFingerprint := parentFingerprint
  childNum := childNum
  chaincode := chaincode
  pubkey := pubkey
  privkey := privkey

/-- `ExtendedKey.deserialize`, to the object. -/
def deserialize (xpub : Str) : Except Exc KeyObject := do
  let key ← ExtendedKey.deserialize xpub
  return new key.version key.depth.toNat key.parentFingerprint key.childNum key.chaincode key.privkey
    key.pubkey

/-- `xpub.version = ExtendedKey.TESTNET_PUBLIC` where the chain is not the main chain. -/
def setChain (chain : Chain) (xpub : KeyObject) : KeyObject :=
  if chain ≠ .main then { xpub with version := ExtendedKey.TESTNET_PUBLIC } else xpub

/-- Derive the public key at a child index. -/
def derivePub (R : Runtime) (self : KeyObject) (i : ℤ) : Except Exc KeyObject := do
  if isHardened i then throw (.valueError "Index cannot be larger than 2^31")
  -- Data to HMAC
  let index ← pack 4 i
  let data := self.pubkey ++ index.reverse
  -- Get HMAC of data
  let hmac := R.hmacSha512 self.chaincode data
  -- Construct curve point Il*G+K
  let il ← Curve.intHexlify (hmac.take 32)
  let point ← Curve.bytesToPoint self.pubkey
  let pubkey ← Curve.pointToBytes (Curve.pointAdd (Curve.pointMul Curve.G il.toNat) point)
  let fingerprint := (R.hash160 self.pubkey).take 4
  let version := if self.isTestnet then ExtendedKey.TESTNET_PUBLIC else ExtendedKey.MAINNET_PUBLIC
  return new version (self.depth + 1) fingerprint i (hmac.drop 32) none pubkey

/-- Derive the public key at a path. -/
def derivePubPath (R : Runtime) : KeyObject → List ℤ → Except Exc KeyObject
  | key, [] => .ok key
  | key, i :: path => do
    let key ← derivePub R key i
    derivePubPath R key path

end KeyObject

/-! ### Drivers -/

/-- An exception as `BadArgumentError`, if it is a `ValueError`. -/
def valueErrorToBadArgument : Exc → Exc
  | .valueError msg => .badArgumentError msg
  | e => if e.isValueError then .badArgumentError "" else e

/-- A computation with its exceptions changed. -/
def mapError {α : Type} (f : Exc → Exc) : Except Exc α → Except Exc α
  | .ok a => .ok a
  | .error e => .error (f e)

namespace TrezorClient

/-- What `get_pubkey_at_path` asks of the device. -/
structure PubkeyDevice where
  checkUnlocked : Except Exc Unit
  getPublicNode : List ℤ → Except Exc Str

def requestXpub (device : PubkeyDevice) (path : Str) : Except Exc Str := do
  device.checkUnlocked
  let expandedPath ← mapError valueErrorToBadArgument (parsePath path)
  device.getPublicNode expandedPath

def getPubkeyAtPath (chain : Chain) (device : PubkeyDevice) (path : Str) : Except Exc KeyObject :=
  mapError valueErrorToBadArgument do
    let output ← requestXpub device path
    let xpub ← KeyObject.deserialize output
    return xpub.setChain chain

end TrezorClient

namespace ColdcardClient

/-- What `get_pubkey_at_path` asks of the device, with the exceptions as the decorator
raises them. -/
structure PubkeyDevice where
  checkMitm : Except Exc Unit
  getXpub : Str → Except Exc Str

def requestXpub (device : PubkeyDevice) (path : Str) : Except Exc Str := do
  device.checkMitm
  let path := path.map fun c => if c = 'h' then '\'' else c
  let path := path.map fun c => if c = 'H' then '\'' else c
  if path.all fun c => c.toNat < 128 then device.getXpub path else throw .unicodeError

def getPubkeyAtPath (chain : Chain) (device : PubkeyDevice) (path : Str) : Except Exc KeyObject := do
  let xpubStr ← requestXpub device path
  let xpub ← KeyObject.deserialize xpubStr
  return xpub.setChain chain

end ColdcardClient

namespace DigitalbitboxClient

/-- The reply to the message that asks for a key: an error with its code and message,
a key, or neither. -/
inductive PubkeyReply
  | error (code : ℕ) (message : String)
  | xpub (xpub : Str)
  | other

abbrev PubkeyDevice := Str → PubkeyReply

def requestXpub (device : PubkeyDevice) (path : Str) : Except Exc Str :=
  if '\'' ∉ path ∧ 'h' ∉ path ∧ 'H' ∉ path then
    .error (.badArgumentError
      "The digital bitbox requires one part of the derivation path to be derived using hardened keys")
  else
    match device ("\x7b\"xpub\":\"".toList ++ path ++ "\"\x7d".toList) with
    | .error code message => .error (.dbbError code message)
    | .xpub xpub => .ok xpub
    | .other => .error .keyError

/-- `get_pubkey_at_path` without its decorator. -/
def getPubkeyAtPathBody (chain : Chain) (device : PubkeyDevice) (path : Str) :
    Except Exc KeyObject := do
  let xpubStr ← requestXpub device path
  let xpub ← KeyObject.deserialize xpubStr
  return xpub.setChain chain

/-- `digitalbitbox_exception`, around a call without a state. -/
def catchDbbError {α : Type} : Except Exc α → Except Exc (Option α)
  | .ok a => .ok (some a)
  | .error (.dbbError code msg) =>
    if code ∈ badArgs then .error (.badArgumentError msg)
    else if code ∈ deviceFailures then .error (.deviceFailureError msg)
    else if code ∈ cancels then .error (.actionCanceledError msg)
    else if code = 503 then .error (.deviceNotReadyError msg)
    else .ok none
  | .error e => .error e

def getPubkeyAtPath (chain : Chain) (device : PubkeyDevice) (path : Str) :
    Except Exc (Option KeyObject) :=
  catchDbbError (getPubkeyAtPathBody chain device path)

end DigitalbitboxClient

/-- A driver that changes the version of the key, with its device. -/
inductive PubkeyDriver
  | trezor (device : TrezorClient.PubkeyDevice)
  | coldcard (device : ColdcardClient.PubkeyDevice)
  | digitalbitbox (device : DigitalbitboxClient.PubkeyDevice)

namespace PubkeyDriver

/-- The text of the key that the device returns. -/
def requestXpub : PubkeyDriver → Str → Except Exc Str
  | trezor device, path => TrezorClient.requestXpub device path
  | coldcard device, path => ColdcardClient.requestXpub device path
  | digitalbitbox device, path => DigitalbitboxClient.requestXpub device path

def getPubkeyAtPath (chain : Chain) : PubkeyDriver → Str → Except Exc (Option KeyObject)
  | trezor device, path => some <$> TrezorClient.getPubkeyAtPath chain device path
  | coldcard device, path => some <$> ColdcardClient.getPubkeyAtPath chain device path
  | digitalbitbox device, path => DigitalbitboxClient.getPubkeyAtPath chain device path

end PubkeyDriver

end Hwi
