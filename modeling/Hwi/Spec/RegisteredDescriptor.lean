import Hwi.Spec.Descriptor
import Hwi.Spec.LedgerWallet
import Hwi.Spec.Psbt

/-! Descriptors registered with a device, as `descriptor.py` stores them. -/

namespace Hwi

open LedgerBitcoin (utf8 utf8Decode)

/-- A policy that was registered with a device. -/
structure RegisteredDescriptor where
  version : ℕ
  name : Str
  descriptor : Descriptor
  deviceType : Str
  registration : Bytes
deriving Repr

namespace RegisteredDescriptor

/-- The constructor. -/
def new (name : Str) (descriptor : Descriptor) (deviceType : Str) (registration : Bytes) :
    RegisteredDescriptor where
  version := 1
  name
  descriptor
  deviceType
  registration

/-- `b"rdesc"` -/
def magic : Bytes := [0x72, 0x64, 0x65, 0x73, 0x63]

def serialize (self : RegisteredDescriptor) : Str :=
  b64encode (magic ++ serCompactSize self.version ++ serString (utf8 self.name) ++
    serString (utf8 self.descriptor.toString) ++ serString (utf8 self.deviceType) ++
    serString self.registration)

/-- The fields in the order in which they are stored. -/
def deserializeStream (R : Runtime) : Read RegisteredDescriptor := do
  let first ← read 5
  if first ≠ magic then throw (.badArgumentError "Policy has invalid magic bytes")
  let version ← deserCompactSize
  if version ≠ 1 then
    throw (.badArgumentError "Serialized policy registration has unknown version number")
  let nameBytes ← deserString R
  let name ← Reader.ofExcept (utf8Decode nameBytes)
  let descriptorBytes ← deserString R
  let descriptor ← Reader.ofExcept (utf8Decode descriptorBytes >>= parseDescriptor)
  let deviceTypeBytes ← deserString R
  let deviceType ← Reader.ofExcept (utf8Decode deviceTypeBytes)
  let registration ← deserString R
  return new name descriptor deviceType registration

def deserialize (R : Runtime) (policy : Str) : Except Exc RegisteredDescriptor := do
  let policyBytes ← b64decode (strip policy)
  runOn (deserializeStream R) policyBytes

end RegisteredDescriptor

end Hwi
