import Hwi.Lib.Procedure
import Hwi.Spec.Descriptor

/-! `derive` of a descriptor. -/

namespace Hwi

/-- The fields that `derive` sets in a key. The field `multipath_len` follows the path. -/
def PubkeyProvider.derive (self : PubkeyProvider) (pos : ℤ) (multipathIndex : ℕ) :
    Except Exc PubkeyProvider := do
  let path ← self.getDerivPath pos multipathIndex
  return { self with
    derivPath := if path = [] then none else some (path.map fun step => [step])
    ranged := false }

namespace Descriptor

mutual

/-- The loop over `get_pubkey_providers()`, with what it does to a key. -/
def changeKeys (change : PubkeyProvider → Except Exc PubkeyProvider) : Descriptor → Except Exc Descriptor
  | pk p => do
    let p ← change p
    return pk p
  | pkh p => do
    let p ← change p
    return pkh p
  | wpkh p => do
    let p ← change p
    return wpkh p
  | multisig d => do
    let pubkeys ← d.pubkeys.mapM change
    return multisig { d with pubkeys }
  | sh d => do
    let d ← changeKeys change d
    return sh d
  | wsh d => do
    let d ← changeKeys change d
    return wsh d
  | tr p ds depths => do
    let p ← change p
    let ds ← changeKeysOf change ds
    return tr p ds depths

def changeKeysOf (change : PubkeyProvider → Except Exc PubkeyProvider) :
    List Descriptor → Except Exc (List Descriptor)
  | [] => .ok []
  | d :: ds => do
    let d ← changeKeys change d
    let ds ← changeKeysOf change ds
    return d :: ds

end

/-- Select a multipath entry and address index from a ranged descriptor. The state is the
descriptor itself; the keys that change are those of a copy. -/
def derive (pos : ℤ) (multipathIndex : ℕ) : Procedure Exc Descriptor Descriptor := do
  let descriptor ← get
  Procedure.ofExcept (descriptor.changeKeys fun pubkey => pubkey.derive pos multipathIndex)

end Descriptor

end Hwi
