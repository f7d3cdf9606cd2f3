import Hwi.Lib.LeafTree
import Hwi.Spec.Descriptor

/-! What a parsed descriptor is like, apart from the strings. -/

namespace Hwi

namespace PubkeyProvider

def steps (p : PubkeyProvider) : List (List ℤ) := p.derivPath.getD []

/-- At most one step is a multipath step, and no step is empty. -/
def OneMultipath (p : PubkeyProvider) : Prop :=
  (∀ step ∈ p.steps, step ≠ []) ∧ p.steps.countP (fun step => 1 < step.length) ≤ 1

end PubkeyProvider

/-- The multipath steps of the keys have one length. -/
def SameMultipathLen (ps : List PubkeyProvider) : Prop :=
  ∀ p ∈ ps, ∀ q ∈ ps, ∀ step ∈ p.steps, ∀ step' ∈ q.steps,
    1 < step.length → 1 < step'.length → step.length = step'.length

/-- As many keys as a multisig may have, and no higher a threshold. -/
def MultisigDescriptor.Valid (d : MultisigDescriptor) (ctx : ParseDescriptorContext) : Prop :=
  1 ≤ d.thresh ∧ d.thresh ≤ d.pubkeys.length ∧ d.pubkeys.length ≤ 16 ∧
    (ctx = .top → d.pubkeys.length ≤ 3)

/-- One depth per leaf, as they are in a full binary tree. -/
def TreeDepths (subdescriptors : List Descriptor) (depths : List ℕ) : Prop :=
  (subdescriptors = [] ∧ depths = []) ∨
    ∃ t : LeafTree Descriptor, t.leaves = subdescriptors ∧ t.depths = depths ∧
      t.height ≤ MAX_TAPROOT_NODES

namespace Descriptor

/-- A descriptor in the place of a context, as deep as it goes. -/
def Valid : ParseDescriptorContext → Descriptor → Prop
  | _, pk _ => True
  | ctx, pkh _ => ctx ∈ [.top, .p2sh, .p2wsh]
  | ctx, wpkh _ => ctx ∈ [.top, .p2sh]
  | ctx, multisig d => ctx ∈ [.top, .p2sh, .p2wsh] ∧ d.Valid ctx
  | ctx, sh d => ctx = .top ∧ Valid .p2sh d
  | ctx, wsh d => ctx ∈ [.top, .p2sh] ∧ Valid .p2wsh d
  | ctx, tr _ ds depths => ctx = .top ∧ (∀ d ∈ ds, ∃ p, d = pk p) ∧ TreeDepths ds depths

/-- The descriptor invariant. -/
structure Invariant (d : Descriptor) : Prop where
  indexed : ∀ (i : ℕ) (p : PubkeyProvider), d.getPubkeyProviders[i]? = some p → p.exprIndex = i
  oneMultipath : ∀ p ∈ d.getPubkeyProviders, p.OneMultipath
  sameMultipathLen : SameMultipathLen d.getPubkeyProviders
  valid : d.Valid .top

end Descriptor

end Hwi
