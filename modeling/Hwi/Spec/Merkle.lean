import Hwi.Lib.Dict
import Hwi.Spec.Serialize
import Mathlib.Data.Nat.Bitwise
import Mathlib.Data.Nat.Log

/-! The Merkle trees of `ledger_bitcoin`: `merkle.py` -/

namespace Hwi

namespace LedgerBitcoin

def elementHash (R : Runtime) (elementPreimage : Bytes) : Bytes := R.sha256 (0x00 :: elementPreimage)

/-- The length check of the source never fails on hashes. -/
def combineHashes (R : Runtime) (left right : Bytes) : Bytes := R.sha256 (0x01 :: left ++ right)

def isPowerOf2 (n : ℕ) : Bool := n &&& (n - 1) = 0

def largestPowerOf2LessThan (n : ℕ) : ℕ := if isPowerOf2 n then n / 2 else 1 <<< Nat.log2 n

theorem largestPowerOf2LessThan_pos {n : ℕ} (h : 2 ≤ n) : 0 < largestPowerOf2LessThan n := by
  unfold largestPowerOf2LessThan
  split_ifs
  · exact Nat.div_pos h (by omega)
  · rw [Nat.one_shiftLeft]
    exact Nat.two_pow_pos _

theorem largestPowerOf2LessThan_lt {n : ℕ} (h : 2 ≤ n) : largestPowerOf2LessThan n < n := by
  unfold largestPowerOf2LessThan
  split_ifs with hp
  · exact Nat.div_lt_self (by omega) (by omega)
  · rw [Nat.one_shiftLeft]
    refine lt_of_le_of_ne (Nat.log2_self_le (by omega)) fun heq => hp ?_
    rw [isPowerOf2, decide_eq_true_iff, ← heq, Nat.and_two_pow_sub_one_eq_mod, Nat.mod_self]

/-- A hash in a tree. `combine_hashes` refuses strings of any other length. -/
abbrev Digest := {b : Bytes // b.length = 32}

def elementDigest (R : Runtime) (element : Bytes) : Digest :=
  ⟨elementHash R element, R.sha256_length _⟩

def combine (R : Runtime) (left right : Digest) : Digest :=
  ⟨combineHashes R left right, R.sha256_length _⟩

def ceilLg (n : ℕ) : ℕ := Nat.clog 2 n

/-- A node with its value as it was last computed. The path that the source follows
through the parents of a leaf is found from the root by counting leaves. -/
inductive Node
  | leaf (value : Digest)
  | node (left right : Node) (value : Digest)
deriving DecidableEq, Repr

namespace Node

def value : Node → Digest
  | leaf v => v
  | node _ _ v => v

/-- A node whose value is computed. -/
def new (R : Runtime) (left right : Node) : Node := node left right (combine R left.value right.value)

/-- The number of leaves. -/
def size : Node → ℕ
  | leaf _ => 1
  | node l r _ => l.size + r.size

/-- No node for no leaves. -/
def makeTree (R : Runtime) (leaves : List Digest) : Option Node :=
  match leaves with
  | [] => none
  | [a] => some (leaf a)
  | a :: b :: rest =>
    let lchildSize := largestPowerOf2LessThan (rest.length + 2)
    do
      let lchild ← makeTree R ((a :: b :: rest).take lchildSize)
      let rchild ← makeTree R ((a :: b :: rest).drop lchildSize)
      return new R lchild rchild
termination_by leaves.length
decreasing_by
  · have h := largestPowerOf2LessThan_lt (n := rest.length + 2) (by omega)
    simp only [List.length_take, List.length_cons]
    omega
  · have h := largestPowerOf2LessThan_pos (n := rest.length + 2) (by omega)
    simp only [List.length_drop, List.length_cons]
    omega

/-- The loop of `add` from `cur_root` down, and `fix_up` on the way back. After the
first round `ltree_size` is a float, and a second round makes one of the size, of
which `is_power_of_2` raises. -/
def add (R : Runtime) (x : Digest) (float : Bool) (curRootSize ltreeSize : ℕ) : Node → Except Exc Node
  | leaf v =>
    if isPowerOf2 curRootSize then return new R (leaf v) (leaf x)
    -- a leaf is of size one
    else throw .assertionError
  | node l r v => do
    if isPowerOf2 curRootSize then return new R (node l r v) (leaf x)
    if float then
      throw (if ltreeSize < curRootSize then .typeError else .assertionError)
    let r ← add R x true (curRootSize - ltreeSize) (ltreeSize / 2) r
    return new R l r

/-- Change the value of the leaf `index`, and `fix_up` from its parent on. -/
def set (R : Runtime) (x : Digest) : Node → ℕ → Node
  | leaf _, _ => leaf x
  | node l r _, index =>
    if index < l.size then new R (l.set R x index) r else new R l (r.set R x (index - l.size))

/-- The siblings on the way up from the leaf `index`. -/
def proveLeaf : Node → ℕ → List Digest
  | leaf _, _ => []
  | node l r _, index =>
    if index < l.size then l.proveLeaf index ++ [r.value]
    else r.proveLeaf (index - l.size) ++ [l.value]

end Node

structure MerkleTree where
  leaves : List Digest
  rootNode : Option Node
  depth : Option ℕ
deriving DecidableEq, Repr

namespace MerkleTree

def new (R : Runtime) (elements : List Digest) : MerkleTree where
  leaves := elements
  rootNode := Node.makeTree R elements
  depth := if 0 < elements.length then some (ceilLg elements.length) else none

/-- `NIL` -/
def nil : Bytes := List.replicate 32 0

def root (self : MerkleTree) : Bytes :=
  match self.rootNode with
  | none => nil
  | some node => node.value

def copy (R : Runtime) (self : MerkleTree) : MerkleTree := new R self.leaves

/-- What is left of the tree after an exception is not modelled. -/
def add (R : Runtime) (self : MerkleTree) (x : Bytes) : Except Exc MerkleTree :=
  if h : x.length = 32 then
    let newLeaf : Digest := ⟨x, h⟩
    let leaves := self.leaves ++ [newLeaf]
    if leaves.length = 1 then .ok { leaves, rootNode := some (.leaf newLeaf), depth := some 0 }
    else
      match self.rootNode, self.depth with
      | some curRoot, some depth => do
        let ltreeSize := if depth = 0 then 0 else 1 <<< (depth - 1)
        let curRootSize := leaves.length - 1
        let rootNode ← curRoot.add R newLeaf false curRootSize ltreeSize
        return {
          leaves
          rootNode := some rootNode
          depth := some (if isPowerOf2 curRootSize then depth + 1 else depth) }
      | _, _ => .error .typeError
  else throw (.valueError "Inserted elements must be exactly 32 bytes long")

def set (R : Runtime) (self : MerkleTree) (index : ℕ) (x : Bytes) : Except Exc MerkleTree := do
  if self.leaves.length < index then throw .assertionError
  if h : x.length = 32 then
    if index = self.leaves.length then self.add R x
    else
      return { self with
        leaves := self.leaves.set index ⟨x, h⟩
        rootNode := self.rootNode.map fun node => node.set R ⟨x, h⟩ index }
  else throw (.valueError "Inserted elements must be exactly 32 bytes long.")

def get (self : MerkleTree) (i : ℕ) : Except Exc Digest :=
  match self.leaves[i]? with
  | some value => .ok value
  | none => .error .indexError

/-- The index of the first leaf with this hash. -/
def leafIndex (self : MerkleTree) (x : Bytes) : Except Exc ℕ :=
  match self.leaves.findIdx? fun leaf => leaf.val = x with
  | some idx => .ok idx
  | none => .error (.valueError "Leaf not found")

def proveLeaf (self : MerkleTree) (index : ℕ) : Except Exc (List Digest) :=
  match self.rootNode with
  | some node => if index < self.leaves.length then .ok (node.proveLeaf index) else .error .indexError
  | none => .error .indexError

end MerkleTree

/-- `list(sorted(mapping.items()))` -/
def itemsSorted (mapping : Dict Bytes Bytes) : List (Bytes × Bytes) :=
  mapping.items.mergeSort fun a b => decide (a.1 ≤ b.1)

def getMerkleizedMapCommitment (R : Runtime) (mapping : Dict Bytes Bytes) : Bytes :=
  let items := itemsSorted mapping
  serCompactSize mapping.size ++
    (MerkleTree.new R (items.map fun i => elementDigest R i.1)).root ++
    (MerkleTree.new R (items.map fun i => elementDigest R i.2)).root

end LedgerBitcoin

end Hwi
