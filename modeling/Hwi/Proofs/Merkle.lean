import Hwi.Lib.HashTree
import Hwi.Lib.Result
import Hwi.Spec.Merkle

/-! The trees of `merkle.py` are left-complete hash trees whose values are
computed: `add` and `set` leave the tree that is built from the leaves. -/

namespace Hwi

namespace LedgerBitcoin

open LeafTree

theorem isPowerOf2_iff {n : ℕ} (h : 0 < n) : isPowerOf2 n = true ↔ ∃ k, n = 2 ^ k := by
  rw [isPowerOf2, decide_eq_true_iff]
  exact Nat.and_sub_one_eq_zero_iff_isPowerOfTwo (by omega)

theorem largestPowerOf2LessThan_eq {n : ℕ} (h : 2 ≤ n) : largestPowerOf2LessThan n = leftSize n := by
  unfold largestPowerOf2LessThan
  split_ifs with hp
  · obtain ⟨k, rfl⟩ := (isPowerOf2_iff (by omega)).1 hp
    cases k with
    | zero => omega
    | succ k =>
      have hpos := Nat.two_pow_pos k
      rw [Nat.pow_succ, Nat.mul_div_cancel _ (by omega)]
      exact eq_leftSize (by omega) (by omega)
  · rw [Nat.one_shiftLeft]
    have hle := Nat.log2_self_le (n := n) (by omega)
    have hlt := Nat.lt_log2_self (n := n)
    have hne : n ≠ 2 ^ Nat.log2 n := fun heq => hp ((isPowerOf2_iff (by omega)).2 ⟨_, heq⟩)
    rw [Nat.pow_succ] at hlt
    exact eq_leftSize (by omega) (by omega)

theorem ceilLg_eq {n : ℕ} (h : 2 ≤ n) : ceilLg n = Nat.log 2 (n - 1) + 1 := by
  have hlt : n - 1 < 2 ^ (Nat.log 2 (n - 1) + 1) := Nat.lt_pow_succ_log_self (by omega) _
  have hle : 2 ^ Nat.log 2 (n - 1) ≤ n - 1 := Nat.pow_log_le_self 2 (by omega)
  refine le_antisymm (Nat.clog_le_of_le_pow (by omega)) (Nat.succ_le_of_lt ?_)
  rw [ceilLg, Nat.lt_clog_iff_pow_lt (by omega)]
  omega

theorem shiftLeft_ceilLg {n : ℕ} (h : 2 ≤ n) :
    (if ceilLg n = 0 then 0 else 1 <<< (ceilLg n - 1)) = leftSize n := by
  rw [ceilLg_eq h, if_neg (by omega), Nat.add_sub_cancel, Nat.one_shiftLeft]
  rfl

theorem ceilLg_succ {n : ℕ} (h : 1 ≤ n) :
    ceilLg (n + 1) = if isPowerOf2 n then ceilLg n + 1 else ceilLg n := by
  split_ifs with hp
  · obtain ⟨k, rfl⟩ := (isPowerOf2_iff h).1 hp
    rw [ceilLg_eq (by omega), ceilLg, Nat.clog_pow 2 k (by omega), Nat.add_sub_cancel,
      Nat.log_pow (by omega)]
  · have hne : n ≠ 2 ^ Nat.clog 2 n := fun heq => hp ((isPowerOf2_iff h).2 ⟨_, heq⟩)
    have hle := Nat.le_pow_clog (b := 2) (by omega) n
    refine le_antisymm (Nat.clog_le_of_le_pow ?_) (Nat.clog_mono_right 2 (by omega))
    exact lt_of_le_of_ne hle hne

namespace Node

variable (R : Runtime)

/-- The nodes of a tree, their values being computed. -/
def ofTree : LeafTree Digest → Node
  | .leaf a => leaf a
  | .node l r => new R (ofTree l) (ofTree r)

variable {R}

@[simp] theorem ofTree_value (t : LeafTree Digest) : (ofTree R t).value = t.root (combine R) := by
  induction t with
  | leaf a => rfl
  | node l r ihl ihr =>
    rw [LeafTree.root, ← ihl, ← ihr]
    rfl

@[simp] theorem ofTree_size (t : LeafTree Digest) : (ofTree R t).size = t.leaves.length := by
  induction t with
  | leaf a => rfl
  | node l r ihl ihr =>
    rw [ofTree, new, size, ihl, ihr, leaves, List.length_append]

theorem makeTree_cons_cons (a b : Digest) (rest : List Digest) :
    makeTree R (a :: b :: rest) = do
      let lchild ← makeTree R ((a :: b :: rest).take (largestPowerOf2LessThan (rest.length + 2)))
      let rchild ← makeTree R ((a :: b :: rest).drop (largestPowerOf2LessThan (rest.length + 2)))
      return new R lchild rchild := by
  rw [makeTree]

theorem makeTree_leaves {t : LeafTree Digest} (h : LeftComplete t) :
    makeTree R t.leaves = some (ofTree R t) := by
  induction t with
  | leaf a => rw [leaves, makeTree, ofTree]
  | node l r ihl ihr =>
    obtain ⟨hsize, hl, hr⟩ := h.leftSize
    have hposl := l.length_leaves_pos
    have hposr := r.length_leaves_pos
    have hlen : (LeafTree.node l r).leaves.length = l.leaves.length + r.leaves.length :=
      List.length_append
    obtain ⟨a, b, rest, hrest⟩ : ∃ a b rest, (LeafTree.node l r).leaves = a :: b :: rest := by
      rcases hls : (LeafTree.node l r).leaves with _ | ⟨a, _ | ⟨b, rest⟩⟩
      · rw [hls] at hlen
        simp at hlen
        omega
      · rw [hls] at hlen
        simp at hlen
        omega
      · exact ⟨a, b, rest, rfl⟩
    have hcount : rest.length + 2 = (LeafTree.node l r).leaves.length := by rw [hrest]; rfl
    rw [hrest, makeTree_cons_cons, ← hrest, hcount, largestPowerOf2LessThan_eq (by omega), ← hsize]
    rw [leaves, List.take_left, List.drop_left, ihl hl, ihr hr]
    rfl

theorem set_ofTree (t : LeafTree Digest) (x : Digest) (i : ℕ) :
    (ofTree R t).set R x i = ofTree R (t.set x i) := by
  induction t generalizing i with
  | leaf a => rfl
  | node l r ihl ihr =>
    rw [ofTree, new, set, LeafTree.set, ofTree_size]
    split_ifs
    · rw [ihl, ofTree]
    · rw [ihr, ofTree]

theorem proveLeaf_ofTree (t : LeafTree Digest) (i : ℕ) :
    (ofTree R t).proveLeaf i = t.siblings (combine R) i := by
  induction t generalizing i with
  | leaf a => rfl
  | node l r ihl ihr =>
    rw [ofTree, new, proveLeaf, siblings, ofTree_size, ofTree_value, ofTree_value]
    split_ifs
    · rw [ihl]
    · rw [ihr]

theorem add_of_isPowerOf2 {x : Digest} {float : Bool} {n ltreeSize : ℕ} (h : isPowerOf2 n = true)
    (node : Node) : node.add R x float n ltreeSize = .ok (new R node (leaf x)) := by
  cases node with
  | leaf v => rw [add, if_pos h]; rfl
  | node l r v => rw [add, if_pos h]; rfl

/-- The numbers of leaves to which `add` can add one: the size it meets in its first
or in its second round is a power of two. -/
def Addable (n : ℕ) : Prop := (∃ k, n = 2 ^ k) ∨ ∃ k, n - leftSize n = 2 ^ k

theorem add_right {r : LeafTree Digest} (hr : LeftComplete r) (x : Digest) (ltreeSize : ℕ) :
    ((∃ k, r.leaves.length = 2 ^ k) →
      (ofTree R r).add R x true r.leaves.length ltreeSize = .ok (ofTree R (r.push x))) ∧
    ((¬∃ k, r.leaves.length = 2 ^ k) →
      ∃ e, (ofTree R r).add R x true r.leaves.length ltreeSize = .error e) := by
  have hiff := isPowerOf2_iff r.length_leaves_pos
  refine ⟨fun hk => ?_, fun hk => ?_⟩
  · rw [add_of_isPowerOf2 (hiff.2 hk), hr.push_eq_node x hk]
    rfl
  · cases r with
    | leaf a => exact absurd ⟨0, rfl⟩ hk
    | node l r =>
      rw [ofTree, new, add, if_neg (mt hiff.1 hk), if_pos rfl]
      exact ⟨_, rfl⟩

/-- `add` adds a leaf or raises. -/
theorem add_ofTree {t : LeafTree Digest} (h : LeftComplete t) (x : Digest) {ltreeSize : ℕ}
    (hsize : 2 ≤ t.leaves.length → ltreeSize = leftSize t.leaves.length) :
    (Addable t.leaves.length →
      (ofTree R t).add R x false t.leaves.length ltreeSize = .ok (ofTree R (t.push x))) ∧
    (¬Addable t.leaves.length →
      ∃ e, (ofTree R t).add R x false t.leaves.length ltreeSize = .error e) := by
  have hiff := isPowerOf2_iff t.length_leaves_pos
  by_cases hk : ∃ k, t.leaves.length = 2 ^ k
  · refine ⟨fun _ => ?_, fun hadd => absurd (Or.inl hk) hadd⟩
    rw [add_of_isPowerOf2 (hiff.2 hk), h.push_eq_node x hk]
    rfl
  · cases t with
    | leaf a => exact absurd ⟨0, rfl⟩ hk
    | node l r =>
      obtain ⟨hleft, hl, hr⟩ := h.leftSize
      have hposl := l.length_leaves_pos
      have hposr := r.length_leaves_pos
      have hlen : (LeafTree.node l r).leaves.length = l.leaves.length + r.leaves.length :=
        List.length_append
      have hltree := hsize (by omega)
      have hrest : (LeafTree.node l r).leaves.length - ltreeSize = r.leaves.length := by
        rw [hltree, ← hleft, hlen, Nat.add_sub_cancel_left]
      have hadd : (ofTree R (.node l r)).add R x false (LeafTree.node l r).leaves.length ltreeSize = do
          let r' ← (ofTree R r).add R x true r.leaves.length (ltreeSize / 2)
          return new R (ofTree R l) r' := by
        rw [ofTree, new, add, if_neg (mt hiff.1 hk), hrest]
        rfl
      obtain ⟨hok, herr⟩ := add_right (R := R) hr x (ltreeSize / 2)
      refine ⟨fun hadds => ?_, fun hnot => ?_⟩
      · rcases hadds with hpow | hpow
        · exact absurd hpow hk
        · rw [← hltree, hrest] at hpow
          rw [hadd, hok hpow, h.push_node x hk]
          rfl
      · obtain ⟨e, he⟩ := herr fun hpow => hnot (Or.inr (by rwa [← hltree, hrest]))
        rw [hadd, he]
        exact ⟨e, rfl⟩

end Node

namespace MerkleTree

variable {R : Runtime}

theorem new_leaves {t : LeafTree Digest} (h : LeftComplete t) :
    new R t.leaves =
      { leaves := t.leaves, rootNode := some (Node.ofTree R t),
        depth := some (ceilLg t.leaves.length) } := by
  rw [new, Node.makeTree_leaves h, if_pos t.length_leaves_pos]

/-- `add` leaves the tree that is built from the leaves and the new one, or raises. -/
theorem add_new (ls : List Digest) (x : Digest) :
    ((ls = [] ∨ Node.Addable ls.length) → (new R ls).add R x = .ok (new R (ls ++ [x]))) ∧
    (¬(ls = [] ∨ Node.Addable ls.length) → ∃ e, (new R ls).add R x = .error e) := by
  by_cases hnil : ls = []
  · subst hnil
    refine ⟨fun _ => ?_, fun hnot => absurd (Or.inl rfl) hnot⟩
    have hone : new R [x] =
        { leaves := [x], rootNode := some (.leaf x), depth := some (ceilLg 1) } := new_leaves (.leaf x)
    rw [add, dif_pos x.2, List.nil_append, hone, ceilLg, Nat.clog_one_right]
    exact if_pos rfl
  · obtain ⟨t, ht, rfl⟩ := exists_leftComplete hnil
    have hpos := t.length_leaves_pos
    have hadd : (new R t.leaves).add R x = do
        let rootNode ← (Node.ofTree R t).add R x false t.leaves.length
          (if ceilLg t.leaves.length = 0 then 0 else 1 <<< (ceilLg t.leaves.length - 1))
        return {
          leaves := t.leaves ++ [x], rootNode := some rootNode
          depth := some (if isPowerOf2 t.leaves.length then ceilLg t.leaves.length + 1
            else ceilLg t.leaves.length) } := by
      rw [new_leaves ht, add, dif_pos x.2]
      simp only [List.length_append, List.length_singleton, Nat.add_sub_cancel]
      rw [if_neg (by omega)]
    obtain ⟨hok, herr⟩ := Node.add_ofTree (R := R) ht x shiftLeft_ceilLg
    refine ⟨fun h => ?_, fun h => ?_⟩
    · have hpush := new_leaves (R := R) (ht.push x)
      rw [leaves_push, List.length_append, List.length_singleton, ceilLg_succ hpos] at hpush
      rw [hadd, hok (h.resolve_left hnil), hpush]
      rfl
    · obtain ⟨e, he⟩ := herr fun h' => h (Or.inr h')
      rw [hadd, he]
      exact ⟨e, rfl⟩

/-- `set` leaves the tree that is built from the leaves with one changed. -/
theorem set_new {ls : List Digest} {i : ℕ} (hi : i < ls.length) (x : Digest) :
    (new R ls).set R i x = .ok (new R (ls.set i x)) := by
  obtain ⟨t, ht, rfl⟩ := exists_leftComplete (List.ne_nil_of_length_pos (by omega) : ls ≠ [])
  have hset := new_leaves (R := R) (ht.set x i)
  rw [leaves_set t x hi, List.length_set] at hset
  rw [new_leaves ht, set, if_neg (by simpa using hi.le), dif_pos x.2, if_neg (by simpa using hi.ne),
    hset, ← Node.set_ofTree]
  rfl

theorem set_length {self : MerkleTree} {x : Bytes} (hx : x.length = 32) :
    self.set R self.leaves.length x = self.add R x := by
  rw [set, if_neg (lt_irrefl _), dif_pos hx]
  exact if_pos rfl

end MerkleTree

namespace Node

/-- At most two binary digits of the number are ones. -/
theorem addable_iff {n : ℕ} (h : 0 < n) :
    Addable n ↔ (∃ a, n = 2 ^ a) ∨ ∃ a b, a < b ∧ n = 2 ^ a + 2 ^ b := by
  refine or_congr_right' fun hpow => ⟨?_, ?_⟩
  · rintro ⟨a, ha⟩
    have htwo : 2 ≤ n := by
      by_contra hlt
      exact hpow ⟨0, by omega⟩
    have hlt := leftSize_lt htwo
    have hle := le_two_mul_leftSize n
    have hna : n = 2 ^ a + 2 ^ Nat.log 2 (n - 1) := by
      change n = 2 ^ a + leftSize n
      omega
    refine ⟨a, Nat.log 2 (n - 1), ?_, hna⟩
    have hle : 2 ^ a ≤ 2 ^ Nat.log 2 (n - 1) := by
      change 2 ^ a ≤ leftSize n
      omega
    refine lt_of_le_of_ne ((Nat.pow_le_pow_iff_right (by omega)).1 hle) fun heq => hpow ⟨a + 1, ?_⟩
    rw [← heq] at hna
    rw [Nat.pow_succ]
    omega
  · rintro ⟨a, b, hab, rfl⟩
    have hpos := Nat.two_pow_pos a
    have hlt : 2 ^ a < 2 ^ b := (Nat.pow_lt_pow_iff_right (by omega)).2 hab
    have hsize : 2 ^ b = leftSize (2 ^ a + 2 ^ b) := eq_leftSize (by omega) (by omega)
    exact ⟨a, by rw [← hsize, Nat.add_sub_cancel]⟩

end Node

/-! ### Runs -/

/-- A runtime to evaluate the definitions in, whose hashes of short strings differ. -/
def marking : Runtime :=
  { Runtime.zeros with
    sha256 := fun b => List.replicate 31 1 ++ [b.foldl (fun a c => 3 * a + c + 1) 0]
    sha256_length := fun _ => rfl }

def repeated (c : UInt8) : Digest := ⟨List.replicate 32 c, List.length_replicate⟩

namespace MerkleTree

/-- A call that changes the tree. -/
inductive Call
  | add (x : Bytes)
  | set (index : ℕ) (x : Bytes)
deriving DecidableEq, Repr

/-- What a call does to the vector of leaves. -/
def Call.onVector (vector : List Bytes) : Call → List Bytes
  | add x => vector ++ [x]
  | set index x => if index = vector.length then vector ++ [x] else vector.set index x

def call (R : Runtime) (self : MerkleTree) : Call → Except Exc MerkleTree
  | .add x => self.add R x
  | .set index x => self.set R index x

/-- The calls one after the other, all of which return. -/
def run (R : Runtime) (calls : List Call) (self : MerkleTree) : Except Exc MerkleTree :=
  calls.foldlM (call R) self

/-- A vector of hashes and the tree that is built from it. -/
def Represents (R : Runtime) (self : MerkleTree) (vector : List Bytes) : Prop :=
  ∃ ls : List Digest, self = new R ls ∧ ls.map Subtype.val = vector

theorem add_represents {self self' : MerkleTree} {vector : List Bytes} {x : Bytes}
    (h : Represents R self vector) (hadd : self.add R x = .ok self') :
    Represents R self' (vector ++ [x]) := by
  obtain ⟨ls, rfl, rfl⟩ := h
  by_cases hx : x.length = 32
  · obtain ⟨hok, herr⟩ := add_new (R := R) ls ⟨x, hx⟩
    by_cases hls : ls = [] ∨ Node.Addable ls.length
    · have heq := hok hls
      rw [hadd] at heq
      cases heq
      exact ⟨_, rfl, by simp⟩
    · obtain ⟨e, he⟩ := herr hls
      rw [hadd] at he
      cases he
  · rw [add, dif_neg hx] at hadd
    cases hadd

theorem call_represents {self self' : MerkleTree} {vector : List Bytes} {c : Call}
    (h : Represents R self vector) (hcall : self.call R c = .ok self') :
    Represents R self' (c.onVector vector) := by
  cases c with
  | add x => exact add_represents h hcall
  | set index x =>
    by_cases hx : x.length = 32
    · obtain ⟨ls, rfl, rfl⟩ := h
      rw [Call.onVector, List.length_map]
      rcases lt_trichotomy index ls.length with hlt | rfl | hgt
      · have heq : (new R ls).call R (.set index x) = _ := set_new hlt ⟨x, hx⟩
        rw [hcall] at heq
        cases heq
        rw [if_neg hlt.ne]
        exact ⟨_, rfl, List.map_set⟩
      · rw [if_pos rfl]
        exact add_represents ⟨ls, rfl, rfl⟩ ((set_length hx).symm.trans hcall)
      · rw [call, set, if_pos (by exact hgt)] at hcall
        cases hcall
    · rw [call, set] at hcall
      split_ifs at hcall
      cases hcall

theorem run_represents {calls : List Call} {self self' : MerkleTree} {vector : List Bytes}
    (h : Represents R self vector) (hrun : self.run R calls = .ok self') :
    Represents R self' (calls.foldl Call.onVector vector) := by
  induction calls generalizing self vector with
  | nil =>
    cases hrun
    exact h
  | cons c calls ih =>
    rw [run, List.foldlM_cons] at hrun
    obtain ⟨next, hnext, hrest⟩ := bind_eq_ok.1 hrun
    exact ih (call_represents h hnext) hrest

theorem new_represents (elements : List Digest) :
    Represents R (new R elements) (elements.map Subtype.val) := ⟨elements, rfl, rfl⟩

/-- After any calls that return, the tree with its values is the one that is built
from the leaves, which are those of a vector with the same calls. -/
theorem run_copy {calls : List Call} {elements : List Digest} {self : MerkleTree}
    (h : (new R elements).run R calls = .ok self) :
    self.copy R = self ∧
      self.leaves.map Subtype.val = calls.foldl Call.onVector (elements.map Subtype.val) := by
  obtain ⟨ls, rfl, hls⟩ := run_represents (new_represents elements) h
  exact ⟨rfl, hls⟩

/-- Two leaves, two more, and then another one in the place of the second. -/
theorem run_copy_addSet : ∃ self : MerkleTree,
    (new marking [repeated 1, repeated 2]).run marking
      [.add (repeated 3), .add (repeated 4), .set 1 (repeated 5)] = .ok self ∧
    self.copy marking = self ∧
    self.leaves.map Subtype.val =
      [(repeated 1).val, (repeated 5).val, (repeated 3).val, (repeated 4).val] := by
  have hrun : (new marking [repeated 1, repeated 2]).run marking
      [.add (repeated 3), .add (repeated 4), .set 1 (repeated 5)] =
        .ok (new marking [repeated 1, repeated 5, repeated 3, repeated 4]) := by decide +kernel
  exact ⟨_, hrun, run_copy hrun⟩

/-- After any calls that return, `add` takes a hash if and only if the number of leaves
is zero or has at most two binary digits that are ones. -/
theorem run_add_iff {calls : List Call} {elements : List Digest} {self : MerkleTree}
    (h : (new R elements).run R calls = .ok self) (x : Bytes) :
    (∃ self', self.add R x = .ok self') ↔ x.length = 32 ∧
      (self.leaves.length = 0 ∨ (∃ a, self.leaves.length = 2 ^ a) ∨
        ∃ a b, a < b ∧ self.leaves.length = 2 ^ a + 2 ^ b) := by
  obtain ⟨ls, rfl, -⟩ := run_represents (new_represents elements) h
  by_cases hx : x.length = 32
  · obtain ⟨hok, herr⟩ := add_new (R := R) ls ⟨x, hx⟩
    have hiff : (ls = [] ∨ Node.Addable ls.length) ↔ ls.length = 0 ∨ (∃ a, ls.length = 2 ^ a) ∨
        ∃ a b, a < b ∧ ls.length = 2 ^ a + 2 ^ b := by
      rw [← List.length_eq_zero_iff]
      exact or_congr_right' fun hne => Node.addable_iff (Nat.pos_of_ne_zero hne)
    refine Iff.trans ⟨fun hadd => ?_, fun hls => ⟨_, hok hls⟩⟩ (hiff.trans (and_iff_right hx).symm)
    by_contra hls
    obtain ⟨self', hself⟩ := hadd
    obtain ⟨e, he⟩ := herr hls
    rw [hself] at he
    cases he
  · refine ⟨fun hadd => ?_, fun hls => absurd hls.1 hx⟩
    obtain ⟨self', hself⟩ := hadd
    rw [add, dif_neg hx] at hself
    cases hself

/-- A tree of four leaves takes a fifth one, a tree of seven no eighth one. -/
theorem run_add_iff_fourSeven :
    (∃ self : MerkleTree, (new marking [repeated 1, repeated 2]).run marking
        [.add (repeated 3), .add (repeated 4)] = .ok self ∧
      self.leaves.length = 4 ∧ ∃ self', self.add marking (repeated 5) = .ok self') ∧
    ∃ self : MerkleTree, (new marking (List.replicate 7 (repeated 1))).run marking
        [.set 6 (repeated 2)] = .ok self ∧
      self.leaves.length = 7 ∧ ¬∃ self', self.add marking (repeated 5) = .ok self' := by
  have hfour : (new marking [repeated 1, repeated 2]).run marking [.add (repeated 3), .add (repeated 4)] =
      .ok (new marking [repeated 1, repeated 2, repeated 3, repeated 4]) := by decide +kernel
  have hseven : (new marking (List.replicate 7 (repeated 1))).run marking [.set 6 (repeated 2)] =
      .ok (new marking (List.replicate 6 (repeated 1) ++ [repeated 2])) := by decide +kernel
  refine ⟨⟨_, hfour, rfl, (run_add_iff hfour _).2 ⟨(repeated 5).2, Or.inr (Or.inl ⟨2, rfl⟩)⟩⟩,
    ⟨_, hseven, rfl, fun hadd => ?_⟩⟩
  obtain ⟨-, hcount⟩ := (run_add_iff hseven _).1 hadd
  change 7 = 0 ∨ (∃ a, 7 = 2 ^ a) ∨ ∃ a b, a < b ∧ 7 = 2 ^ a + 2 ^ b at hcount
  rcases hcount with hzero | ⟨a, ha⟩ | ⟨a, b, hab, hsum⟩
  · simp at hzero
  · have hlt : a < 3 := (Nat.pow_lt_pow_iff_right (by omega : 1 < 2)).1 (by omega)
    have hnone : ∀ a < 3, 7 ≠ 2 ^ a := by decide
    exact hnone a hlt ha
  · have hle : 2 ^ b ≤ 7 := hsum ▸ Nat.le_add_left _ _
    have hlt : b < 3 := (Nat.pow_lt_pow_iff_right (by omega : 1 < 2)).1 (by omega)
    have hnone : ∀ b < 3, ∀ a < b, 7 ≠ 2 ^ a + 2 ^ b := by decide
    exact hnone b hlt a hab hsum

end MerkleTree

end LedgerBitcoin

end Hwi
