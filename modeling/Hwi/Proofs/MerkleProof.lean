import Hwi.Proofs.Merkle
import Hwi.Proofs.Serialize

/-! What the proofs of `prove_leaf` and the commitments to maps say, unless two of
the strings that were hashed for them have one SHA-256. -/

namespace Hwi

namespace LedgerBitcoin

open LeafTree Reader

/-- Two different strings have one hash. -/
def HashClash (R : Runtime) (ps qs : List Bytes) : Prop :=
  ∃ p ∈ ps, ∃ q ∈ qs, p ≠ q ∧ R.sha256 p = R.sha256 q

theorem HashClash.mono {R : Runtime} {ps ps' qs qs' : List Bytes} (h : HashClash R ps qs)
    (hps : ps ⊆ ps') (hqs : qs ⊆ qs') : HashClash R ps' qs' := by
  obtain ⟨p, hp, q, hq, hne, heq⟩ := h
  exact ⟨p, hps hp, q, hqs hq, hne, heq⟩

/-- The string that is hashed for a pair of children. -/
def pairInput (pair : Digest × Digest) : Bytes := 0x01 :: pair.1.val ++ pair.2.val

theorem pairInput_injective {p q : Digest × Digest} (h : pairInput p = pairInput q) : p = q := by
  have htail : p.1.val ++ p.2.val = q.1.val ++ q.2.val := List.cons_inj_right 0x01 |>.1 h
  obtain ⟨hleft, hright⟩ := List.append_inj htail (p.1.2.trans q.1.2.symm)
  exact Prod.ext (Subtype.ext hleft) (Subtype.ext hright)

variable {R : Runtime}

theorem hashClash_of_clash {ps qs : List (Digest × Digest)} (h : Clash (combine R) ps qs) :
    HashClash R (ps.map pairInput) (qs.map pairInput) := by
  obtain ⟨p, hp, q, hq, hne, heq⟩ := h
  exact ⟨_, List.mem_map_of_mem hp, _, List.mem_map_of_mem hq, mt pairInput_injective hne,
    congrArg Subtype.val heq⟩

/-! ### Proofs of leaves -/

namespace Node

/-- The pairs of children whose hashes are the values of their parents. -/
def pairs : Node → List (Digest × Digest)
  | leaf _ => []
  | node l r _ => (l.value, r.value) :: (l.pairs ++ r.pairs)

theorem pairs_ofTree (t : LeafTree Digest) : (ofTree R t).pairs = t.pairs (combine R) := by
  induction t with
  | leaf a => rfl
  | node l r ihl ihr => rw [ofTree, new, pairs, LeafTree.pairs, ihl, ihr, ofTree_value, ofTree_value]

end Node

namespace MerkleTree

/-- The strings that were hashed for the tree over its leaves. -/
def inputs (self : MerkleTree) : List Bytes :=
  match self.rootNode with
  | none => []
  | some rootNode => rootNode.pairs.map pairInput

theorem root_new {t : LeafTree Digest} (h : LeftComplete t) :
    (new R t.leaves).root = (t.root (combine R)).val := by
  rw [new_leaves h]
  exact congrArg Subtype.val (Node.ofTree_value t)

theorem inputs_new {t : LeafTree Digest} (h : LeftComplete t) :
    (new R t.leaves).inputs = (t.pairs (combine R)).map pairInput := by
  rw [new_leaves h]
  exact congrArg (List.map pairInput) (Node.pairs_ofTree t)

theorem proveLeaf_new {t : LeafTree Digest} (h : LeftComplete t) {i : ℕ} (hi : i < t.leaves.length) :
    (new R t.leaves).proveLeaf i = .ok (t.siblings (combine R) i) := by
  rw [new_leaves h, proveLeaf]
  exact (if_pos hi).trans (by rw [Node.proveLeaf_ofTree])

/-- A proof that the tree with this root over `n` leaves has `leaf` as its leaf `i`. -/
def ProvesLeaf (R : Runtime) (root : Bytes) (n i : ℕ) (leaf : Digest) (proof : List Digest) : Prop :=
  ∃ r : Digest, r.val = root ∧ Proves (combine R) r n i leaf proof

/-- The strings that are hashed to check a proof. -/
def proofInputs (R : Runtime) (n i : ℕ) (leaf : Digest) (proof : List Digest) : List Bytes :=
  (climbPairs (combine R) leaf ((sides n i).zip proof)).map pairInput

theorem proveLeaf_proves {ls : List Digest} {i : ℕ} {leaf : Digest} (h : ls[i]? = some leaf) :
    ∃ proof, (new R ls).proveLeaf i = .ok proof ∧
      ProvesLeaf R (new R ls).root ls.length i leaf proof := by
  obtain ⟨hi, -⟩ := List.getElem?_eq_some_iff.1 h
  obtain ⟨t, ht, rfl⟩ := exists_leftComplete (List.ne_nil_of_length_pos (by omega) : ls ≠ [])
  exact ⟨_, proveLeaf_new ht hi, _, (root_new ht).symm, ht.proves h⟩

/-- The proofs for the root of a tree are those that `prove_leaf` makes for its leaves,
unless two strings that are hashed clash. -/
theorem proveLeaf_sound {ls : List Digest} {i : ℕ} {leaf : Digest} {proof : List Digest}
    (hi : i < ls.length) (h : ProvesLeaf R (new R ls).root ls.length i leaf proof) :
    (new R ls).get i = .ok leaf ∧ (new R ls).proveLeaf i = .ok proof ∨
      HashClash R (new R ls).inputs (proofInputs R ls.length i leaf proof) := by
  obtain ⟨t, ht, rfl⟩ := exists_leftComplete (List.ne_nil_of_length_pos (by omega) : ls ≠ [])
  obtain ⟨r, hr, hproof⟩ := h
  rw [root_new ht] at hr
  obtain rfl := Subtype.ext hr
  rcases ht.eq_of_proves hi hproof with ⟨hleaf, rfl⟩ | hclash
  · refine Or.inl ⟨?_, proveLeaf_new ht hi⟩
    have hget : (new R t.leaves).leaves[i]? = some leaf := hleaf
    rw [get, hget]
  · rw [inputs_new ht]
    exact Or.inr (hashClash_of_clash hclash)

/-- The root and the number of leaves determine the leaves, unless two strings that are
hashed clash. -/
theorem leaves_of_root {ls ls' : List Digest} (hlen : ls.length = ls'.length)
    (hroot : (new R ls).root = (new R ls').root) :
    ls = ls' ∨ HashClash R (new R ls).inputs (new R ls').inputs := by
  by_cases hls : ls = []
  · subst hls
    exact Or.inl (List.length_eq_zero_iff.1 hlen.symm).symm
  · have hls' : ls' ≠ [] := by
      rintro rfl
      exact hls (List.length_eq_zero_iff.1 hlen)
    obtain ⟨t, ht, rfl⟩ := exists_leftComplete hls
    obtain ⟨t', ht', rfl⟩ := exists_leftComplete hls'
    rw [root_new ht, root_new ht'] at hroot
    rcases ht.eq_of_root ht' hlen (Subtype.ext hroot) with rfl | hclash
    · exact Or.inl rfl
    · rw [inputs_new ht, inputs_new ht']
      exact Or.inr (hashClash_of_clash hclash)

end MerkleTree

namespace MerkleTree

/-- After any calls that return, `prove_leaf` proves the leaf that `get` returns, and
whatever else a proof for the root seems to prove comes from a clash of two strings
that are hashed. -/
theorem run_proveLeaf {calls : List Call} {elements : List Digest} {self : MerkleTree}
    (h : (new R elements).run R calls = .ok self) {i : ℕ} (hi : i < self.leaves.length) :
    (∃ leaf proof, self.get i = .ok leaf ∧ self.proveLeaf i = .ok proof ∧
      ProvesLeaf R self.root self.leaves.length i leaf proof) ∧
    ∀ leaf proof, ProvesLeaf R self.root self.leaves.length i leaf proof →
      self.get i = .ok leaf ∧ self.proveLeaf i = .ok proof ∨
        HashClash R self.inputs (proofInputs R self.leaves.length i leaf proof) := by
  obtain ⟨ls, rfl, -⟩ := run_represents (new_represents elements) h
  refine ⟨?_, fun leaf proof hproof => proveLeaf_sound hi hproof⟩
  have hleaf : ls[i]? = some ls[i] := List.getElem?_eq_getElem hi
  obtain ⟨proof, hproof, hproves⟩ := proveLeaf_proves (R := R) hleaf
  have hget : (new R ls).leaves[i]? = some ls[i] := hleaf
  exact ⟨ls[i], proof, by rw [get, hget], hproof, hproves⟩

/-- The third of five leaves, which have been added and set, has three siblings. -/
theorem run_proveLeaf_third : ∃ self : MerkleTree,
    (new marking [repeated 1, repeated 2, repeated 3, repeated 4]).run marking
      [.add (repeated 5), .set 2 (repeated 6)] = .ok self ∧
    self.get 2 = .ok (repeated 6) ∧
    (∃ proof, self.proveLeaf 2 = .ok proof ∧ proof.length = 3 ∧
      ProvesLeaf marking self.root self.leaves.length 2 (repeated 6) proof) ∧
    ∀ leaf proof, ProvesLeaf marking self.root self.leaves.length 2 leaf proof →
      self.get 2 = .ok leaf ∧ self.proveLeaf 2 = .ok proof ∨
        HashClash marking self.inputs (proofInputs marking self.leaves.length 2 leaf proof) := by
  have hrun : (new marking [repeated 1, repeated 2, repeated 3, repeated 4]).run marking
      [.add (repeated 5), .set 2 (repeated 6)] =
        .ok (new marking [repeated 1, repeated 2, repeated 6, repeated 4, repeated 5]) := by
    decide +kernel
  obtain ⟨⟨leaf, proof, hget, hproof, hproves⟩, hsound⟩ := run_proveLeaf hrun (show 2 < 5 by decide)
  obtain rfl : repeated 6 = leaf := Except.ok.inj hget
  refine ⟨_, hrun, rfl, ⟨proof, hproof, ?_, hproves⟩, hsound⟩
  have hcount : ((new marking [repeated 1, repeated 2, repeated 6, repeated 4, repeated 5]).proveLeaf
      2).map List.length = .ok 3 := by decide +kernel
  rw [hproof] at hcount
  exact Except.ok.inj hcount

end MerkleTree

/-! ### Lists and maps -/

/-- The tree over the hashes of some elements. -/
def listTree (R : Runtime) (elements : List Bytes) : MerkleTree :=
  MerkleTree.new R (elements.map (elementDigest R))

/-- The strings that are hashed for the tree over some elements. -/
def listInputs (R : Runtime) (elements : List Bytes) : List Bytes :=
  elements.map (0x00 :: ·) ++ (listTree R elements).inputs

theorem elements_of_hashes {es es' : List Bytes}
    (h : es.map (elementDigest R) = es'.map (elementDigest R)) :
    es = es' ∨ HashClash R (es.map (0x00 :: ·)) (es'.map (0x00 :: ·)) := by
  induction es generalizing es' with
  | nil =>
    rw [List.map_nil, eq_comm, List.map_eq_nil_iff] at h
    exact Or.inl h.symm
  | cons e es ih =>
    cases es' with
    | nil => cases h
    | cons e' es' =>
      obtain ⟨he, hes⟩ := List.cons.inj h
      by_cases hee : e = e'
      · rcases ih hes with rfl | hclash
        · exact Or.inl (by rw [hee])
        · exact Or.inr (hclash.mono (List.subset_cons_self _ _) (List.subset_cons_self _ _))
      · refine Or.inr ⟨_, List.mem_cons_self, _, List.mem_cons_self, ?_, congrArg Subtype.val he⟩
        exact fun heq => hee (List.cons.inj heq).2

/-- The root of a list of a given length determines the list. -/
theorem elements_of_root {es es' : List Bytes} (hlen : es.length = es'.length)
    (hroot : (listTree R es).root = (listTree R es').root) :
    es = es' ∨ HashClash R (listInputs R es) (listInputs R es') := by
  rcases MerkleTree.leaves_of_root (by simpa using hlen) hroot with hls | hclash
  · rcases elements_of_hashes hls with rfl | hclash
    · exact Or.inl rfl
    · exact Or.inr (hclash.mono (List.subset_append_left _ _) (List.subset_append_left _ _))
  · exact Or.inr (hclash.mono (List.subset_append_right _ _) (List.subset_append_right _ _))

/-- No two of the strings have one hash, and none has the root of the empty tree. -/
structure CollisionFree (R : Runtime) (strings : List Bytes) : Prop where
  injective {p q : Bytes} (hp : p ∈ strings) (hq : q ∈ strings) (h : R.sha256 p = R.sha256 q) : p = q
  ne_nil {p : Bytes} (hp : p ∈ strings) : R.sha256 p ≠ MerkleTree.nil

theorem collisionFree_iff {strings : List Bytes} : CollisionFree R strings ↔
    (∀ p ∈ strings, ∀ q ∈ strings, R.sha256 p = R.sha256 q → p = q) ∧
      ∀ p ∈ strings, R.sha256 p ≠ MerkleTree.nil := by
  constructor
  · intro h
    exact ⟨fun p hp q hq => h.injective hp hq, fun p hp => h.ne_nil hp⟩
  · intro ⟨hinjective, hnil⟩
    exact ⟨fun {p q} hp hq => hinjective p hp q hq, fun {p} hp => hnil p hp⟩

/-- The strings that are hashed for a tree over elements. -/
def treeInputs (R : Runtime) (t : LeafTree Bytes) : List Bytes :=
  t.leaves.map (0x00 :: ·) ++ ((t.map (elementDigest R)).pairs (combine R)).map pairInput

theorem listTree_leaves {t : LeafTree Bytes} (h : LeftComplete t) :
    (listTree R t.leaves).root = ((t.map (elementDigest R)).root (combine R)).val ∧
      listInputs R t.leaves = treeInputs R t := by
  rw [listInputs, listTree, ← leaves_map]
  exact ⟨MerkleTree.root_new (h.map _), by rw [MerkleTree.inputs_new (h.map _)]; rfl⟩

theorem treeInputs_left (l r : LeafTree Bytes) : treeInputs R l ⊆ treeInputs R (.node l r) := by
  intro p hp
  rcases List.mem_append.1 hp with hp | hp
  · refine List.mem_append_left _ ?_
    rw [leaves, List.map_append]
    exact List.mem_append_left _ hp
  · refine List.mem_append_right _ ?_
    rw [LeafTree.map, LeafTree.pairs, List.map_cons, List.map_append]
    exact List.mem_cons_of_mem _ (List.mem_append_left _ hp)

theorem treeInputs_right (l r : LeafTree Bytes) : treeInputs R r ⊆ treeInputs R (.node l r) := by
  intro p hp
  rcases List.mem_append.1 hp with hp | hp
  · refine List.mem_append_left _ ?_
    rw [leaves, List.map_append]
    exact List.mem_append_right _ hp
  · refine List.mem_append_right _ ?_
    rw [LeafTree.map, LeafTree.pairs, List.map_cons, List.map_append]
    exact List.mem_cons_of_mem _ (List.mem_append_right _ hp)

/-- The root of a tree is the hash of a string that is hashed for it. -/
theorem exists_root_input (t : LeafTree Bytes) : ∃ p ∈ treeInputs R t,
    R.sha256 p = ((t.map (elementDigest R)).root (combine R)).val := by
  cases t with
  | leaf a => exact ⟨0x00 :: a, List.mem_append_left _ List.mem_cons_self, rfl⟩
  | node l r =>
    refine ⟨_, List.mem_append_right _ (List.mem_map_of_mem List.mem_cons_self), rfl⟩

/-- Elements and pairs are hashed after different bytes, so roots of trees of any
shapes determine the trees. -/
theorem tree_of_root {t t' : LeafTree Bytes} {strings : List Bytes}
    (hfree : CollisionFree R strings) (hsub : treeInputs R t ⊆ strings)
    (hsub' : treeInputs R t' ⊆ strings)
    (h : (t.map (elementDigest R)).root (combine R) = (t'.map (elementDigest R)).root (combine R)) :
    t = t' := by
  induction t generalizing t' with
  | leaf a =>
    have ha : 0x00 :: a ∈ strings := hsub (List.mem_append_left _ List.mem_cons_self)
    cases t' with
    | leaf b =>
      have hb : 0x00 :: b ∈ strings := hsub' (List.mem_append_left _ List.mem_cons_self)
      rw [(List.cons.inj (hfree.injective ha hb (congrArg Subtype.val h))).2]
    | node l r =>
      have hnode := hsub' (List.mem_append_right _ (List.mem_map_of_mem List.mem_cons_self))
      have heq := hfree.injective ha hnode (congrArg Subtype.val h)
      exact absurd (List.cons.inj heq).1 (by decide)
  | node l r ihl ihr =>
    have hnode := hsub (List.mem_append_right _ (List.mem_map_of_mem List.mem_cons_self))
    cases t' with
    | leaf b =>
      have hb : 0x00 :: b ∈ strings := hsub' (List.mem_append_left _ List.mem_cons_self)
      have heq := hfree.injective hnode hb (congrArg Subtype.val h)
      exact absurd (List.cons.inj heq).1 (by decide)
    | node l' r' =>
      have hnode' := hsub' (List.mem_append_right _ (List.mem_map_of_mem List.mem_cons_self))
      have hpair := pairInput_injective (hfree.injective hnode hnode' (congrArg Subtype.val h))
      obtain ⟨hl, hr⟩ := Prod.mk.inj hpair
      rw [ihl (fun p hp => hsub (treeInputs_left l r hp)) (fun p hp => hsub' (treeInputs_left l' r' hp)) hl,
        ihr (fun p hp => hsub (treeInputs_right l r hp)) (fun p hp => hsub' (treeInputs_right l' r' hp)) hr]

theorem list_of_root {es es' strings : List Bytes} (hfree : CollisionFree R strings)
    (hsub : listInputs R es ⊆ strings) (hsub' : listInputs R es' ⊆ strings)
    (h : (listTree R es).root = (listTree R es').root) : es = es' := by
  have hempty (es : List Bytes) (hsub : listInputs R es ⊆ strings)
      (h : (listTree R es).root = MerkleTree.nil) : es = [] := by
    by_contra hne
    obtain ⟨t, ht, rfl⟩ := exists_leftComplete hne
    obtain ⟨p, hp, hroot⟩ := exists_root_input (R := R) t
    obtain ⟨htree, hinputs⟩ := listTree_leaves (R := R) ht
    exact hfree.ne_nil (hsub (hinputs ▸ hp)) (hroot.trans (htree.symm.trans h))
  have hnil : (listTree R []).root = MerkleTree.nil := by
    rw [listTree, List.map_nil, MerkleTree.new, Node.makeTree]
    rfl
  by_cases hes : es = []
  · subst hes
    exact (hempty es' hsub' (h.symm.trans hnil)).symm
  · by_cases hes' : es' = []
    · subst hes'
      exact hempty es hsub (h.trans hnil)
    · obtain ⟨t, ht, rfl⟩ := exists_leftComplete hes
      obtain ⟨t', ht', rfl⟩ := exists_leftComplete hes'
      obtain ⟨htree, hinputs⟩ := listTree_leaves (R := R) ht
      obtain ⟨htree', hinputs'⟩ := listTree_leaves (R := R) ht'
      rw [htree, htree'] at h
      rw [tree_of_root hfree (hinputs ▸ hsub) (hinputs' ▸ hsub') (Subtype.ext h)]

/-- The strings that are hashed for the commitment to a map. -/
def mapInputs (R : Runtime) (mapping : Dict Bytes Bytes) : List Bytes :=
  listInputs R ((itemsSorted mapping).map Prod.fst) ++ listInputs R ((itemsSorted mapping).map Prod.snd)

theorem root_length (self : MerkleTree) : self.root.length = 32 := by
  unfold MerkleTree.root
  cases self.rootNode with
  | none => exact List.length_replicate
  | some node => exact node.value.2

/-- What follows a compact size does not change it. -/
theorem serCompactSize_append_inj {n n' : ℕ} {t t' : Bytes} (hn : n < 2 ^ 64) (hn' : n' < 2 ^ 64)
    (h : serCompactSize n ++ t = serCompactSize n' ++ t') : n = n' ∧ t = t' := by
  have hread := exactly_deserCompactSize hn t
  rw [h, exactly_deserCompactSize hn' t'] at hread
  cases hread
  exact ⟨rfl, rfl⟩

theorem length_itemsSorted (mapping : Dict Bytes Bytes) :
    (itemsSorted mapping).length = mapping.size := List.length_mergeSort _

theorem mem_itemsSorted {mapping : Dict Bytes Bytes} {item : Bytes × Bytes} :
    item ∈ itemsSorted mapping ↔ item ∈ mapping.items := List.mem_mergeSort

theorem same_of_itemsSorted {mapping mapping' : Dict Bytes Bytes}
    (h : itemsSorted mapping = itemsSorted mapping') : mapping.Same mapping' := by
  intro k
  apply Option.ext
  intro v
  rw [Dict.get?_eq_some_iff, Dict.get?_eq_some_iff, ← mem_itemsSorted, ← mem_itemsSorted, h]

theorem eq_of_map_fst_snd {α β : Type} {l l' : List (α × β)} (hfst : l.map Prod.fst = l'.map Prod.fst)
    (hsnd : l.map Prod.snd = l'.map Prod.snd) : l = l' := by
  rw [← List.zip_unzip l, ← List.zip_unzip l', List.unzip_eq_map, List.unzip_eq_map]
  exact congrArg₂ List.zip hfst hsnd

theorem items_perm_of_same {mapping mapping' : Dict Bytes Bytes} (h : mapping.Same mapping') :
    mapping.items.Perm mapping'.items := by
  apply (List.perm_ext_iff_of_nodup mapping.nodup_items mapping'.nodup_items).2
  intro item
  rw [← Dict.get?_eq_some_iff, ← Dict.get?_eq_some_iff, h]

/-- The order in which a map was filled does not matter. -/
theorem itemsSorted_of_same {mapping mapping' : Dict Bytes Bytes} (h : mapping.Same mapping') :
    itemsSorted mapping = itemsSorted mapping' := by
  have hsorted (m : Dict Bytes Bytes) : (itemsSorted m).Pairwise fun a b => decide (a.1 ≤ b.1) = true := by
    apply List.pairwise_mergeSort
    · intro a b c hab hbc
      rw [decide_eq_true_iff] at hab hbc ⊢
      exact List.le_trans hab hbc
    · intro a b
      rw [Bool.or_eq_true, decide_eq_true_iff, decide_eq_true_iff]
      exact List.le_total a.1 b.1
  refine List.Perm.eq_of_pairwise ?_ (hsorted mapping) (hsorted mapping') ?_
  · intro a b ha hb hab hba
    rw [decide_eq_true_iff] at hab hba
    have hkey : a.1 = b.1 := List.le_antisymm hab hba
    have hget := Dict.get?_eq_some_iff.2 (mem_itemsSorted.1 ha)
    rw [h, hkey, Dict.get?_eq_some_iff.2 (mem_itemsSorted.1 hb)] at hget
    exact Prod.ext hkey (Option.some.inj hget).symm
  · exact ((List.mergeSort_perm _ _).trans (items_perm_of_same h)).trans (List.mergeSort_perm _ _).symm

theorem getMerkleizedMapCommitment_of_same {mapping mapping' : Dict Bytes Bytes}
    (h : mapping.Same mapping') :
    getMerkleizedMapCommitment R mapping = getMerkleizedMapCommitment R mapping' := by
  unfold getMerkleizedMapCommitment
  rw [itemsSorted_of_same h, ← length_itemsSorted mapping, itemsSorted_of_same h, length_itemsSorted]

theorem same_of_commitment {mapping mapping' : Dict Bytes Bytes}
    (hsize : mapping.size < 2 ^ 64) (hsize' : mapping'.size < 2 ^ 64)
    (h : getMerkleizedMapCommitment R mapping = getMerkleizedMapCommitment R mapping') :
    mapping.Same mapping' ∨ HashClash R (mapInputs R mapping) (mapInputs R mapping') := by
  unfold getMerkleizedMapCommitment at h
  rw [List.append_assoc, List.append_assoc] at h
  obtain ⟨hlen, hroots⟩ := serCompactSize_append_inj hsize hsize' h
  obtain ⟨hkeys, hvalues⟩ := List.append_inj hroots ((root_length _).trans (root_length _).symm)
  have hcount : (itemsSorted mapping).length = (itemsSorted mapping').length := by
    rw [length_itemsSorted, length_itemsSorted, hlen]
  have htree (es : List (Bytes × Bytes)) (f : Bytes × Bytes → Bytes) :
      MerkleTree.new R (es.map fun i => elementDigest R (f i)) = listTree R (es.map f) := by
    rw [listTree, List.map_map]
    rfl
  rw [htree _ Prod.fst, htree _ Prod.fst] at hkeys
  rw [htree _ Prod.snd, htree _ Prod.snd] at hvalues
  rcases elements_of_root (by simpa using hcount) hkeys with hkeys | hclash
  · rcases elements_of_root (by simpa using hcount) hvalues with hvalues | hclash
    · exact Or.inl (same_of_itemsSorted (eq_of_map_fst_snd hkeys hvalues))
    · exact Or.inr (hclash.mono (List.subset_append_right _ _) (List.subset_append_right _ _))
  · exact Or.inr (hclash.mono (List.subset_append_left _ _) (List.subset_append_left _ _))

/-- Two maps have one commitment if they map the same, and only then unless a string
that is hashed for one clashes with one for the other. -/
theorem getMerkleizedMapCommitment_binds {mapping mapping' : Dict Bytes Bytes}
    (hsize : mapping.size < 2 ^ 64) (hsize' : mapping'.size < 2 ^ 64) :
    (mapping.Same mapping' →
      getMerkleizedMapCommitment R mapping = getMerkleizedMapCommitment R mapping') ∧
    (getMerkleizedMapCommitment R mapping = getMerkleizedMapCommitment R mapping' →
      mapping.Same mapping' ∨ HashClash R (mapInputs R mapping) (mapInputs R mapping')) :=
  ⟨getMerkleizedMapCommitment_of_same, same_of_commitment hsize hsize'⟩

theorem getMerkleizedMapCommitment_binds_two :
    let mapping : Dict Bytes Bytes := (Dict.empty.set [1] [2]).set [3] [4]
    let mapping' : Dict Bytes Bytes := (Dict.empty.set [3] [4]).set [1] [2]
    (mapping.Same mapping' → getMerkleizedMapCommitment Runtime.zeros mapping =
      getMerkleizedMapCommitment Runtime.zeros mapping') ∧
    (getMerkleizedMapCommitment Runtime.zeros mapping = getMerkleizedMapCommitment Runtime.zeros mapping' →
      mapping.Same mapping' ∨ HashClash Runtime.zeros (mapInputs Runtime.zeros mapping)
        (mapInputs Runtime.zeros mapping')) :=
  getMerkleizedMapCommitment_binds (R := Runtime.zeros) (by decide) (by decide)

end LedgerBitcoin

end Hwi
