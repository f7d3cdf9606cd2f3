import Hwi.Lib.LeafTree
import Mathlib.Algebra.Order.Ring.Nat
import Mathlib.Data.List.Induction
import Mathlib.Data.Nat.Log

/-! Hash trees whose left subtrees are full: the root as the hash of a list, the
proof that a leaf is in the list, and what a proof or a root says about the list
unless two inputs of the hash clash. The hash of two children is any function. -/

namespace Hwi

namespace LeafTree

variable {H : Type}

/-! ### Shape -/

/-- Every leaf is at depth `k`. -/
inductive Perfect : ℕ → LeafTree H → Prop
  | leaf (a : H) : Perfect 0 (leaf a)
  | node {k : ℕ} {l r : LeafTree H} : Perfect k l → Perfect k r → Perfect (k + 1) (node l r)

/-- Every left subtree is full and no smaller than what stands to its right. -/
inductive LeftComplete : LeafTree H → Prop
  | leaf (a : H) : LeftComplete (leaf a)
  | node {k : ℕ} {l r : LeafTree H} (hl : Perfect k l) (hr : LeftComplete r)
      (hsize : r.leaves.length ≤ 2 ^ k) : LeftComplete (node l r)

theorem length_leaves_pos (t : LeafTree H) : 0 < t.leaves.length :=
  List.length_pos_of_ne_nil t.leaves_ne_nil

theorem Perfect.length {k : ℕ} {t : LeafTree H} (h : Perfect k t) : t.leaves.length = 2 ^ k := by
  induction h with
  | leaf a => rfl
  | node _ _ ihl ihr =>
    rw [leaves, List.length_append, ihl, ihr]
    omega

theorem Perfect.leftComplete {k : ℕ} {t : LeafTree H} (h : Perfect k t) : LeftComplete t := by
  induction h with
  | leaf a => exact .leaf a
  | node hl hr _ ihr => exact .node hl ihr hr.length.le

/-- The leaves of the left subtree under a root with `n` leaves: the largest power
of two below `n`. -/
def leftSize (n : ℕ) : ℕ := 2 ^ Nat.log 2 (n - 1)

theorem leftSize_pos (n : ℕ) : 0 < leftSize n := Nat.two_pow_pos _

theorem leftSize_lt {n : ℕ} (h : 2 ≤ n) : leftSize n < n := by
  have hle : leftSize n ≤ n - 1 := Nat.pow_log_le_self 2 (by omega)
  omega

theorem le_two_mul_leftSize (n : ℕ) : n ≤ 2 * leftSize n := by
  have hlt : n - 1 < 2 ^ (Nat.log 2 (n - 1) + 1) := Nat.lt_pow_succ_log_self (by omega) _
  unfold leftSize
  omega

/-- A power of two that leaves no more than itself is the one. -/
theorem eq_leftSize {n k : ℕ} (hlt : 2 ^ k < n) (hle : n ≤ 2 * 2 ^ k) : 2 ^ k = leftSize n := by
  unfold leftSize
  rw [Nat.log_eq_of_pow_le_of_lt_pow (m := k) (by omega) (by omega)]

theorem Perfect.eq_leftSize {k : ℕ} {l r : LeafTree H} (hl : Perfect k l)
    (hsize : r.leaves.length ≤ 2 ^ k) :
    l.leaves.length = leftSize (LeafTree.node l r).leaves.length := by
  have hpos := r.length_leaves_pos
  rw [hl.length, leaves, List.length_append, hl.length]
  exact LeafTree.eq_leftSize (by omega) (by omega)

/-- Trees of this shape with as many leaves branch at the same place. -/
theorem LeftComplete.leftSize {l r : LeafTree H} (h : LeftComplete (.node l r)) :
    l.leaves.length = LeafTree.leftSize (LeafTree.node l r).leaves.length ∧
      LeftComplete l ∧ LeftComplete r := by
  cases h with
  | node hl hr hsize => exact ⟨hl.eq_leftSize hsize, hl.leftComplete, hr⟩

/-- A tree of this shape whose leaves are a power of two is full. -/
theorem LeftComplete.perfect {k : ℕ} {t : LeafTree H} (h : LeftComplete t)
    (hlen : t.leaves.length = 2 ^ k) : Perfect k t := by
  induction h generalizing k with
  | leaf a =>
    cases k with
    | zero => exact .leaf a
    | succ k =>
      rw [leaves, List.length_singleton, Nat.pow_succ] at hlen
      omega
  | @node j l r hl hr hsize ih =>
    have hpos := r.length_leaves_pos
    rw [leaves, List.length_append, hl.length] at hlen
    have hjk : j < k := (Nat.pow_lt_pow_iff_right (by omega)).1 (by omega : 2 ^ j < 2 ^ k)
    have hkj : k < j + 2 := (Nat.pow_lt_pow_iff_right (by omega : 1 < 2)).1 (by
      rw [← hlen, Nat.pow_add]
      omega)
    obtain rfl : k = j + 1 := by omega
    rw [Nat.pow_succ] at hlen
    exact .node hl (ih (by omega))

/-- The tree is full if its subtrees have as many leaves. -/
theorem LeftComplete.perfect_of_length_eq {l r : LeafTree H} (h : LeftComplete (.node l r))
    (hlen : l.leaves.length = r.leaves.length) : ∃ k, Perfect k (.node l r) := by
  cases h with
  | @node k _ _ hl hr _ =>
    rw [hl.length] at hlen
    exact ⟨k + 1, .node hl (hr.perfect hlen.symm)⟩

/-! ### Adding and changing a leaf -/

/-- Add a leaf on the right: beside the tree where it is full, else below its right
child. -/
def push (a : H) : LeafTree H → LeafTree H
  | leaf b => node (leaf b) (leaf a)
  | node l r =>
    if l.leaves.length = r.leaves.length then node (node l r) (leaf a) else node l (r.push a)

/-- Change the leaf `i`. -/
def set (a : H) : LeafTree H → ℕ → LeafTree H
  | leaf _, _ => leaf a
  | node l r, i =>
    if i < l.leaves.length then node (l.set a i) r else node l (r.set a (i - l.leaves.length))

@[simp] theorem leaves_push (t : LeafTree H) (a : H) : (t.push a).leaves = t.leaves ++ [a] := by
  induction t with
  | leaf b => rfl
  | node l r _ ihr =>
    rw [push]
    split_ifs
    · rfl
    · rw [leaves, leaves, ihr, List.append_assoc]

theorem LeftComplete.push {t : LeafTree H} (h : LeftComplete t) (a : H) :
    LeftComplete (t.push a) := by
  induction t with
  | leaf b => exact .node (.leaf b) (.leaf a) le_rfl
  | node l r _ ihr =>
    rw [LeafTree.push]
    split_ifs with hlen
    · obtain ⟨k, hk⟩ := h.perfect_of_length_eq hlen
      exact .node hk (.leaf a) (Nat.two_pow_pos k)
    · cases h with
      | node hl hr hsize =>
        rw [hl.length] at hlen
        refine .node hl (ihr hr) ?_
        rw [leaves_push, List.length_append, List.length_singleton]
        omega

/-- A tree of this shape is full where its leaves are a power of two. -/
theorem LeftComplete.length_eq_iff {l r : LeafTree H} (h : LeftComplete (.node l r)) :
    l.leaves.length = r.leaves.length ↔ ∃ k, (LeafTree.node l r).leaves.length = 2 ^ k := by
  constructor
  · intro hlen
    obtain ⟨k, hk⟩ := h.perfect_of_length_eq hlen
    exact ⟨k, hk.length⟩
  · rintro ⟨k, hk⟩
    cases h.perfect hk with
    | node hl hr => rw [hl.length, hr.length]

theorem LeftComplete.push_eq_node {t : LeafTree H} (h : LeftComplete t) (a : H)
    (hlen : ∃ k, t.leaves.length = 2 ^ k) : t.push a = .node t (.leaf a) := by
  cases t with
  | leaf b => rfl
  | node l r => rw [LeafTree.push, if_pos (h.length_eq_iff.2 hlen)]

theorem LeftComplete.push_node {l r : LeafTree H} (h : LeftComplete (.node l r)) (a : H)
    (hlen : ¬∃ k, (LeafTree.node l r).leaves.length = 2 ^ k) :
    (LeafTree.node l r).push a = .node l (r.push a) := by
  rw [LeafTree.push, if_neg (mt h.length_eq_iff.1 hlen)]

section
variable {K : Type} (f : H → K)

theorem Perfect.map {k : ℕ} {t : LeafTree H} (h : Perfect k t) : Perfect k (t.map f) := by
  induction h with
  | leaf a => exact .leaf (f a)
  | node _ _ ihl ihr => exact .node ihl ihr

theorem LeftComplete.map {t : LeafTree H} (h : LeftComplete t) : LeftComplete (t.map f) := by
  induction h with
  | leaf a => exact .leaf (f a)
  | node hl _ hsize ih => exact .node (hl.map f) ih (by rwa [leaves_map, List.length_map])

end

/-- Every list has a tree of this shape. -/
theorem exists_leftComplete {as : List H} (h : as ≠ []) :
    ∃ t : LeafTree H, LeftComplete t ∧ t.leaves = as := by
  induction as using List.reverseRecOn with
  | nil => exact absurd rfl h
  | append_singleton as a ih =>
    by_cases has : as = []
    · rw [has]
      exact ⟨.leaf a, .leaf a, rfl⟩
    · obtain ⟨t, ht, hleaves⟩ := ih has
      exact ⟨t.push a, ht.push a, by rw [leaves_push, hleaves]⟩

theorem leaves_set (t : LeafTree H) (a : H) {i : ℕ} (hi : i < t.leaves.length) :
    (t.set a i).leaves = t.leaves.set i a := by
  induction t generalizing i with
  | leaf b =>
    obtain rfl : i = 0 := by simpa [leaves] using hi
    rfl
  | node l r ihl ihr =>
    rw [leaves, List.length_append] at hi
    rw [set]
    split_ifs with hil
    · rw [leaves, leaves, ihl hil, List.set_append_left _ _ hil]
    · rw [leaves, leaves, ihr (by omega), List.set_append_right _ _ (by omega)]

theorem length_leaves_set (t : LeafTree H) (a : H) (i : ℕ) :
    (t.set a i).leaves.length = t.leaves.length := by
  induction t generalizing i with
  | leaf b => rfl
  | node l r ihl ihr =>
    rw [set]
    split_ifs
    · rw [leaves, leaves, List.length_append, List.length_append, ihl]
    · rw [leaves, leaves, List.length_append, List.length_append, ihr]

theorem Perfect.set {k : ℕ} {t : LeafTree H} (h : Perfect k t) (a : H) (i : ℕ) :
    Perfect k (t.set a i) := by
  induction h generalizing i with
  | leaf b => exact .leaf a
  | node hl hr ihl ihr =>
    rw [LeafTree.set]
    split_ifs
    · exact .node (ihl i) hr
    · exact .node hl (ihr _)

theorem LeftComplete.set {t : LeafTree H} (h : LeftComplete t) (a : H) (i : ℕ) :
    LeftComplete (t.set a i) := by
  induction h generalizing i with
  | leaf b => exact .leaf a
  | node hl hr hsize ih =>
    rw [LeafTree.set]
    split_ifs
    · exact .node (hl.set a i) hr hsize
    · exact .node hl (ih _) (by rwa [length_leaves_set])

/-! ### The root -/

section

variable (combine : H → H → H)

def root : LeafTree H → H
  | leaf a => a
  | node l r => combine l.root r.root

/-- The pairs of children that are hashed under the root. -/
def pairs : LeafTree H → List (H × H)
  | leaf _ => []
  | node l r => (l.root combine, r.root combine) :: (l.pairs ++ r.pairs)

/-- Two different pairs have one hash. -/
def Clash (ps qs : List (H × H)) : Prop :=
  ∃ p ∈ ps, ∃ q ∈ qs, p ≠ q ∧ combine p.1 p.2 = combine q.1 q.2

variable {combine}

theorem Clash.mono {ps ps' qs qs' : List (H × H)} (h : Clash combine ps qs) (hps : ps ⊆ ps')
    (hqs : qs ⊆ qs') : Clash combine ps' qs' := by
  obtain ⟨p, hp, q, hq, hne, heq⟩ := h
  exact ⟨p, hps hp, q, hqs hq, hne, heq⟩

/-- The root and the number of leaves determine the leaves, unless pairs clash. -/
theorem LeftComplete.eq_of_root {t t' : LeafTree H} (h : LeftComplete t) (h' : LeftComplete t')
    (hlen : t.leaves.length = t'.leaves.length) (hroot : t.root combine = t'.root combine) :
    t = t' ∨ Clash combine (t.pairs combine) (t'.pairs combine) := by
  induction t generalizing t' with
  | leaf a =>
    cases t' with
    | leaf b =>
      cases hroot
      exact Or.inl rfl
    | node l' r' =>
      have hl := l'.length_leaves_pos
      have hr := r'.length_leaves_pos
      rw [leaves, leaves, List.length_append] at hlen
      simp at hlen
      omega
  | node l r ihl ihr =>
    cases t' with
    | leaf b =>
      have hl := l.length_leaves_pos
      have hr := r.length_leaves_pos
      rw [leaves, leaves, List.length_append] at hlen
      simp at hlen
      omega
    | node l' r' =>
      obtain ⟨hsize, hl, hr⟩ := h.leftSize
      obtain ⟨hsize', hl', hr'⟩ := h'.leftSize
      have hlenl : l.leaves.length = l'.leaves.length := by rw [hsize, hsize', hlen]
      have hlenr : r.leaves.length = r'.leaves.length := by
        rw [leaves, leaves, List.length_append, List.length_append] at hlen
        omega
      by_cases hpair : (l.root combine, r.root combine) = (l'.root combine, r'.root combine)
      · obtain ⟨hrootl, hrootr⟩ := Prod.mk.inj hpair
        rcases ihl hl hl' hlenl hrootl with rfl | hclash
        · rcases ihr hr hr' hlenr hrootr with rfl | hclash
          · exact Or.inl rfl
          · exact Or.inr (hclash.mono (List.subset_cons_of_subset _ (List.subset_append_right _ _))
              (List.subset_cons_of_subset _ (List.subset_append_right _ _)))
        · exact Or.inr (hclash.mono (List.subset_cons_of_subset _ (List.subset_append_left _ _))
            (List.subset_cons_of_subset _ (List.subset_append_left _ _)))
      · exact Or.inr ⟨_, List.mem_cons_self, _, List.mem_cons_self, hpair, hroot⟩

end

/-! ### Proofs of leaves -/

/-- On which side of its parent each node stands on the way up from leaf `i` of
`n`, `true` for the right. -/
def sides (n i : ℕ) : List Bool :=
  if n < 2 then []
  else if i < leftSize n then sides (leftSize n) i ++ [false]
  else sides (n - leftSize n) (i - leftSize n) ++ [true]
termination_by n
decreasing_by
  · exact leftSize_lt (by omega)
  · have hpos := leftSize_pos n
    omega

/-- The way up from a leaf of at most `2 ^ k` has at most `k` steps. -/
theorem length_sides_le {k n : ℕ} (h : n ≤ 2 ^ k) (i : ℕ) : (sides n i).length ≤ k := by
  induction k generalizing n i with
  | zero =>
    rw [sides, if_pos (by simpa using Nat.lt_succ_of_le h)]
    exact Nat.le_refl 0
  | succ k ih =>
    rw [sides]
    split_ifs with hn hi
    · exact Nat.zero_le _
    · have hlt := leftSize_lt (n := n) (by omega)
      have hle : leftSize n ≤ 2 ^ k := by
        refine (Nat.pow_le_pow_iff_right (by omega)).2 (Nat.le_of_lt_succ ?_)
        exact (Nat.pow_lt_pow_iff_right (by omega)).1 (hlt.trans_le h)
      rw [List.length_append]
      exact Nat.succ_le_succ (ih hle i)
    · have hle := le_two_mul_leftSize n
      have hsize := leftSize_lt (n := n) (by omega)
      have hk : leftSize n ≤ 2 ^ k := by
        refine (Nat.pow_le_pow_iff_right (by omega)).2 (Nat.le_of_lt_succ ?_)
        exact (Nat.pow_lt_pow_iff_right (by omega)).1 (hsize.trans_le h)
      rw [List.length_append]
      exact Nat.succ_le_succ (ih (by omega) _)

section

variable (combine : H → H → H)

/-- The hashes beside the way up from leaf `i`. -/
def siblings : LeafTree H → ℕ → List H
  | leaf _, _ => []
  | node l r, i =>
    if i < l.leaves.length then l.siblings i ++ [r.root combine]
    else r.siblings (i - l.leaves.length) ++ [l.root combine]

/-- The children at a step up. -/
def stepPair (acc : H) (step : Bool × H) : H × H :=
  if step.1 then (step.2, acc) else (acc, step.2)

/-- The hash of the parent after each step up. -/
def climb (a : H) (steps : List (Bool × H)) : H :=
  steps.foldl (fun acc step => combine (stepPair acc step).1 (stepPair acc step).2) a

/-- The pairs of children that are hashed on the way up. -/
def climbPairs : H → List (Bool × H) → List (H × H)
  | _, [] => []
  | a, step :: steps =>
    stepPair a step :: climbPairs (combine (stepPair a step).1 (stepPair a step).2) steps

/-- A proof that the root of `n` leaves has `a` as its leaf `i`. -/
structure Proves (root : H) (n i : ℕ) (a : H) (proof : List H) : Prop where
  length_eq : proof.length = (sides n i).length
  climb_eq : climb combine a ((sides n i).zip proof) = root

variable {combine}

theorem climb_concat (a : H) (steps : List (Bool × H)) (step : Bool × H) :
    climb combine a (steps ++ [step]) =
      combine (stepPair (climb combine a steps) step).1 (stepPair (climb combine a steps) step).2 := by
  rw [climb, List.foldl_concat]
  rfl

theorem climbPairs_concat (a : H) (steps : List (Bool × H)) (step : Bool × H) :
    climbPairs combine a (steps ++ [step]) =
      climbPairs combine a steps ++ [stepPair (climb combine a steps) step] := by
  induction steps generalizing a with
  | nil => rfl
  | cons s steps ih =>
    rw [List.cons_append, climbPairs, ih, climbPairs]
    rfl

theorem sides_node {l r : LeafTree H} (h : LeftComplete (.node l r)) (i : ℕ) :
    sides (node l r).leaves.length i =
      if i < l.leaves.length then sides l.leaves.length i ++ [false]
      else sides r.leaves.length (i - l.leaves.length) ++ [true] := by
  obtain ⟨hsize, -, -⟩ := h.leftSize
  have hl := l.length_leaves_pos
  have hr := r.length_leaves_pos
  have hlen : (node l r).leaves.length = l.leaves.length + r.leaves.length := List.length_append
  rw [sides, if_neg (by omega), ← hsize, hlen, Nat.add_sub_cancel_left]

theorem sides_one (i : ℕ) : sides 1 i = [] := by
  rw [sides, if_pos (by omega)]

/-- The hashes beside the way up prove the leaf. -/
theorem LeftComplete.proves {t : LeafTree H} (h : LeftComplete t) {i : ℕ} {a : H}
    (ha : t.leaves[i]? = some a) :
    Proves combine (t.root combine) t.leaves.length i a (t.siblings combine i) := by
  induction t generalizing i with
  | leaf b =>
    rw [leaves, List.getElem?_singleton] at ha
    obtain ⟨rfl, rfl⟩ : i = 0 ∧ b = a := by simpa using ha
    exact ⟨by rw [leaves, List.length_singleton, sides_one]; rfl, by
      rw [leaves, List.length_singleton, sides_one]
      rfl⟩
  | node l r ihl ihr =>
    obtain ⟨-, hl, hr⟩ := h.leftSize
    rw [leaves] at ha
    by_cases hi : i < l.leaves.length
    · rw [List.getElem?_append_left hi] at ha
      obtain ⟨hlen, hclimb⟩ := ihl hl ha
      constructor
      · rw [sides_node h, if_pos hi, siblings, if_pos hi, List.length_append, List.length_append, hlen]
        rfl
      · rw [sides_node h, if_pos hi, siblings, if_pos hi, List.zip_append hlen.symm]
        change climb combine a (_ ++ [(false, r.root combine)]) = _
        rw [climb_concat, hclimb]
        rfl
    · rw [List.getElem?_append_right (by omega)] at ha
      obtain ⟨hlen, hclimb⟩ := ihr hr ha
      constructor
      · rw [sides_node h, if_neg hi, siblings, if_neg hi, List.length_append, List.length_append, hlen]
        rfl
      · rw [sides_node h, if_neg hi, siblings, if_neg hi, List.zip_append hlen.symm]
        change climb combine a (_ ++ [(true, l.root combine)]) = _
        rw [climb_concat, hclimb]
        rfl

/-- The last step of a proof. -/
theorem Proves.concat {root a : H} {n i : ℕ} {proof : List H} {steps : List Bool} {side : Bool}
    (h : Proves combine root n i a proof) (hsides : sides n i = steps ++ [side]) :
    ∃ rest s, proof = rest ++ [s] ∧ rest.length = steps.length ∧
      (sides n i).zip proof = steps.zip rest ++ [(side, s)] := by
  obtain ⟨hlen, -⟩ := h
  rw [hsides] at hlen
  rcases List.eq_nil_or_concat proof with rfl | ⟨rest, s, rfl⟩
  · simp at hlen
  · have hrest : rest.length = steps.length := by simpa using hlen
    rw [List.concat_eq_append, hsides]
    exact ⟨rest, s, rfl, hrest, List.zip_append hrest.symm⟩

/-- The last pair that is hashed on the way up is the pair under the root, unless
the two clash. -/
theorem stepPair_eq_or_clash {p : H × H} {ps : List (H × H)} {a : H} {steps : List (Bool × H)}
    {step : Bool × H} (h : climb combine a (steps ++ [step]) = combine p.1 p.2) :
    p = stepPair (climb combine a steps) step ∨
      Clash combine (p :: ps) (climbPairs combine a (steps ++ [step])) := by
  rw [climb_concat] at h
  by_cases hp : p = stepPair (climb combine a steps) step
  · exact Or.inl hp
  · rw [climbPairs_concat]
    exact Or.inr ⟨p, List.mem_cons_self, _, List.mem_append_right _ List.mem_cons_self, hp, h.symm⟩

theorem Clash.cons_concat {p : H × H} {ps ps' : List (H × H)} {a : H} {steps : List (Bool × H)}
    {step : Bool × H} (h : Clash combine ps (climbPairs combine a steps)) (hps : ps ⊆ ps') :
    Clash combine (p :: ps') (climbPairs combine a (steps ++ [step])) := by
  rw [climbPairs_concat]
  exact h.mono (List.subset_cons_of_subset _ hps) fun q hq => List.mem_append_left _ hq

/-- A proof proves the leaf that the tree has there, with the hashes of the tree,
unless pairs clash. -/
theorem LeftComplete.eq_of_proves {t : LeafTree H} (h : LeftComplete t) {i : ℕ} {a : H}
    {proof : List H} (hi : i < t.leaves.length)
    (hproof : Proves combine (t.root combine) t.leaves.length i a proof) :
    t.leaves[i]? = some a ∧ proof = t.siblings combine i ∨
      Clash combine (t.pairs combine)
        (climbPairs combine a ((sides t.leaves.length i).zip proof)) := by
  induction t generalizing i proof with
  | leaf b =>
    obtain rfl : i = 0 := by simpa [leaves] using hi
    obtain ⟨hlen, hclimb⟩ := hproof
    rw [leaves, List.length_singleton, sides_one] at hlen hclimb
    obtain rfl := List.length_eq_zero_iff.1 hlen
    cases hclimb
    exact Or.inl ⟨rfl, rfl⟩
  | node l r ihl ihr =>
    obtain ⟨-, hl, hr⟩ := h.leftSize
    have hsides := sides_node h i
    have hclimb := hproof.climb_eq
    by_cases hil : i < l.leaves.length
    · rw [if_pos hil] at hsides
      obtain ⟨rest, s, rfl, hrest, hzip⟩ := hproof.concat hsides
      rw [hzip] at hclimb ⊢
      rcases stepPair_eq_or_clash (p := (l.root combine, r.root combine)) hclimb with hpair | hclash
      · obtain ⟨hroot, rfl⟩ := Prod.mk.inj hpair
        rcases ihl hl hil ⟨hrest, hroot.symm⟩ with ⟨ha, hsib⟩ | hclash
        · refine Or.inl ⟨?_, ?_⟩
          · rw [leaves, List.getElem?_append_left hil, ha]
          · rw [siblings, if_pos hil, ← hsib]
        · exact Or.inr (hclash.cons_concat (List.subset_append_left _ _))
      · exact Or.inr hclash
    · have hir : i - l.leaves.length < r.leaves.length := by
        rw [leaves, List.length_append] at hi
        omega
      rw [if_neg hil] at hsides
      obtain ⟨rest, s, rfl, hrest, hzip⟩ := hproof.concat hsides
      rw [hzip] at hclimb ⊢
      rcases stepPair_eq_or_clash (p := (l.root combine, r.root combine)) hclimb with hpair | hclash
      · obtain ⟨rfl, hroot⟩ := Prod.mk.inj hpair
        rcases ihr hr hir ⟨hrest, hroot.symm⟩ with ⟨ha, hsib⟩ | hclash
        · refine Or.inl ⟨?_, ?_⟩
          · rw [leaves, List.getElem?_append_right (by omega), ha]
          · rw [siblings, if_neg hil, ← hsib]
        · exact Or.inr (hclash.cons_concat (List.subset_append_right _ _))
      · exact Or.inr hclash

end

end LeafTree

end Hwi
