import Mathlib.Data.List.Basic
import Mathlib.Tactic.Common

/-! Full binary trees by the depths of their leaves from left to right, and the
stack of branches from which such a sequence is read. -/

namespace Hwi

/-- A full binary tree with labelled leaves. -/
inductive LeafTree (α : Type)
  | leaf (a : α)
  | node (left right : LeafTree α)
deriving Repr

namespace LeafTree

variable {α : Type}

/-- The leaves with their depths, of a tree whose root is at depth `n`. -/
def leavesAt : ℕ → LeafTree α → List (α × ℕ)
  | n, leaf a => [(a, n)]
  | n, node l r => l.leavesAt (n + 1) ++ r.leavesAt (n + 1)

def leaves : LeafTree α → List α
  | leaf a => [a]
  | node l r => l.leaves ++ r.leaves

/-- The depths of the leaves from left to right. -/
def depths (t : LeafTree α) : List ℕ := (t.leavesAt 0).map Prod.snd

def height : LeafTree α → ℕ
  | leaf _ => 0
  | node l r => max l.height r.height + 1

@[simp] theorem map_fst_leavesAt (t : LeafTree α) (n : ℕ) :
    (t.leavesAt n).map Prod.fst = t.leaves := by
  induction t generalizing n with
  | leaf a => rfl
  | node l r ihl ihr => simp [leavesAt, leaves, ihl, ihr]

section
variable {β : Type} (f : α → β)

/-- The tree with other labels. -/
def map : LeafTree α → LeafTree β
  | leaf a => leaf (f a)
  | node l r => node l.map r.map

@[simp] theorem leaves_map (t : LeafTree α) : (t.map f).leaves = t.leaves.map f := by
  induction t with
  | leaf a => rfl
  | node l r ihl ihr => simp [map, leaves, ihl, ihr]

theorem leavesAt_map (t : LeafTree α) (n : ℕ) :
    (t.map f).leavesAt n = (t.leavesAt n).map fun p => (f p.1, p.2) := by
  induction t generalizing n with
  | leaf a => rfl
  | node l r ihl ihr => simp [map, leavesAt, ihl, ihr]

@[simp] theorem depths_map (t : LeafTree α) : (t.map f).depths = t.depths := by
  unfold depths
  rw [leavesAt_map, List.map_map]
  rfl

@[simp] theorem height_map (t : LeafTree α) : (t.map f).height = t.height := by
  induction t with
  | leaf a => rfl
  | node l r ihl ihr => rw [map, height, height, ihl, ihr]

end

theorem leaves_ne_nil (t : LeafTree α) : t.leaves ≠ [] := by
  induction t with
  | leaf a => simp [leaves]
  | node l r ihl _ => simp [leaves, ihl]

theorem add_height_le {t : LeafTree α} {n N : ℕ} (h : ∀ p ∈ t.leavesAt n, p.2 ≤ N) :
    n + t.height ≤ N := by
  induction t generalizing n with
  | leaf a => exact h (a, n) List.mem_cons_self
  | node l r ihl ihr =>
    have hl := ihl fun p hp => h p (List.mem_append_left _ hp)
    have hr := ihr fun p hp => h p (List.mem_append_right _ hp)
    rw [height]
    omega

/-- The leaves that are done when the path from the root to the next subtree is a
stack of branches, the last step first, `true` for a right branch: those of a
complete tree to the left of each right branch. -/
inductive Done : List Bool → List (α × ℕ) → Prop
  | root : Done [] []
  | left {branches : List Bool} {done : List (α × ℕ)} :
      Done branches done → Done (false :: branches) done
  | right {branches : List Bool} {done : List (α × ℕ)} (t : LeafTree α) :
      Done branches done → Done (true :: branches) (done ++ t.leavesAt (branches.length + 1))

/-- The leaves that are done with a complete subtree at the end of the path. -/
def Complete (branches : List Bool) (done : List (α × ℕ)) : Prop :=
  ∃ done' : List (α × ℕ), ∃ t : LeafTree α,
    Done branches done' ∧ done = done' ++ t.leavesAt branches.length

theorem Done.complete {branches : List Bool} {done : List (α × ℕ)} (h : Done branches done) (a : α) :
    Complete branches (done ++ [(a, branches.length)]) :=
  ⟨done, leaf a, h, rfl⟩

/-- A right subtree completes its parent. -/
theorem Complete.pop {branches : List Bool} {done : List (α × ℕ)}
    (h : Complete (true :: branches) done) : Complete branches done := by
  obtain ⟨done', r, hdone, rfl⟩ := h
  cases hdone with
  | @right _ done'' l hdone => exact ⟨done'', node l r, hdone, by simp [leavesAt]⟩

/-- After a left subtree comes the right one. -/
theorem Complete.next {branches : List Bool} {done : List (α × ℕ)}
    (h : Complete (false :: branches) done) : Done (true :: branches) done := by
  obtain ⟨done', l, hdone, rfl⟩ := h
  cases hdone with
  | left hdone => exact hdone.right l

theorem Complete.root {done : List (α × ℕ)} (h : Complete [] done) :
    ∃ t : LeafTree α, done = t.leavesAt 0 := by
  obtain ⟨done', t, hdone, rfl⟩ := h
  cases hdone
  exact ⟨t, rfl⟩

end LeafTree

end Hwi
