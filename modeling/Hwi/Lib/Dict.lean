import Mathlib.Data.List.Nodup
import Mathlib.Data.List.Perm.Basic
import Mathlib.Tactic.Common

/-! Insertion-ordered dictionaries and sets with the distinctness of their keys
as a field. Two dictionaries are compared by what they return for each key;
their order only matters to code that iterates. -/

namespace Hwi

/-- A dictionary as the list of its items in insertion order. -/
structure Dict (κ ν : Type) where
  items : List (κ × ν)
  nodup : (items.map Prod.fst).Nodup
deriving DecidableEq

namespace Dict

variable {κ ν : Type}

def empty : Dict κ ν := ⟨[], List.nodup_nil⟩

instance : EmptyCollection (Dict κ ν) := ⟨empty⟩
instance : Inhabited (Dict κ ν) := ⟨empty⟩

def keys (d : Dict κ ν) : List κ := d.items.map Prod.fst

def values (d : Dict κ ν) : List ν := d.items.map Prod.snd

def size (d : Dict κ ν) : ℕ := d.items.length

@[simp] theorem items_empty : (∅ : Dict κ ν).items = [] := rfl

variable [DecidableEq κ]

def get? (d : Dict κ ν) (k : κ) : Option ν := d.items.lookup k

def contains (d : Dict κ ν) (k : κ) : Bool := decide (k ∈ d.keys)

/-- Replace the value of a key in place. -/
def replace (k : κ) (v : ν) (l : List (κ × ν)) : List (κ × ν) :=
  l.map fun e => if e.1 = k then (e.1, v) else e

theorem replace_keys (k : κ) (v : ν) (l : List (κ × ν)) :
    (replace k v l).map Prod.fst = l.map Prod.fst := by
  simp only [replace, List.map_map]
  apply List.map_congr_left
  intro e _
  by_cases h : e.1 = k <;> simp [h]

/-- `d[k] = v`: an existing key keeps its place, a new one goes to the end. -/
def set (d : Dict κ ν) (k : κ) (v : ν) : Dict κ ν :=
  if h : k ∈ d.keys then ⟨replace k v d.items, by rw [replace_keys]; exact d.nodup⟩
  else ⟨d.items ++ [(k, v)], by
    rw [List.map_append]
    refine List.nodup_append.2 ⟨d.nodup, by simp, ?_⟩
    rintro a ha b hb rfl
    obtain rfl : a = k := List.mem_singleton.1 hb
    exact h ha⟩

theorem lookup_eq_some_iff {l : List (κ × ν)} (h : (l.map Prod.fst).Nodup) {k : κ} {v : ν} :
    l.lookup k = some v ↔ (k, v) ∈ l := by
  induction l with
  | nil => simp
  | cons e t ih =>
    obtain ⟨k', v'⟩ := e
    rw [List.map_cons, List.nodup_cons] at h
    by_cases hk : k = k'
    · subst hk
      have hnot : ∀ w, (k, w) ∉ t := fun w hw => h.1 (List.mem_map.2 ⟨_, hw, rfl⟩)
      simp [hnot, eq_comm]
    · have hb : (k == k') = false := by simpa using hk
      simp [List.lookup_cons, hb, ih h.2, hk]

theorem get?_eq_some_iff {d : Dict κ ν} {k : κ} {v : ν} :
    d.get? k = some v ↔ (k, v) ∈ d.items := lookup_eq_some_iff d.nodup

theorem get?_eq_none_iff {d : Dict κ ν} {k : κ} : d.get? k = none ↔ k ∉ d.keys := by
  constructor
  · intro h hk
    obtain ⟨⟨k', v⟩, he, rfl⟩ := List.mem_map.1 hk
    rw [← get?_eq_some_iff, h] at he
    exact absurd he (by simp)
  · intro h
    cases hg : d.get? k with
    | none => rfl
    | some v => exact absurd (List.mem_map.2 ⟨_, get?_eq_some_iff.1 hg, rfl⟩) h

theorem contains_eq_isSome (d : Dict κ ν) (k : κ) : d.contains k = (d.get? k).isSome := by
  rw [contains, Bool.eq_iff_iff, decide_eq_true_iff, Option.isSome_iff_ne_none, Ne,
    get?_eq_none_iff, not_not]

@[simp] theorem get?_empty (k : κ) : (∅ : Dict κ ν).get? k = none := rfl

theorem set_items_of_not_mem {d : Dict κ ν} {k : κ} (h : d.get? k = none) (v : ν) :
    (d.set k v).items = d.items ++ [(k, v)] := by
  have hk : k ∉ d.keys := get?_eq_none_iff.1 h
  simp [set, hk]

theorem mem_replace {l : List (κ × ν)} {k k' : κ} {v w : ν} :
    (k', w) ∈ replace k v l ↔
      if k' = k then w = v ∧ k ∈ l.map Prod.fst else (k', w) ∈ l := by
  simp only [replace, List.mem_map]
  by_cases hk : k' = k
  · subst hk
    rw [if_pos rfl]
    constructor
    · rintro ⟨⟨a, b⟩, he, hx⟩
      by_cases ha : a = k'
      · subst ha; rw [if_pos rfl] at hx; cases hx; exact ⟨rfl, ⟨_, he, rfl⟩⟩
      · rw [if_neg ha] at hx; cases hx; exact absurd rfl ha
    · rintro ⟨rfl, ⟨⟨a, b⟩, he, rfl⟩⟩
      exact ⟨_, he, by simp⟩
  · rw [if_neg hk]
    constructor
    · rintro ⟨⟨a, b⟩, he, hx⟩
      by_cases ha : a = k
      · subst ha; rw [if_pos rfl] at hx; cases hx; exact absurd rfl hk
      · rw [if_neg ha] at hx; cases hx; exact he
    · intro he
      exact ⟨_, he, by simp [hk]⟩

theorem mem_set {d : Dict κ ν} {k k' : κ} {v w : ν} :
    (k', w) ∈ (d.set k v).items ↔ if k' = k then w = v else (k', w) ∈ d.items := by
  by_cases h : k ∈ d.keys
  · have hs : (d.set k v).items = replace k v d.items := by simp [set, h]
    rw [hs, mem_replace]
    split_ifs
    · exact and_iff_left h
    · rfl
  · have hs : (d.set k v).items = d.items ++ [(k, v)] := by simp [set, h]
    have hk (u : ν) : (k, u) ∉ d.items := fun hu => h (List.mem_map.2 ⟨_, hu, rfl⟩)
    rw [hs, List.mem_append, List.mem_singleton, Prod.mk.injEq]
    split_ifs with he
    · subst he; simp [hk]
    · simp [he]

/-- The one rule about assignment later proofs use. -/
theorem get?_set (d : Dict κ ν) (k k' : κ) (v : ν) :
    (d.set k v).get? k' = if k' = k then some v else d.get? k' := by
  ext w
  rw [get?_eq_some_iff, mem_set]
  split_ifs
  · simp [eq_comm]
  · exact get?_eq_some_iff.symm

omit [DecidableEq κ] in
theorem nodup_items (d : Dict κ ν) : d.items.Nodup := d.nodup.of_map

/-- Assignment as a change of the bag of items. -/
theorem set_items_perm (d : Dict κ ν) (k : κ) (v : ν) :
    (d.set k v).items.Perm ((k, v) :: d.items.filter fun e => decide (e.1 ≠ k)) := by
  refine (List.perm_ext_iff_of_nodup (nodup_items _) ?_).2 ?_
  · refine List.nodup_cons.2 ⟨?_, d.nodup_items.filter _⟩
    simp
  · rintro ⟨k', w⟩
    rw [mem_set, List.mem_cons, List.mem_filter, Prod.mk.injEq]
    by_cases h : k' = k <;> simp [h]

theorem mem_keys_set {d : Dict κ ν} {k k' : κ} {v : ν} :
    k' ∈ (d.set k v).keys ↔ k' = k ∨ k' ∈ d.keys := by
  rw [← not_iff_not, ← get?_eq_none_iff, get?_set, not_or, ← get?_eq_none_iff]
  by_cases h : k' = k <;> simp [h]

end Dict

/-- A set as the list of its elements in the order they were added. -/
structure OrderedSet (α : Type) where
  elems : List α
  nodup : elems.Nodup
deriving DecidableEq

namespace OrderedSet

variable {α : Type}

instance : EmptyCollection (OrderedSet α) := ⟨⟨[], List.nodup_nil⟩⟩
instance : Inhabited (OrderedSet α) := ⟨∅⟩

instance : Membership α (OrderedSet α) := ⟨fun s a => a ∈ s.elems⟩

theorem mem_def {s : OrderedSet α} {a : α} : a ∈ s ↔ a ∈ s.elems := Iff.rfl

@[simp] theorem not_mem_empty (a : α) : a ∉ (∅ : OrderedSet α) := List.not_mem_nil

variable [DecidableEq α]

instance (a : α) (s : OrderedSet α) : Decidable (a ∈ s) := inferInstanceAs (Decidable (a ∈ s.elems))

/-- `s.add(a)` -/
def add (s : OrderedSet α) (a : α) : OrderedSet α :=
  if h : a ∈ s.elems then s
  else ⟨s.elems ++ [a], List.nodup_append.2 ⟨s.nodup, by simp, by
    rintro x hx y hy rfl
    exact h (List.mem_singleton.1 hy ▸ hx)⟩⟩

@[simp] theorem mem_add {s : OrderedSet α} {a b : α} : b ∈ s.add a ↔ b = a ∨ b ∈ s := by
  unfold add
  split_ifs with h
  · constructor
    · exact Or.inr
    · rintro (rfl | hb)
      · exact h
      · exact hb
  · simp only [mem_def, List.mem_append, List.mem_singleton]
    exact or_comm

theorem add_elems_of_not_mem {s : OrderedSet α} {a : α} (h : a ∉ s) :
    (s.add a).elems = s.elems ++ [a] := by
  have h' : a ∉ s.elems := h
  simp [add, h']

theorem mem_foldl_add {l : List α} {s : OrderedSet α} {a : α} : a ∈ l.foldl add s ↔ a ∈ l ∨ a ∈ s := by
  induction l generalizing s with
  | nil => simp
  | cons b t ih => rw [List.foldl_cons, ih, mem_add, List.mem_cons, ← or_assoc, or_comm (a := a ∈ t)]

/-- Adding distinct new elements one by one appends them. -/
theorem foldl_add_elems (l : List α) (s : OrderedSet α) (h : (s.elems ++ l).Nodup) :
    (l.foldl add s).elems = s.elems ++ l := by
  induction l generalizing s with
  | nil => simp
  | cons a t ih =>
    have ha : a ∉ s := by
      intro hs
      exact (List.nodup_append.1 h).2.2 a hs a (by simp) rfl
    have he := add_elems_of_not_mem ha
    rw [List.foldl_cons, ih, he, List.append_assoc, List.singleton_append]
    rwa [he, List.append_assoc, List.singleton_append]

end OrderedSet

/-! ### Dictionaries of sets -/

namespace Dict

variable {κ α : Type}

/-- The pairs a dictionary of sets relates. -/
def pairs (d : Dict κ (OrderedSet α)) : List (κ × α) :=
  d.items.flatMap fun e => e.2.elems.map (Prod.mk e.1)

theorem nodup_pairs (d : Dict κ (OrderedSet α)) : d.pairs.Nodup := by
  obtain ⟨items, hnd⟩ := d
  unfold pairs
  induction items with
  | nil => exact List.nodup_nil
  | cons e t ih =>
    obtain ⟨he, ht⟩ := List.nodup_cons.1 hnd
    rw [List.flatMap_cons]
    refine List.nodup_append.2 ⟨e.2.nodup.map fun a b h => (Prod.mk.inj h).2, ih ht, ?_⟩
    rintro ⟨k, a⟩ hka ⟨k', b⟩ hkb heq
    obtain ⟨_, _, hk⟩ := List.mem_map.1 hka
    obtain ⟨e', he', hk'⟩ := List.mem_flatMap.1 hkb
    obtain ⟨_, _, hk'⟩ := List.mem_map.1 hk'
    have h1 : e.1 = k := (Prod.mk.inj hk).1
    have h2 : e'.1 = k' := (Prod.mk.inj hk').1
    have h3 : k = k' := (Prod.mk.inj heq).1
    exact he (List.mem_map.2 ⟨e', he', by rw [h2, ← h3, h1]⟩)

variable [DecidableEq κ] [DecidableEq α]

omit [DecidableEq α] in
theorem mem_pairs {d : Dict κ (OrderedSet α)} {k : κ} {a : α} :
    (k, a) ∈ d.pairs ↔ ∃ s, d.get? k = some s ∧ a ∈ s := by
  simp only [pairs, List.mem_flatMap, List.mem_map, get?_eq_some_iff, Prod.mk.injEq]
  constructor
  · rintro ⟨⟨k', s⟩, he, b, hb, rfl, rfl⟩
    exact ⟨s, he, hb⟩
  · rintro ⟨s, he, ha⟩
    exact ⟨(k, s), he, a, ha, rfl, rfl⟩

/-- Add to the set under a key. -/
def addPair (d : Dict κ (OrderedSet α)) (k : κ) (a : α) : Dict κ (OrderedSet α) :=
  d.set k (((d.get? k).getD ∅).add a)

theorem mem_pairs_addPair {d : Dict κ (OrderedSet α)} {k k' : κ} {a b : α} :
    (k', b) ∈ (d.addPair k a).pairs ↔ (k', b) = (k, a) ∨ (k', b) ∈ d.pairs := by
  rw [mem_pairs, mem_pairs, addPair, get?_set, Prod.mk.injEq]
  split_ifs with h
  · subst h
    cases d.get? k' <;> simp
  · simp [h]

/-- Adding a pair as a change of the bag of pairs. -/
theorem pairs_addPair_perm (d : Dict κ (OrderedSet α)) (k : κ) (a : α) :
    (d.addPair k a).pairs.Perm ((k, a) :: d.pairs.filter fun e => decide (e ≠ (k, a))) := by
  refine (List.perm_ext_iff_of_nodup (nodup_pairs _) ?_).2 ?_
  · refine List.nodup_cons.2 ⟨?_, d.nodup_pairs.filter _⟩
    simp
  · rintro ⟨k', b⟩
    rw [mem_pairs_addPair, List.mem_cons, List.mem_filter, decide_eq_true_iff]
    by_cases h : (k', b) = (k, a) <;> simp [h]

theorem addPair_values_ne_nil {d : Dict κ (OrderedSet α)} (h : ∀ s ∈ d.values, s.elems ≠ []) (k : κ)
    (a : α) : ∀ s ∈ (d.addPair k a).values, s.elems ≠ [] := by
  intro s hs
  obtain ⟨⟨k', s⟩, hmem, rfl⟩ := List.mem_map.1 hs
  rw [addPair, mem_set] at hmem
  split_ifs at hmem
  · rw [hmem]
    exact List.ne_nil_of_mem (OrderedSet.mem_add.2 (Or.inl rfl))
  · exact h s (List.mem_map.2 ⟨_, hmem, rfl⟩)

end Dict

/-! ### Equality up to order -/

/-- The same elements in some order. -/
def OrderedSet.Same {α : Type} (a b : OrderedSet α) : Prop := a.elems.Perm b.elems

namespace Dict

variable {κ ν : Type} [DecidableEq κ]

/-- The same entries, as far as lookup can tell. -/
def Same (d d' : Dict κ ν) : Prop := ∀ k, d.get? k = d'.get? k

/-- Related values under the same keys. -/
def Rel (r : ν → ν → Prop) (d d' : Dict κ ν) : Prop := ∀ k, Option.Rel r (d.get? k) (d'.get? k)

theorem Rel.same {d d' : Dict κ ν} (h : d.Rel Eq d') : d.Same d' := by
  intro k
  have hk := h k
  generalize d.get? k = o, d'.get? k = o' at hk ⊢
  cases hk with
  | none => rfl
  | some heq => rw [heq]

/-- Dictionaries with related items are related. -/
theorem rel_of_items {r : ν → ν → Prop} {d d' : Dict κ ν}
    (h : ∀ k v, (k, v) ∈ d.items → ∃ v', (k, v') ∈ d'.items ∧ r v v')
    (h' : ∀ k v', (k, v') ∈ d'.items → ∃ v, (k, v) ∈ d.items) : d.Rel r d' := by
  intro k
  cases hd : d.get? k with
  | none =>
    cases hd' : d'.get? k with
    | none => exact .none
    | some v' =>
      obtain ⟨v, hv⟩ := h' k v' (get?_eq_some_iff.1 hd')
      rw [get?_eq_some_iff.2 hv] at hd
      cases hd
  | some v =>
    obtain ⟨v', hv', hr⟩ := h k v (get?_eq_some_iff.1 hd)
    rw [get?_eq_some_iff.2 hv']
    exact .some hr

/-- Dictionaries of sets that relate the same pairs hold the same sets. -/
theorem rel_of_pairs_perm {α : Type} {d d' : Dict κ (OrderedSet α)} (h : d'.pairs.Perm d.pairs)
    (hd : ∀ s ∈ d.values, s.elems ≠ []) (hd' : ∀ s ∈ d'.values, s.elems ≠ []) :
    d.Rel OrderedSet.Same d' := by
  have hvalue {e : Dict κ (OrderedSet α)} {k : κ} {s : OrderedSet α} (hs : (k, s) ∈ e.items) :
      s ∈ e.values := List.mem_map.2 ⟨_, hs, rfl⟩
  refine rel_of_items (fun k s hs => ?_) fun k s' hs' => ?_
  · obtain ⟨a, ha⟩ := List.exists_mem_of_ne_nil _ (hd s (hvalue hs))
    obtain ⟨s', hs', -⟩ := mem_pairs.1 (h.mem_iff.2 (mem_pairs.2 ⟨s, get?_eq_some_iff.2 hs, ha⟩))
    refine ⟨s', get?_eq_some_iff.1 hs', (List.perm_ext_iff_of_nodup s.nodup s'.nodup).2 fun b => ?_⟩
    have hiff : (k, b) ∈ d'.pairs ↔ (k, b) ∈ d.pairs := h.mem_iff
    rw [mem_pairs, mem_pairs, hs', get?_eq_some_iff.2 hs] at hiff
    simpa [OrderedSet.mem_def] using hiff.symm
  · obtain ⟨a, ha⟩ := List.exists_mem_of_ne_nil _ (hd' s' (hvalue hs'))
    obtain ⟨s, hs, -⟩ := mem_pairs.1 (h.mem_iff.1 (mem_pairs.2 ⟨s', get?_eq_some_iff.2 hs', ha⟩))
    exact ⟨s, get?_eq_some_iff.1 hs⟩

end Dict

end Hwi
