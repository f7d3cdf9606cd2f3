import Hwi.Lib.Dict
import Mathlib.Tactic.Common

/-! An object with fields, seen as the entries its fields hold. An entry belongs
to one field and fills one slot of it; adding an entry replaces what its slot
held, and an entry that a field cannot tell from nothing is null. -/

namespace Hwi

/-- The fields of `σ` with the entries they hold and how an entry is added. -/
structure FieldStore (σ ε φ ι : Type) [DecidableEq ι] where
  fields : List φ
  mem_fields : ∀ f, f ∈ fields
  nodup_fields : fields.Nodup
  contents : σ → φ → List ε
  add : σ → ε → σ
  field : ε → φ
  slot : ε → ι
  null : ε → Bool
  field_of_mem : ∀ {s f a}, a ∈ contents s f → field a = f
  field_of_slot : ∀ {a b}, slot a = slot b → field a = field b
  contents_add_of_ne : ∀ {s e f}, f ≠ field e → contents (add s e) f = contents s f
  contents_add : ∀ s e, (contents (add s e) (field e)).Perm
    ((if null e then [] else [e]) ++ (contents s (field e)).filter fun a => decide (slot a ≠ slot e))

namespace FieldStore

/-- Changing the contents of one field among others. -/
theorem flatMap_perm_of_update {φ ε : Type} {fields : List φ} (hnd : fields.Nodup)
    {c c' : φ → List ε} {f : φ} (hf : f ∈ fields) {keep : ε → Bool} {new : List ε}
    (hother : ∀ g ∈ fields, g ≠ f → c' g = (c g).filter keep)
    (hown : (c' f).Perm (new ++ (c f).filter keep)) :
    (fields.flatMap c').Perm (new ++ (fields.flatMap c).filter keep) := by
  induction fields with
  | nil => exact absurd hf List.not_mem_nil
  | cons g t ih =>
    obtain ⟨hg, ht⟩ := List.nodup_cons.1 hnd
    rw [List.flatMap_cons, List.flatMap_cons, List.filter_append]
    by_cases hgf : g = f
    · subst hgf
      have hrest : t.flatMap c' = (t.flatMap c).filter keep := by
        rw [List.filter_flatMap]
        apply List.flatMap_congr
        intro x hx
        exact hother x (List.mem_cons_of_mem _ hx) (fun h => hg (h ▸ hx))
      rw [hrest, ← List.append_assoc]
      exact hown.append_right _
    · have hft : f ∈ t := (List.mem_cons.1 hf).resolve_left (fun h => hgf h.symm)
      have hperm := ih ht hft fun x hx => hother x (List.mem_cons_of_mem _ hx)
      rw [hother g List.mem_cons_self hgf]
      refine (hperm.append_left _).trans ?_
      rw [← List.append_assoc, ← List.append_assoc]
      exact List.perm_append_comm.append_right _

variable {σ ε φ ι : Type} [DecidableEq ι] (S : FieldStore σ ε φ ι)

/-- All entries, field by field. -/
def held (s : σ) : List ε := S.fields.flatMap (S.contents s)

def addAll (s : σ) (es : List ε) : σ := es.foldl S.add s

theorem mem_held {s : σ} {a : ε} : a ∈ S.held s ↔ a ∈ S.contents s (S.field a) := by
  rw [held, List.mem_flatMap]
  constructor
  · rintro ⟨f, _, ha⟩
    rwa [S.field_of_mem ha]
  · exact fun ha => ⟨_, S.mem_fields _, ha⟩

/-- The entries of some of the fields are the entries that belong to them. -/
theorem flatMap_contents_perm [DecidableEq φ] (s : σ) {fs : List φ} (hnd : fs.Nodup) :
    (fs.flatMap (S.contents s)).Perm ((S.held s).filter fun e => decide (S.field e ∈ fs)) := by
  have hfilter (f : φ) : (S.contents s f).filter (fun e => decide (S.field e ∈ fs)) =
      if f ∈ fs then S.contents s f else [] := by
    split_ifs with hf
    · exact List.filter_eq_self.2 fun e he => by rwa [S.field_of_mem he, decide_eq_true_iff]
    · exact List.filter_eq_nil_iff.2 fun e he => by rwa [S.field_of_mem he, decide_eq_true_iff]
  have hsplit (l : List φ) : (l.flatMap fun f => if f ∈ fs then S.contents s f else []) =
      (l.filter (fun f => decide (f ∈ fs))).flatMap (S.contents s) := by
    induction l with
    | nil => rfl
    | cons f t ih => by_cases hf : f ∈ fs <;> simp [hf, ih]
  have hfields : (S.fields.filter fun f => decide (f ∈ fs)).Perm fs := by
    refine (List.perm_ext_iff_of_nodup (S.nodup_fields.filter _) hnd).2 fun f => ?_
    simp [S.mem_fields f]
  rw [held, List.filter_flatMap]
  simp only [hfilter, hsplit]
  exact (hfields.flatMap_right _).symm

/-- What an object that holds some of the entries of another has in each field. -/
theorem contents_perm_of_held [DecidableEq φ] {s t : σ} {q : φ → Bool} {g : ε → ε}
    (hg : ∀ e, S.field (g e) = S.field e)
    (h : (S.held t).Perm (((S.held s).filter fun e => q (S.field e)).map g)) (f : φ) :
    (S.contents t f).Perm (if q f then (S.contents s f).map g else []) := by
  have hone (s : σ) : (S.contents s f).Perm ((S.held s).filter fun e => decide (S.field e ∈ [f])) := by
    have hfield := S.flatMap_contents_perm s (List.nodup_singleton f)
    rwa [List.flatMap_singleton] at hfield
  refine (hone t).trans ((h.filter _).trans ?_)
  rw [List.filter_map, List.filter_filter]
  split_ifs with hq
  · refine List.Perm.map _ (.trans (.of_eq (List.filter_congr fun e _ => ?_)) (hone s).symm)
    by_cases he : S.field e = f <;> simp [hg, he, hq]
  · refine .of_eq (List.map_eq_nil_iff.2 (List.filter_eq_nil_iff.2 fun e _ => ?_))
    by_cases he : S.field e = f <;> simp [hg, he, hq]

/-- What one addition does to the entries held. -/
theorem held_add (s : σ) (e : ε) : (S.held (S.add s e)).Perm
    ((if S.null e then [] else [e]) ++
      (S.held s).filter fun a => decide (S.slot a ≠ S.slot e)) := by
  refine flatMap_perm_of_update S.nodup_fields (S.mem_fields (S.field e)) ?_ (S.contents_add s e)
  intro f _ hf
  rw [S.contents_add_of_ne hf, List.filter_eq_self.2]
  intro a ha
  rw [decide_eq_true_iff]
  intro hslot
  exact hf ((S.field_of_mem ha).symm.trans (S.field_of_slot hslot))

theorem held_add_of_fresh {s : σ} {e : ε} (hnull : S.null e = false)
    (h : S.slot e ∉ (S.held s).map S.slot) : (S.held (S.add s e)).Perm (e :: S.held s) := by
  refine (S.held_add s e).trans ?_
  rw [hnull, List.filter_eq_self.2]
  · rfl
  · intro a ha
    rw [decide_eq_true_iff]
    exact fun hs => h (List.mem_map.2 ⟨a, ha, hs⟩)

theorem addAll_invariant {P : σ → Prop} (h : ∀ s e, P s → P (S.add s e)) {s : σ} (hs : P s)
    (es : List ε) : P (S.addAll s es) := by
  induction es generalizing s with
  | nil => exact hs
  | cons e t ih => exact ih (h s e hs)

/-- An invariant that only some entries keep. -/
theorem addAll_invariant_of {P : σ → Prop} {Q : ε → Prop} (h : ∀ s e, Q e → P s → P (S.add s e))
    {es : List ε} (hes : ∀ e ∈ es, Q e) {s : σ} (hs : P s) : P (S.addAll s es) := by
  induction es generalizing s with
  | nil => exact hs
  | cons e t ih =>
    exact ih (fun a ha => hes a (List.mem_cons_of_mem _ ha)) (h s e (hes e List.mem_cons_self) hs)

end FieldStore

/-! ### Kinds of fields -/

section Fields

variable {α κ ν ε ι : Type}

/-- The entries of an optional field. -/
def optionEntries (entry : α → ε) (o : Option α) : List ε := o.toList.map entry

/-- The entries of a field that is absent when it is empty. -/
def listEntries (entry : List α → ε) (v : List α) : List ε := if v.isEmpty then [] else [entry v]

def dictEntries (entry : κ → ν → ε) (d : Dict κ ν) : List ε := d.items.map fun e => entry e.1 e.2

variable [DecidableEq ι] {slot : ε → ι}

theorem filter_slot_eq_nil {l : List ε} {e : ε} (h : ∀ a ∈ l, slot a = slot e) :
    (l.filter fun a => decide (slot a ≠ slot e)) = [] := by
  rw [List.filter_eq_nil_iff]
  intro a ha
  simp [h a ha]

theorem optionEntries_perm {entry : α → ε} (hslot : ∀ a b, slot (entry a) = slot (entry b))
    (o : Option α) (a : α) : (optionEntries entry (some a)).Perm
      ([entry a] ++ (optionEntries entry o).filter fun e => decide (slot e ≠ slot (entry a))) := by
  rw [filter_slot_eq_nil, List.append_nil]
  · rfl
  · intro e he
    obtain ⟨b, _, rfl⟩ := List.mem_map.1 he
    exact hslot b a

theorem listEntries_perm {entry : List α → ε} (hslot : ∀ a b, slot (entry a) = slot (entry b))
    (w v : List α) : (listEntries entry v).Perm ((if v.isEmpty then [] else [entry v]) ++
      (listEntries entry w).filter fun e => decide (slot e ≠ slot (entry v))) := by
  rw [filter_slot_eq_nil, List.append_nil]
  · rfl
  · intro e he
    unfold listEntries at he
    split_ifs at he
    · exact absurd he List.not_mem_nil
    · rw [List.mem_singleton.1 he]
      exact hslot w v

theorem dictEntries_perm [DecidableEq κ] (entry : κ → ν → ε)
    (hslot : ∀ k v k' v', slot (entry k v) = slot (entry k' v') ↔ k = k')
    (d : Dict κ ν) (k : κ) (v : ν) : (dictEntries entry (d.set k v)).Perm
      ([entry k v] ++
        (dictEntries entry d).filter fun e => decide (slot e ≠ slot (entry k v))) := by
  refine ((d.set_items_perm k v).map _).trans ?_
  rw [List.map_cons, List.singleton_append, dictEntries, List.filter_map]
  simp only [Function.comp_def, hslot, ne_eq]
  rfl

theorem mem_optionEntries {entry : α → ε} {o : Option α} {e : ε} :
    e ∈ optionEntries entry o ↔ ∃ a, o = some a ∧ entry a = e := by
  simp [optionEntries]

theorem mem_listEntries {entry : List α → ε} {v : List α} {e : ε} :
    e ∈ listEntries entry v ↔ v ≠ [] ∧ entry v = e := by
  unfold listEntries
  cases v <;> simp [eq_comm]

theorem mem_dictEntries {entry : κ → ν → ε} {d : Dict κ ν} {e : ε} :
    e ∈ dictEntries entry d ↔ ∃ k v, (k, v) ∈ d.items ∧ entry k v = e := by
  simp [dictEntries]

section Rewritten

variable {g : ε → ε}

theorem rel_of_optionEntries {r : α → α → Prop} {entry : α → ε} {o o' : Option α}
    (h : (optionEntries entry o').Perm ((optionEntries entry o).map g))
    (hr : ∀ a a', entry a' = g (entry a) → r a a') : Option.Rel r o o' := by
  cases o <;> cases o'
  · exact .none
  · exact absurd h.length_eq (by simp [optionEntries])
  · exact absurd h.length_eq (by simp [optionEntries])
  · exact .some (hr _ _ (List.singleton_perm_singleton.1 h))

theorem eq_of_optionEntries {entry : α → ε} {o o' : Option α}
    (h : (optionEntries entry o').Perm ((optionEntries entry o).map g))
    (hr : ∀ a a', entry a' = g (entry a) → a = a') : o = o' := by
  cases rel_of_optionEntries h hr with
  | none => rfl
  | some heq => rw [heq]

theorem eq_of_listEntries {entry : List α → ε} {v v' : List α}
    (h : (listEntries entry v').Perm ((listEntries entry v).map g))
    (hr : ∀ v v', entry v' = g (entry v) → v = v') : v = v' := by
  unfold listEntries at h
  cases v <;> cases v'
  · rfl
  · exact absurd h.length_eq (by simp)
  · exact absurd h.length_eq (by simp)
  · exact hr _ _ (List.singleton_perm_singleton.1 h)

theorem rel_of_dictEntries [DecidableEq κ] {r : ν → ν → Prop} (entry : κ → ν → ε) {d d' : Dict κ ν}
    (h : (dictEntries entry d').Perm ((dictEntries entry d).map g))
    (hr : ∀ k v k' v', entry k' v' = g (entry k v) → k' = k ∧ r v v') : d.Rel r d' := by
  refine Dict.rel_of_items (fun k v hv => ?_) fun k v' hv' => ?_
  · have hmem := h.mem_iff.2 (List.mem_map_of_mem (mem_dictEntries.2 ⟨k, v, hv, rfl⟩))
    obtain ⟨k', v', hv', heq⟩ := mem_dictEntries.1 hmem
    obtain ⟨rfl, hrel⟩ := hr k v k' v' heq
    exact ⟨v', hv', hrel⟩
  · obtain ⟨e, he, heq⟩ := List.mem_map.1 (h.mem_iff.1 (mem_dictEntries.2 ⟨k, v', hv', rfl⟩))
    obtain ⟨k', v, hv, rfl⟩ := mem_dictEntries.1 he
    obtain ⟨rfl, -⟩ := hr k' v k v' heq.symm
    exact ⟨v, hv⟩

end Rewritten

theorem contains_eq_false [DecidableEq κ] {d : Dict κ ν} {k : κ} (h : ∀ v, (k, v) ∉ d.items) :
    d.contains k = false := by
  rw [Dict.contains_eq_isSome, Option.isSome_eq_false_iff, Option.isNone_iff_eq_none]
  refine Option.eq_none_iff_forall_ne_some.2 fun v hv => h v (Dict.get?_eq_some_iff.1 hv)

end Fields

end Hwi
