import Mathlib.Data.List.Nodup
import Mathlib.Tactic.Common

/-! Tables without repetitions that only grow: an element is looked up, and put at
the end if it is not there. -/

namespace Hwi

variable {α : Type} [DecidableEq α]

/-- The position of an element, and the table it is in. -/
def intern (a : α) (table : List α) : ℕ × List α :=
  match table.findIdx? (fun b => b = a) with
  | some i => (i, table)
  | none => (table.length, table ++ [a])

variable {a : α} {table : List α}

theorem intern_getElem? : (intern a table).2[(intern a table).1]? = some a := by
  unfold intern
  split
  · rename_i i hi
    obtain ⟨hlt, ha, -⟩ := List.findIdx?_eq_some_iff_getElem.1 hi
    rw [List.getElem?_eq_getElem hlt]
    exact congrArg some (by simpa using ha)
  · exact List.getElem?_concat_length

theorem prefix_intern : table <+: (intern a table).2 := by
  unfold intern
  split
  · exact List.prefix_rfl
  · exact List.prefix_append _ _

theorem mem_intern {b : α} : b ∈ (intern a table).2 ↔ b ∈ table ∨ b = a := by
  unfold intern
  split
  · rename_i i hi
    obtain ⟨hlt, ha, -⟩ := List.findIdx?_eq_some_iff_getElem.1 hi
    have hmem : a ∈ table := by
      rw [← show table[i] = a by simpa using ha]
      exact List.getElem_mem hlt
    exact ⟨Or.inl, fun h => h.elim id fun h => h ▸ hmem⟩
  · rw [List.mem_append, List.mem_singleton]

theorem nodup_intern (h : table.Nodup) : (intern a table).2.Nodup := by
  unfold intern
  split
  · exact h
  · rename_i hnone
    have ha : a ∉ table := fun ha => by
      have := List.findIdx?_eq_none_iff.1 hnone a ha
      simp at this
    exact h.append (List.nodup_singleton a) (List.disjoint_singleton.2 ha)

omit [DecidableEq α] in
/-- An entry stays where it is. -/
theorem getElem?_of_prefix {table' : List α} (h : table <+: table') {i : ℕ} (ha : table[i]? = some a) :
    table'[i]? = some a := by
  obtain ⟨rest, rfl⟩ := h
  rw [List.getElem?_append_left (List.getElem?_eq_some_iff.1 ha).1, ha]

end Hwi
