import Mathlib.Data.List.GetD
import Mathlib.Data.List.Nodup
import Mathlib.Tactic.Common

/-! The symbols of a numeral system: a list without repetitions, read at the value of a
digit and searched for a symbol. -/

namespace Hwi.Alphabet

variable {α : Type} {l : List α} {i j : ℕ} (d : α)

theorem getD_mem (h : i < l.length) : l.getD i d ∈ l := by
  rw [List.getD_eq_getElem l d h]
  exact List.getElem_mem h

variable [BEq α] [LawfulBEq α]

theorem idxOf_getD (hl : l.Nodup) (h : i < l.length) : l.idxOf (l.getD i d) = i := by
  rw [List.getD_eq_getElem l d h]
  exact hl.idxOf_getElem i h

theorem idxOf?_getD (hl : l.Nodup) (h : i < l.length) : l.idxOf? (l.getD i d) = some i := by
  rw [List.getD_eq_getElem l d h, List.idxOf?_eq_some_iff]
  refine ⟨h, rfl, fun j hj hsame => ?_⟩
  exact absurd (hl.getElem_inj_iff.1 hsame) (Nat.ne_of_lt hj)

/-- Two values with one symbol are one value. -/
theorem getD_injective (hl : l.Nodup) (hi : i < l.length) (hj : j < l.length)
    (h : l.getD i d = l.getD j d) : i = j := by
  rw [← idxOf_getD d hl hi, h, idxOf_getD d hl hj]

end Hwi.Alphabet
