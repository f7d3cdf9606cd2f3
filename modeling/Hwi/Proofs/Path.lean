import Hwi.Lib.Result
import Hwi.Spec.Path

/-! What the parsers of paths return, and the characters of printed paths. -/

namespace Hwi

/-! ### Characters -/

theorem str_natCast (n : ℕ) : str n = Nat.toDigits 10 n := by
  simp [str, Int.repr_eq_if]

theorem mem_str {i : ℤ} {c : Char} (h : c ∈ str i) : c.isDigit = true ∨ c = '-' := by
  have hdigit : ∀ n, c ∈ Nat.toDigits 10 n → c.isDigit = true := fun n hn =>
    Nat.isDigit_of_mem_toDigits (by omega) le_rfl hn
  unfold str at h
  rw [Int.toString_eq_repr, Int.repr_eq_if] at h
  split_ifs at h with hi
  · rw [Nat.toList_repr] at h
    exact Or.inl (hdigit _ h)
  · rw [String.toList_append, Nat.toList_repr, List.mem_append] at h
    rcases h with h | h
    · exact Or.inr (by simpa using h)
    · exact Or.inl (hdigit _ h)

/-- The characters of a printed path. -/
def PathChar (hardenedChar c : Char) : Prop :=
  c.isDigit = true ∨ c ∈ ['-', '/', '<', '>', ';', hardenedChar]

theorem mem_indexToStr {i : ℤ} {hardenedChar c : Char} (h : c ∈ indexToStr hardenedChar i) :
    PathChar hardenedChar c := by
  have hstr : ∀ j, c ∈ str j → PathChar hardenedChar c := fun j hj => by
    rcases mem_str hj with hdigit | rfl
    · exact Or.inl hdigit
    · exact Or.inr (by simp)
  unfold indexToStr at h
  split_ifs at h
  · rcases List.mem_append.1 h with h | h
    · exact hstr _ h
    · exact Or.inr (by simp [List.mem_singleton.1 h])
  · exact hstr _ h

theorem mem_stepToString {step : List ℤ} {hardenedChar c : Char}
    (h : c ∈ stepToString hardenedChar step) : PathChar hardenedChar c := by
  unfold stepToString at h
  split at h
  · rcases List.mem_cons.1 h with rfl | h
    · exact Or.inr (by simp)
    · exact mem_indexToStr h
  · simp only [List.mem_append] at h
    rcases h with (h | h) | h
    · exact Or.inr (by simp at h ⊢; tauto)
    · rcases mem_intercalate h with h | ⟨l, hl, h⟩
      · exact Or.inr (by simp at h ⊢; tauto)
      · obtain ⟨i, -, rfl⟩ := List.mem_map.1 hl
        exact mem_indexToStr h
    · exact Or.inr (by simp at h ⊢; tauto)

theorem mem_multipathToString {path : List (List ℤ)} {hardenedChar c : Char}
    (h : c ∈ multipathToString path hardenedChar) : PathChar hardenedChar c := by
  obtain ⟨step, -, h⟩ := List.mem_flatMap.1 h
  exact mem_stepToString h

/-! ### Parsing -/

/-- One index for a plain step; two or more for the one multipath step. -/
theorem parseIndex_spec {allowMultipath seenMultipath seen' : Bool} {x : Str} {idx : List ℤ}
    (h : parseIndex allowMultipath x seenMultipath = .ok (idx, seen')) :
    (∃ i, idx = [i] ∧ seen' = seenMultipath) ∨
      (1 < idx.length ∧ seenMultipath = false ∧ seen' = true ∧ allowMultipath = true) := by
  unfold parseIndex at h
  by_cases hx : x.head? = some '<'
  · rw [if_pos hx] at h
    simp only [throw_eq_error, error_bind, ite_error_eq_ok] at h
    obtain ⟨hseen, hallow, -, hlen, h⟩ := h
    obtain ⟨idx', hidx, h⟩ := bind_eq_ok.1 h
    obtain ⟨rfl, rfl⟩ := Prod.mk.inj (Except.ok.inj h)
    refine Or.inr ⟨?_, by simpa using hseen, rfl, by simpa using hallow⟩
    rw [mapM_ok_length hidx]
    omega
  · rw [if_neg hx] at h
    obtain ⟨i, -, h⟩ := bind_eq_ok.1 h
    obtain ⟨rfl, rfl⟩ := Prod.mk.inj (Except.ok.inj h)
    exact Or.inl ⟨i, rfl, rfl⟩

theorem parseIndices_spec {allowMultipath : Bool} {n : List Str} {seen : Bool} {path : List (List ℤ)}
    (h : parseIndices allowMultipath n seen = .ok path) :
    (∀ step ∈ path, step ≠ []) ∧
      path.countP (fun step => 1 < step.length) ≤ (if seen then 0 else 1) := by
  induction n generalizing seen path with
  | nil =>
    obtain rfl := Except.ok.inj h
    simp
  | cons x n ih =>
    unfold parseIndices at h
    obtain ⟨⟨idx, seen'⟩, hidx, h⟩ := bind_eq_ok.1 h
    obtain ⟨path', hpath, h⟩ := bind_eq_ok.1 h
    obtain rfl := Except.ok.inj h
    obtain ⟨hne, hcount⟩ := ih hpath
    rcases parseIndex_spec hidx with ⟨i, rfl, rfl⟩ | ⟨hlen, rfl, rfl, -⟩
    · exact ⟨by simpa using hne, by simpa using hcount⟩
    · constructor
      · intro step hstep
        rcases List.mem_cons.1 hstep with rfl | hstep
        · exact List.ne_nil_of_length_pos (by omega)
        · exact hne step hstep
      · simpa [hlen] using hcount

/-- A step has an index at least, and one step at most has more. -/
theorem parseMultipath_spec {s : Str} {path : List (List ℤ)} (h : parseMultipath s = .ok path) :
    (∀ step ∈ path, step ≠ []) ∧ path.countP (fun step => 1 < step.length) ≤ 1 := by
  unfold parseMultipath parseSteps at h
  split_ifs at h
  · obtain rfl := Except.ok.inj h
    simp
  · exact parseIndices_spec h

end Hwi
