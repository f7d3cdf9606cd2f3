import Hwi.Proofs.PathText

/-! What the text of a path says about its integers, and when the parsers return
what it says: they do not look at the size of a number. -/

namespace Hwi

/-! ### Elements -/

/-- An element written with a marker for hardened ones. -/
def Marked (x : Str) : Prop :=
  x.head? = some '-' ∨ x.getLast? = some 'h' ∨ x.getLast? = some '\''

instance (x : Str) : Decidable (Marked x) := inferInstanceAs (Decidable (_ ∨ _))

/-- The number written in an element, next to the marker. -/
def writtenNumber (x : Str) : Except Exc ℤ :=
  if x.head? = some '-' then (int x).map abs
  else if x.getLast? = some 'h' ∨ x.getLast? = some '\'' then int x.dropLast
  else int x

/-- The elements of a step: those of a multipath step stand between semicolons. -/
def stepElements (x : Str) : List Str :=
  if x.head? = some '<' then x.tail.dropLast.splitOn ';' else [x]

/-- The steps of a path string. -/
def pathSteps (s : Str) : List Str :=
  if s = [] then []
  else if (s.splitOn '/').head? = some ['m'] then (s.splitOn '/').tail else s.splitOn '/'

/-- An integer that its element describes. -/
def Describes (x : Str) (i : ℤ) : Prop :=
  InRange i ∧ (isHardened i = true ↔ Marked x) ∧ (¬Marked x → i < 2 ^ 31)

/-- An element whose number leaves room for the hardened bit. A marked number may
have the bit already. -/
def InBounds (x : Str) : Prop :=
  ∃ n, writtenNumber x = .ok n ∧ 0 ≤ n ∧ n < if Marked x then 2 ^ 32 else 2 ^ 31

theorem strToHarden_ok {x : Str} {i : ℤ} (h : strToHarden x = .ok i) :
    ∃ n, writtenNumber x = .ok n ∧ i = if Marked x then harden n else n := by
  unfold strToHarden at h
  unfold writtenNumber
  split_ifs at h with hminus hend
  · obtain ⟨n, hn, h⟩ := bind_eq_ok.1 h
    have hmarked : Marked x := Or.inl hminus
    rw [if_pos hminus, hn]
    exact ⟨|n|, rfl, by rw [if_pos hmarked]; exact (Except.ok.inj h).symm⟩
  · obtain ⟨n, hn, h⟩ := bind_eq_ok.1 h
    have hmarked : Marked x := Or.inr hend
    rw [if_neg hminus, if_pos hend, hn]
    exact ⟨n, rfl, by rw [if_pos hmarked]; exact (Except.ok.inj h).symm⟩
  · have hplain : ¬Marked x := not_or.2 ⟨hminus, hend⟩
    rw [if_neg hminus, if_neg hend, h]
    exact ⟨i, rfl, by rw [if_neg hplain]⟩

theorem describes_iff {x : Str} {i : ℤ} (h : strToHarden x = .ok i) : Describes x i ↔ InBounds x := by
  obtain ⟨n, hn, rfl⟩ := strToHarden_ok h
  have hbounds : InBounds x ↔ 0 ≤ n ∧ n < if Marked x then 2 ^ 32 else 2 ^ 31 := by
    unfold InBounds
    rw [hn]
    simp
  rw [hbounds]
  unfold Describes InRange
  by_cases hmarked : Marked x
  · simp only [hmarked, if_true, iff_true, not_true_eq_false, false_implies, and_true]
    unfold harden isHardened HARDENED_FLAG
    split_ifs <;> simp at * <;> omega
  · simp only [hmarked, if_false, iff_false, not_false_eq_true, true_implies]
    unfold isHardened HARDENED_FLAG
    simp
    omega

/-! ### Steps -/

theorem parseIndex_ok {allowMultipath seen seen' : Bool} {x : Str} {idx : List ℤ}
    (h : parseIndex allowMultipath x seen = .ok (idx, seen')) :
    List.Forall₂ (fun x i => strToHarden x = .ok i) (stepElements x) idx := by
  unfold parseIndex at h
  unfold stepElements
  by_cases hx : x.head? = some '<'
  · rw [if_pos hx] at h ⊢
    simp only [throw_eq_error, error_bind, ite_error_eq_ok] at h
    obtain ⟨-, -, -, -, h⟩ := h
    obtain ⟨idx', hidx, h⟩ := bind_eq_ok.1 h
    cases h
    exact mapM_eq_ok.1 hidx
  · rw [if_neg hx] at h ⊢
    obtain ⟨i, hi, h⟩ := bind_eq_ok.1 h
    cases h
    exact .cons hi .nil

theorem parseIndices_ok {allowMultipath seen : Bool} {n : List Str} {path : List (List ℤ)}
    (h : parseIndices allowMultipath n seen = .ok path) : List.Forall₂
      (fun x step => List.Forall₂ (fun x i => strToHarden x = .ok i) (stepElements x) step) n path := by
  induction n generalizing seen path with
  | nil =>
    cases h
    exact .nil
  | cons x n ih =>
    unfold parseIndices at h
    obtain ⟨⟨idx, seen'⟩, hidx, h⟩ := bind_eq_ok.1 h
    obtain ⟨path', hpath, h⟩ := bind_eq_ok.1 h
    cases h
    exact .cons (parseIndex_ok hidx) (ih hpath)

theorem parseSteps_ok {s : Str} {allowMultipath : Bool} {path : List (List ℤ)}
    (h : parseSteps s allowMultipath = .ok path) : List.Forall₂
      (fun x step => List.Forall₂ (fun x i => strToHarden x = .ok i) (stepElements x) step)
      (pathSteps s) path := by
  unfold parseSteps at h
  unfold pathSteps
  by_cases hs : s = []
  · rw [if_pos hs] at h ⊢
    cases h
    exact .nil
  · rw [if_neg hs] at h ⊢
    exact parseIndices_ok h

/-! ### Printed paths with a leading m -/

theorem parseSteps_printed {path : List (List ℤ)} (hrange : StepsInRange path)
    (hne : ∀ step ∈ path, step ≠ []) {allowMultipath : Bool}
    (hcount : path.countP (fun step => 1 < step.length) ≤ if allowMultipath then 1 else 0) :
    parseSteps ('m' :: multipathToString path 'h') allowMultipath = .ok path := by
  have hsplit : ('m' :: multipathToString path 'h').splitOn '/' = ['m'] :: path.map (stepBody 'h') := by
    have hjoined : 'm' :: multipathToString path 'h' =
        List.intercalate ['/'] (['m'] :: path.map (stepBody 'h')) := by
      by_cases hpath : path = []
      · rw [hpath]
        rfl
      · rw [multipathToString_eq hpath, List.intercalate_cons_of_ne_nil (by simpa using hpath)]
        rfl
    rw [hjoined]
    refine List.splitOn_intercalate _ (fun l hl => ?_) (List.cons_ne_nil _ _)
    rcases List.mem_cons.1 hl with rfl | hl
    · decide
    · obtain ⟨step, hstep, rfl⟩ := List.mem_map.1 hl
      exact stepBody_free (hrange step hstep) (by decide) (by decide)
  unfold parseSteps
  rw [if_neg (List.cons_ne_nil _ _), hsplit]
  exact parseIndices_bodies hrange hne (by simpa using hcount)

theorem parseMultipath_printed {s : Str} {path : List (List ℤ)} (h : parseMultipath s = .ok path)
    (hrange : StepsInRange path) : parseMultipath ('m' :: multipathToString path 'h') = .ok path := by
  obtain ⟨hne, hcount⟩ := parseMultipath_spec h
  exact parseSteps_printed hrange hne hcount

theorem parsePath_of_steps {s : Str} {path : List ℤ}
    (h : parseSteps s false = .ok (path.map fun i => [i])) : parsePath s = .ok path := by
  unfold parsePath
  rw [h, ok_bind]
  clear h
  induction path with
  | nil => rfl
  | cons i path ih =>
    rw [List.map_cons, List.mapM_cons, ih]
    rfl

theorem parseIndices_plain {n : List Str} {seen : Bool} {steps : List (List ℤ)}
    (h : parseIndices false n seen = .ok steps) : ∀ step ∈ steps, ∃ i, step = [i] := by
  induction n generalizing seen steps with
  | nil =>
    cases h
    simp
  | cons x n ih =>
    unfold parseIndices at h
    obtain ⟨⟨idx, seen'⟩, hidx, h⟩ := bind_eq_ok.1 h
    obtain ⟨steps', hsteps, h⟩ := bind_eq_ok.1 h
    cases h
    rcases parseIndex_spec hidx with ⟨i, rfl, -⟩ | ⟨-, -, -, hallow⟩
    · intro step hstep
      rcases List.mem_cons.1 hstep with rfl | hstep
      · exact ⟨i, rfl⟩
      · exact ih hsteps step hstep
    · cases hallow

/-- Without multipath steps a step is its one index. -/
theorem steps_of_parsePath {s : Str} {path : List ℤ} (h : parsePath s = .ok path) :
    parseSteps s false = .ok (path.map fun i => [i]) := by
  unfold parsePath at h
  obtain ⟨steps, hsteps, hfirst⟩ := bind_eq_ok.1 h
  have hplain : ∀ step ∈ steps, ∃ i, step = [i] := by
    unfold parseSteps at hsteps
    split_ifs at hsteps
    · cases hsteps
      simp
    · exact parseIndices_plain hsteps
  suffices heq : steps = path.map fun i => [i] by rw [hsteps, heq]
  clear h hsteps
  induction steps generalizing path with
  | nil =>
    cases hfirst
    rfl
  | cons step steps ih =>
    obtain ⟨i, rfl⟩ := hplain step List.mem_cons_self
    rw [List.mapM_cons, ok_bind] at hfirst
    obtain ⟨path', hpath, hfirst⟩ := bind_eq_ok.1 hfirst
    cases hfirst
    rw [List.map_cons, ih hpath fun step hstep => hplain step (List.mem_cons_of_mem _ hstep)]

/-! ### What a path string says -/

/-- Every integer is what its element says. -/
def Says (s : Str) (path : List (List ℤ)) : Prop :=
  List.Forall₂ (fun x step => List.Forall₂ Describes (stepElements x) step) (pathSteps s) path

/-- Every element of a path string leaves room for the hardened bit. -/
def PathInBounds (s : Str) : Prop := ∀ x ∈ pathSteps s, ∀ y ∈ stepElements x, InBounds y

theorem says_iff {s : Str} {allowMultipath : Bool} {path : List (List ℤ)}
    (h : parseSteps s allowMultipath = .ok path) : Says s path ↔ PathInBounds s := by
  refine forall₂_iff_forall (parseSteps_ok h) fun x step hstep => ?_
  exact forall₂_iff_forall hstep fun y i hi => describes_iff hi

theorem Says.inRange {s : Str} {path : List (List ℤ)} (h : Says s path) : StepsInRange path := by
  intro step hstep i hi
  obtain ⟨x, -, hx⟩ := exists_of_forall₂_right h hstep
  obtain ⟨y, -, hy⟩ := exists_of_forall₂_right hx hi
  exact hy.1

/-- The integers of an accepted path are what its text says, and are printed as a text
that reads back, exactly when the number of each element is below 2^31, or below 2^32
for an element with a marker. -/
theorem parse_path_iff (s : Str) :
    (∀ path, parseMultipath s = .ok path →
      ((Says s path ∧ parseMultipath ('m' :: multipathToString path 'h') = .ok path) ↔
        PathInBounds s)) ∧
    ∀ path, parsePath s = .ok path →
      ((Says s (path.map fun i => [i]) ∧ parsePath ('m' :: pathToString path 'h') = .ok path) ↔
        PathInBounds s) := by
  constructor
  · intro path hpath
    rw [← says_iff hpath]
    exact ⟨And.left, fun hdescribed => ⟨hdescribed, parseMultipath_printed hpath hdescribed.inRange⟩⟩
  · intro path hpath
    have hsteps := steps_of_parsePath hpath
    rw [← says_iff hsteps]
    refine ⟨And.left, fun hdescribed => ⟨hdescribed, parsePath_of_steps ?_⟩⟩
    rw [pathToString_eq]
    exact parseSteps_printed hdescribed.inRange (by simp) (by simp)

theorem parse_path_iff_sample : ¬PathInBounds "m/4294967296".toList := by
  intro hbounds
  have hpath : parsePath "m/4294967296".toList = .ok [2 ^ 32] := by decide +kernel
  have hdescribed := (((parse_path_iff _).2 _ hpath).2 hbounds).1
  exact absurd (hdescribed.inRange _ List.mem_cons_self _ List.mem_cons_self).2 (lt_irrefl _)

/-- A number with one bit more than fits. -/
theorem parsePath_out_of_range : parsePath "m/4294967296".toList = .ok [2 ^ 32] ∧ ¬InRange (2 ^ 32) := by
  refine ⟨by decide +kernel, fun h => ?_⟩
  exact absurd h.2 (lt_irrefl _)

end Hwi
