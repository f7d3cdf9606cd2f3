import Hwi.Proofs.Path

/-! Printed integers, paths and key origins read back. -/

namespace Hwi

/-! ### Integers -/

theorem decimal_of_isDigit {c : Char} (h : c.isDigit = true) : decimal c = some (c.toNat - 0x30) := by
  obtain ⟨hlow, hhigh⟩ := Char.isDigit_iff_toNat.1 h
  have hfirst : 0x30 ≤ c.toNat ∧ c.toNat < 0x30 + 10 := ⟨hlow, Nat.lt_succ_of_le hhigh⟩
  unfold decimal decimalZeros
  rw [List.find?_cons_of_pos (by simpa using hfirst)]
  rfl

theorem not_isIntSpace_of_isDigit {c : Char} (h : c.isDigit = true) : isIntSpace c = false := by
  obtain ⟨hlow, hhigh⟩ := Char.isDigit_iff_toNat.1 h
  change 0x30 ≤ c.toNat at hlow
  change c.toNat ≤ 0x39 at hhigh
  unfold isIntSpace isSpace
  simp only [Bool.and_eq_false_imp, decide_eq_true_iff]
  simp
  omega

theorem ofBE_digits_eq (s : Str) :
    ofBE 10 (s.map fun c => c.toNat - 0x30) = Nat.ofDigitChars 10 s 0 := by
  induction s using List.reverseRecOn with
  | nil => rfl
  | append_singleton s c ih =>
    rw [List.map_append, List.map_singleton, ofBE_concat, ih, Nat.ofDigitChars_append,
      Nat.ofDigitChars_cons, Nat.ofDigitChars_nil, Nat.mul_comm]
    rfl

theorem isDigit_of_mem_str {n : ℕ} {c : Char} (h : c ∈ str n) : c.isDigit = true := by
  rw [str_natCast] at h
  exact Nat.isDigit_of_mem_toDigits (by omega) le_rfl h

theorem str_ne_nil (n : ℕ) : str n ≠ [] := by
  rw [str_natCast]
  exact Nat.toDigits_ne_nil

theorem str_length {n : ℕ} (h : n < 2 ^ 32) : (str n).length ≤ 10 := by
  rw [str_natCast, Nat.length_toDigits_le_iff (by omega) (by omega)]
  omega

theorem intDigits_str (n : ℕ) : intDigits (str n) = some ((str n).map fun c => c.toNat - 0x30) := by
  have hsep : '_' ∉ str n := fun h => by simpa using isDigit_of_mem_str h
  have hmap : ∀ s : Str, (∀ c ∈ s, c.isDigit = true) →
      s.mapM decimal = some (s.map fun c => c.toNat - 0x30) := by
    intro s hs
    induction s with
    | nil => rfl
    | cons c s ih =>
      rw [List.mapM_cons, decimal_of_isDigit (hs c List.mem_cons_self),
        ih fun d hd => hs d (List.mem_cons_of_mem c hd)]
      rfl
  unfold intDigits
  rw [List.splitOn_eq_singleton hsep]
  simp only [List.mem_singleton, List.flatten_singleton]
  rw [if_neg (Ne.symm (str_ne_nil n)), hmap _ fun c hc => isDigit_of_mem_str hc]

theorem intSign_str (n : ℕ) : intSign (str n) = (false, str n) := by
  obtain ⟨c, s, hs⟩ := List.exists_cons_of_ne_nil (str_ne_nil n)
  have hc : c.isDigit = true := isDigit_of_mem_str (hs ▸ List.mem_cons_self)
  rw [hs]
  unfold intSign
  split
  · simp_all
  · simp_all
  · rfl

/-- A printed natural number reads back. -/
theorem int_str {n : ℕ} (h : n < 2 ^ 32) : int (str n) = .ok (n : ℤ) := by
  have hspace : ∀ c ∈ str n, isIntSpace c = false := fun c hc =>
    not_isIntSpace_of_isDigit (isDigit_of_mem_str hc)
  have hstrip : (((str n).dropWhile isIntSpace).reverse.dropWhile isIntSpace).reverse = str n := by
    rw [dropWhile_eq_self hspace, dropWhile_eq_self (by simpa using hspace), List.reverse_reverse]
  have hvalue : ofBE 10 ((str n).map fun c => c.toNat - 0x30) = n := by
    rw [ofBE_digits_eq, str_natCast, Nat.ofDigitChars_ten_toDigits]
  have hlen : ¬maxStrDigits < ((str n).map fun c => c.toNat - 0x30).length := by
    have := str_length h
    rw [List.length_map, maxStrDigits]
    omega
  unfold int
  rw [hstrip, intSign_str]
  dsimp only
  rw [intDigits_str]
  dsimp only
  rw [if_neg hlen, hvalue]
  rfl

/-! ### Steps -/

/-- An index of BIP 32. -/
def InRange (i : ℤ) : Prop := 0 ≤ i ∧ i < 2 ^ 32

theorem isHardened_eq_false {i : ℤ} (h : 0 ≤ i) (h' : i < 2 ^ 31) : isHardened i = false := by
  have hdiv : i / HARDENED_FLAG = 0 := Int.ediv_eq_zero_of_lt h (by rw [HARDENED_FLAG]; omega)
  simp [isHardened, hdiv]

theorem lt_of_isHardened_eq_false {i : ℤ} (h : InRange i) (hi : isHardened i = false) :
    i < 2 ^ 31 := by
  obtain ⟨h0, h32⟩ := h
  have hbit := of_decide_eq_false hi
  rw [HARDENED_FLAG] at hbit
  omega

/-- The digits of an index, and the flag. -/
theorem indexToStr_eq {i : ℤ} (h : InRange i) (hardenedChar : Char) :
    ∃ n : ℕ, n < 2 ^ 31 ∧ ((isHardened i = false ∧ i = n ∧ indexToStr hardenedChar i = str n) ∨
      (isHardened i = true ∧ i = harden n ∧ indexToStr hardenedChar i = str n ++ [hardenedChar])) := by
  obtain ⟨h0, h32⟩ := h
  cases hi : isHardened i with
  | false =>
    have hlt := lt_of_isHardened_eq_false ⟨h0, h32⟩ hi
    refine ⟨i.toNat, by omega, Or.inl ⟨rfl, by omega, ?_⟩⟩
    rw [indexToStr, hi, Int.toNat_of_nonneg h0]
    rfl
  | true =>
    have hge : HARDENED_FLAG ≤ i := by
      by_contra hlt
      have hfalse := isHardened_eq_false h0 (by rw [HARDENED_FLAG] at hlt; omega)
      rw [hi] at hfalse
      cases hfalse
    rw [HARDENED_FLAG] at hge
    have hn : ((i - HARDENED_FLAG).toNat : ℤ) = i - HARDENED_FLAG :=
      Int.toNat_of_nonneg (by rw [HARDENED_FLAG]; omega)
    refine ⟨(i - HARDENED_FLAG).toNat, by rw [HARDENED_FLAG]; omega, Or.inr ⟨rfl, ?_, ?_⟩⟩
    · rw [hn, harden, isHardened_eq_false (by rw [HARDENED_FLAG]; omega) (by rw [HARDENED_FLAG]; omega)]
      simp
    · rw [hn, indexToStr, if_pos hi]

theorem head?_str_ne {n : ℕ} {c : Char} (h : c.isDigit = false) (t : Str) :
    (str n ++ t).head? ≠ some c := by
  obtain ⟨d, s, hs⟩ := List.exists_cons_of_ne_nil (str_ne_nil n)
  intro hc
  rw [hs, List.cons_append, List.head?_cons, Option.some_inj] at hc
  rw [← hc, isDigit_of_mem_str (n := n) (hs ▸ List.mem_cons_self)] at h
  cases h

theorem getLast?_str_ne {n : ℕ} {c : Char} (h : c.isDigit = false) : (str n).getLast? ≠ some c := by
  intro hc
  rw [isDigit_of_mem_str (List.mem_of_getLast? hc)] at h
  cases h

theorem strToHarden_indexToStr {i : ℤ} (h : InRange i) : strToHarden (indexToStr 'h' i) = .ok i := by
  obtain ⟨n, hn, ⟨-, hi, hstr⟩ | ⟨-, hi, hstr⟩⟩ := indexToStr_eq h 'h'
  · have hhead := head?_str_ne (n := n) (c := '-') (by decide) []
    rw [List.append_nil] at hhead
    unfold strToHarden
    rw [hstr, if_neg hhead, if_neg (not_or.2 ⟨getLast?_str_ne (by decide), getLast?_str_ne (by decide)⟩),
      int_str (by omega), hi]
  · unfold strToHarden
    rw [hstr, if_neg (head?_str_ne (by decide) _), if_pos (Or.inl List.getLast?_concat),
      List.dropLast_concat, int_str (by omega), hi]
    rfl

/-- A step without the slash before it. -/
def stepBody (hardenedChar : Char) (step : List ℤ) : Str := (stepToString hardenedChar step).tail

theorem stepToString_eq (hardenedChar : Char) (step : List ℤ) :
    stepToString hardenedChar step = '/' :: stepBody hardenedChar step := by
  unfold stepBody stepToString
  split <;> rfl

theorem indexToStr_free {i : ℤ} {c : Char} (h : InRange i) (hdigit : c.isDigit = false) (hc : c ≠ 'h') :
    c ∉ indexToStr 'h' i := by
  intro hmem
  have hstr : ∀ n : ℕ, c ∉ str n := fun n hn => by
    rw [isDigit_of_mem_str hn] at hdigit
    cases hdigit
  obtain ⟨n, -, ⟨-, -, hi⟩ | ⟨-, -, hi⟩⟩ := indexToStr_eq h 'h'
  · exact hstr n (hi ▸ hmem)
  · rw [hi, List.mem_append] at hmem
    rcases hmem with hmem | hmem
    · exact hstr n hmem
    · exact hc (by simpa using hmem)

theorem parseIndex_single {i : ℤ} (h : InRange i) (allowMultipath seen : Bool) :
    parseIndex allowMultipath (stepBody 'h' [i]) seen = .ok ([i], seen) := by
  have hhead : (indexToStr 'h' i).head? ≠ some '<' := fun hc =>
    indexToStr_free h (by decide) (by decide) (List.mem_of_head? hc)
  unfold parseIndex
  change (if (indexToStr 'h' i).head? = some '<' then _ else _) = _
  rw [if_neg hhead, show stepBody 'h' [i] = indexToStr 'h' i from rfl, strToHarden_indexToStr h]
  rfl

theorem parseIndex_multipath {step : List ℤ} (h : ∀ i ∈ step, InRange i) (hlen : 1 < step.length) :
    parseIndex true (stepBody 'h' step) false = .ok (step, true) := by
  have hbody : stepBody 'h' step =
      '<' :: (List.intercalate [';'] (step.map (indexToStr 'h')) ++ ['>']) := by
    unfold stepBody stepToString
    split
    · simp at hlen
    · rfl
  have hsplit : (List.intercalate [';'] (step.map (indexToStr 'h'))).splitOn ';' =
      step.map (indexToStr 'h') := by
    refine List.splitOn_intercalate _ (fun l hl => ?_) (by intro hnil; simp at hnil; simp [hnil] at hlen)
    obtain ⟨i, hi, rfl⟩ := List.mem_map.1 hl
    exact indexToStr_free (h i hi) (by decide) (by decide)
  have hparse : (step.map (indexToStr 'h')).mapM strToHarden = .ok step := by
    clear hlen hbody hsplit
    induction step with
    | nil => rfl
    | cons i step ih =>
      rw [List.map_cons, List.mapM_cons, strToHarden_indexToStr (h i List.mem_cons_self),
        ih fun j hj => h j (List.mem_cons_of_mem i hj)]
      rfl
  have hlast : ('<' :: (List.intercalate [';'] (step.map (indexToStr 'h')) ++ ['>'])).getLast? = some '>' := by
    rw [← List.cons_append, List.getLast?_concat]
  unfold parseIndex
  rw [hbody, List.head?_cons, if_pos rfl, hlast, List.tail_cons, List.dropLast_concat, hsplit]
  simp only [Bool.false_eq_true, Bool.not_true, ne_eq, not_true_eq_false, if_false, hparse]
  rw [if_neg (by rw [List.length_map]; omega)]
  rfl

/-! ### Paths -/

/-- The indices of a path with multipath steps. -/
def StepsInRange (path : List (List ℤ)) : Prop := ∀ step ∈ path, ∀ i ∈ step, InRange i

theorem stepBody_free {step : List ℤ} {c : Char} (h : ∀ i ∈ step, InRange i)
    (hdigit : c.isDigit = false) (hc : c ∉ ['h', '<', '>', ';']) : c ∉ stepBody 'h' step := by
  simp only [List.mem_cons, List.not_mem_nil, or_false, not_or] at hc
  unfold stepBody stepToString
  split
  · exact indexToStr_free (h _ List.mem_cons_self) hdigit hc.1
  · intro hmem
    change c ∈ '<' :: (List.intercalate [';'] (step.map (indexToStr 'h')) ++ ['>']) at hmem
    simp only [List.mem_cons, List.mem_append, List.not_mem_nil, or_false] at hmem
    rcases hmem with hmem | hmem | hmem
    · exact hc.2.1 hmem
    · rcases mem_intercalate hmem with hmem | ⟨l, hl, hmem⟩
      · exact hc.2.2.2 (List.mem_singleton.1 hmem)
      · obtain ⟨i, hi, rfl⟩ := List.mem_map.1 hl
        exact indexToStr_free (h i hi) hdigit hc.1 hmem
    · exact hc.2.2.1 hmem

theorem stepBody_ne_nil {step : List ℤ} (h : ∀ i ∈ step, InRange i) : stepBody 'h' step ≠ [] := by
  unfold stepBody stepToString
  split
  · rename_i i
    intro hnil
    change indexToStr 'h' i = [] at hnil
    obtain ⟨n, -, ⟨-, -, hi⟩ | ⟨-, -, hi⟩⟩ := indexToStr_eq (h i List.mem_cons_self) 'h'
    · exact str_ne_nil n (hi.symm.trans hnil)
    · simp [hnil] at hi
  · simp

theorem parseIndices_bodies {path : List (List ℤ)} (hrange : StepsInRange path)
    (hne : ∀ step ∈ path, step ≠ []) {allowMultipath seen : Bool}
    (hcount : path.countP (fun step => 1 < step.length) ≤ if allowMultipath && !seen then 1 else 0) :
    parseIndices allowMultipath (path.map (stepBody 'h')) seen = .ok path := by
  induction path generalizing seen with
  | nil => rfl
  | cons step path ih =>
    have hrange' : StepsInRange path := fun step' h => hrange step' (List.mem_cons_of_mem step h)
    have hne' : ∀ step' ∈ path, step' ≠ [] := fun step' h => hne step' (List.mem_cons_of_mem step h)
    have hstep := hrange step List.mem_cons_self
    rw [List.map_cons, parseIndices]
    rw [List.countP_cons] at hcount
    match step, hne step List.mem_cons_self, hstep, hcount with
    | [i], _, hstep, hcount =>
      have htail : parseIndices allowMultipath (path.map (stepBody 'h')) seen = .ok path :=
        ih hrange' hne' (by simpa using hcount)
      rw [parseIndex_single (hstep i List.mem_cons_self), ok_bind]
      dsimp only
      rw [htail]
      rfl
    | i :: j :: rest, _, hstep, hcount =>
      have hone : 1 < (i :: j :: rest).length := by simp
      rw [if_pos (by simp)] at hcount
      have hallow : allowMultipath = true ∧ seen = false := by
        by_contra hnot
        rw [if_neg (by simpa using hnot)] at hcount
        omega
      obtain ⟨rfl, rfl⟩ := hallow
      have htail : parseIndices true (path.map (stepBody 'h')) true = .ok path :=
        ih hrange' hne' (by simpa using hcount)
      rw [parseIndex_multipath hstep hone, ok_bind]
      dsimp only
      rw [htail]
      rfl

theorem multipathToString_eq {path : List (List ℤ)} (h : path ≠ []) :
    multipathToString path 'h' = '/' :: List.intercalate ['/'] (path.map (stepBody 'h')) := by
  induction path with
  | nil => exact absurd rfl h
  | cons step path ih =>
    unfold multipathToString at ih ⊢
    rw [List.flatMap_cons, stepToString_eq]
    cases path with
    | nil => simp
    | cons step' path =>
      rw [ih (by simp), List.map_cons, List.map_cons, List.map_cons, List.intercalate_cons_cons]
      simp

/-- The steps of a printed path. -/
theorem splitOn_bodies {path : List (List ℤ)} (h : path ≠ []) (hrange : StepsInRange path) :
    (List.intercalate ['/'] (path.map (stepBody 'h'))).splitOn '/' = path.map (stepBody 'h') := by
  refine List.splitOn_intercalate _ (fun l hl => ?_) (by simpa using h)
  obtain ⟨step, hstep, rfl⟩ := List.mem_map.1 hl
  exact stepBody_free (hrange step hstep) (by decide) (by decide)

theorem bodies_ne_nil {path : List (List ℤ)} (h : path ≠ []) (hrange : StepsInRange path) :
    List.intercalate ['/'] (path.map (stepBody 'h')) ≠ [] := by
  intro hnil
  have hsplit := splitOn_bodies h hrange
  rw [hnil] at hsplit
  have hmem : [] ∈ path.map (stepBody 'h') := hsplit ▸ List.mem_singleton.2 rfl
  obtain ⟨step, hstep, hbody⟩ := List.mem_map.1 hmem
  exact stepBody_ne_nil (hrange step hstep) hbody

theorem bodies_free {path : List (List ℤ)} {c : Char} (hrange : StepsInRange path)
    (hdigit : c.isDigit = false) (hc : c ∉ ['h', '<', '>', ';', '/']) :
    c ∉ List.intercalate ['/'] (path.map (stepBody 'h')) := by
  intro hmem
  rcases mem_intercalate hmem with hmem | ⟨l, hl, hmem⟩
  · exact hc (by simp [List.mem_singleton.1 hmem])
  · obtain ⟨step, hstep, rfl⟩ := List.mem_map.1 hl
    refine stepBody_free (hrange step hstep) hdigit (fun h => hc ?_) hmem
    exact List.mem_append_left ['/'] h

theorem parseSteps_bodies {path : List (List ℤ)} (h : path ≠ []) (hrange : StepsInRange path)
    (hne : ∀ step ∈ path, step ≠ []) {allowMultipath : Bool}
    (hcount : path.countP (fun step => 1 < step.length) ≤ if allowMultipath then 1 else 0) :
    parseSteps (List.intercalate ['/'] (path.map (stepBody 'h'))) allowMultipath = .ok path := by
  have hm : (path.map (stepBody 'h')).head? ≠ some ['m'] := by
    intro hm
    obtain ⟨step, hstep, hbody⟩ := List.mem_map.1 (List.mem_of_head? hm)
    exact stepBody_free (c := 'm') (hrange step hstep) (by decide) (by decide) (by simp [hbody])
  unfold parseSteps
  rw [if_neg (bodies_ne_nil h hrange), splitOn_bodies h hrange]
  dsimp only
  rw [if_neg hm]
  exact parseIndices_bodies hrange hne (by simpa using hcount)

theorem pathToString_eq (path : List ℤ) (hardenedChar : Char) :
    pathToString path hardenedChar = multipathToString (path.map fun i => [i]) hardenedChar := by
  unfold pathToString multipathToString
  rw [List.flatMap_map]
  rfl

/-- A printed path without multipath steps reads back. -/
theorem parsePath_bodies {path : List ℤ} (h : path ≠ []) (hrange : ∀ i ∈ path, InRange i) :
    parsePath (List.intercalate ['/'] ((path.map fun i => [i]).map (stepBody 'h'))) = .ok path := by
  have hsteps : StepsInRange (path.map fun i => [i]) := by
    intro step hstep i hi
    obtain ⟨j, hj, rfl⟩ := List.mem_map.1 hstep
    exact hrange i (by simpa [List.mem_singleton.1 hi] using hj)
  have hcount : (path.map fun i => [i]).countP (fun step => 1 < step.length) ≤
      if false = true then 1 else 0 := by simp
  unfold parsePath
  rw [parseSteps_bodies (by simpa using h) hsteps (by simp) hcount, ok_bind]
  clear h hrange hsteps hcount
  induction path with
  | nil => rfl
  | cons i path ih =>
    rw [List.map_cons, List.mapM_cons, ih]
    rfl

/-! ### Key origins -/

theorem hexDigit_spec {n : ℕ} (h : n < 16) :
    hexBytes.hexValue (hexDigit n) = .ok n ∧ lower (hexDigit n) = [hexDigit n] ∧
      hexDigit n ≠ '/' ∧ (hexDigit n).isAlphanum = true := by
  have hall : ∀ n : Fin 16, hexBytes.hexValue (hexDigit n) = .ok n.val ∧
      lower (hexDigit n) = [hexDigit n] ∧ hexDigit n ≠ '/' ∧ (hexDigit n).isAlphanum = true := by
    decide
  exact hall ⟨n, h⟩

theorem exists_hexDigit {b : Bytes} {c : Char} (h : c ∈ hexlify b) : ∃ n < 16, c = hexDigit n := by
  obtain ⟨a, -, hc⟩ := List.mem_flatMap.1 h
  have ha := a.toNat_lt
  rcases List.mem_pair.1 hc with rfl | rfl
  · exact ⟨_, by omega, rfl⟩
  · exact ⟨_, by omega, rfl⟩

@[simp] theorem hexlify_length (b : Bytes) : (hexlify b).length = 2 * b.length := by
  induction b with
  | nil => rfl
  | cons a b ih =>
    rw [hexlify, List.flatMap_cons, List.length_append, ← hexlify, ih]
    simp only [List.length_cons, List.length_nil]
    omega

theorem hexBytes_hexlify (b : Bytes) : hexBytes (hexlify b) = .ok b := by
  induction b with
  | nil => rfl
  | cons a b ih =>
    have ha := a.toNat_lt
    have hhi := (hexDigit_spec (n := a.toNat / 16) (by omega)).1
    have hlo := (hexDigit_spec (n := a.toNat % 16) (by omega)).1
    have hbyte : UInt8.ofNat (16 * (a.toNat / 16) + a.toNat % 16) = a := by
      rw [Nat.div_add_mod, UInt8.ofNat_toNat]
    rw [hexlify, List.flatMap_cons, ← hexlify]
    change hexBytes (hexDigit (a.toNat / 16) :: hexDigit (a.toNat % 16) :: hexlify b) = _
    rw [hexBytes, hhi, ok_bind, hlo, ok_bind, ih, ok_bind, hbyte]
    rfl

theorem unhexlify_hexlify (b : Bytes) : unhexlify (hexlify b) = .ok b := by
  have hascii : ((hexlify b).all fun c => c.toNat < 128) = true := by
    rw [List.all_eq_true]
    intro c hc
    obtain ⟨n, hn, rfl⟩ := exists_hexDigit hc
    have hall : ∀ n : Fin 16, decide ((hexDigit n).toNat < 128) = true := by decide
    exact hall ⟨n, hn⟩
  rw [unhexlify, if_pos hascii, hexBytes_hexlify]

theorem hexBytes_of_unhexlify {s : Str} {b : Bytes} (h : unhexlify s = .ok b) : hexBytes s = .ok b := by
  unfold unhexlify at h
  split_ifs at h
  exact h

theorem hexBytes_length {s : Str} {b : Bytes} (h : hexBytes s = .ok b) : s.length = 2 * b.length := by
  induction s using hexBytes.induct generalizing b with
  | case1 =>
    cases h
    rfl
  | case2 c d rest ih =>
    rw [hexBytes] at h
    obtain ⟨hi, -, h⟩ := bind_eq_ok.1 h
    obtain ⟨lo, -, h⟩ := bind_eq_ok.1 h
    obtain ⟨bytes, hbytes, h⟩ := bind_eq_ok.1 h
    cases h
    rw [List.length_cons, List.length_cons, ih hbytes, List.length_cons]
    omega
  | case3 t hnil hcons =>
    match t with
    | [] => exact absurd rfl hnil
    | [c] => cases h
    | c :: d :: rest => exact absurd rfl (hcons c d rest)

theorem lower_of_isDigit {c : Char} (h : c.isDigit = true) : lower c = [c] := by
  obtain ⟨hlow, hhigh⟩ := Char.isDigit_iff_toNat.1 h
  change 0x30 ≤ c.toNat at hlow
  change c.toNat ≤ 0x39 at hhigh
  have hall : ∀ n : Fin 10, lower (Char.ofNat (0x30 + n)) = [Char.ofNat (0x30 + n)] := by decide
  have hc := hall ⟨c.toNat - 0x30, by omega⟩
  rwa [Nat.add_sub_cancel' hlow, Char.ofNat_toNat] at hc

theorem lower_of_pathChar {c : Char} (h : PathChar 'h' c) : lower c = [c] := by
  rcases h with h | h
  · exact lower_of_isDigit h
  · have hall : ∀ d ∈ ['-', '/', '<', '>', ';', 'h'], lower d = [d] := by
      simp only [List.forall_mem_cons, List.not_mem_nil, false_implies, implies_true, and_true]
      decide
    exact hall c h

theorem flatMap_lower {s : Str} (h : ∀ c ∈ s, lower c = [c]) : s.flatMap lower = s := by
  induction s with
  | nil => rfl
  | cons c s ih =>
    rw [List.flatMap_cons, h c List.mem_cons_self, ih fun d hd => h d (List.mem_cons_of_mem c hd)]
    rfl

namespace KeyOriginInfo

/-- An origin as the parser builds it: a path only after a whole fingerprint. -/
def Whole (origin : KeyOriginInfo) : Prop :=
  origin.fingerprint.length ≤ 4 ∧ (origin.path ≠ [] → origin.fingerprint.length = 4)

theorem fromString_whole {s : Str} {origin : KeyOriginInfo} (h : fromString s = .ok origin) :
    origin.Whole := by
  unfold fromString at h
  dsimp only at h
  generalize s.flatMap lower = t at h
  obtain ⟨fingerprint, hfp, h⟩ := bind_eq_ok.1 h
  have hlen := hexBytes_length (hexBytes_of_unhexlify hfp)
  rw [List.length_take] at hlen
  split_ifs at h
  · obtain ⟨path, hpath, h⟩ := bind_eq_ok.1 h
    cases h
    refine ⟨by dsimp only; omega, fun hne => ?_⟩
    have hdrop : t.drop 9 ≠ [] := by
      intro hnil
      rw [hnil] at hpath
      cases hpath
      exact hne rfl
    have hlong : 9 < t.length := by
      by_contra hle
      exact hdrop (List.drop_eq_nil_of_le (not_lt.1 hle))
    dsimp only
    omega
  · cases h
    exact ⟨by dsimp only; omega, fun hne => absurd rfl hne⟩

/-- A printed origin reads back. -/
theorem fromString_toString {origin : KeyOriginInfo} (hwhole : origin.Whole)
    (hrange : ∀ i ∈ origin.path, InRange i) : fromString (origin.toString 'h') = .ok origin := by
  have hlower : (origin.toString 'h').flatMap lower = origin.toString 'h' := by
    refine flatMap_lower fun c hc => ?_
    rcases List.mem_append.1 hc with hc | hc
    · obtain ⟨n, hn, rfl⟩ := exists_hexDigit hc
      exact (hexDigit_spec hn).2.1
    · rw [pathToString_eq] at hc
      exact lower_of_pathChar (mem_multipathToString hc)
  have hslash : '/' ∉ hexlify origin.fingerprint := fun hmem => by
    obtain ⟨n, hn, hc⟩ := exists_hexDigit hmem
    exact (hexDigit_spec hn).2.2.1 hc.symm
  obtain ⟨hle, hfour⟩ := hwhole
  unfold fromString
  rw [hlower]
  by_cases hpath : origin.path = []
  · have hstr : origin.toString 'h' = hexlify origin.fingerprint := by
      rw [KeyOriginInfo.toString, hpath]
      exact List.append_nil _
    have htake : (hexlify origin.fingerprint).take 8 = hexlify origin.fingerprint :=
      List.take_of_length_le (by rw [hexlify_length]; omega)
    rw [hstr]
    dsimp only
    rw [htake, unhexlify_hexlify, ok_bind, List.splitOn_eq_singleton hslash, if_neg (by simp), ← hpath]
    rfl
  · have hlen : (hexlify origin.fingerprint).length = 8 := by rw [hexlify_length, hfour hpath]
    have hstr : origin.toString 'h' = hexlify origin.fingerprint ++
        '/' :: List.intercalate ['/'] ((origin.path.map fun i => [i]).map (stepBody 'h')) := by
      rw [KeyOriginInfo.toString, pathToString_eq, multipathToString_eq (by simpa using hpath)]
    have hsplit : 1 < ((origin.toString 'h').splitOn '/').length := by
      rw [hstr, List.splitOn_append_cons_self_of_not_mem hslash, List.length_cons]
      exact Nat.succ_lt_succ (List.length_pos_of_ne_nil (List.splitOn_ne_nil _ _))
    have htake : (origin.toString 'h').take 8 = hexlify origin.fingerprint := by
      rw [hstr, ← hlen, List.take_left]
    have hdrop : (origin.toString 'h').drop 9 =
        List.intercalate ['/'] ((origin.path.map fun i => [i]).map (stepBody 'h')) := by
      rw [hstr, show 9 = (hexlify origin.fingerprint).length + 1 by rw [hlen],
        List.drop_append, List.drop_of_length_le (Nat.le_succ _)]
      simp
    dsimp only
    rw [htake, unhexlify_hexlify, ok_bind, if_pos hsplit, hdrop, parsePath_bodies hpath hrange]
    rfl

end KeyOriginInfo

end Hwi
