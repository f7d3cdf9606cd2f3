import Hwi.Proofs.Printed
import Hwi.Spec.Derive

/-! What `derive` does to a descriptor that was parsed is a change of its text: each
multipath step becomes one of its elements, and each wildcard an index. -/

namespace Hwi

/-! ### Change of the keys -/

namespace Descriptor

variable {g : PubkeyProvider → PubkeyProvider}

mutual

/-- A change that succeeds for each key succeeds for the descriptor. -/
theorem changeKeys_ok {change : PubkeyProvider → Except Exc PubkeyProvider} : ∀ d : Descriptor,
    (∀ p ∈ d.getPubkeyProviders, change p = .ok (g p)) → d.changeKeys change = .ok (d.mapKeys g)
  | pk p, h | pkh p, h | wpkh p, h => by
    rw [changeKeys, h p List.mem_cons_self]
    rfl
  | multisig d, h => by
    have hkeys : ∀ p ∈ d.pubkeys, change p = .ok (g p) := h
    rw [changeKeys, mapM_ok hkeys]
    rfl
  | sh d, h | wsh d, h => by
    rw [changeKeys, changeKeys_ok d h]
    rfl
  | tr p ds depths, h => by
    rw [changeKeys, h p List.mem_cons_self, ok_bind,
      changeKeysOf_ok ds fun q hq => h q (List.mem_cons_of_mem p hq)]
    rfl

theorem changeKeysOf_ok {change : PubkeyProvider → Except Exc PubkeyProvider} : ∀ ds : List Descriptor,
    (∀ p ∈ getPubkeyProvidersOf ds, change p = .ok (g p)) → changeKeysOf change ds = .ok (mapKeysOf g ds)
  | [], _ => rfl
  | d :: ds, h => by
    rw [changeKeysOf, changeKeys_ok d fun p hp => h p (List.mem_append_left _ hp), ok_bind,
      changeKeysOf_ok ds fun p hp => h p (List.mem_append_right _ hp)]
    rfl

end

mutual

theorem mapKeys_eq_self : ∀ d : Descriptor, (∀ p ∈ d.getPubkeyProviders, g p = p) → d.mapKeys g = d
  | pk p, h | pkh p, h | wpkh p, h => by rw [mapKeys, h p List.mem_cons_self]
  | multisig d, h => by
    have hkeys : d.pubkeys.map g = d.pubkeys := (List.map_congr_left h).trans d.pubkeys.map_id
    rw [mapKeys, hkeys]
  | sh d, h | wsh d, h => by rw [mapKeys, mapKeys_eq_self d h]
  | tr p ds depths, h => by
    rw [mapKeys, h p List.mem_cons_self, mapKeysOf_eq_self ds fun q hq => h q (List.mem_cons_of_mem p hq)]

theorem mapKeysOf_eq_self : ∀ ds : List Descriptor, (∀ p ∈ getPubkeyProvidersOf ds, g p = p) →
    mapKeysOf g ds = ds
  | [], _ => rfl
  | d :: ds, h => by
    rw [mapKeysOf, mapKeys_eq_self d fun p hp => h p (List.mem_append_left _ hp),
      mapKeysOf_eq_self ds fun p hp => h p (List.mem_append_right _ hp)]

end

/-- The keys have no say in where a descriptor may stand. -/
theorem Valid.mapKeys : ∀ {d : Descriptor} {ctx : ParseDescriptorContext}, d.Valid ctx → (d.mapKeys g).Valid ctx
  | pk _, _, _ => trivial
  | pkh _, _, h | wpkh _, _, h => h
  | multisig d, ctx, ⟨hctx, hlow, hhigh, hmax, hbare⟩ => by
    refine ⟨hctx, hlow, ?_⟩
    rw [List.length_map]
    exact ⟨hhigh, hmax, hbare⟩
  | sh d, _, ⟨hctx, h⟩ | wsh d, _, ⟨hctx, h⟩ => ⟨hctx, h.mapKeys⟩
  | tr p ds depths, _, ⟨hctx, hpk, hdepths⟩ => by
    rw [Descriptor.mapKeys, mapKeysOf_eq]
    refine ⟨hctx, ?_, ?_⟩
    · intro d hd
      obtain ⟨d', hd', rfl⟩ := List.mem_map.1 hd
      obtain ⟨q, rfl⟩ := hpk d' hd'
      exact ⟨g q, rfl⟩
    · rcases hdepths with ⟨rfl, rfl⟩ | ⟨t, rfl, rfl, hheight⟩
      · exact Or.inl ⟨rfl, rfl⟩
      · exact Or.inr ⟨t.map (Descriptor.mapKeys g), t.leaves_map _, t.depths_map _, by rwa [t.height_map]⟩

end Descriptor

/-! ### Keys -/

namespace PubkeyProvider

/-- The index that stands for a step. -/
def chosen (multipathIndex : ℕ) : List ℤ → ℤ
  | [i] => i
  | step => step.getD multipathIndex 0

theorem getElem?_chosen {multipathIndex : ℕ} {step : List ℤ} (hone : step.length ≠ 1)
    (hlt : multipathIndex < step.length) : step[multipathIndex]? = some (chosen multipathIndex step) := by
  rcases step with _ | ⟨i, _ | ⟨j, step⟩⟩
  · exact absurd hlt (Nat.not_lt_zero _)
  · exact absurd rfl hone
  · dsimp only [chosen]
    rw [List.getD_eq_getElem?_getD, List.getElem?_eq_getElem hlt]
    rfl

theorem chosen_mem {multipathIndex : ℕ} {step : List ℤ}
    (h : step.length ≠ 1 → multipathIndex < step.length) : chosen multipathIndex step ∈ step := by
  by_cases hone : step.length = 1
  · obtain ⟨i, rfl⟩ := List.length_eq_one_iff.1 hone
    exact List.mem_cons_self
  · exact List.mem_of_getElem? (getElem?_chosen hone (h hone))

/-- The path at a position. -/
def derivedSteps (p : PubkeyProvider) (pos : ℤ) (multipathIndex : ℕ) : List ℤ :=
  p.steps.map (chosen multipathIndex) ++ if p.ranged then [pos] else []

/-- The key at a position. -/
def derived (pos : ℤ) (multipathIndex : ℕ) (p : PubkeyProvider) : PubkeyProvider :=
  let path := p.derivedSteps pos multipathIndex
  { p with
    derivPath := if path = [] then none else some (path.map fun i => [i])
    ranged := false }

variable {p : PubkeyProvider} {pos : ℤ} {multipathIndex : ℕ}

theorem derive_ok (h : ∀ step ∈ p.steps, step.length ≠ 1 → multipathIndex < step.length) :
    p.derive pos multipathIndex = .ok (p.derived pos multipathIndex) := by
  have hpath : p.getDerivPath pos multipathIndex = .ok (p.derivedSteps pos multipathIndex) := by
    unfold getDerivPath
    rw [mapM_ok (g := chosen multipathIndex) fun step hstep => ?_]
    · rfl
    · have hlt := h step hstep
      rcases step with _ | ⟨i, _ | ⟨j, rest⟩⟩
      · exact absurd (hlt Nat.zero_ne_one) (Nat.not_lt_zero _)
      · rfl
      · dsimp only
        rw [getElem?_chosen (by simp) (hlt (by simp))]
  unfold derive
  rw [hpath]
  rfl

theorem derived_steps : (p.derived pos multipathIndex).steps =
    (p.derivedSteps pos multipathIndex).map fun i => [i] := by
  unfold steps derived
  dsimp only
  split_ifs with h
  · rw [h]
    rfl
  · rfl

/-- The key at a position has one place only. -/
theorem derived_derived (pos' : ℤ) (multipathIndex' : ℕ) :
    (p.derived pos multipathIndex).derived pos' multipathIndex' = p.derived pos multipathIndex := by
  have hsteps : (p.derived pos multipathIndex).derivedSteps pos' multipathIndex' =
      p.derivedSteps pos multipathIndex := by
    unfold derivedSteps
    rw [derived_steps, List.map_map]
    have hid : chosen multipathIndex' ∘ (fun i : ℤ => [i]) = id := rfl
    rw [hid, List.map_id]
    exact List.append_nil _
  unfold derived at hsteps ⊢
  dsimp only at hsteps ⊢
  rw [hsteps]

theorem derived_normal : (p.derived pos multipathIndex).normal = p.derived pos multipathIndex := by
  unfold normal derived
  dsimp only
  split_ifs with h
  · rfl
  · rw [Option.filter_some, if_pos (by simpa using h)]

theorem derived_multipathLen : (p.derived pos multipathIndex).multipathLen = 1 := by
  have hones (path : List ℤ) (i : ℤ) :
      (((i :: path).map fun i => [i]).map List.length).foldr max 0 = 1 := by
    induction path generalizing i with
    | nil => rfl
    | cons j path ih =>
      rw [List.map_cons, List.map_cons, List.foldr_cons, ih]
      rfl
  unfold multipathLen derived
  dsimp only
  cases hpath : p.derivedSteps pos multipathIndex with
  | nil => rfl
  | cons i path =>
    rw [if_neg (List.cons_ne_nil _ _)]
    exact hones path i

theorem Parsed.derived (h : p.Parsed) (hsteps : StepsInRange (p.derived pos multipathIndex).steps) :
    (p.derived pos multipathIndex).Parsed := by
  refine ⟨h.origin, ?_, ?_⟩
  · intro path hpath
    have hpath' : (p.derived pos multipathIndex).steps = path := by
      unfold steps
      rw [hpath]
      rfl
    have hne : path ≠ [] := by
      unfold PubkeyProvider.derived at hpath
      dsimp only at hpath
      split_ifs at hpath with hnil
      rw [← Option.some.inj hpath]
      exact fun hmap => hnil (List.map_eq_nil_iff.1 hmap)
    rw [hpath'] at hsteps
    rw [derived_steps] at hpath'
    refine ⟨_, parseSteps_bodies hne hsteps ?_ ?_⟩
    · rw [← hpath']
      simp
    · rw [← hpath', List.countP_eq_zero.2]
      · exact Nat.zero_le 1
      · simp
  · exact new_update h.new _ _ _ _

end PubkeyProvider

/-! ### Texts -/

/-- A text with one element of each multipath step: outside of such steps, or inside of
one at some element. -/
def selectText (multipathIndex : ℕ) : Option ℕ → Str → Str
  | _, [] => []
  | none, c :: s =>
    if c = '<' then selectText multipathIndex (some 0) s
    else c :: selectText multipathIndex none s
  | some k, c :: s =>
    if c = '>' then selectText multipathIndex none s
    else if c = ';' then selectText multipathIndex (some (k + 1)) s
    else if k = multipathIndex then c :: selectText multipathIndex (some k) s
    else selectText multipathIndex (some k) s

/-- A text with an index for each wildcard. -/
def placeText (pos : ℤ) : Str → Str
  | c :: d :: s =>
    if c = '/' ∧ d = '*' then '/' :: (str pos ++ placeText pos s) else c :: placeText pos (d :: s)
  | s => s

/-- The text of a descriptor at a position. -/
def derivedText (pos : ℤ) (multipathIndex : ℕ) (s : Str) : Str :=
  placeText pos (selectText multipathIndex none s)

/-- A character that is neither a slash nor one of a multipath step or a wildcard. -/
def Inert (c : Char) : Prop := c ∉ ['/', '*', '<', '>', ';']

instance (c : Char) : Decidable (Inert c) := inferInstanceAs (Decidable (¬_))

section
variable {pos : ℤ} {multipathIndex : ℕ}

theorem Inert.ne {c : Char} (h : Inert c) : c ≠ '/' ∧ c ≠ '*' ∧ c ≠ '<' ∧ c ≠ '>' ∧ c ≠ ';' := by
  unfold Inert at h
  simpa using h

theorem selectText_inert {t : Str} (ht : ∀ c ∈ t, Inert c) (rest : Str) :
    selectText multipathIndex none (t ++ rest) = t ++ selectText multipathIndex none rest := by
  induction t with
  | nil => rfl
  | cons c t ih =>
    obtain ⟨-, -, hc, -⟩ := (ht c List.mem_cons_self).ne
    rw [List.cons_append, selectText, if_neg hc, ih fun d hd => ht d (List.mem_cons_of_mem c hd),
      List.cons_append]

/-- Inside of a multipath step the characters of one element stay. -/
theorem selectText_element {k : ℕ} {e : Str} (he : ∀ c ∈ e, Inert c) (rest : Str) :
    selectText multipathIndex (some k) (e ++ rest) =
      (if k = multipathIndex then e else []) ++ selectText multipathIndex (some k) rest := by
  induction e with
  | nil => split_ifs <;> rfl
  | cons c e ih =>
    obtain ⟨-, -, -, hclose, hsep⟩ := (he c List.mem_cons_self).ne
    rw [List.cons_append, selectText, if_neg hclose, if_neg hsep, ih fun d hd => he d (List.mem_cons_of_mem c hd)]
    split_ifs <;> rfl

/-- The elements of a multipath step from some number on. -/
theorem selectText_elements (multipathIndex : ℕ) {k : ℕ} {es : List Str}
    (hes : ∀ e ∈ es, ∀ c ∈ e, Inert c) (hne : es ≠ [])
    (rest : Str) : selectText multipathIndex (some k) (List.intercalate [';'] es ++ '>' :: rest) =
      (if k ≤ multipathIndex then es.getD (multipathIndex - k) [] else []) ++
        selectText multipathIndex none rest := by
  induction es generalizing k with
  | nil => exact absurd rfl hne
  | cons e es ih =>
    have he := hes e List.mem_cons_self
    cases es with
    | nil =>
      rw [List.intercalate_singleton, selectText_element he, selectText, if_pos rfl]
      congr 1
      by_cases hk : k = multipathIndex
      · rw [if_pos hk, if_pos hk.le, hk, Nat.sub_self]
        rfl
      · rw [if_neg hk]
        split_ifs with hle
        · obtain ⟨n, hn⟩ : ∃ n, multipathIndex - k = n + 1 := ⟨multipathIndex - k - 1, by omega⟩
          rw [hn]
          rfl
        · rfl
    | cons e' es =>
      have hrest := ih (k := k + 1) (fun d hd => hes d (List.mem_cons_of_mem e hd)) (List.cons_ne_nil _ _)
      rw [List.intercalate_cons_cons, List.append_assoc, List.append_assoc, selectText_element he,
        List.singleton_append, selectText, if_neg (show ';' ≠ '>' by decide), if_pos rfl, hrest,
        ← List.append_assoc]
      congr 1
      by_cases hk : k = multipathIndex
      · rw [if_pos hk, if_pos hk.le, if_neg (by omega), hk, Nat.sub_self]
        exact List.append_nil _
      · rw [if_neg hk, List.nil_append]
        by_cases hle : k + 1 ≤ multipathIndex
        · obtain ⟨n, hn⟩ : ∃ n, multipathIndex - k = n + 1 := ⟨multipathIndex - k - 1, by omega⟩
          rw [if_pos hle, if_pos (by omega), hn, show multipathIndex - (k + 1) = n by omega]
          rfl
        · rw [if_neg hle, if_neg (by omega)]

theorem placeText_cons {c : Char} {s : Str} (h : ¬(c = '/' ∧ s.head? = some '*')) :
    placeText pos (c :: s) = c :: placeText pos s := by
  cases s with
  | nil => rfl
  | cons d s =>
    rw [placeText, if_neg]
    rintro ⟨hc, hd⟩
    exact h ⟨hc, congrArg some hd⟩

theorem placeText_inert {t : Str} (ht : ∀ c ∈ t, Inert c) (rest : Str) :
    placeText pos (t ++ rest) = t ++ placeText pos rest := by
  induction t with
  | nil => rfl
  | cons c t ih =>
    have hc := (ht c List.mem_cons_self).ne.1
    rw [List.cons_append, placeText_cons fun h => hc h.1, ih fun d hd => ht d (List.mem_cons_of_mem c hd),
      List.cons_append]

end

/-- In front of any text, the one text turns into the other. -/
def Becomes (pos : ℤ) (multipathIndex : ℕ) (t t' : Str) : Prop :=
  ∀ rest, derivedText pos multipathIndex (t ++ rest) = t' ++ derivedText pos multipathIndex rest

section
variable {pos : ℤ} {multipathIndex : ℕ} {t t' u u' : Str}

theorem Becomes.append (ht : Becomes pos multipathIndex t t') (hu : Becomes pos multipathIndex u u') :
    Becomes pos multipathIndex (t ++ u) (t' ++ u') := by
  intro rest
  rw [List.append_assoc, ht, hu, List.append_assoc]

theorem becomes_inert (ht : ∀ c ∈ t, Inert c) : Becomes pos multipathIndex t t := by
  intro rest
  unfold derivedText
  rw [selectText_inert ht, placeText_inert ht]

theorem becomes_char {c : Char} (hc : Inert c) : Becomes pos multipathIndex [c] [c] :=
  becomes_inert fun d hd => by rwa [List.mem_singleton.mp hd]

theorem becomes_nil : Becomes pos multipathIndex [] [] := fun _ => rfl

/-- A slash and the text of an index. -/
theorem placeText_step (ht : ∀ c ∈ t, Inert c) (hne : t ≠ []) (rest : Str) :
    placeText pos ('/' :: t ++ rest) = '/' :: t ++ placeText pos rest := by
  obtain ⟨c, s, rfl⟩ := List.exists_cons_of_ne_nil hne
  have hc : ¬('/' = '/' ∧ (c :: s ++ rest).head? = some '*') := by
    rintro ⟨-, hhead⟩
    exact (ht c List.mem_cons_self).ne.2.1 (Option.some.inj hhead)
  rw [List.cons_append, placeText_cons hc, placeText_inert ht]
  rfl

theorem becomes_step (ht : ∀ c ∈ t, Inert c) (hne : t ≠ []) :
    Becomes pos multipathIndex ('/' :: t) ('/' :: t) := by
  intro rest
  unfold derivedText
  rw [List.cons_append, selectText, if_neg (by decide), selectText_inert ht, ← List.cons_append,
    placeText_step ht hne]

/-- A multipath step becomes the chosen element. -/
theorem becomes_multipath {es : List Str} (hes : ∀ e ∈ es, ∀ c ∈ e, Inert c)
    (hlt : multipathIndex < es.length) (hne : es.getD multipathIndex [] ≠ []) :
    Becomes pos multipathIndex (['/', '<'] ++ List.intercalate [';'] es ++ ['>'])
      ('/' :: es.getD multipathIndex []) := by
  intro rest
  have hmem : es.getD multipathIndex [] ∈ es := by
    rw [List.getD_eq_getElem?_getD, List.getElem?_eq_getElem hlt]
    exact List.getElem_mem hlt
  have helements := selectText_elements multipathIndex (k := 0) hes (List.ne_nil_of_length_pos (by omega)) rest
  rw [if_pos (Nat.zero_le _), Nat.sub_zero] at helements
  unfold derivedText
  have hstr : ['/', '<'] ++ List.intercalate [';'] es ++ ['>'] ++ rest =
      '/' :: '<' :: (List.intercalate [';'] es ++ '>' :: rest) := by simp
  rw [hstr, selectText, if_neg (by decide), selectText, if_pos rfl, helements, ← List.cons_append,
    placeText_step (hes _ hmem) hne]

/-- A wildcard becomes the index. -/
theorem becomes_wildcard : Becomes pos multipathIndex ['/', '*'] ('/' :: str pos) := by
  intro rest
  unfold derivedText
  change placeText pos (selectText multipathIndex none ('/' :: '*' :: rest)) = _
  rw [selectText, if_neg (by decide), selectText, if_neg (by decide), placeText, if_pos ⟨rfl, rfl⟩]
  rfl

/-! ### The text of a key -/

theorem inert_of_isAlphanum {c : Char} (h : c.isAlphanum = true) : Inert c := by
  intro hmem
  simp only [List.mem_cons, List.not_mem_nil, or_false] at hmem
  rcases hmem with rfl | rfl | rfl | rfl | rfl <;> simp at h

theorem inert_indexToStr {i : ℤ} (h : InRange i) : ∀ c ∈ indexToStr 'h' i, Inert c := by
  intro c hc hmem
  refine indexToStr_free h ?_ ?_ hc
  · simp only [List.mem_cons, List.not_mem_nil, or_false] at hmem
    rcases hmem with rfl | rfl | rfl | rfl | rfl <;> decide
  · rintro rfl
    exact absurd hmem (by decide)

theorem indexToStr_ne_nil {i : ℤ} (h : InRange i) : indexToStr 'h' i ≠ [] := by
  obtain ⟨n, -, ⟨-, -, hi⟩ | ⟨-, -, hi⟩⟩ := indexToStr_eq h 'h'
  · rw [hi]
    exact str_ne_nil n
  · rw [hi]
    exact List.append_ne_nil_of_right_ne_nil _ (List.cons_ne_nil _ _)

theorem becomes_index {i : ℤ} (h : InRange i) :
    Becomes pos multipathIndex ('/' :: indexToStr 'h' i) ('/' :: indexToStr 'h' i) :=
  becomes_step (inert_indexToStr h) (indexToStr_ne_nil h)

theorem becomes_path {path : List ℤ} (h : ∀ i ∈ path, InRange i) :
    Becomes pos multipathIndex (pathToString path 'h') (pathToString path 'h') := by
  unfold pathToString
  induction path with
  | nil => exact becomes_nil
  | cons i path ih =>
    rw [List.flatMap_cons]
    exact (becomes_index (h i List.mem_cons_self)).append (ih fun j hj => h j (List.mem_cons_of_mem i hj))

theorem becomes_stepToString {step : List ℤ} (h : ∀ i ∈ step, InRange i)
    (hlt : step.length ≠ 1 → multipathIndex < step.length) :
    Becomes pos multipathIndex (stepToString 'h' step)
      ('/' :: indexToStr 'h' (PubkeyProvider.chosen multipathIndex step)) := by
  rcases step with _ | ⟨i, _ | ⟨j, step⟩⟩
  · exact absurd (hlt Nat.zero_ne_one) (Nat.not_lt_zero _)
  · exact becomes_index (h i List.mem_cons_self)
  · have hget : ((i :: j :: step).map (indexToStr 'h')).getD multipathIndex [] =
        indexToStr 'h' (PubkeyProvider.chosen multipathIndex (i :: j :: step)) := by
      rw [List.getD_eq_getElem?_getD, List.getElem?_map,
        PubkeyProvider.getElem?_chosen (by simp) (hlt (by simp))]
      rfl
    rw [← hget]
    refine becomes_multipath ?_ (by simpa using hlt (by simp)) ?_
    · intro e he
      obtain ⟨k, hk, rfl⟩ := List.mem_map.1 he
      exact inert_indexToStr (h k hk)
    · rw [hget]
      exact indexToStr_ne_nil (h _ (PubkeyProvider.chosen_mem hlt))

theorem becomes_steps {path : List (List ℤ)} (h : StepsInRange path)
    (hlt : ∀ step ∈ path, step.length ≠ 1 → multipathIndex < step.length) :
    Becomes pos multipathIndex (multipathToString path 'h')
      (pathToString (path.map (PubkeyProvider.chosen multipathIndex)) 'h') := by
  unfold multipathToString pathToString
  induction path with
  | nil => exact becomes_nil
  | cons step path ih =>
    rw [List.flatMap_cons, List.map_cons, List.flatMap_cons]
    refine (becomes_stepToString (h step List.mem_cons_self) (hlt step List.mem_cons_self)).append ?_
    exact ih (fun s hs => h s (List.mem_cons_of_mem _ hs)) fun s hs => hlt s (List.mem_cons_of_mem _ hs)

/-- What `derive` may be called with, and on which keys. -/
structure Placeable (pos : ℤ) (multipathIndex : ℕ) (p : PubkeyProvider) : Prop where
  printable : p.Printable
  steps : ∀ step ∈ p.steps, step.length ≠ 1 → multipathIndex < step.length
  pos : 0 ≤ pos ∧ pos < 2 ^ 31

theorem becomes_pathString {p : PubkeyProvider} (h : Placeable pos multipathIndex p) :
    Becomes pos multipathIndex (p.pathString 'h') ((p.derived pos multipathIndex).pathString 'h') := by
  rw [PubkeyProvider.pathString_eq, PubkeyProvider.pathString_eq, PubkeyProvider.derived_steps, ← pathToString_eq]
  have hranged : (p.derived pos multipathIndex).ranged = false := rfl
  have hindex : indexToStr 'h' pos = str pos := by
    unfold indexToStr
    rw [if_neg (by rw [isHardened_eq_false h.pos.1 h.pos.2]; exact Bool.false_ne_true)]
  rw [hranged, if_neg Bool.false_ne_true, List.append_nil]
  unfold PubkeyProvider.derivedSteps
  rw [pathToString, List.flatMap_append]
  refine (becomes_steps h.printable.steps h.steps).append ?_
  split_ifs
  · rw [List.flatMap_singleton, hindex]
    exact becomes_wildcard
  · exact becomes_nil

theorem inert_hexlify (b : Bytes) : ∀ c ∈ hexlify b, Inert c := by
  intro c hc
  obtain ⟨n, hn, rfl⟩ := exists_hexDigit hc
  exact inert_of_isAlphanum (hexDigit_spec hn).2.2.2

/-- The text of a key becomes that of the key at the position. -/
theorem becomes_key {p : PubkeyProvider} (h : Placeable pos multipathIndex p) :
    Becomes pos multipathIndex (p.toString 'h') ((p.derived pos multipathIndex).toString 'h') := by
  have hpubkey : Becomes pos multipathIndex p.pubkey p.pubkey :=
    becomes_inert fun c hc => inert_of_isAlphanum (PubkeyProvider.isAlphanum_of_new h.printable.parsed.new c hc)
  have horigin : Becomes pos multipathIndex (p.originString 'h') (p.originString 'h') := by
    unfold PubkeyProvider.originString
    cases horigin : p.origin with
    | none => exact becomes_nil
    | some origin =>
      have hopen : Becomes pos multipathIndex ['['] ['['] := becomes_char (by decide)
      have hclose : Becomes pos multipathIndex [']'] [']'] := becomes_char (by decide)
      have hfingerprint : Becomes pos multipathIndex (hexlify origin.fingerprint) (hexlify origin.fingerprint) :=
        becomes_inert (inert_hexlify origin.fingerprint)
      have hpath := hfingerprint.append (becomes_path (h.printable.origin origin horigin))
      exact (hopen.append hpath).append hclose
  exact (horigin.append hpubkey).append (becomes_pathString h)

/-! ### The text of a descriptor -/

theorem becomes_funcString {name : String} (hname : ∀ c ∈ name.toList, Inert c)
    (ht : Becomes pos multipathIndex t t') :
    Becomes pos multipathIndex (funcString name t) (funcString name t') := by
  have hopen : Becomes pos multipathIndex ['('] ['('] := becomes_char (by decide)
  have hclose : Becomes pos multipathIndex [')'] [')'] := becomes_char (by decide)
  exact (((becomes_inert hname).append hopen).append ht).append hclose

theorem becomes_intercalate {ts ts' : List Str} (h : List.Forall₂ (Becomes pos multipathIndex) ts ts') :
    Becomes pos multipathIndex (List.intercalate [','] ts) (List.intercalate [','] ts') := by
  have hcomma : Becomes pos multipathIndex [','] [','] := becomes_char (by decide)
  induction h with
  | nil => exact becomes_nil
  | @cons t t' ts ts' ht hts ih =>
    cases hts with
    | nil =>
      rw [List.intercalate_singleton, List.intercalate_singleton]
      exact ht
    | cons hu hus =>
      rw [List.intercalate_cons_cons, List.intercalate_cons_cons]
      exact (ht.append hcomma).append ih

theorem mem_openBraces {n : ℕ} {path : List Bool} {c : Char} (h : c ∈ (openBraces n path).1) : c = '{' := by
  induction n generalizing path with
  | zero => cases h
  | succ n ih =>
    rw [openBraces_succ] at h
    rcases List.mem_append.1 h with h | h
    · exact ih h
    · split_ifs at h
      · exact List.mem_singleton.1 h
      · cases h

theorem mem_closeBraces {path : List Bool} {c : Char} (h : c ∈ (closeBraces path).1) : c = '}' := by
  induction path with
  | nil => cases h
  | cons b path ih =>
    cases b with
    | false => cases h
    | true =>
      rw [closeBraces] at h
      rcases List.mem_cons.1 h with h | h
      · exact h
      · exact ih h

theorem becomes_treeString {ts ts' : List Str} (h : List.Forall₂ (Becomes pos multipathIndex) ts ts')
    (depths : List ℕ) (path : List Bool) :
    Becomes pos multipathIndex (treeString (ts.zip depths) path) (treeString (ts'.zip depths) path) := by
  induction h generalizing depths path with
  | nil => exact becomes_nil
  | @cons leaf leaf' ts ts' hleaf _ ih =>
    rcases depths with _ | ⟨depth, depths⟩
    · exact becomes_nil
    have hcomma : Becomes pos multipathIndex [','] [','] := becomes_char (by decide)
    have hopen (n : ℕ) : Becomes pos multipathIndex (openBraces n path).1 (openBraces n path).1 := by
      refine becomes_inert fun c hc => ?_
      rw [mem_openBraces hc]
      decide
    have hclose (path : List Bool) : Becomes pos multipathIndex (closeBraces path).1 (closeBraces path).1 := by
      refine becomes_inert fun c hc => ?_
      rw [mem_closeBraces hc]
      decide
    rw [List.zip_cons_cons, List.zip_cons_cons, treeString_cons, treeString_cons]
    exact ((hcomma.append (hopen _)).append hleaf).append ((hclose _).append (ih depths _))

theorem inert_str (i : ℤ) : ∀ c ∈ str i, Inert c := by
  intro c hc
  rcases mem_str hc with hdigit | rfl
  · exact inert_of_isAlphanum (by simp [Char.isAlphanum, hdigit])
  · decide

end

namespace Descriptor

section
variable {pos : ℤ} {multipathIndex : ℕ} {g : PubkeyProvider → PubkeyProvider}

mutual

theorem becomes_toStringNoChecksum : ∀ d : Descriptor,
    (∀ p ∈ d.getPubkeyProviders, Becomes pos multipathIndex (p.toString 'h') ((g p).toString 'h')) →
      Becomes pos multipathIndex (d.toStringNoChecksum 'h') ((d.mapKeys g).toStringNoChecksum 'h')
  | pk p, h | pkh p, h | wpkh p, h =>
    becomes_funcString (List.forall_iff_forall_mem.mp (by decide)) (h p List.mem_cons_self)
  | multisig d, h => by
    have hname : ∀ c ∈ d.name.toList, Inert c := by
      unfold MultisigDescriptor.name
      cases d.isSorted with
      | false => exact List.forall_iff_forall_mem.mp (by decide)
      | true => exact List.forall_iff_forall_mem.mp (by decide)
    have hcomma : Becomes pos multipathIndex [','] [','] := becomes_char (by decide)
    have hkeys : List.Forall₂ (Becomes pos multipathIndex) (d.pubkeys.map fun p => p.toString 'h')
        ((d.pubkeys.map g).map fun p => p.toString 'h') := by
      rw [List.map_map, List.forall₂_map_left_iff, List.forall₂_map_right_iff, List.forall₂_same]
      exact h
    exact becomes_funcString hname (((becomes_inert (inert_str d.thresh)).append hcomma).append
      (becomes_intercalate hkeys))
  | sh d, h | wsh d, h =>
    becomes_funcString (List.forall_iff_forall_mem.mp (by decide)) (becomes_toStringNoChecksum d h)
  | tr p ds depths, h => by
    have hds := becomes_toStringsNoChecksum ds fun q hq => h q (List.mem_cons_of_mem p hq)
    exact becomes_funcString (List.forall_iff_forall_mem.mp (by decide))
      ((h p List.mem_cons_self).append (becomes_treeString hds depths []))

theorem becomes_toStringsNoChecksum : ∀ ds : List Descriptor,
    (∀ p ∈ getPubkeyProvidersOf ds, Becomes pos multipathIndex (p.toString 'h') ((g p).toString 'h')) →
      List.Forall₂ (Becomes pos multipathIndex) (toStringsNoChecksum 'h' ds)
        (toStringsNoChecksum 'h' (mapKeysOf g ds))
  | [], _ => .nil
  | d :: ds, h => .cons (becomes_toStringNoChecksum d fun p hp => h p (List.mem_append_left _ hp))
      (becomes_toStringsNoChecksum ds fun p hp => h p (List.mem_append_right _ hp))

end

end

end Descriptor

/-! ### Parsed descriptors -/

namespace PubkeyProvider

variable {p : PubkeyProvider} {pos : ℤ} {multipathIndex : ℕ}

theorem inRange_derivedSteps (h : Placeable pos multipathIndex p) :
    ∀ i ∈ p.derivedSteps pos multipathIndex, InRange i := by
  intro i hi
  rcases List.mem_append.1 hi with hi | hi
  · obtain ⟨step, hstep, rfl⟩ := List.mem_map.1 hi
    exact h.printable.steps step hstep _ (chosen_mem (h.steps step hstep))
  · split_ifs at hi
    · rw [List.mem_singleton.1 hi]
      exact ⟨h.pos.1, h.pos.2.trans (by decide)⟩
    · cases hi

theorem Printable.derived (h : Placeable pos multipathIndex p) : (p.derived pos multipathIndex).Printable := by
  have hsteps : StepsInRange (p.derived pos multipathIndex).steps := by
    rw [derived_steps]
    intro step hstep i hi
    obtain ⟨j, hj, rfl⟩ := List.mem_map.1 hstep
    rw [List.mem_singleton.1 hi]
    exact inRange_derivedSteps h j hj
  exact ⟨h.printable.parsed.derived hsteps, h.printable.pubkey, h.printable.origin, hsteps⟩

end PubkeyProvider

namespace Descriptor

/-- The length that the multipath steps of a descriptor share. -/
def multipathLen (d : Descriptor) : ℕ := (d.getPubkeyProviders.map PubkeyProvider.multipathLen).foldr max 0

theorem length_eq_multipathLen {d : Descriptor} {len : Option ℕ} (hagree : Agree len d.getPubkeyProviders)
    {p : PubkeyProvider} (hp : p ∈ d.getPubkeyProviders) (hone : p.OneMultipath) {step : List ℤ}
    (hstep : step ∈ p.steps) (hlen : step.length ≠ 1) : step.length = d.multipathLen := by
  have hpos := List.length_pos_of_ne_nil (hone.1 step hstep)
  have hp' := hone.length_eq hstep (by omega)
  have hle : p.multipathLen ≤ d.multipathLen := PubkeyProvider.le_foldr_max (List.mem_map_of_mem hp)
  obtain ⟨q, hq, hqlen⟩ := List.mem_map.1 (PubkeyProvider.foldr_max_mem (show 0 < d.multipathLen by omega))
  have hqlen' : q.multipathLen = d.multipathLen := hqlen
  have hsame := (hagree p hp (by omega)).symm.trans (hagree q hq (by omega))
  have heq := Option.some.inj hsame
  omega

variable {d : Descriptor} {pos : ℤ} {multipathIndex : ℕ}

theorem run_derive (h : ∀ p ∈ d.getPubkeyProviders, Placeable pos multipathIndex p) :
    (derive pos multipathIndex).run d = .ok (d.mapKeys (PubkeyProvider.derived pos multipathIndex)) d := by
  unfold derive
  rw [EStateM.run_bind, EStateM.run_get]
  dsimp only
  rw [changeKeys_ok d fun p hp => PubkeyProvider.derive_ok (h p hp).steps]
  rfl

/-- A descriptor at a position stays as it is at every position. -/
theorem run_derive_derived (pos' : ℤ) (multipathIndex' : ℕ) :
    (derive pos' multipathIndex').run (d.mapKeys (PubkeyProvider.derived pos multipathIndex)) =
      .ok (d.mapKeys (PubkeyProvider.derived pos multipathIndex))
        (d.mapKeys (PubkeyProvider.derived pos multipathIndex)) := by
  set d' := d.mapKeys (PubkeyProvider.derived pos multipathIndex) with hd'
  have hkeys : ∀ p ∈ d'.getPubkeyProviders, p.derive pos' multipathIndex' = .ok (id p) := by
    intro p hp
    rw [hd', mapKeys_getPubkeyProviders] at hp
    obtain ⟨q, -, rfl⟩ := List.mem_map.1 hp
    have hone : ∀ step ∈ (q.derived pos multipathIndex).steps, step.length ≠ 1 →
        multipathIndex' < step.length := by
      intro step hstep hlen
      rw [PubkeyProvider.derived_steps] at hstep
      obtain ⟨i, -, rfl⟩ := List.mem_map.1 hstep
      exact absurd rfl hlen
    rw [PubkeyProvider.derive_ok hone, PubkeyProvider.derived_derived]
    rfl
  unfold derive
  rw [EStateM.run_bind, EStateM.run_get]
  dsimp only
  rw [changeKeys_ok d' hkeys, mapKeys_eq_self (g := id) d' fun _ _ => rfl]
  rfl

/-- The text of a descriptor at a position is parsed as that descriptor. -/
theorem parseDescriptor_derived (hvalid : d.Valid .top)
    (hnum : d.getPubkeyProviders.map PubkeyProvider.exprIndex = List.range' 0 d.getPubkeyProviders.length)
    (h : ∀ p ∈ d.getPubkeyProviders, Placeable pos multipathIndex p) :
    parseDescriptor ((d.mapKeys (PubkeyProvider.derived pos multipathIndex)).toStringNoChecksum 'h') =
      .ok (d.mapKeys (PubkeyProvider.derived pos multipathIndex)) := by
  set d' := d.mapKeys (PubkeyProvider.derived pos multipathIndex) with hd'
  have hkeys : d'.getPubkeyProviders = d.getPubkeyProviders.map (PubkeyProvider.derived pos multipathIndex) := by
    rw [hd', mapKeys_getPubkeyProviders]
  have hprint : ∀ p ∈ d'.getPubkeyProviders, p.Printable := by
    intro p hp
    rw [hkeys] at hp
    obtain ⟨q, hq, rfl⟩ := List.mem_map.1 hp
    exact PubkeyProvider.Printable.derived (h q hq)
  have hback : ReadsBack 0 d'.getPubkeyProviders := by
    refine ⟨hprint, ?_, none, ?_⟩
    · rw [hkeys, List.map_map, List.length_map, ← hnum]
      rfl
    · intro p hp hlen
      rw [hkeys] at hp
      obtain ⟨q, -, rfl⟩ := List.mem_map.1 hp
      rw [PubkeyProvider.derived_multipathLen] at hlen
      exact absurd hlen (Nat.lt_irrefl 1)
  have hnormal : d'.normal = d' := by
    refine mapKeys_eq_self d' fun p hp => ?_
    rw [hkeys] at hp
    obtain ⟨q, -, rfl⟩ := List.mem_map.1 hp
    exact PubkeyProvider.derived_normal
  have hvalid' : d'.Valid .top := hvalid.mapKeys
  have hstrip : stripChecksum (d'.toStringNoChecksum 'h') = .ok (d'.toStringNoChecksum 'h') := by
    unfold stripChecksum
    rw [cut_eq_none.2 (d'.toStringNoChecksum_free .top hvalid' fun p hp => (hprint p hp).parsed)]
  unfold parseDescriptor
  rw [hstrip, ok_bind, d'.parse_toStringNoChecksum .top 3 0 hvalid' hback (by decide), hnormal]
  rfl

/-- A descriptor that was parsed is derived at a position, its text being that of the
descriptor with the multipath steps and wildcards replaced; that text is parsed as the
descriptor at the position, which is derived as itself. -/
theorem derive_toString {s : Str} (h : parseDescriptor s = .ok d) (hd : d.Regular)
    (hpos : 0 ≤ pos ∧ pos < 2 ^ 31) (hindex : multipathIndex < d.multipathLen) :
    ∃ d', (derive pos multipathIndex).run d = .ok d' d ∧
      d'.toStringNoChecksum 'h' = derivedText pos multipathIndex (d.toStringNoChecksum 'h') ∧
      parseDescriptor (d'.toStringNoChecksum 'h') = .ok d' ∧
      ∀ pos' multipathIndex', (derive pos' multipathIndex').run d' = .ok d' d' := by
  obtain ⟨desc, j, -, hparse⟩ := parseDescriptor_cases h
  obtain ⟨hvalid, hkeys, len, hagree⟩ := parseDescriptorIn_spec hparse
  have hplace : ∀ p ∈ d.getPubkeyProviders, Placeable pos multipathIndex p := by
    intro p hp
    obtain ⟨hpubkey, hsteps, horigin⟩ := hd p hp
    have hparsed := hkeys.parsed p hp
    refine ⟨⟨hparsed, hpubkey, horigin, hsteps⟩, ?_, hpos⟩
    intro step hstep hlen
    rwa [length_eq_multipathLen hagree hp hparsed.oneMultipath hstep hlen]
  refine ⟨_, run_derive hplace, ?_, parseDescriptor_derived hvalid hkeys.numbered hplace, run_derive_derived⟩
  have htext := becomes_toStringNoChecksum d (fun p hp => becomes_key (hplace p hp)) []
  rw [List.append_nil] at htext
  exact (htext.trans (List.append_nil _)).symm

theorem derive_toString_sample : ∃ d d', parseDescriptor descriptorSample = .ok d ∧
    (derive 7 1).run d = .ok d' d ∧ parseDescriptor (d'.toStringNoChecksum 'h') = .ok d' ∧
    d'.toStringNoChecksum 'h' = "tr(ab,\x7bpk(cd/1/7),pk(ef)\x7d)".toList := by
  have hsome : (parseDescriptor descriptorSample).toOption.any (fun d =>
      decide d.Regular && decide (1 < d.multipathLen) &&
        decide (derivedText 7 1 (d.toStringNoChecksum 'h') = "tr(ab,\x7bpk(cd/1/7),pk(ef)\x7d)".toList)) = true := by
    decide +kernel
  obtain ⟨d, hd, hchecks⟩ := (Option.any_eq_true _ _).1 hsome
  simp only [Bool.and_eq_true, decide_eq_true_iff] at hchecks
  obtain ⟨⟨hregular, hlen⟩, htext⟩ := hchecks
  have hparse := toOption_eq_some.1 hd
  have hpos : (0 : ℤ) ≤ 7 ∧ (7 : ℤ) < 2 ^ 31 := by decide
  obtain ⟨d', hrun, htext', hread, -⟩ := derive_toString hparse hregular hpos hlen
  exact ⟨d, d', hparse, hrun, hread, htext'.trans htext⟩

end Descriptor

end Hwi
