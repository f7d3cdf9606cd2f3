import Hwi.Proofs.Descriptor
import Hwi.Proofs.PathText

/-! A printed descriptor read back. -/

namespace Hwi

/-! ### Key expressions -/

theorem isAlphanum_of_hexValue {c : Char} {n : ℕ} (h : hexBytes.hexValue c = .ok n) :
    c.isAlphanum = true := by
  unfold hexBytes.hexValue at h
  have hrange : ('0' ≤ c ∧ c ≤ '9') ∨ ('a' ≤ c ∧ c ≤ 'f') ∨ ('A' ≤ c ∧ c ≤ 'F') := by
    split_ifs at h with h₁ h₂ h₃
    · exact Or.inl h₁
    · exact Or.inr (Or.inl h₂)
    · exact Or.inr (Or.inr h₃)
  simp only [Char.le_def, UInt32.le_iff_toNat_le] at hrange
  have hranges : c.isAlphanum =
      (decide (c.val ≥ 'A'.val ∧ c.val ≤ 'Z'.val) || c.val ≥ 'a'.val && c.val ≤ 'z'.val ||
        c.val ≥ '0'.val && c.val ≤ '9'.val) := rfl
  rw [hranges]
  simp only [ge_iff_le, UInt32.le_iff_toNat_le, Bool.or_eq_true, Bool.and_eq_true,
    decide_eq_true_iff]
  simp at hrange ⊢
  omega

theorem isAlphanum_of_hexBytes {s : Str} {b : Bytes} (h : hexBytes s = .ok b) :
    ∀ c ∈ s, c.isAlphanum = true := by
  induction s using hexBytes.induct generalizing b with
  | case1 => simp
  | case2 c d rest ih =>
    rw [hexBytes] at h
    obtain ⟨hi, hhi, h⟩ := bind_eq_ok.1 h
    obtain ⟨lo, hlo, h⟩ := bind_eq_ok.1 h
    obtain ⟨bytes, hbytes, h⟩ := bind_eq_ok.1 h
    intro e he
    rcases List.mem_cons.1 he with rfl | he
    · exact isAlphanum_of_hexValue hhi
    · rcases List.mem_cons.1 he with rfl | he
      · exact isAlphanum_of_hexValue hlo
      · exact ih hbytes e he
  | case3 t hnil hcons =>
    rcases t with _ | ⟨c, _ | ⟨d, rest⟩⟩
    · exact absurd rfl hnil
    · cases h
    · exact absurd rfl (hcons c d rest)

theorem isAlphanum_of_fromDigits {s : Str} {n m : ℕ} (h : Base58.fromDigits s n = .ok m) :
    ∀ c ∈ s, c.isAlphanum = true := by
  have hall : ∀ c ∈ Base58.b58Digits, c.isAlphanum = true := by
    unfold Base58.b58Digits
    simp only [String.reduceToList, List.forall_mem_cons, List.not_mem_nil, false_implies,
      implies_true, and_true]
    decide
  induction s generalizing n with
  | nil => simp
  | cons c s ih =>
    rw [Base58.fromDigits] at h
    split_ifs at h with hc
    intro d hd
    rcases List.mem_cons.1 hd with rfl | hd
    · exact hall d hc
    · exact ih h d hd

namespace PubkeyProvider

theorem isAlphanum_of_new {origin : Option KeyOriginInfo} {pubkey : Str}
    {derivPath : Option (List (List ℤ))} {i : ℕ} {ranged : Bool} {p : PubkeyProvider}
    (h : PubkeyProvider.new origin pubkey derivPath i ranged = .ok p) :
    ∀ c ∈ pubkey, c.isAlphanum = true := by
  unfold PubkeyProvider.new at h
  split at h
  · rename_i b hb
    exact isAlphanum_of_hexBytes (hexBytes_of_unhexlify hb)
  · obtain ⟨extkey, hext, -⟩ := bind_eq_ok.1 h
    obtain ⟨data, hdata, -⟩ := bind_eq_ok.1 hext
    unfold Base58.decode at hdata
    split_ifs at hdata with hnil
    · simp [hnil]
    · obtain ⟨n, hn, -⟩ := bind_eq_ok.1 hdata
      exact isAlphanum_of_fromDigits hn

theorem pathString_eq (p : PubkeyProvider) (hardenedChar : Char) : p.pathString hardenedChar =
    multipathToString p.steps hardenedChar ++ if p.ranged then ['/', '*'] else [] := by
  unfold pathString steps
  cases p.derivPath <;> rfl

/-- The key as it reads back: an empty path is none. -/
def normal (p : PubkeyProvider) : PubkeyProvider :=
  { p with derivPath := p.derivPath.filter fun path => path ≠ [] }

theorem new_normal {p : PubkeyProvider} (h : p.Parsed) :
    PubkeyProvider.new p.origin p.pubkey p.normal.derivPath p.exprIndex p.ranged = .ok p.normal :=
  new_update h.new _ _ _ _

@[simp] theorem normal_steps (p : PubkeyProvider) : p.normal.steps = p.steps := by
  unfold normal steps
  rcases p.derivPath with _ | _ | ⟨step, path⟩ <;> rfl

@[simp] theorem normal_multipathLen (p : PubkeyProvider) : p.normal.multipathLen = p.multipathLen := by
  unfold normal multipathLen
  rcases p.derivPath with _ | _ | ⟨step, path⟩ <;> rfl

@[simp] theorem normal_pathString (p : PubkeyProvider) (hardenedChar : Char) :
    p.normal.pathString hardenedChar = p.pathString hardenedChar := by
  unfold normal pathString
  rcases p.derivPath with _ | _ | ⟨step, path⟩ <;> rfl

@[simp] theorem normal_toString (p : PubkeyProvider) (hardenedChar : Char) :
    p.normal.toString hardenedChar = p.toString hardenedChar := by
  unfold PubkeyProvider.toString
  rw [normal_pathString]
  rfl

@[simp] theorem normal_getBip388KeyInfo (p : PubkeyProvider) :
    p.normal.getBip388KeyInfo = p.getBip388KeyInfo := rfl

@[simp] theorem normal_getBip388Placeholder (p : PubkeyProvider) :
    p.normal.getBip388Placeholder = p.getBip388Placeholder := by
  unfold getBip388Placeholder
  rw [normal_pathString, normal_multipathLen]
  rfl

/-- A key that can be printed and read back. -/
structure Printable (p : PubkeyProvider) : Prop where
  parsed : p.Parsed
  pubkey : p.pubkey ≠ []
  origin : ∀ origin, p.origin = some origin → ∀ i ∈ origin.path, InRange i
  steps : StepsInRange p.steps

/-- The characters of a printed key. -/
def KeyChar (c : Char) : Prop := c.isAlphanum = true ∨ c ∈ ['[', ']', '-', '/', '<', '>', ';', '*']

theorem keyChar_of_pathChar {c : Char} (h : PathChar 'h' c) : KeyChar c := by
  rcases h with h | h
  · exact Or.inl (by simp [Char.isAlphanum, h])
  · simp only [List.mem_cons, List.not_mem_nil, or_false] at h
    rcases h with rfl | rfl | rfl | rfl | rfl | rfl
    · exact Or.inr (by simp)
    · exact Or.inr (by simp)
    · exact Or.inr (by simp)
    · exact Or.inr (by simp)
    · exact Or.inr (by simp)
    · exact Or.inl (by decide)

theorem mem_pathString {p : PubkeyProvider} {c : Char} (h : c ∈ p.pathString 'h') : KeyChar c := by
  rcases List.mem_append.1 h with h | h
  · cases hpath : p.derivPath with
    | none => simp [hpath] at h
    | some path =>
      rw [hpath] at h
      exact keyChar_of_pathChar (mem_multipathToString h)
  · split_ifs at h
    · exact Or.inr (by simp at h ⊢; tauto)
    · cases h

theorem mem_originToString {origin : KeyOriginInfo} {c : Char} (h : c ∈ origin.toString 'h') :
    c.isAlphanum = true ∨ PathChar 'h' c := by
  rcases List.mem_append.1 h with h | h
  · obtain ⟨n, hn, rfl⟩ := exists_hexDigit h
    exact Or.inl (hexDigit_spec hn).2.2.2
  · rw [pathToString_eq] at h
    exact Or.inr (mem_multipathToString h)

theorem mem_toString {p : PubkeyProvider} (h : p.Parsed) {c : Char} (hc : c ∈ p.toString 'h') :
    KeyChar c := by
  rcases List.mem_append.1 hc with hc | hc
  · rcases List.mem_append.1 hc with hc | hc
    · unfold originString at hc
      cases horigin : p.origin with
      | none => simp [horigin] at hc
      | some origin =>
        rw [horigin] at hc
        simp only [List.mem_append, List.mem_singleton] at hc
        rcases hc with (rfl | hc) | rfl
        · exact Or.inr (by simp)
        · rcases mem_originToString hc with hc | hc
          · exact Or.inl hc
          · exact keyChar_of_pathChar hc
        · exact Or.inr (by simp)
    · exact Or.inl (isAlphanum_of_new h.new c hc)
  · exact mem_pathString hc

/-- A character that no printed key has. -/
theorem toString_free {p : PubkeyProvider} (h : p.Parsed) {c : Char} (hc : c.isAlphanum = false)
    (hc' : c ∉ ['[', ']', '-', '/', '<', '>', ';', '*']) : c ∉ p.toString 'h' := by
  intro hmem
  rcases mem_toString h hmem with hmem | hmem
  · rw [hmem] at hc
    cases hc
  · exact hc' hmem

theorem Parsed.whole {p : PubkeyProvider} (h : p.Parsed) {origin : KeyOriginInfo}
    (horigin : p.origin = some origin) : origin.Whole := by
  obtain ⟨s, hs⟩ := h.origin origin horigin
  exact KeyOriginInfo.fromString_whole hs

theorem parseOrigin_toString {p : PubkeyProvider} (h : p.Printable) :
    parseOrigin (p.toString 'h') = .ok (p.origin, p.pubkey ++ p.pathString 'h') := by
  unfold PubkeyProvider.toString originString
  cases horigin : p.origin with
  | none =>
    obtain ⟨c, s, hs⟩ := List.exists_cons_of_ne_nil h.pubkey
    have hc := isAlphanum_of_new h.parsed.new c (hs ▸ List.mem_cons_self)
    rw [List.nil_append, hs]
    unfold parseOrigin
    split
    · simp_all
    · rename_i heq
      have hbracket : c = '[' := (List.cons.inj heq).1
      rw [hbracket] at hc
      simp at hc
    · rfl
  | some origin =>
    have hfree : ']' ∉ origin.toString 'h' := by
      intro hmem
      rcases mem_originToString hmem with hmem | hmem | hmem
      · simp at hmem
      · simp at hmem
      · simp at hmem
    have hstr : ['['] ++ origin.toString 'h' ++ [']'] ++ p.pubkey ++ p.pathString 'h' =
        '[' :: (origin.toString 'h' ++ ']' :: (p.pubkey ++ p.pathString 'h')) := by simp
    dsimp only
    rw [hstr, parseOrigin, cut_append_cons hfree]
    dsimp only
    rw [KeyOriginInfo.fromString_toString (h.parsed.whole horigin) (h.origin origin horigin)]
    rfl

theorem parseKeyPath_toString {p : PubkeyProvider} (h : p.Printable) :
    parseKeyPath (p.pubkey ++ p.pathString 'h') = .ok (p.pubkey, p.normal.derivPath, p.ranged) := by
  have hslash : '/' ∉ p.pubkey := fun hmem => by
    have hslash := isAlphanum_of_new h.parsed.new '/' hmem
    simp at hslash
  have hempty : p.normal.derivPath = none → p.pathString 'h' = (if p.ranged then ['/', '*'] else []) →
      parseKeyPath (p.pubkey ++ p.pathString 'h') = .ok (p.pubkey, p.normal.derivPath, p.ranged) := by
    intro hnone hstr
    rw [hnone, hstr]
    unfold parseKeyPath
    cases p.ranged with
    | false =>
      rw [if_neg (by simp), List.append_nil, cut_eq_none.2 hslash]
    | true =>
      rw [if_pos rfl, cut_append_cons hslash]
      rfl
  unfold normal pathString at hempty ⊢
  rcases hpath : p.derivPath with _ | _ | ⟨step, path⟩
  · rw [hpath] at hempty
    exact hempty rfl rfl
  · rw [hpath] at hempty
    exact hempty rfl rfl
  · clear hempty
    obtain ⟨hne, hcount⟩ := h.parsed.oneMultipath
    have hsteps : p.steps = step :: path := by rw [steps, hpath, Option.getD_some]
    have hrange := h.steps
    rw [hsteps] at hne hcount hrange
    have hparse : parseMultipath (List.intercalate ['/'] ((step :: path).map (stepBody 'h'))) =
        .ok (step :: path) := parseSteps_bodies (by simp) hrange hne hcount
    have hbody : List.intercalate ['/'] ((step :: path).map (stepBody 'h')) ≠ [] :=
      bodies_ne_nil (by simp) hrange
    have hstar := bodies_free (c := '*') hrange (by decide) (by decide)
    change parseKeyPath (p.pubkey ++ (multipathToString (step :: path) 'h' ++
      if p.ranged = true then ['/', '*'] else [])) = .ok (p.pubkey, some (step :: path), p.ranged)
    rw [multipathToString_eq (by simp)]
    generalize List.intercalate ['/'] ((step :: path).map (stepBody 'h')) = body at hparse hbody hstar
    unfold parseKeyPath
    rw [List.cons_append, cut_append_cons hslash]
    cases p.ranged with
    | false =>
      have hlast : ¬body.getLast? = some '*' := fun hlast => hstar (List.mem_of_getLast? hlast)
      simp only [Bool.false_eq_true, if_false, List.append_nil, hlast, decide_false]
      rw [if_neg hbody, hparse]
      rfl
    | true =>
      have hlast : (body ++ ['/', '*']).getLast? = some '*' := by simp
      have hdrop : (body ++ ['/', '*']).dropLast.dropLast = body := by
        rw [show body ++ ['/', '*'] = body ++ ['/'] ++ ['*'] by simp, List.dropLast_concat,
          List.dropLast_concat]
      simp only [if_true, hlast, decide_true, hdrop]
      rw [if_neg hbody, hparse]
      rfl

/-- A printed key reads back. -/
theorem parse_toString {p : PubkeyProvider} (h : p.Printable) :
    parse (p.toString 'h') p.exprIndex = .ok p.normal := by
  unfold parse
  rw [parseOrigin_toString h, ok_bind]
  dsimp only
  rw [parseKeyPath_toString h, ok_bind]
  exact new_normal h.parsed

end PubkeyProvider

end Hwi
