import Hwi.Format.Template
import Hwi.Proofs.DescriptorText

/-! A wallet policy says the same as the descriptor: the template with its keys
filled in is the descriptor. -/

namespace Hwi

namespace Template

/-! ### Scanning -/

/-- A text is read as some tokens whatever follows. -/
def Reads (template : Str) (ts : List Token) : Prop :=
  ∀ rest, scan none (template ++ rest) = ts ++ scan none rest

theorem Reads.append {s t : Str} {ts us : List Token} (h : Reads s ts) (h' : Reads t us) :
    Reads (s ++ t) (ts ++ us) := by
  intro rest
  rw [List.append_assoc, h, h', List.append_assoc]

theorem Reads.tokens {s : Str} {ts : List Token} (h : Reads s ts) : tokens s = ts := by
  simpa [Template.tokens, scan] using h []

theorem reads_text {s : Str} (h : '@' ∉ s) : Reads s (s.map .char) := by
  intro rest
  induction s with
  | nil => rfl
  | cons c s ih =>
    rw [List.mem_cons, not_or] at h
    rw [List.cons_append, scan, if_neg (Ne.symm h.1), ih h.2]
    rfl

/-- The digits of a placeholder, up to a character that is none. -/
theorem scan_digits {digits s : Str} {c : Char} {read : Str} (h : ∀ d ∈ digits, d.isDigit = true)
    (hc : c.isDigit = false) (hat : c ≠ '@') :
    scan (some read) (digits ++ c :: s) = .key (read ++ digits) :: .char c :: scan none s := by
  induction digits generalizing read with
  | nil => simp [scan, hc, hat]
  | cons d digits ih =>
    rw [List.cons_append, scan, if_pos (h d List.mem_cons_self),
      ih fun d' hd' => h d' (List.mem_cons_of_mem d hd')]
    simp

theorem reads_placeholder {digits s : Str} (h : ∀ d ∈ digits, d.isDigit = true) (hs : '@' ∉ s) :
    Reads ('@' :: digits ++ '/' :: s) (.key digits :: ('/' :: s).map .char) := by
  intro rest
  rw [List.append_assoc, List.cons_append, List.cons_append, scan, if_pos rfl,
    scan_digits h (by decide) (by decide), reads_text hs]
  rfl

/-! ### Texts beside their templates -/

/-- A template spells a text, with the placeholders of some keys in order. -/
def Tells (keysInfo : List Str) (template text : Str) (ps : List PubkeyProvider) : Prop :=
  ∃ ts, Reads template ts ∧ ts.flatMap (spell keysInfo) = text ∧
    (ts.filterMap fun token => match token with
      | .char _ => none
      | .key digits => some digits) = ps.map fun p => str p.exprIndex

variable {keysInfo : List Str}

theorem Tells.append {s s' t t' : Str} {ps qs : List PubkeyProvider} (h : Tells keysInfo s s' ps)
    (h' : Tells keysInfo t t' qs) : Tells keysInfo (s ++ t) (s' ++ t') (ps ++ qs) := by
  obtain ⟨ts, hreads, rfl, hps⟩ := h
  obtain ⟨us, hreads', rfl, hqs⟩ := h'
  exact ⟨ts ++ us, hreads.append hreads', List.flatMap_append, by
    rw [List.filterMap_append, hps, hqs, List.map_append]⟩

theorem spell_text (s : Str) : (s.map Token.char).flatMap (spell keysInfo) = s := by
  induction s with
  | nil => rfl
  | cons c s ih => rw [List.map_cons, List.flatMap_cons, ih]; rfl

theorem tells_text {s : Str} (h : '@' ∉ s) : Tells keysInfo s s [] := by
  refine ⟨s.map .char, reads_text h, spell_text s, ?_⟩
  simp [List.filterMap_map]

theorem Tells.text_append {s t t' : Str} {ps : List PubkeyProvider} (hs : '@' ∉ s)
    (h : Tells keysInfo t t' ps) : Tells keysInfo (s ++ t) (s ++ t') ps := (tells_text hs).append h

theorem Tells.append_text {s t t' : Str} {ps : List PubkeyProvider} (h : Tells keysInfo t t' ps)
    (hs : '@' ∉ s) : Tells keysInfo (t ++ s) (t' ++ s) ps := by
  simpa using h.append (tells_text hs)

/-- The key that a placeholder stands for is at its index. -/
def Lists (keysInfo : List Str) (ps : List PubkeyProvider) : Prop :=
  ∀ p ∈ ps, keysInfo[p.exprIndex]? = some p.getBip388KeyInfo

theorem pathString_free (p : PubkeyProvider) : '@' ∉ p.pathString '\'' := by
  unfold PubkeyProvider.pathString
  rw [List.mem_append, not_or]
  constructor
  · cases p.derivPath with
    | none => simp
    | some path =>
      intro h
      rcases mem_multipathToString h with h | h
      · simp at h
      · simp at h
  · split_ifs <;> simp

theorem exists_pathString {p : PubkeyProvider} (h : p.ranged = true) (hardenedChar : Char) :
    ∃ s, p.pathString hardenedChar = '/' :: s := by
  rw [p.pathString_eq, if_pos h]
  cases p.steps with
  | nil => exact ⟨_, rfl⟩
  | cons step path =>
    unfold multipathToString
    rw [List.flatMap_cons, stepToString_eq]
    exact ⟨_, rfl⟩

theorem placeholder_eq_ok {p : PubkeyProvider} {t : Str} (h : p.getBip388Placeholder = .ok t) :
    p.ranged = true ∧ p.multipathLen ≤ 2 ∧ t = '@' :: str p.exprIndex ++ p.pathString '\'' := by
  unfold PubkeyProvider.getBip388Placeholder at h
  simp only [throw_eq_error, error_bind, pure_eq_ok, ite_error_eq_ok] at h
  obtain ⟨hranged, hlen, h⟩ := h
  cases h
  exact ⟨by simpa using hranged, not_lt.1 hlen, rfl⟩

theorem tells_placeholder {p : PubkeyProvider} {t : Str} (hkeys : Lists keysInfo [p])
    (h : p.getBip388Placeholder = .ok t) : Tells keysInfo t (p.toString '\'') [p] := by
  obtain ⟨hranged, -, rfl⟩ := placeholder_eq_ok h
  obtain ⟨s, hs⟩ := exists_pathString hranged '\''
  have hfree : '@' ∉ s := fun hs' => pathString_free p (hs ▸ List.mem_cons_of_mem '/' hs')
  have hdigits : ∀ d ∈ str p.exprIndex, d.isDigit = true := fun d hd => by
    rw [str_natCast] at hd
    exact Nat.isDigit_of_mem_toDigits (by omega) le_rfl hd
  have hkey : keysInfo.getD (Nat.ofDigitChars 10 (str p.exprIndex) 0) [] = p.getBip388KeyInfo := by
    rw [str_natCast, Nat.ofDigitChars_ten_toDigits, List.getD_eq_getElem?_getD, hkeys p (by simp)]
    rfl
  rw [hs]
  refine ⟨_, reads_placeholder hdigits hfree, ?_, ?_⟩
  · rw [List.flatMap_cons, spell_text, spell, hkey, PubkeyProvider.toString, hs]
    rfl
  · simp [List.filterMap_map]

/-! ### Printing -/

theorem Lists.append {ps qs : List PubkeyProvider} (h : Lists keysInfo (ps ++ qs)) :
    Lists keysInfo ps ∧ Lists keysInfo qs :=
  ⟨fun p hp => h p (List.mem_append_left qs hp), fun p hp => h p (List.mem_append_right ps hp)⟩

theorem Lists.cons {p : PubkeyProvider} {ps : List PubkeyProvider} (h : Lists keysInfo (p :: ps)) :
    Lists keysInfo [p] ∧ Lists keysInfo ps :=
  Lists.append h

theorem Tells.funcString {name : String} (hname : '@' ∉ name.toList) {t t' : Str}
    {ps : List PubkeyProvider} (h : Tells keysInfo t t' ps) :
    Tells keysInfo (funcString name t) (funcString name t') ps := by
  have hopen : '@' ∉ name.toList ++ ['('] := by
    rw [List.mem_append, not_or]
    exact ⟨hname, by simp⟩
  exact (h.text_append hopen).append_text (by simp)

theorem tells_placeholders {ps : List PubkeyProvider} {ts : List Str} (hkeys : Lists keysInfo ps)
    (h : ps.mapM PubkeyProvider.getBip388Placeholder = .ok ts) :
    Tells keysInfo (List.intercalate [','] ts)
      (List.intercalate [','] (ps.map fun p => p.toString '\'')) ps := by
  have hps := mapM_eq_ok.1 h
  clear h
  induction hps with
  | nil => exact tells_text (by simp)
  | @cons p t ps ts ht hps ih =>
    have hsplit := hkeys.cons
    have hp := tells_placeholder hsplit.1 ht
    cases hps with
    | nil => simpa using hp
    | cons hq hqs =>
      rw [List.map_cons, List.map_cons, List.intercalate_cons_cons, List.intercalate_cons_cons]
      exact (hp.append_text (by simp)).append (ih hsplit.2)

theorem openBraces_free (n : ℕ) (path : List Bool) : '@' ∉ (openBraces n path).1 := by
  induction n generalizing path with
  | zero => simp [openBraces]
  | succ n ih =>
    rw [openBraces]
    dsimp only
    split_ifs
    · simp [ih]
    · exact ih _

theorem closeBraces_free (path : List Bool) : '@' ∉ (closeBraces path).1 := by
  induction path with
  | nil => simp [closeBraces]
  | cons b path ih =>
    cases b with
    | false => simp [closeBraces]
    | true => simp [closeBraces, ih]

open Descriptor in
/-- The braces and commas of a tree are the same around templates and texts. -/
theorem tells_treeString {ds : List Descriptor} {ts : List Str}
    (hds : ∀ d ∈ ds, ∀ t, d.getBip388Template = .ok t → Lists keysInfo d.getPubkeyProviders →
      Tells keysInfo t (d.toStringNoChecksum '\'') d.getPubkeyProviders)
    (h : getBip388Templates ds = .ok ts) (hkeys : Lists keysInfo (getPubkeyProvidersOf ds))
    {depths : List ℕ} (hlen : ds.length = depths.length) (path : List Bool) :
    Tells keysInfo (treeString (ts.zip depths) path)
      (treeString ((toStringsNoChecksum '\'' ds).zip depths) path) (getPubkeyProvidersOf ds) := by
  induction ds generalizing ts depths path with
  | nil =>
    cases h
    exact tells_text (by simp [treeString])
  | cons d ds ih =>
    cases depths with
    | nil => cases hlen
    | cons depth depths =>
      rw [getBip388Templates] at h
      obtain ⟨t, ht, h⟩ := bind_eq_ok.1 h
      obtain ⟨ts', hts, h⟩ := bind_eq_ok.1 h
      cases h
      obtain ⟨hkey, hrest⟩ := hkeys.append
      have hleaf := hds d List.mem_cons_self t ht hkey
      have htail := ih (fun d' hd' => hds d' (List.mem_cons_of_mem d hd')) hts hrest
        (Nat.succ.inj hlen)
      have hopen : '@' ∉ [','] ++ (openBraces (depth + 1 - path.length) path).1 := by
        rw [List.mem_append, not_or]
        exact ⟨by simp, openBraces_free _ _⟩
      exact ((hleaf.text_append hopen).append_text (closeBraces_free _)).append (htail _)

end Template

open Template Descriptor

/-- The template of a descriptor spells its text. -/
theorem Descriptor.template_tells {keysInfo : List Str} :
    ∀ (d : Descriptor) (ctx : ParseDescriptorContext) (t : Str), d.Valid ctx →
      Lists keysInfo d.getPubkeyProviders → d.getBip388Template = .ok t →
      Tells keysInfo t (d.toStringNoChecksum '\'') d.getPubkeyProviders
  | .pk p, _, t, _, hkeys, h => by
    rw [getBip388Template] at h
    obtain ⟨placeholder, hp, h⟩ := bind_eq_ok.1 h
    cases h
    exact (tells_placeholder hkeys hp).funcString (by simp)
  | .pkh p, _, t, _, hkeys, h => by
    rw [getBip388Template] at h
    obtain ⟨placeholder, hp, h⟩ := bind_eq_ok.1 h
    cases h
    exact (tells_placeholder hkeys hp).funcString (by simp)
  | .wpkh p, _, t, _, hkeys, h => by
    rw [getBip388Template] at h
    obtain ⟨placeholder, hp, h⟩ := bind_eq_ok.1 h
    cases h
    exact (tells_placeholder hkeys hp).funcString (by simp)
  | .multisig d, _, t, _, hkeys, h => by
    rw [getBip388Template, MultisigDescriptor.getBip388Template] at h
    obtain ⟨placeholders, hps, h⟩ := bind_eq_ok.1 h
    cases h
    have hthresh : '@' ∉ str d.thresh ++ [','] := by
      rw [List.mem_append, not_or]
      refine ⟨fun hat => ?_, by simp⟩
      rcases mem_str hat with hat | hat
      · simp at hat
      · simp at hat
    have hname : '@' ∉ d.name.toList := by
      unfold MultisigDescriptor.name
      split_ifs <;> simp
    exact ((tells_placeholders hkeys hps).text_append hthresh).funcString hname
  | .sh d, _, t, hvalid, hkeys, h => by
    rw [getBip388Template] at h
    obtain ⟨template, hd, h⟩ := bind_eq_ok.1 h
    cases h
    exact (template_tells d _ template hvalid.2 hkeys hd).funcString (by simp)
  | .wsh d, _, t, hvalid, hkeys, h => by
    rw [getBip388Template] at h
    obtain ⟨template, hd, h⟩ := bind_eq_ok.1 h
    cases h
    exact (template_tells d _ template hvalid.2 hkeys hd).funcString (by simp)
  | .tr p ds depths, _, t, hvalid, hkeys, h => by
    rw [getBip388Template] at h
    obtain ⟨placeholder, hp, h⟩ := bind_eq_ok.1 h
    obtain ⟨templates, hts, h⟩ := bind_eq_ok.1 h
    cases h
    obtain ⟨-, hpk, hdepths⟩ := hvalid
    obtain ⟨hkey, hrest⟩ := Lists.cons hkeys
    have hleaf : ∀ d ∈ ds, ∀ t, d.getBip388Template = .ok t → Lists keysInfo d.getPubkeyProviders →
        Tells keysInfo t (d.toStringNoChecksum '\'') d.getPubkeyProviders := by
      intro d hd t ht hkeys
      obtain ⟨q, rfl⟩ := hpk d hd
      rw [getBip388Template] at ht
      obtain ⟨placeholder, hq, ht⟩ := bind_eq_ok.1 ht
      cases ht
      exact (tells_placeholder hkeys hq).funcString (by simp)
    exact ((tells_placeholder hkey hp).append
      (tells_treeString hleaf hts hrest hdepths.length_eq [])).funcString (by simp)

/-! ### Keys that do not suit -/

/-- A printer succeeds where its keys suit, and raises `InvalidPolicyError` where
one does not. -/
def AnswersFor {α : Type} (x : Except Exc α) (ps : List PubkeyProvider) : Prop :=
  ((∀ p ∈ ps, p.Suits) ∧ ∃ a, x = .ok a) ∨
    ((∃ p ∈ ps, ¬p.Suits) ∧ ∃ msg, x = .error (.invalidPolicyError msg))

theorem answersFor_pure {α : Type} (a : α) : AnswersFor (.ok a) [] :=
  Or.inl ⟨by simp, a, rfl⟩

theorem AnswersFor.bind {α β : Type} {x : Except Exc α} {f : α → Except Exc β}
    {ps qs : List PubkeyProvider} (h : AnswersFor x ps) (hf : ∀ a, AnswersFor (f a) qs) :
    AnswersFor (x >>= f) (ps ++ qs) := by
  rcases h with ⟨hps, a, rfl⟩ | ⟨⟨p, hp, hsuits⟩, msg, rfl⟩
  · rcases hf a with ⟨hqs, b, hb⟩ | ⟨⟨q, hq, hsuits⟩, msg, hmsg⟩
    · refine Or.inl ⟨fun p hp => ?_, b, hb⟩
      rcases List.mem_append.1 hp with hp | hp
      · exact hps p hp
      · exact hqs p hp
    · exact Or.inr ⟨⟨q, List.mem_append_right ps hq, hsuits⟩, msg, hmsg⟩
  · exact Or.inr ⟨⟨p, List.mem_append_left qs hp, hsuits⟩, msg, rfl⟩

theorem AnswersFor.bind_pure {α β : Type} {x : Except Exc α} {f : α → β}
    {ps : List PubkeyProvider} (h : AnswersFor x ps) :
    AnswersFor (x >>= fun a => .ok (f a)) ps := by
  have hbind : AnswersFor (x >>= fun a => .ok (f a)) (ps ++ []) :=
    h.bind fun a => answersFor_pure (f a)
  rwa [List.append_nil] at hbind

theorem PubkeyProvider.two_lt_multipathLen {p : PubkeyProvider} :
    2 < p.multipathLen ↔ ∃ step ∈ p.steps, 2 < step.length := by
  unfold multipathLen steps
  rcases p.derivPath with _ | _ | ⟨first, rest⟩
  · simp
  · simp
  · rw [Option.getD_some]
    change 2 < List.foldr max 0 ((first :: rest).map List.length) ↔ _
    constructor
    · intro h
      obtain ⟨step, hstep, hlen⟩ := List.mem_map.1 (foldr_max_mem (h.trans' (by omega)))
      exact ⟨step, hstep, hlen ▸ h⟩
    · rintro ⟨step, hstep, hlen⟩
      exact hlen.trans_le (le_foldr_max (List.mem_map_of_mem hstep))

theorem PubkeyProvider.answersFor_placeholder (p : PubkeyProvider) :
    AnswersFor p.getBip388Placeholder [p] := by
  unfold AnswersFor getBip388Placeholder Suits
  simp only [throw_eq_error, error_bind, List.mem_singleton, forall_eq, exists_eq_left, not_and_or]
  cases hranged : p.ranged with
  | false => exact Or.inr ⟨by simp, _, rfl⟩
  | true =>
    by_cases hlen : 2 < p.multipathLen
    · refine Or.inr ⟨Or.inr ?_, _, if_pos hlen⟩
      simpa using two_lt_multipathLen.1 hlen
    · refine Or.inl ⟨⟨rfl, fun step hstep => not_lt.1 fun h => ?_⟩, _, if_neg hlen⟩
      exact hlen (two_lt_multipathLen.2 ⟨step, hstep, h⟩)

theorem answersFor_placeholders (ps : List PubkeyProvider) :
    AnswersFor (ps.mapM PubkeyProvider.getBip388Placeholder) ps := by
  induction ps with
  | nil => exact answersFor_pure []
  | cons p ps ih =>
    rw [List.mapM_cons]
    exact (p.answersFor_placeholder.bind fun t => ih.bind_pure)

mutual

theorem Descriptor.answersFor_template :
    ∀ d : Descriptor, AnswersFor d.getBip388Template d.getPubkeyProviders
  | .pk p => p.answersFor_placeholder.bind_pure
  | .pkh p => p.answersFor_placeholder.bind_pure
  | .wpkh p => p.answersFor_placeholder.bind_pure
  | .multisig d => (answersFor_placeholders d.pubkeys).bind_pure
  | .sh d => (answersFor_template d).bind_pure
  | .wsh d => (answersFor_template d).bind_pure
  | .tr p ds _ => p.answersFor_placeholder.bind fun _ => (answersFor_templates ds).bind_pure

theorem Descriptor.answersFor_templates :
    ∀ ds : List Descriptor, AnswersFor (getBip388Templates ds) (getPubkeyProvidersOf ds)
  | [] => answersFor_pure []
  | d :: ds => (answersFor_template d).bind fun _ => (answersFor_templates ds).bind_pure

end

/-! ### The policy of a descriptor -/

theorem Descriptor.Invariant.lists {d : Descriptor} (h : d.Invariant) :
    Lists (d.getPubkeyProviders.map PubkeyProvider.getBip388KeyInfo) d.getPubkeyProviders := by
  intro p hp
  obtain ⟨i, hi⟩ := List.getElem?_of_mem hp
  rw [h.indexed i p hi, List.getElem?_map, hi, Option.map_some]

theorem Descriptor.Invariant.exprIndices {d : Descriptor} (h : d.Invariant) :
    (d.getPubkeyProviders.map fun p => str p.exprIndex) =
      (List.range d.getPubkeyProviders.length).map fun (i : ℕ) => str i := by
  apply List.ext_getElem?
  intro i
  rw [List.getElem?_map, List.getElem?_map]
  cases hi : d.getPubkeyProviders[i]? with
  | none => simp [List.getElem?_eq_none_iff.1 hi]
  | some p =>
    rw [List.getElem?_range (List.getElem?_eq_some_iff.1 hi).1, Option.map_some, Option.map_some,
      h.indexed i p hi]

/-- The template with the key vector is the descriptor; the placeholders count the
keys; and there is no template exactly when a key does not suit. -/
theorem parseDescriptor_template {s : Str} {d : Descriptor} (h : parseDescriptor s = .ok d) :
    (∀ template, d.getBip388Template = .ok template →
      fill (d.getPubkeyProviders.map PubkeyProvider.getBip388KeyInfo) template =
          d.toStringNoChecksum '\'' ∧
        placeholders template = (List.range d.getPubkeyProviders.length).map fun (i : ℕ) => str i) ∧
      ((∃ msg, d.getBip388Template = .error (.invalidPolicyError msg)) ↔
        ∃ p ∈ d.getPubkeyProviders, p.ranged = false ∨ ∃ step ∈ p.steps, 2 < step.length) := by
  have hinv := parseDescriptor_invariant h
  constructor
  · intro template ht
    obtain ⟨ts, hreads, htext, hkeys⟩ := d.template_tells _ template hinv.valid hinv.lists ht
    unfold fill placeholders
    rw [hreads.tokens]
    exact ⟨htext, hkeys.trans hinv.exprIndices⟩
  · have hsuits : ∀ p : PubkeyProvider,
        ¬p.Suits ↔ p.ranged = false ∨ ∃ step ∈ p.steps, 2 < step.length := fun p => by
      unfold PubkeyProvider.Suits
      cases p.ranged <;> simp
    simp only [← hsuits]
    rcases d.answersFor_template with ⟨hall, t, ht⟩ | ⟨hsome, msg, hmsg⟩
    · refine iff_of_false (fun ⟨_, hmsg⟩ => ?_) fun ⟨p, hp, hnot⟩ => hnot (hall p hp)
      cases ht.symm.trans hmsg
    · exact ⟨fun _ => hsome, fun _ => ⟨msg, hmsg⟩⟩

/-- A Taproot descriptor with two leaves, all its keys ranged. -/
def policySample : Str := "tr(ab/*,\x7bpk(cd/<0;1>/*),pk(ef/1h/*)\x7d)".toList

theorem parseDescriptor_template_sample : ∃ d template, parseDescriptor policySample = .ok d ∧
    d.getBip388Template = .ok template ∧
    fill (d.getPubkeyProviders.map PubkeyProvider.getBip388KeyInfo) template =
      d.toStringNoChecksum '\'' := by
  have hsome : (parseDescriptor policySample >>= fun d => d.getBip388Template).toOption.isSome = true := by
    decide +kernel
  obtain ⟨template, ht⟩ := Option.isSome_iff_exists.1 hsome
  obtain ⟨d, hparse, ht⟩ := bind_eq_ok.1 (toOption_eq_some.1 ht)
  exact ⟨d, template, hparse, ht, ((parseDescriptor_template hparse).1 template ht).1⟩

end Hwi
