import Hwi.Proofs.TreeText

/-! A printed descriptor is parsed as the descriptor that was printed, with an
empty path as none. -/

namespace Hwi

open PubkeyProvider

/-! ### Keys -/

theorem parsePubkey_last {p : PubkeyProvider} (h : p.Printable) :
    parsePubkey (p.toString 'h') p.exprIndex = .ok (p.normal, [], p.exprIndex + 1) := by
  unfold parsePubkey
  rw [cut_eq_none.2 (toString_free h.parsed rfl (by simp))]
  dsimp only [Option.getD_none]
  rw [parse_toString h]
  rfl

theorem parsePubkey_comma {p : PubkeyProvider} (h : p.Printable) (rest : Str) :
    parsePubkey (p.toString 'h' ++ ',' :: rest) p.exprIndex = .ok (p.normal, rest, p.exprIndex + 1) := by
  unfold parsePubkey
  rw [cut_append_cons (toString_free h.parsed rfl (by simp))]
  dsimp only [Option.getD_some]
  rw [parse_toString h]
  rfl

theorem parseOnlyPubkey_toString {p : PubkeyProvider} (h : p.Printable) (msg : String) :
    parseOnlyPubkey msg (p.toString 'h') p.exprIndex = .ok (p.normal, p.exprIndex + 1) := by
  unfold parseOnlyPubkey
  rw [parsePubkey_last h]
  rfl

theorem toString_ne_nil {p : PubkeyProvider} (h : p.Printable) : p.toString 'h' ≠ [] := by
  intro hnil
  unfold PubkeyProvider.toString at hnil
  exact h.pubkey (List.append_eq_nil_iff.1 (List.append_eq_nil_iff.1 hnil).1).2

theorem length_le_intercalate {sep : Str} {texts : List Str} (h : ∀ t ∈ texts, t ≠ []) :
    texts.length ≤ (List.intercalate sep texts).length := by
  induction texts with
  | nil => exact Nat.zero_le _
  | cons t ts ih =>
    have ht := List.length_pos_of_ne_nil (h t List.mem_cons_self)
    have hts := ih fun u hu => h u (List.mem_cons_of_mem t hu)
    cases ts with
    | nil => simpa using Nat.succ_le_of_lt ht
    | cons u us =>
      rw [List.intercalate_cons_cons]
      simp only [List.length_append, List.length_cons] at hts ⊢
      omega

theorem parsePubkeys_cons {n : ℕ} {expr rest : Str} {i j : ℕ} {len len' : Option ℕ}
    {p : PubkeyProvider} (hne : expr ≠ []) (hp : parsePubkey expr i = .ok (p, rest, j))
    (hlen : checkMultipathLen len p = .ok len') :
    parsePubkeys (n + 1) expr i len =
      (fun q => (p :: q.1, q.2)) <$> parsePubkeys n rest j len' := by
  obtain ⟨c, s, rfl⟩ := List.exists_cons_of_ne_nil hne
  rw [parsePubkeys, hp, ok_bind]
  · dsimp only
    rw [hlen, ok_bind]
    cases parsePubkeys n rest j len' <;> rfl
  · exact hne

theorem parsePubkeys_nil (n i : ℕ) (len : Option ℕ) : parsePubkeys n [] i len = .ok ([], i) := by
  cases n <;> rfl

/-- The keys of a multisig are read back, if there are passes enough. -/
theorem parsePubkeys_toString {ps : List PubkeyProvider} {n i : ℕ} {agreed len : Option ℕ}
    (hprint : ∀ p ∈ ps, p.Printable)
    (hnum : ps.map PubkeyProvider.exprIndex = List.range' i ps.length) (hagree : Agree agreed ps)
    (hlen : len = none ∨ len = agreed) (hn : ps.length ≤ n) :
    parsePubkeys n (List.intercalate [','] (ps.map fun p => p.toString 'h')) i len =
      .ok (ps.map normal, i + ps.length) := by
  induction ps generalizing n i len with
  | nil => exact parsePubkeys_nil n i len
  | cons p ps ih =>
    have hp := hprint p List.mem_cons_self
    rw [List.map_cons, List.length_cons, List.range'_succ] at hnum
    obtain ⟨rfl, hnum⟩ := List.cons.inj hnum
    obtain ⟨len', hcheck, hlen'⟩ := checkMultipathLen_agree
      (fun q hq => hagree q (List.mem_cons.2 (Or.inl (List.mem_singleton.1 hq)))) hlen
    obtain ⟨n, rfl⟩ := Nat.exists_eq_add_of_le' hn
    have hrest := ih (n := n + ps.length) (fun q hq => hprint q (List.mem_cons_of_mem p hq)) hnum
      (fun q hq => hagree q (List.mem_cons_of_mem p hq)) hlen' (Nat.le_add_left _ _)
    rw [List.length_cons, ← Nat.add_assoc]
    cases ps with
    | nil =>
      rw [List.map_singleton, List.intercalate_singleton,
        parsePubkeys_cons (toString_ne_nil hp) (parsePubkey_last hp) hcheck, parsePubkeys_nil]
      rfl
    | cons q qs =>
      rw [List.map_cons] at hrest
      rw [List.map_cons, List.map_cons, List.intercalate_cons_cons, List.append_assoc,
        List.singleton_append, parsePubkeys_cons (by simp) (parsePubkey_comma hp _) hcheck, hrest]
      exact congrArg Except.ok (Prod.ext rfl (by simp; omega))

/-! ### Functions -/

theorem getFuncExpr_funcString {name : String} (h : '(' ∉ name.toList) (body : Str) :
    getFuncExpr (funcString name body) = .ok (name.toList, body) := by
  have hstr : funcString name body = name.toList ++ '(' :: (body ++ [')']) := by simp [funcString]
  rw [hstr, getFuncExpr, cut_append_cons h]
  dsimp only
  rw [cutLast_append_cons body (by simp)]

namespace Descriptor

mutual

/-- The descriptor with other keys in the same places. -/
def mapKeys (g : PubkeyProvider → PubkeyProvider) : Descriptor → Descriptor
  | pk p => pk (g p)
  | pkh p => pkh (g p)
  | wpkh p => wpkh (g p)
  | multisig d => multisig { d with pubkeys := d.pubkeys.map g }
  | sh d => sh (mapKeys g d)
  | wsh d => wsh (mapKeys g d)
  | tr p ds depths => tr (g p) (mapKeysOf g ds) depths

def mapKeysOf (g : PubkeyProvider → PubkeyProvider) : List Descriptor → List Descriptor
  | [] => []
  | d :: ds => mapKeys g d :: mapKeysOf g ds

end

theorem mapKeysOf_eq {g : PubkeyProvider → PubkeyProvider} (ds : List Descriptor) :
    mapKeysOf g ds = ds.map (mapKeys g) := by
  induction ds with
  | nil => rfl
  | cons d ds ih => rw [mapKeysOf, ih, List.map_cons]

/-- The descriptor as it reads back. -/
def normal (d : Descriptor) : Descriptor := d.mapKeys PubkeyProvider.normal

theorem normal_tr_pk (p : PubkeyProvider) (ps : List PubkeyProvider) (depths : List ℕ) :
    (tr p (ps.map .pk) depths).normal = tr p.normal (ps.map fun p => .pk p.normal) depths := by
  unfold normal
  rw [mapKeys, mapKeysOf_eq, List.map_map]
  rfl

theorem getPubkeyProvidersOf_pk (ps : List PubkeyProvider) :
    getPubkeyProvidersOf (ps.map .pk) = ps := by
  induction ps with
  | nil => rfl
  | cons p ps ih => rw [List.map_cons, getPubkeyProvidersOf, ih]; rfl

theorem toStringsNoChecksum_eq (hardenedChar : Char) (ds : List Descriptor) :
    toStringsNoChecksum hardenedChar ds = ds.map (toStringNoChecksum hardenedChar) := by
  induction ds with
  | nil => rfl
  | cons d ds ih => rw [toStringsNoChecksum, ih, List.map_cons]

end Descriptor

/-- Keys that are read back when they are printed where the next key is `i`. -/
structure ReadsBack (i : ℕ) (ps : List PubkeyProvider) : Prop where
  printable : ∀ p ∈ ps, p.Printable
  numbered : ps.map PubkeyProvider.exprIndex = List.range' i ps.length
  agree : ∃ len, Agree len ps

theorem ReadsBack.single {i : ℕ} {p : PubkeyProvider} (h : ReadsBack i [p]) :
    p.Printable ∧ p.exprIndex = i :=
  ⟨h.printable p List.mem_cons_self, by simpa using h.numbered⟩

theorem checkContext_of_mem {allowed : List ParseDescriptorContext} {ctx : ParseDescriptorContext}
    (h : ctx ∈ allowed) (msg : String) : checkContext allowed msg ctx = .ok () :=
  checkContext_eq_ok.2 h

theorem MultisigDescriptor.parse_toString {d : MultisigDescriptor} {ctx : ParseDescriptorContext}
    {n i : ℕ} (hctx : ctx ∈ [.top, .p2sh, .p2wsh]) (hvalid : d.Valid ctx)
    (hkeys : ReadsBack i d.pubkeys) :
    parseDescriptorIn (n + 1) (d.toStringNoChecksum 'h') ctx i =
      .ok (.multisig { d with pubkeys := d.pubkeys.map normal }, i + d.pubkeys.length) := by
  obtain ⟨hprint, hnum, agreed, hagree⟩ := hkeys
  obtain ⟨hlow, hhigh, hmax, hbare⟩ := hvalid
  set keys := List.intercalate [','] (d.pubkeys.map fun p => p.toString 'h') with hkeys
  have hname : '(' ∉ d.name.toList ∧ d.name.toList ≠ "pk".toList ∧ d.name.toList ≠ "pkh".toList ∧
      (d.name.toList = "sortedmulti".toList ∨ d.name.toList = "multi".toList) ∧
      decide (d.name.toList = "sortedmulti".toList) = d.isSorted := by
    unfold name
    cases d.isSorted <;> simp
  obtain ⟨hparen, hpk, hpkh, hmulti, hsorted⟩ := hname
  obtain ⟨thresh, hthresh⟩ := Int.eq_ofNat_of_zero_le (show 0 ≤ d.thresh by omega)
  have hcut : cut ',' (str d.thresh ++ [','] ++ keys) = some (str d.thresh, keys) := by
    rw [List.append_assoc, List.singleton_append, cut_append_cons]
    intro hcomma
    rw [hthresh] at hcomma
    simpa using isDigit_of_mem_str hcomma
  have hint : int (str d.thresh) = .ok d.thresh := by
    rw [hthresh]
    exact int_str (by omega)
  have hparse : parsePubkeys keys.length keys i none =
      .ok (d.pubkeys.map normal, i + d.pubkeys.length) := by
    refine parsePubkeys_toString hprint hnum hagree (Or.inl rfl) ?_
    have hne : ∀ t ∈ d.pubkeys.map (fun p => p.toString 'h'), t ≠ [] := by
      simpa using fun p hp => toString_ne_nil (hprint p hp)
    exact (List.length_map _).symm.trans_le (length_le_intercalate hne)
  have hcheck : checkMultisig ctx d.thresh (d.pubkeys.map normal).length = .ok () := by
    rw [checkMultisig_eq_ok, List.length_map]
    exact ⟨by omega, hlow, hhigh, hmax, hbare⟩
  rw [MultisigDescriptor.toStringNoChecksum, parseDescriptorIn, getFuncExpr_funcString hparen, ok_bind]
  dsimp only
  rw [if_neg hpk, if_neg hpkh, if_pos hmulti, checkContext_of_mem hctx, ok_bind, cutComma, hcut, ok_bind]
  dsimp only
  rw [hint, ok_bind, hparse, ok_bind]
  dsimp only
  rw [hcheck, hsorted]
  rfl

theorem ReadsBack.append {i : ℕ} {ps qs : List PubkeyProvider} (h : ReadsBack i (ps ++ qs)) :
    ReadsBack i ps ∧ ReadsBack (i + ps.length) qs := by
  obtain ⟨hprint, hnum, len, hagree⟩ := h
  rw [List.map_append, List.length_append, ← List.range'_append_1] at hnum
  obtain ⟨hnum₁, hnum₂⟩ := List.append_inj hnum (by simp)
  exact ⟨⟨fun p hp => hprint p (List.mem_append_left _ hp), hnum₁, len,
      fun p hp => hagree p (List.mem_append_left _ hp)⟩,
    ⟨fun p hp => hprint p (List.mem_append_right _ hp), hnum₂, len,
      fun p hp => hagree p (List.mem_append_right _ hp)⟩⟩

theorem ReadsBack.cons {i : ℕ} {p : PubkeyProvider} {ps : List PubkeyProvider}
    (h : ReadsBack i (p :: ps)) : p.Printable ∧ p.exprIndex = i ∧ ReadsBack (i + 1) ps := by
  obtain ⟨hp, hps⟩ := ReadsBack.append (show ReadsBack i ([p] ++ ps) from h)
  exact ⟨hp.single.1, hp.single.2, hps⟩

/-- The calls that may be nested in a context. -/
def ParseDescriptorContext.nested : ParseDescriptorContext → ℕ
  | .top => 2
  | .p2sh => 1
  | .p2wsh | .p2tr => 0

namespace Descriptor

theorem exists_map_pk {ds : List Descriptor} (h : ∀ d ∈ ds, ∃ p, d = pk p) :
    ∃ ps : List PubkeyProvider, ds = ps.map pk := by
  induction ds with
  | nil => exact ⟨[], rfl⟩
  | cons d ds ih =>
    obtain ⟨p, rfl⟩ := h d List.mem_cons_self
    obtain ⟨ps, rfl⟩ := ih fun d hd => h d (List.mem_cons_of_mem _ hd)
    exact ⟨p :: ps, rfl⟩

theorem parse_tr {p : PubkeyProvider} {ds : List Descriptor} {depths : List ℕ} {n i : ℕ}
    (hpk : ∀ d ∈ ds, ∃ p, d = pk p) (hdepths : TreeDepths ds depths)
    (hkeys : ReadsBack i (p :: getPubkeyProvidersOf ds)) :
    parseDescriptorIn (n + 2) ((tr p ds depths).toStringNoChecksum 'h') .top i =
      .ok ((tr p ds depths).normal, i + (p :: getPubkeyProvidersOf ds).length) := by
  have hleaf {q : PubkeyProvider} (hq : q.Printable) :
      parseDescriptorIn (n + 1) (funcString "pk" (q.toString 'h')) .p2tr q.exprIndex =
        .ok (.pk q.normal, q.exprIndex + 1) := by
    rw [parseDescriptorIn, getFuncExpr_funcString (by simp), ok_bind]
    dsimp only
    rw [if_pos rfl, parseOnlyPubkey_toString hq]
    rfl
  obtain ⟨hp, rfl, hrest⟩ := hkeys.cons
  obtain ⟨ps, rfl⟩ := exists_map_pk hpk
  rw [getPubkeyProvidersOf_pk] at hkeys hrest ⊢
  obtain ⟨agreed, hagree⟩ := hkeys.agree
  obtain ⟨len, hcheck, hlen⟩ := checkMultipathLen_agree
    (fun q hq => hagree q (List.mem_cons.2 (Or.inl (List.mem_singleton.1 hq)))) (Or.inl rfl)
  rw [toStringNoChecksum, toStringsNoChecksum_eq, parseDescriptorIn,
    getFuncExpr_funcString (by simp), ok_bind]
  dsimp only
  rw [if_neg (by simp), if_neg (by simp), if_neg (by simp), if_neg (by simp), if_neg (by simp),
    if_neg (by simp), if_pos rfl, checkContext_of_mem (by simp), ok_bind, normal_tr_pk]
  rcases hdepths with ⟨hnil, rfl⟩ | ⟨t, hleaves, rfl, hheight⟩
  · obtain rfl := List.map_eq_nil_iff.1 hnil
    have hstr : p.toString 'h' ++ treeString
        (((([] : List PubkeyProvider).map pk).map (toStringNoChecksum 'h')).zip []) [] =
          p.toString 'h' := List.append_nil _
    rw [hstr, parsePubkey_last hp, ok_bind]
    dsimp only
    rw [hcheck]
    rfl
  · have htexts : ∀ d ∈ t.leaves, d.toStringNoChecksum 'h' ≠ [] := by
      intro d hd
      obtain ⟨q, -, rfl⟩ := List.mem_map.1 (hleaves ▸ hd)
      exact List.cons_ne_nil _ _
    obtain ⟨n', hn'⟩ := Nat.exists_eq_add_of_le (leaves_le_printTree htexts)
    rw [hleaves, List.length_map] at hn'
    obtain ⟨len', -, htree⟩ := parseTree_print
      (fun sarg k => parseDescriptorIn (n + 1) sarg .p2tr k) n' [] []
      (fun q hq => hleaf (hrest.printable q hq)) hleaves hrest.printable hrest.numbered
      (fun q hq => hagree q (List.mem_cons_of_mem p hq)) hlen
      (by rwa [List.length_nil, Nat.zero_add]) trivial
    rw [List.append_nil, ← hn'] at htree
    have hne : printTree (toStringNoChecksum 'h') t ≠ [] := by
      apply List.ne_nil_of_length_pos
      have := List.length_pos_of_ne_nil t.leaves_ne_nil
      rw [hleaves, List.length_map] at this
      omega
    rw [← hleaves, treeString_depths, parsePubkey_comma hp, ok_bind]
    dsimp only
    rw [hcheck, ok_bind, if_neg hne, htree, finishTree_root]
    exact congrArg Except.ok (Prod.ext (by simp [prependLeaves, LeafTree.depths]) (by
      simp [prependLeaves]; omega))

/-- A printed descriptor is parsed where it may stand. -/
theorem parse_toStringNoChecksum : ∀ (d : Descriptor) (ctx : ParseDescriptorContext) (n i : ℕ),
    d.Valid ctx → ReadsBack i d.getPubkeyProviders → ctx.nested < n →
      parseDescriptorIn n (d.toStringNoChecksum 'h') ctx i =
        .ok (d.normal, i + d.getPubkeyProviders.length)
  | _, _, 0, _, _, _, hn => absurd hn (Nat.not_lt_zero _)
  | pk p, _, n + 1, i, _, hkeys, _ => by
    obtain ⟨hp, rfl⟩ := hkeys.single
    rw [toStringNoChecksum, parseDescriptorIn, getFuncExpr_funcString (by simp), ok_bind]
    dsimp only
    rw [if_pos rfl, parseOnlyPubkey_toString hp]
    rfl
  | pkh p, _, n + 1, i, hctx, hkeys, _ => by
    obtain ⟨hp, rfl⟩ := hkeys.single
    rw [toStringNoChecksum, parseDescriptorIn, getFuncExpr_funcString (by simp), ok_bind]
    dsimp only
    rw [if_neg (by simp), if_pos rfl, checkContext_of_mem hctx, ok_bind, parseOnlyPubkey_toString hp]
    rfl
  | wpkh p, _, n + 1, i, hctx, hkeys, _ => by
    obtain ⟨hp, rfl⟩ := hkeys.single
    rw [toStringNoChecksum, parseDescriptorIn, getFuncExpr_funcString (by simp), ok_bind]
    dsimp only
    rw [if_neg (by simp), if_neg (by simp), if_neg (by simp), if_pos rfl, checkContext_of_mem hctx,
      ok_bind, parseOnlyPubkey_toString hp]
    rfl
  | multisig d, _, n + 1, i, hvalid, hkeys, _ => d.parse_toString hvalid.1 hvalid.2 hkeys
  | sh d, _, n + 1, i, ⟨hctx, hvalid⟩, hkeys, hn => by
    subst hctx
    have hd := parse_toStringNoChecksum d .p2sh n i hvalid hkeys (Nat.lt_of_succ_lt_succ hn)
    rw [toStringNoChecksum, parseDescriptorIn, getFuncExpr_funcString (by simp), ok_bind]
    dsimp only
    rw [if_neg (by simp), if_neg (by simp), if_neg (by simp), if_neg (by simp), if_pos rfl,
      checkContext_of_mem (by simp), ok_bind, hd]
    rfl
  | wsh d, ctx, n + 1, i, ⟨hctx, hvalid⟩, hkeys, hn => by
    have hlt : ParseDescriptorContext.nested .p2wsh < n := by
      simp only [List.mem_cons, List.not_mem_nil, or_false] at hctx
      rcases hctx with rfl | rfl
      · exact (Nat.lt_of_succ_lt_succ hn).trans' Nat.one_pos
      · exact Nat.lt_of_succ_lt_succ hn
    have hd := parse_toStringNoChecksum d .p2wsh n i hvalid hkeys hlt
    rw [toStringNoChecksum, parseDescriptorIn, getFuncExpr_funcString (by simp), ok_bind]
    dsimp only
    rw [if_neg (by simp), if_neg (by simp), if_neg (by simp), if_neg (by simp), if_neg (by simp),
      if_pos rfl, checkContext_of_mem hctx, ok_bind, hd]
    rfl
  | tr p ds depths, _, n + 1, i, ⟨hctx, hpk, hdepths⟩, hkeys, hn => by
    subst hctx
    obtain ⟨m, rfl⟩ := Nat.exists_eq_add_of_lt (Nat.lt_of_succ_lt_succ hn)
    exact parse_tr hpk hdepths hkeys

/-! ### The checksum -/

theorem funcString_free {name : String} {body : Str} (hname : '#' ∉ name.toList) (hbody : '#' ∉ body) :
    '#' ∉ funcString name body := by
  simp [funcString, hname, hbody]

theorem printTree_free {t : LeafTree Descriptor} (h : ∀ d ∈ t.leaves, '#' ∉ d.toStringNoChecksum 'h') :
    '#' ∉ printTree (toStringNoChecksum 'h') t := by
  induction t with
  | leaf d => exact h d List.mem_cons_self
  | node l r ihl ihr =>
    have hl := ihl fun d hd => h d (List.mem_append_left _ hd)
    have hr := ihr fun d hd => h d (List.mem_append_right _ hd)
    simp [printTree, hl, hr]

theorem toStringNoChecksum_free : ∀ (d : Descriptor) (ctx : ParseDescriptorContext), d.Valid ctx →
    (∀ p ∈ d.getPubkeyProviders, p.Parsed) → '#' ∉ d.toStringNoChecksum 'h'
  | pk p, _, _, h | pkh p, _, _, h | wpkh p, _, _, h => by
    rw [toStringNoChecksum]
    exact funcString_free (by simp) (toString_free (h p List.mem_cons_self) rfl (by simp))
  | multisig d, _, _, h => by
    rw [toStringNoChecksum, MultisigDescriptor.toStringNoChecksum]
    apply funcString_free
    · unfold MultisigDescriptor.name
      split_ifs <;> simp
    · intro hmem
      rw [List.mem_append, List.mem_append] at hmem
      rcases hmem with (hmem | hmem) | hmem
      · rcases mem_str hmem with hmem | hmem <;> simp at hmem
      · simp at hmem
      · rcases mem_intercalate hmem with hmem | ⟨text, htext, hmem⟩
        · simp at hmem
        · obtain ⟨p, hp, rfl⟩ := List.mem_map.1 htext
          exact toString_free (h p hp) rfl (by simp) hmem
  | sh d, _, ⟨_, hvalid⟩, h | wsh d, _, ⟨_, hvalid⟩, h => by
    rw [toStringNoChecksum]
    exact funcString_free (by simp) (toStringNoChecksum_free d _ hvalid h)
  | tr p ds depths, _, ⟨_, hpk, hdepths⟩, h => by
    rw [toStringNoChecksum, toStringsNoChecksum_eq]
    have hp := toString_free (c := '#') (h p List.mem_cons_self) rfl (by simp)
    apply funcString_free (by simp)
    rcases hdepths with ⟨rfl, rfl⟩ | ⟨t, rfl, rfl, -⟩
    · simpa [treeString] using hp
    · obtain ⟨ps, hps⟩ := exists_map_pk hpk
      rw [getPubkeyProviders, hps, getPubkeyProvidersOf_pk] at h
      have htree : '#' ∉ printTree (toStringNoChecksum 'h') t := printTree_free fun d hd => by
        obtain ⟨q, hq, rfl⟩ := List.mem_map.1 (hps ▸ hd)
        exact funcString_free (by simp)
          (toString_free (h q (List.mem_cons_of_mem p hq)) rfl (by simp))
      rw [treeString_depths]
      simp [hp, htree]

/-! ### The same in what is shown -/

variable {g : PubkeyProvider → PubkeyProvider}

mutual

/-- Keys that print alike make descriptors that print alike. -/
theorem mapKeys_toStringNoChecksum {hardenedChar : Char}
    (h : ∀ p, (g p).toString hardenedChar = p.toString hardenedChar) : ∀ d : Descriptor,
    (d.mapKeys g).toStringNoChecksum hardenedChar = d.toStringNoChecksum hardenedChar
  | pk p | pkh p | wpkh p => by simp only [mapKeys, toStringNoChecksum, h]
  | multisig d => by
    simp only [mapKeys, toStringNoChecksum, MultisigDescriptor.toStringNoChecksum, List.map_map,
      Function.comp_def, h]
    rfl
  | sh d | wsh d => by simp only [mapKeys, toStringNoChecksum, mapKeys_toStringNoChecksum h]
  | tr p ds depths => by simp only [mapKeys, toStringNoChecksum, h, mapKeysOf_toStringsNoChecksum h]

theorem mapKeysOf_toStringsNoChecksum {hardenedChar : Char}
    (h : ∀ p, (g p).toString hardenedChar = p.toString hardenedChar) : ∀ ds : List Descriptor,
    toStringsNoChecksum hardenedChar (mapKeysOf g ds) = toStringsNoChecksum hardenedChar ds
  | [] => rfl
  | d :: ds => by
    simp only [mapKeysOf, toStringsNoChecksum, mapKeys_toStringNoChecksum h, mapKeysOf_toStringsNoChecksum h]

end

@[simp] theorem normal_toString (d : Descriptor) : d.normal.toString = d.toString := by
  unfold Descriptor.toString normal
  rw [mapKeys_toStringNoChecksum fun p => p.normal_toString 'h']

mutual

theorem mapKeys_getBip388Template (h : ∀ p, (g p).getBip388Placeholder = p.getBip388Placeholder) :
    ∀ d : Descriptor, (d.mapKeys g).getBip388Template = d.getBip388Template
  | pk p | pkh p | wpkh p => by simp only [mapKeys, getBip388Template, h]
  | multisig d => by
    simp only [mapKeys, getBip388Template, MultisigDescriptor.getBip388Template, List.mapM_map,
      Function.comp_def, h]
    rfl
  | sh d | wsh d => by simp only [mapKeys, getBip388Template, mapKeys_getBip388Template h]
  | tr p ds depths => by simp only [mapKeys, getBip388Template, h, mapKeysOf_getBip388Templates h]

theorem mapKeysOf_getBip388Templates (h : ∀ p, (g p).getBip388Placeholder = p.getBip388Placeholder) :
    ∀ ds : List Descriptor, getBip388Templates (mapKeysOf g ds) = getBip388Templates ds
  | [] => rfl
  | d :: ds => by
    simp only [mapKeysOf, getBip388Templates, mapKeys_getBip388Template h, mapKeysOf_getBip388Templates h]

end

@[simp] theorem normal_getBip388Template (d : Descriptor) :
    d.normal.getBip388Template = d.getBip388Template :=
  mapKeys_getBip388Template PubkeyProvider.normal_getBip388Placeholder d

mutual

@[simp] theorem mapKeys_getPubkeyProviders : ∀ d : Descriptor,
    (d.mapKeys g).getPubkeyProviders = d.getPubkeyProviders.map g
  | pk p | pkh p | wpkh p | multisig d => rfl
  | sh d | wsh d => by simp only [mapKeys, getPubkeyProviders, mapKeys_getPubkeyProviders]
  | tr p ds depths => by
    simp only [mapKeys, getPubkeyProviders, mapKeysOf_getPubkeyProvidersOf, List.map_cons]

theorem mapKeysOf_getPubkeyProvidersOf : ∀ ds : List Descriptor,
    getPubkeyProvidersOf (mapKeysOf g ds) = (getPubkeyProvidersOf ds).map g
  | [] => rfl
  | d :: ds => by
    simp only [mapKeysOf, getPubkeyProvidersOf, mapKeys_getPubkeyProviders, mapKeysOf_getPubkeyProvidersOf,
      List.map_append]

end

@[simp] theorem normal_getPubkeyProviders (d : Descriptor) :
    d.normal.getPubkeyProviders = d.getPubkeyProviders.map PubkeyProvider.normal :=
  mapKeys_getPubkeyProviders d

end Descriptor

/-- Path indices of 32 bits, and keys that are not empty. -/
def Descriptor.Regular (d : Descriptor) : Prop :=
  ∀ p ∈ d.getPubkeyProviders, p.pubkey ≠ [] ∧ StepsInRange p.steps ∧
    ∀ origin ∈ p.origin, ∀ i ∈ origin.path, InRange i

instance (i : ℤ) : Decidable (InRange i) := inferInstanceAs (Decidable (_ ∧ _))

instance (path : List (List ℤ)) : Decidable (StepsInRange path) :=
  inferInstanceAs (Decidable (∀ step ∈ path, ∀ i ∈ step, InRange i))

instance (d : Descriptor) : Decidable d.Regular :=
  inferInstanceAs (Decidable (∀ p ∈ d.getPubkeyProviders, p.pubkey ≠ [] ∧ StepsInRange p.steps ∧
    ∀ origin ∈ p.origin, ∀ i ∈ origin.path, InRange i))

/-- A descriptor that was parsed is printed and parsed again. -/
theorem parseDescriptor_toString {s : Str} {d : Descriptor} (h : parseDescriptor s = .ok d)
    (hd : d.Regular) : parseDescriptor d.toString = .ok d.normal := by
  obtain ⟨desc, j, -, hparse⟩ := parseDescriptor_cases h
  obtain ⟨hvalid, hkeys, hagree⟩ := parseDescriptorIn_spec hparse
  have hback : ReadsBack 0 d.getPubkeyProviders := by
    refine ⟨fun p hp => ?_, hkeys.numbered, hagree⟩
    obtain ⟨hpubkey, hsteps, horigin⟩ := hd p hp
    exact ⟨hkeys.parsed p hp, hpubkey, horigin, hsteps⟩
  have hstrip : stripChecksum d.toString = .ok (d.toStringNoChecksum 'h') := by
    unfold stripChecksum Descriptor.toString addChecksum
    rw [List.append_assoc, List.singleton_append,
      cut_append_cons (d.toStringNoChecksum_free .top hvalid hkeys.parsed)]
    exact if_neg (not_not.2 rfl)
  unfold parseDescriptor
  rw [hstrip, ok_bind, d.parse_toStringNoChecksum .top 3 0 hvalid hback (by decide)]
  rfl

end Hwi
