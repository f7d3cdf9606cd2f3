import Hwi.Format.Descriptor
import Hwi.Proofs.Path

/-! What `parse_descriptor` accepts: its keys are numbered in order, its parts
stand where they may, and a tree has the depths of its leaves. -/

namespace Hwi

namespace PubkeyProvider

/-- A key as the parser builds it. -/
structure Parsed (p : PubkeyProvider) : Prop where
  origin : ∀ origin, p.origin = some origin → ∃ s, KeyOriginInfo.fromString s = .ok origin
  derivPath : ∀ path, p.derivPath = some path → ∃ s, parseMultipath s = .ok path
  new : PubkeyProvider.new p.origin p.pubkey p.derivPath p.exprIndex p.ranged = .ok p

theorem new_spec {origin : Option KeyOriginInfo} {pubkey : Str} {derivPath : Option (List (List ℤ))}
    {i : ℕ} {ranged : Bool} {p : PubkeyProvider}
    (h : PubkeyProvider.new origin pubkey derivPath i ranged = .ok p) :
    p.origin = origin ∧ p.derivPath = derivPath ∧ p.exprIndex = i ∧
      PubkeyProvider.new p.origin p.pubkey p.derivPath p.exprIndex p.ranged = .ok p := by
  have hnew := h
  unfold PubkeyProvider.new at h
  split at h
  · obtain rfl := Except.ok.inj h
    exact ⟨rfl, rfl, rfl, hnew⟩
  · obtain ⟨extkey, -, h⟩ := bind_eq_ok.1 h
    obtain rfl := Except.ok.inj h
    exact ⟨rfl, rfl, rfl, hnew⟩

/-- Whether a key is built depends on its text only. -/
theorem new_update {origin : Option KeyOriginInfo} {pubkey : Str} {derivPath : Option (List (List ℤ))}
    {i : ℕ} {ranged : Bool} {p : PubkeyProvider}
    (h : PubkeyProvider.new origin pubkey derivPath i ranged = .ok p) (origin' : Option KeyOriginInfo)
    (derivPath' : Option (List (List ℤ))) (i' : ℕ) (ranged' : Bool) :
    PubkeyProvider.new origin' pubkey derivPath' i' ranged' =
      .ok { p with origin := origin', derivPath := derivPath', exprIndex := i', ranged := ranged' } := by
  unfold PubkeyProvider.new at h ⊢
  cases hhex : unhexlify pubkey with
  | ok b =>
    rw [hhex] at h
    cases h
    rfl
  | error e =>
    rw [hhex] at h
    obtain ⟨extkey, hext, h⟩ := bind_eq_ok.1 h
    cases h
    dsimp only
    rw [hext]
    rfl

theorem parseOrigin_spec {s t : Str} {o : Option KeyOriginInfo} (h : parseOrigin s = .ok (o, t)) :
    ∀ origin, o = some origin → ∃ s, KeyOriginInfo.fromString s = .ok origin := by
  unfold parseOrigin at h
  intro origin ho
  split at h
  · cases h
  · split at h
    · cases h
    · obtain ⟨origin', horigin, h⟩ := bind_eq_ok.1 h
      obtain ⟨rfl, -⟩ := Prod.mk.inj (Except.ok.inj h)
      obtain rfl := Option.some.inj ho
      exact ⟨_, horigin⟩
  · obtain ⟨rfl, -⟩ := Prod.mk.inj (Except.ok.inj h)
    cases ho

theorem parseKeyPath_spec {s pubkey : Str} {derivPath : Option (List (List ℤ))} {ranged : Bool}
    (h : parseKeyPath s = .ok (pubkey, derivPath, ranged)) :
    ∀ path, derivPath = some path → ∃ s, parseMultipath s = .ok path := by
  unfold parseKeyPath at h
  intro path hpath
  subst hpath
  split at h
  · cases h
  · dsimp only at h
    split_ifs at h
    all_goals first
      | cases h
      | obtain ⟨path', hpath', h⟩ := bind_eq_ok.1 h
        cases h
        exact ⟨_, hpath'⟩

/-- What is built from a key expression. -/
theorem parse_spec {s : Str} {i : ℕ} {p : PubkeyProvider} (h : parse s i = .ok p) :
    p.Parsed ∧ p.exprIndex = i := by
  unfold parse at h
  obtain ⟨⟨origin, t⟩, horigin, h⟩ := bind_eq_ok.1 h
  obtain ⟨⟨pubkey, derivPath, ranged⟩, hpath, h⟩ := bind_eq_ok.1 h
  obtain ⟨ho, hd, hi, hself⟩ := new_spec h
  exact ⟨⟨ho ▸ parseOrigin_spec horigin, hd ▸ parseKeyPath_spec hpath, hself⟩, hi⟩

theorem Parsed.oneMultipath {p : PubkeyProvider} (h : p.Parsed) : p.OneMultipath := by
  unfold OneMultipath steps
  cases hpath : p.derivPath with
  | none => simp
  | some path =>
    obtain ⟨s, hs⟩ := h.derivPath path hpath
    exact parseMultipath_spec hs

theorem le_foldr_max {l : List ℕ} {n : ℕ} (h : n ∈ l) : n ≤ l.foldr max 0 := by
  induction l with
  | nil => cases h
  | cons a l ih =>
    rw [List.foldr_cons]
    rcases List.mem_cons.1 h with rfl | h
    · exact le_max_left _ _
    · exact (ih h).trans (le_max_right _ _)

theorem foldr_max_mem {l : List ℕ} (h : 0 < l.foldr max 0) : l.foldr max 0 ∈ l := by
  induction l with
  | nil => cases h
  | cons a l ih =>
    rw [List.foldr_cons] at h ⊢
    rcases le_total a (l.foldr max 0) with hle | hle
    · rw [max_eq_right hle] at h ⊢
      exact List.mem_cons_of_mem a (ih h)
    · rw [max_eq_left hle]
      exact List.mem_cons_self

theorem eq_of_countP_le_one {α : Type} {q : α → Bool} {l : List α} (h : l.countP q ≤ 1) {a b : α}
    (ha : a ∈ l) (hb : b ∈ l) (hqa : q a) (hqb : q b) : a = b := by
  have hlen : (l.filter q).length ≤ 1 := by rwa [← List.countP_eq_length_filter]
  have ha' : a ∈ l.filter q := List.mem_filter.2 ⟨ha, hqa⟩
  have hb' : b ∈ l.filter q := List.mem_filter.2 ⟨hb, hqb⟩
  generalize l.filter q = m at hlen ha' hb'
  match m, hlen with
  | [], _ => cases ha'
  | [c], _ => rw [List.mem_singleton.1 ha', List.mem_singleton.1 hb']

/-- A multipath step is as long as `multipathLen` says. -/
theorem OneMultipath.length_eq {p : PubkeyProvider} (h : p.OneMultipath) {step : List ℤ}
    (hstep : step ∈ p.steps) (hlen : 1 < step.length) : p.multipathLen = step.length := by
  obtain ⟨-, hcount⟩ := h
  unfold steps at hstep hcount
  unfold multipathLen
  rcases hpath : p.derivPath with _ | _ | ⟨first, rest⟩
  · simp [hpath] at hstep
  · simp [hpath] at hstep
  · rw [hpath, Option.getD_some] at hstep hcount
    have hmax : step.length ∈ (first :: rest).map List.length := List.mem_map_of_mem hstep
    have hle := le_foldr_max hmax
    change List.foldr max 0 ((first :: rest).map List.length) = step.length
    obtain ⟨longest, hmem, hlongest⟩ := List.mem_map.1 (foldr_max_mem (hle.trans_lt' (by omega)))
    rw [← hlongest] at hle ⊢
    rw [eq_of_countP_le_one hcount hmem hstep (by simp; omega) (by simpa using hlen)]

end PubkeyProvider

/-! ### Keys in order -/

/-- The keys that are parsed while the index of the next key goes from `i` to `j`. -/
structure KeysFrom (i j : ℕ) (ps : List PubkeyProvider) : Prop where
  numbered : ps.map PubkeyProvider.exprIndex = List.range' i ps.length
  next : j = i + ps.length
  parsed : ∀ p ∈ ps, p.Parsed

theorem keysFrom_nil (i : ℕ) : KeysFrom i i [] := ⟨rfl, rfl, by simp⟩

theorem KeysFrom.append {i j k : ℕ} {ps qs : List PubkeyProvider} (h : KeysFrom i j ps)
    (h' : KeysFrom j k qs) : KeysFrom i k (ps ++ qs) := by
  obtain ⟨hnum, rfl, hparsed⟩ := h
  obtain ⟨hnum', rfl, hparsed'⟩ := h'
  refine ⟨?_, ?_, fun p hp => ?_⟩
  · rw [List.map_append, hnum, hnum', List.length_append, List.range'_append_1]
  · rw [List.length_append, Nat.add_assoc]
  · rcases List.mem_append.1 hp with hp | hp
    · exact hparsed p hp
    · exact hparsed' p hp

theorem parsePubkey_spec {expr rest : Str} {i j : ℕ} {p : PubkeyProvider}
    (h : parsePubkey expr i = .ok (p, rest, j)) : KeysFrom i j [p] := by
  unfold parsePubkey at h
  obtain ⟨p', hp, h⟩ := bind_eq_ok.1 h
  cases h
  obtain ⟨hparsed, hi⟩ := PubkeyProvider.parse_spec hp
  exact ⟨by simp [hi], rfl, by simpa using hparsed⟩

theorem parseOnlyPubkey_spec {msg : String} {expr : Str} {i j : ℕ} {p : PubkeyProvider}
    (h : parseOnlyPubkey msg expr i = .ok (p, j)) : KeysFrom i j [p] := by
  unfold parseOnlyPubkey at h
  obtain ⟨⟨p', rest, j'⟩, hp, h⟩ := bind_eq_ok.1 h
  simp only [throw_eq_error, error_bind, ite_error_eq_ok] at h
  cases h.2
  exact parsePubkey_spec hp

/-! ### The length of multipath steps -/

/-- The multipath steps of the keys have the length that was found. -/
def Agree (len : Option ℕ) (ps : List PubkeyProvider) : Prop :=
  ∀ p ∈ ps, 1 < p.multipathLen → len = some p.multipathLen

/-- A length that was found stays. -/
def Settled (len len' : Option ℕ) : Prop := ∀ n, len = some n → len' = some n

theorem Settled.trans {a b c : Option ℕ} (h : Settled a b) (h' : Settled b c) : Settled a c :=
  fun n hn => h' n (h n hn)

theorem Agree.settled {len len' : Option ℕ} {ps : List PubkeyProvider} (h : Agree len ps)
    (hlen : Settled len len') : Agree len' ps := fun p hp hp' => hlen _ (h p hp hp')

theorem Agree.append {len : Option ℕ} {ps qs : List PubkeyProvider} (h : Agree len ps)
    (h' : Agree len qs) : Agree len (ps ++ qs) := by
  intro p hp
  rcases List.mem_append.1 hp with hp | hp
  · exact h p hp
  · exact h' p hp

theorem checkMultipathLen_spec {len len' : Option ℕ} {p : PubkeyProvider}
    (h : checkMultipathLen len p = .ok len') : Settled len len' ∧ Agree len' [p] := by
  unfold checkMultipathLen at h
  have hsingle : Agree len' [p] ↔ (1 < p.multipathLen → len' = some p.multipathLen) := by
    simp [Agree]
  rw [hsingle]
  split_ifs at h with hlen
  · split at h
    · cases h
      exact ⟨by simp [Settled], fun _ => rfl⟩
    · rw [ite_error_eq_ok, not_ne_iff] at h
      obtain ⟨rfl, h⟩ := h
      cases h
      exact ⟨fun _ hn => hn, fun _ => rfl⟩
  · cases h
    exact ⟨fun _ hn => hn, fun hlen' => absurd hlen' hlen⟩

/-- Keys that agree have multipath steps of one length. -/
theorem Agree.sameMultipathLen {len : Option ℕ} {ps : List PubkeyProvider} (h : Agree len ps)
    (hone : ∀ p ∈ ps, p.OneMultipath) : SameMultipathLen ps := by
  intro p hp q hq step hstep step' hstep' hlen hlen'
  have hp' := (hone p hp).length_eq hstep hlen
  have hq' := (hone q hq).length_eq hstep' hlen'
  have hsome := (h p hp (by omega)).symm.trans (h q hq (by omega))
  rw [← hp', ← hq']
  exact Option.some.inj hsome

theorem parsePubkeys_spec {n : ℕ} {expr : Str} {i j : ℕ} {len : Option ℕ}
    {ps : List PubkeyProvider} (h : parsePubkeys n expr i len = .ok (ps, j)) :
    KeysFrom i j ps ∧ ∃ len', Settled len len' ∧ Agree len' ps := by
  induction n generalizing expr i len ps with
  | zero =>
    cases expr with
    | nil =>
      cases h
      exact ⟨keysFrom_nil _, len, fun _ hn => hn, by simp [Agree]⟩
    | cons c expr => cases h
  | succ n ih =>
    cases expr with
    | nil =>
      cases h
      exact ⟨keysFrom_nil _, len, fun _ hn => hn, by simp [Agree]⟩
    | cons c expr =>
      unfold parsePubkeys at h
      obtain ⟨⟨p, rest, k⟩, hp, h⟩ := bind_eq_ok.1 h
      obtain ⟨len₁, hlen₁, h⟩ := bind_eq_ok.1 h
      obtain ⟨⟨ps', j'⟩, hps, h⟩ := bind_eq_ok.1 h
      cases h
      obtain ⟨hsettled, hagree⟩ := checkMultipathLen_spec hlen₁
      obtain ⟨hkeys, len', hsettled', hagree'⟩ := ih hps
      exact ⟨(parsePubkey_spec hp).append hkeys, len', hsettled.trans hsettled',
        (hagree.settled hsettled').append hagree'⟩

/-! ### Trees -/

open LeafTree in
theorem openBranches_spec {expr expr' : Str} {branches branches' : List Bool}
    {done : List (Descriptor × ℕ)} (h : openBranches expr branches = .ok (expr', branches'))
    (hdone : Done branches done) (hlen : branches.length ≤ MAX_TAPROOT_NODES) :
    Done branches' done ∧ branches'.length ≤ MAX_TAPROOT_NODES := by
  induction expr generalizing branches with
  | nil => cases h
  | cons c expr ih =>
    rw [openBranches] at h
    split_ifs at h with hc hmax
    · cases h
      exact ⟨hdone, hlen⟩
    · exact ih h hdone.left (by rw [List.length_cons]; omega)

open LeafTree in
theorem closeBranches_spec {expr expr' : Str} {branches branches' : List Bool}
    {done : List (Descriptor × ℕ)} (h : closeBranches expr branches = .ok (expr', branches'))
    (hdone : Complete branches done) :
    Complete branches' done ∧ branches'.length ≤ branches.length ∧ branches'.head? ≠ some true := by
  induction branches generalizing expr with
  | nil =>
    cases h
    exact ⟨hdone, le_rfl, by simp⟩
  | cons b branches ih =>
    cases b with
    | false =>
      cases h
      exact ⟨hdone, le_rfl, by simp⟩
    | true =>
      rw [closeBranches] at h
      obtain ⟨expr₁, -, h⟩ := bind_eq_ok.1 h
      obtain ⟨hdone', hlen, htop⟩ := ih h hdone.pop
      exact ⟨hdone', hlen.trans (Nat.le_succ _), htop⟩

open LeafTree in
theorem nextBranch_spec {expr expr' : Str} {branches branches' : List Bool}
    {done : List (Descriptor × ℕ)} (h : nextBranch expr branches = .ok (expr', branches'))
    (hdone : Complete branches done) (htop : branches.head? ≠ some true) :
    branches'.length = branches.length ∧
      ((branches' = [] ∧ Complete [] done) ∨ (branches' ≠ [] ∧ Done branches' done)) := by
  match branches, htop with
  | [], _ =>
    cases h
    exact ⟨rfl, Or.inl ⟨rfl, hdone⟩⟩
  | false :: branches, _ =>
    obtain ⟨expr₁, -, h⟩ := bind_eq_ok.1 h
    cases h
    exact ⟨rfl, Or.inr ⟨by simp, hdone.next⟩⟩
  | true :: branches, htop => exact absurd rfl htop

/-- What the parser of a leaf returns. -/
def ParsesLeaf (parseLeaf : Str → ℕ → Except Exc (Descriptor × ℕ)) : Prop :=
  ∀ s i d j, parseLeaf s i = .ok (d, j) → ∃ p, d = .pk p ∧ KeysFrom i j [p]

open LeafTree Descriptor in
theorem parseTree_spec {parseLeaf : Str → ℕ → Except Exc (Descriptor × ℕ)}
    (hleaf : ParsesLeaf parseLeaf) {n : ℕ} {expr : Str} {branches : List Bool} {i j : ℕ}
    {len : Option ℕ} {ds : List Descriptor} {depths : List ℕ} {done : List (Descriptor × ℕ)}
    (h : parseTree parseLeaf n expr branches i len = .ok (ds, depths, j))
    (hdone : Done branches done) (hlen : branches.length ≤ MAX_TAPROOT_NODES) :
    (∀ d ∈ ds, ∃ p, d = .pk p) ∧ KeysFrom i j (getPubkeyProvidersOf ds) ∧
      (∃ len', Settled len len' ∧ Agree len' (getPubkeyProvidersOf ds)) ∧
      ds.length = depths.length ∧ (∀ depth ∈ depths, depth ≤ MAX_TAPROOT_NODES) ∧
      ∃ t : LeafTree Descriptor, done ++ ds.zip depths = t.leavesAt 0 := by
  induction n generalizing expr branches i len ds depths done with
  | zero => cases h
  | succ n ih =>
    unfold parseTree at h
    obtain ⟨⟨expr₁, branches₁⟩, hopen, h⟩ := bind_eq_ok.1 h
    obtain ⟨⟨d, k⟩, hd, h⟩ := bind_eq_ok.1 h
    obtain ⟨len₁, hlen₁, h⟩ := bind_eq_ok.1 h
    obtain ⟨⟨expr₂, branches₂⟩, hclose, h⟩ := bind_eq_ok.1 h
    obtain ⟨⟨expr₃, branches₃⟩, hnext, h⟩ := bind_eq_ok.1 h
    dsimp only at hclose hnext h
    obtain ⟨p, rfl, hp⟩ := hleaf _ _ _ _ hd
    obtain ⟨len₁', hcheck, hlen₁⟩ := bind_eq_ok.1 hlen₁
    cases hlen₁
    obtain ⟨hsettled, hagree⟩ := checkMultipathLen_spec hcheck
    obtain ⟨hdone₁, hlen₁⟩ := openBranches_spec hopen hdone hlen
    obtain ⟨hdone₂, hlen₂, htop⟩ := closeBranches_spec hclose (hdone₁.complete (pk p))
    obtain ⟨hlen₃, hdone₃⟩ := nextBranch_spec hnext hdone₂ htop
    rcases hdone₃ with ⟨rfl, hdone₃⟩ | ⟨hne, hdone₃⟩
    · cases h
      exact ⟨by simp, by simpa [getPubkeyProvidersOf, getPubkeyProviders] using hp,
        ⟨_, hsettled, by simpa [getPubkeyProvidersOf, getPubkeyProviders] using hagree⟩, rfl,
        by simpa using hlen₁, hdone₃.root⟩
    · rw [if_neg hne] at h
      obtain ⟨⟨ds', depths', j'⟩, htree, h⟩ := bind_eq_ok.1 h
      cases h
      obtain ⟨hpk, hkeys, ⟨len', hsettled', hagree'⟩, hzip, hdepths, t, ht⟩ :=
        ih htree hdone₃ (by omega)
      refine ⟨?_, hp.append hkeys, ⟨len', hsettled.trans hsettled', ?_⟩, by simp [hzip], ?_, t, ?_⟩
      · intro d hd
        rcases List.mem_cons.1 hd with rfl | hd
        · exact ⟨p, rfl⟩
        · exact hpk d hd
      · exact (hagree.settled hsettled').append hagree'
      · intro depth hdepth
        rcases List.mem_cons.1 hdepth with rfl | hdepth
        · exact hlen₁
        · exact hdepths depth hdepth
      · rw [← ht]
        simp

/-! ### Descriptors -/

/-- How a descriptor comes from the expression inside its function. -/
inductive ParsedIn (n : ℕ) (ctx : ParseDescriptorContext) (expr : Str) (i : ℕ) :
    Descriptor → ℕ → Prop
  | pk {msg : String} {p : PubkeyProvider} {j : ℕ} :
      parseOnlyPubkey msg expr i = .ok (p, j) → ParsedIn n ctx expr i (.pk p) j
  | pkh {msg : String} {p : PubkeyProvider} {j : ℕ} : ctx ∈ [.top, .p2sh, .p2wsh] →
      parseOnlyPubkey msg expr i = .ok (p, j) → ParsedIn n ctx expr i (.pkh p) j
  | wpkh {msg : String} {p : PubkeyProvider} {j : ℕ} : ctx ∈ [.top, .p2sh] →
      parseOnlyPubkey msg expr i = .ok (p, j) → ParsedIn n ctx expr i (.wpkh p) j
  | multisig {expr' : Str} {d : MultisigDescriptor} {j : ℕ} : ctx ∈ [.top, .p2sh, .p2wsh] →
      parsePubkeys expr'.length expr' i none = .ok (d.pubkeys, j) → d.Valid ctx →
      ParsedIn n ctx expr i (.multisig d) j
  | sh {d : Descriptor} {j : ℕ} : ctx = .top → parseDescriptorIn n expr .p2sh i = .ok (d, j) →
      ParsedIn n ctx expr i (.sh d) j
  | wsh {d : Descriptor} {j : ℕ} : ctx ∈ [.top, .p2sh] →
      parseDescriptorIn n expr .p2wsh i = .ok (d, j) → ParsedIn n ctx expr i (.wsh d) j
  | key {p : PubkeyProvider} {rest : Str} {j : ℕ} {len : Option ℕ} : ctx = .top →
      parsePubkey expr i = .ok (p, rest, j) → checkMultipathLen none p = .ok len →
      ParsedIn n ctx expr i (.tr p [] []) j
  | tree {p : PubkeyProvider} {rest : Str} {j k : ℕ} {len : Option ℕ} {ds : List Descriptor}
      {depths : List ℕ} : ctx = .top →
      parsePubkey expr i = .ok (p, rest, k) → checkMultipathLen none p = .ok len →
      parseTree (fun sarg i => parseDescriptorIn n sarg .p2tr i) rest.length rest [] k len =
        .ok (ds, depths, j) →
      ParsedIn n ctx expr i (.tr p ds depths) j

theorem checkContext_eq_ok {allowed : List ParseDescriptorContext} {msg : String}
    {ctx : ParseDescriptorContext} {u : Unit} :
    checkContext allowed msg ctx = .ok u ↔ ctx ∈ allowed := by
  unfold checkContext
  split_ifs with hctx <;> simp [hctx]

theorem checkMultisig_eq_ok {ctx : ParseDescriptorContext} {thresh : ℤ} {keys : ℕ} {u : Unit} :
    checkMultisig ctx thresh keys = .ok u ↔
      0 < keys ∧ 1 ≤ thresh ∧ thresh ≤ keys ∧ keys ≤ 16 ∧ (ctx = .top → keys ≤ 3) := by
  unfold checkMultisig
  simp only [ite_error_eq_ok]
  constructor
  · rintro ⟨hkeys, hlow, hhigh, hbare, -⟩
    refine ⟨?_, not_lt.1 hlow, not_lt.1 hhigh, ?_, fun htop => not_lt.1 fun h => hbare ⟨htop, h⟩⟩
    · omega
    · omega
  · rintro ⟨hpos, hlow, hhigh, hmax, hbare⟩
    refine ⟨?_, not_lt.2 hlow, not_lt.2 hhigh, fun h => not_lt.2 (hbare h.1) h.2, trivial⟩
    omega

theorem parseDescriptorIn_cases {n : ℕ} {desc : Str} {ctx : ParseDescriptorContext} {i j : ℕ}
    {d : Descriptor} (h : parseDescriptorIn (n + 1) desc ctx i = .ok (d, j)) :
    ∃ expr, ParsedIn n ctx expr i d j := by
  rw [parseDescriptorIn] at h
  obtain ⟨⟨func, expr⟩, -, h⟩ := bind_eq_ok.1 h
  refine ⟨expr, ?_⟩
  dsimp only at h
  split_ifs at h
  · obtain ⟨⟨p, j'⟩, hp, h⟩ := bind_eq_ok.1 h
    cases h
    exact .pk hp
  · obtain ⟨_, hctx, h⟩ := bind_eq_ok.1 h
    obtain ⟨⟨p, j'⟩, hp, h⟩ := bind_eq_ok.1 h
    cases h
    exact .pkh (checkContext_eq_ok.1 hctx) hp
  · obtain ⟨_, hctx, h⟩ := bind_eq_ok.1 h
    obtain ⟨⟨thresh, expr'⟩, -, h⟩ := bind_eq_ok.1 h
    obtain ⟨t, -, h⟩ := bind_eq_ok.1 h
    obtain ⟨⟨ps, j'⟩, hps, h⟩ := bind_eq_ok.1 h
    obtain ⟨_, hcheck, h⟩ := bind_eq_ok.1 h
    cases h
    exact .multisig (checkContext_eq_ok.1 hctx) hps (checkMultisig_eq_ok.1 hcheck).2
  · obtain ⟨_, hctx, h⟩ := bind_eq_ok.1 h
    obtain ⟨⟨p, j'⟩, hp, h⟩ := bind_eq_ok.1 h
    cases h
    exact .wpkh (checkContext_eq_ok.1 hctx) hp
  · obtain ⟨_, hctx, h⟩ := bind_eq_ok.1 h
    obtain ⟨⟨d', j'⟩, hd, h⟩ := bind_eq_ok.1 h
    cases h
    exact .sh (by simpa using checkContext_eq_ok.1 hctx) hd
  · obtain ⟨_, hctx, h⟩ := bind_eq_ok.1 h
    obtain ⟨⟨d', j'⟩, hd, h⟩ := bind_eq_ok.1 h
    cases h
    exact .wsh (checkContext_eq_ok.1 hctx) hd
  · obtain ⟨_, hctx, h⟩ := bind_eq_ok.1 h
    obtain ⟨⟨p, rest, k⟩, hp, h⟩ := bind_eq_ok.1 h
    obtain ⟨len, hlen, h⟩ := bind_eq_ok.1 h
    have htop : ctx = .top := by simpa using checkContext_eq_ok.1 hctx
    dsimp only at h
    split_ifs at h
    · cases h
      exact .key htop hp hlen
    · obtain ⟨⟨ds, depths, j'⟩, htree, h⟩ := bind_eq_ok.1 h
      cases h
      exact .tree htop hp hlen htree

theorem TreeDepths.length_eq {ds : List Descriptor} {depths : List ℕ} (h : TreeDepths ds depths) :
    ds.length = depths.length := by
  rcases h with ⟨rfl, rfl⟩ | ⟨t, rfl, rfl, -⟩
  · rfl
  · rw [← t.map_fst_leavesAt 0, LeafTree.depths, List.length_map, List.length_map]

theorem pk_of_valid_p2tr {d : Descriptor} (h : d.Valid .p2tr) : ∃ p, d = .pk p := by
  cases d with
  | pk p => exact ⟨p, rfl⟩
  | _ => simp [Descriptor.Valid] at h

/-- A descriptor of a context with its keys in order and of one length. -/
structure Descriptor.Formed (d : Descriptor) (ctx : ParseDescriptorContext) (i j : ℕ) : Prop where
  valid : d.Valid ctx
  keys : KeysFrom i j d.getPubkeyProviders
  agree : ∃ len, Agree len d.getPubkeyProviders

/-- A single key agrees with itself. -/
theorem agree_singleton (p : PubkeyProvider) : ∃ len, Agree len [p] :=
  ⟨some p.multipathLen, by simp [Agree]⟩

open Descriptor in
theorem parseDescriptorIn_spec {n : ℕ} {desc : Str} {ctx : ParseDescriptorContext} {i j : ℕ}
    {d : Descriptor} (h : parseDescriptorIn n desc ctx i = .ok (d, j)) : d.Formed ctx i j := by
  induction n generalizing desc ctx i j d with
  | zero => cases h
  | succ n ih =>
    obtain ⟨expr, hd⟩ := parseDescriptorIn_cases h
    cases hd with
    | pk hp => exact ⟨trivial, parseOnlyPubkey_spec hp, agree_singleton _⟩
    | pkh hctx hp => exact ⟨hctx, parseOnlyPubkey_spec hp, agree_singleton _⟩
    | wpkh hctx hp => exact ⟨hctx, parseOnlyPubkey_spec hp, agree_singleton _⟩
    | multisig hctx hps hvalid =>
      obtain ⟨hkeys, len, -, hagree⟩ := parsePubkeys_spec hps
      exact ⟨⟨hctx, hvalid⟩, hkeys, len, hagree⟩
    | sh hctx hd =>
      obtain ⟨hvalid, hkeys, hagree⟩ := ih hd
      exact ⟨⟨hctx, hvalid⟩, hkeys, hagree⟩
    | wsh hctx hd =>
      obtain ⟨hvalid, hkeys, hagree⟩ := ih hd
      exact ⟨⟨hctx, hvalid⟩, hkeys, hagree⟩
    | key hctx hp _ =>
      exact ⟨⟨hctx, by simp, Or.inl ⟨rfl, rfl⟩⟩, parsePubkey_spec hp, agree_singleton _⟩
    | tree hctx hp hlen htree =>
      have hleaf : ParsesLeaf fun sarg i => parseDescriptorIn n sarg .p2tr i := by
        intro s i d j hd
        obtain ⟨hvalid, hkeys, -⟩ := ih hd
        obtain ⟨p, rfl⟩ := pk_of_valid_p2tr hvalid
        exact ⟨p, rfl, hkeys⟩
      obtain ⟨hpk, hkeys, ⟨len', hsettled, hagree⟩, hzip, hdepths, t, ht⟩ :=
        parseTree_spec hleaf htree .root (Nat.zero_le _)
      obtain ⟨-, hagree'⟩ := checkMultipathLen_spec hlen
      refine ⟨⟨hctx, hpk, Or.inr ⟨t, ?_, ?_, ?_⟩⟩, (parsePubkey_spec hp).append hkeys, len',
        (hagree'.settled hsettled).append hagree⟩
      · rw [← t.map_fst_leavesAt 0, ← ht, List.nil_append, List.map_fst_zip hzip.le]
      · rw [LeafTree.depths, ← ht, List.nil_append, List.map_snd_zip hzip.ge]
      · refine (Nat.zero_add _).symm.trans_le (LeafTree.add_height_le fun q hq => ?_)
        rw [← ht, List.nil_append] at hq
        exact hdepths _ (List.of_mem_zip hq).2

theorem parseDescriptor_cases {s : Str} {d : Descriptor} (h : parseDescriptor s = .ok d) :
    ∃ desc j, stripChecksum s = .ok desc ∧ parseDescriptorIn 3 desc .top 0 = .ok (d, j) := by
  unfold parseDescriptor at h
  obtain ⟨desc, hdesc, h⟩ := bind_eq_ok.1 h
  obtain ⟨⟨d', j⟩, hd, h⟩ := bind_eq_ok.1 h
  cases h
  exact ⟨desc, j, hdesc, hd⟩

/-- A descriptor that is accepted has the invariant. -/
theorem parseDescriptor_invariant {s : Str} {d : Descriptor} (h : parseDescriptor s = .ok d) :
    d.Invariant := by
  obtain ⟨desc, j, -, hd⟩ := parseDescriptor_cases h
  obtain ⟨hvalid, hkeys, len, hagree⟩ := parseDescriptorIn_spec hd
  have hone : ∀ p ∈ d.getPubkeyProviders, p.OneMultipath := fun p hp =>
    (hkeys.parsed p hp).oneMultipath
  refine ⟨fun i p hp => ?_, hone, hagree.sameMultipathLen hone, hvalid⟩
  have hi : (d.getPubkeyProviders.map PubkeyProvider.exprIndex)[i]? = some p.exprIndex := by
    rw [List.getElem?_map, hp, Option.map_some]
  rw [hkeys.numbered, List.getElem?_range' (List.getElem?_eq_some_iff.1 hp).1] at hi
  have := Option.some.inj hi
  omega

/-- A Taproot descriptor with two leaves. -/
def descriptorSample : Str := "tr(ab,\x7bpk(cd/<0;1>/*),pk(ef)\x7d)".toList

theorem parseDescriptor_invariant_sample :
    ∃ d, parseDescriptor descriptorSample = .ok d ∧ d.Invariant := by
  have hsome : (parseDescriptor descriptorSample).toOption.isSome = true := by decide +kernel
  obtain ⟨d, hd⟩ := Option.isSome_iff_exists.1 hsome
  have hparse := toOption_eq_some.1 hd
  exact ⟨d, hparse, parseDescriptor_invariant hparse⟩

end Hwi
