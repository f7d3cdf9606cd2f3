import Hwi.Proofs.Descriptor
import Hwi.Proofs.ExtendedKey
import Hwi.Proofs.PathIndex

/-! Which exceptions `parse_descriptor` raises: `ValueError`, the form that has for an
invalid key, and others where the text breaks off before a character or a byte that is
read without a look at the length. -/

namespace Hwi

/-- A `ValueError`, or the `BadArgumentError` of an invalid key. -/
def Documented : Exc → Prop
  | .badArgumentError _ => True
  | e => e.isValueError = true

def Undocumented (e : Exc) : Prop := ¬Documented e

variable {α β : Type}

theorem not_slips_ok {a : α} : ¬Raising Undocumented (.ok a) := not_raising_ok

theorem not_slips_error {e : Exc} (h : Documented e) : ¬Raising Undocumented (.error e : Except Exc α) := by
  rw [raising_error]
  exact not_not.2 h

theorem not_slips_valueError {msg : String} : ¬Raising Undocumented (.error (.valueError msg) : Except Exc α) :=
  not_slips_error rfl

/-! ### Numbers and paths -/

theorem not_slips_int (s : Str) : ¬Raising Undocumented (int s) := by
  unfold int
  dsimp only
  split
  · exact not_slips_valueError
  · split_ifs
    · exact not_slips_valueError
    · exact not_slips_ok
    · exact not_slips_ok

theorem not_slips_strToHarden (x : Str) : ¬Raising Undocumented (strToHarden x) := by
  unfold strToHarden
  split_ifs
  · exact not_raising_bind (not_slips_int _) fun _ _ => not_slips_ok
  · exact not_raising_bind (not_slips_int _) fun _ _ => not_slips_ok
  · exact not_slips_int x

theorem not_slips_parseIndex (allowMultipath : Bool) (x : Str) (seen : Bool) :
    ¬Raising Undocumented (parseIndex allowMultipath x seen) := by
  unfold parseIndex
  simp only [throw_eq_error, error_bind]
  split_ifs
  any_goals exact not_slips_valueError
  · exact not_raising_bind (not_raising_mapM fun _ _ => not_slips_strToHarden _) fun _ _ => not_slips_ok
  · exact not_raising_bind (not_slips_strToHarden x) fun _ _ => not_slips_ok

theorem not_slips_parseIndices (allowMultipath : Bool) (n : List Str) (seen : Bool) :
    ¬Raising Undocumented (parseIndices allowMultipath n seen) := by
  induction n generalizing seen with
  | nil => exact not_slips_ok
  | cons x n ih =>
    unfold parseIndices
    refine not_raising_bind (not_slips_parseIndex _ _ _) fun a _ => ?_
    exact not_raising_bind (ih a.2) fun _ _ => not_slips_ok

theorem not_slips_parseSteps (s : Str) (allowMultipath : Bool) : ¬Raising Undocumented (parseSteps s allowMultipath) := by
  unfold parseSteps
  split_ifs
  · exact not_slips_ok
  · exact not_slips_parseIndices _ _ _

theorem not_slips_parsePath (s : Str) : ¬Raising Undocumented (parsePath s) := by
  unfold parsePath
  refine not_raising_bind (not_slips_parseSteps s false) fun steps hsteps => ?_
  have hplain : ∀ step ∈ steps, ∃ i, step = [i] := by
    unfold parseSteps at hsteps
    split_ifs at hsteps
    · cases hsteps
      simp
    · exact parseIndices_plain hsteps
  refine not_raising_mapM fun step hstep => ?_
  obtain ⟨i, rfl⟩ := hplain step hstep
  exact not_slips_ok

theorem not_slips_hexValue (c : Char) : ¬Raising Undocumented (hexBytes.hexValue c) := by
  unfold hexBytes.hexValue
  split_ifs
  · exact not_slips_ok
  · exact not_slips_ok
  · exact not_slips_ok
  · exact not_slips_error rfl

theorem not_slips_hexBytes (s : Str) : ¬Raising Undocumented (hexBytes s) := by
  induction s using hexBytes.induct with
  | case1 => exact not_slips_ok
  | case2 a b rest ih =>
    unfold hexBytes
    refine not_raising_bind (not_slips_hexValue a) fun _ _ => ?_
    refine not_raising_bind (not_slips_hexValue b) fun _ _ => ?_
    exact not_raising_bind ih fun _ _ => not_slips_ok
  | case3 s h₁ h₂ =>
    rw [hexBytes]
    · exact not_slips_error rfl
    · exact h₁
    · exact h₂

theorem not_slips_unhexlify (s : Str) : ¬Raising Undocumented (unhexlify s) := by
  unfold unhexlify
  split_ifs
  · exact not_slips_hexBytes s
  · exact not_slips_error rfl

theorem not_slips_fromString (s : Str) : ¬Raising Undocumented (KeyOriginInfo.fromString s) := by
  unfold KeyOriginInfo.fromString
  refine not_raising_bind (not_slips_unhexlify _) fun _ _ => ?_
  split_ifs
  · exact not_raising_bind (not_slips_parsePath _) fun _ _ => not_slips_ok
  · exact not_slips_ok

/-! ### Keys -/

theorem not_slips_fromDigits (s : Str) (n : ℕ) : ¬Raising Undocumented (Base58.fromDigits s n) := by
  induction s generalizing n with
  | nil => exact not_slips_ok
  | cons c s ih =>
    unfold Base58.fromDigits
    split_ifs
    · exact ih _
    · exact not_slips_error trivial

theorem not_slips_decode (s : Str) : ¬Raising Undocumented (Base58.decode s) := by
  unfold Base58.decode
  split_ifs
  · exact not_slips_ok
  · exact not_raising_bind (not_slips_fromDigits s 0) fun _ _ => not_slips_ok

/-- The bytes of a key of a known version that end before the chain code. -/
theorem slips_fromBytes (data : Bytes) :
    Raising Undocumented (ExtendedKey.fromBytes data) ↔ data.take 4 ∈ ExtendedKey.versions ∧ data.length < 13 := by
  unfold ExtendedKey.fromBytes
  dsimp only
  by_cases hversion : data.take 4 ∈ ExtendedKey.versions
  · have hmem : ¬data.take 4 ∉ [ExtendedKey.MAINNET_PRIVATE, ExtendedKey.MAINNET_PUBLIC,
        ExtendedKey.TESTNET_PRIVATE, ExtendedKey.TESTNET_PUBLIC] := not_not.2 hversion
    rw [if_neg hmem]
    cases hdepth : data[4]? with
    | none =>
      have hlen := List.getElem?_eq_none_iff.1 hdepth
      refine iff_of_true ⟨.indexError, rfl, ?_⟩ ⟨hversion, by omega⟩
      exact Bool.false_ne_true
    | some depth =>
      have hlen := (List.getElem?_eq_some_iff.1 hdepth).1
      have hnum : (((data.drop 9).take 4).reverse).length = 4 ↔ ¬data.length < 13 := by
        simp
        omega
      simp only [pure_eq_ok, ok_bind]
      unfold unpack
      by_cases hshort : data.length < 13
      · rw [if_neg (mt hnum.1 (not_not.2 hshort))]
        refine iff_of_true ⟨.structError, rfl, ?_⟩ ⟨hversion, hshort⟩
        exact Bool.false_ne_true
      · rw [if_pos (hnum.2 hshort), ok_bind]
        refine iff_of_false ?_ fun h => hshort h.2
        split_ifs
        · refine not_raising_bind ?_ fun _ _ => not_slips_ok
          unfold Curve.pointToBytes
          split
          · exact not_slips_valueError
          · exact not_slips_ok
        · exact not_slips_ok
  · have hmem : data.take 4 ∉ [ExtendedKey.MAINNET_PRIVATE, ExtendedKey.MAINNET_PUBLIC,
        ExtendedKey.TESTNET_PRIVATE, ExtendedKey.TESTNET_PUBLIC] := hversion
    rw [if_pos hmem]
    exact iff_of_false (not_slips_error trivial) fun h => hversion h.1

/-- A text that is no hexadecimal key, and as an extended key of a known version ends
before the chain code. -/
def KeyTextBreaksOff (pubkey : Str) : Prop :=
  (∀ b, unhexlify pubkey ≠ .ok b) ∧ ∃ data, Base58.decode pubkey = .ok data ∧
    (data.take (data.length - 4)).take 4 ∈ ExtendedKey.versions ∧ data.length < 17

theorem slips_new (origin : Option KeyOriginInfo) (pubkey : Str) (derivPath : Option (List (List ℤ)))
    (exprIndex : ℕ) (ranged : Bool) :
    Raising Undocumented (PubkeyProvider.new origin pubkey derivPath exprIndex ranged) ↔ KeyTextBreaksOff pubkey := by
  unfold PubkeyProvider.new KeyTextBreaksOff
  cases hhex : unhexlify pubkey with
  | ok b => exact iff_of_false not_slips_ok fun h => h.1 b rfl
  | error e =>
    simp only [pure_eq_ok]
    have hnot : ∀ b, (Except.error e : Except Exc Bytes) ≠ .ok b := by
      intro b h
      cases h
    rw [raising_bind_left fun _ _ => not_slips_ok]
    unfold ExtendedKey.deserialize
    rw [raising_bind_right (not_slips_decode pubkey), and_iff_right hnot]
    refine exists_congr fun data => and_congr_right fun _ => ?_
    rw [slips_fromBytes, List.length_take]
    refine and_congr_right fun _ => ?_
    omega

theorem slips_parseOrigin (s : Str) : Raising Undocumented (PubkeyProvider.parseOrigin s) ↔ s = [] := by
  unfold PubkeyProvider.parseOrigin
  split
  · refine iff_of_true ⟨.indexError, rfl, ?_⟩ rfl
    exact Bool.false_ne_true
  · refine iff_of_false ?_ (List.cons_ne_nil _ _)
    split
    · exact not_slips_valueError
    · exact not_raising_bind (not_slips_fromString _) fun _ _ => not_slips_ok
  · rename_i h _
    exact iff_of_false not_slips_ok h

theorem not_slips_parseKeyPath (s : Str) : ¬Raising Undocumented (PubkeyProvider.parseKeyPath s) := by
  unfold PubkeyProvider.parseKeyPath
  split
  · exact not_slips_ok
  · dsimp only
    split_ifs
    any_goals exact not_slips_ok
    all_goals exact not_raising_bind (not_slips_parseSteps _ _) fun _ _ => not_slips_ok

/-- A key expression that breaks off: an empty one, or one with the text of such a key. -/
def KeyBreaksOff (s : Str) : Prop :=
  s = [] ∨ ∃ origin rest pubkey path, PubkeyProvider.parseOrigin s = .ok (origin, rest) ∧
    PubkeyProvider.parseKeyPath rest = .ok (pubkey, path) ∧ KeyTextBreaksOff pubkey

theorem slips_parse (s : Str) (i : ℕ) : Raising Undocumented (PubkeyProvider.parse s i) ↔ KeyBreaksOff s := by
  unfold PubkeyProvider.parse KeyBreaksOff
  rw [raising_bind, slips_parseOrigin]
  refine or_congr_right ?_
  constructor
  · rintro ⟨⟨origin, rest⟩, horigin, h⟩
    obtain ⟨⟨pubkey, path⟩, hpath, h⟩ := (raising_bind_right (not_slips_parseKeyPath _)).1 h
    exact ⟨origin, rest, pubkey, path, horigin, hpath, (slips_new _ _ _ _ _).1 h⟩
  · rintro ⟨origin, rest, pubkey, path, horigin, hpath, h⟩
    refine ⟨(origin, rest), horigin, ?_⟩
    exact (raising_bind_right (not_slips_parseKeyPath _)).2 ⟨_, hpath, (slips_new _ _ _ _ _).2 h⟩

/-- The index does not matter to the parser of a key. -/
theorem parse_index {s : Str} {i : ℕ} {p : PubkeyProvider} (h : PubkeyProvider.parse s i = .ok p) (j : ℕ) :
    PubkeyProvider.parse s j = .ok { p with exprIndex := j } := by
  unfold PubkeyProvider.parse at h ⊢
  obtain ⟨⟨origin, rest⟩, horigin, h⟩ := bind_eq_ok.1 h
  obtain ⟨⟨pubkey, derivPath, ranged⟩, hpath, h⟩ := bind_eq_ok.1 h
  dsimp only at hpath h
  rw [horigin, ok_bind]
  dsimp only
  rw [hpath, ok_bind]
  dsimp only
  rw [PubkeyProvider.new_update h]
  have hp := Except.ok.inj (h.symm.trans (PubkeyProvider.new_update h origin derivPath i ranged))
  exact congrArg (fun q : PubkeyProvider => Except.ok { q with exprIndex := j }) hp.symm

/-- The first key of an expression, and what follows the comma. -/
def keyAndRest (expr : Str) : Str × Str := (cut ',' expr).getD (expr, [])

theorem parsePubkey_eq (expr : Str) (i : ℕ) : parsePubkey expr i =
    PubkeyProvider.parse (keyAndRest expr).1 i >>= fun p => .ok (p, (keyAndRest expr).2, i + 1) := rfl

theorem slips_parsePubkey (expr : Str) (i : ℕ) :
    Raising Undocumented (parsePubkey expr i) ↔ KeyBreaksOff (keyAndRest expr).1 := by
  rw [parsePubkey_eq, raising_bind_left fun _ _ => not_slips_ok, slips_parse]

theorem parsePubkey_eq_ok {expr rest : Str} {i j : ℕ} {p : PubkeyProvider} :
    parsePubkey expr i = .ok (p, rest, j) ↔
      ∃ q, PubkeyProvider.parse (keyAndRest expr).1 0 = .ok q ∧ p = { q with exprIndex := i } ∧
        rest = (keyAndRest expr).2 ∧ j = i + 1 := by
  rw [parsePubkey_eq, bind_eq_ok]
  constructor
  · rintro ⟨p', hp, h⟩
    cases h
    refine ⟨_, parse_index hp 0, ?_, rfl, rfl⟩
    have hindex := parse_index (parse_index hp 0) i
    rw [hp] at hindex
    exact Except.ok.inj hindex
  · rintro ⟨q, hq, rfl, rfl, rfl⟩
    exact ⟨_, parse_index hq i, rfl⟩

theorem slips_parseOnlyPubkey (msg : String) (expr : Str) (i : ℕ) :
    Raising Undocumented (parseOnlyPubkey msg expr i) ↔ KeyBreaksOff (keyAndRest expr).1 := by
  unfold parseOnlyPubkey
  rw [raising_bind_left, slips_parsePubkey]
  rintro ⟨p, rest, j⟩ -
  dsimp only
  simp only [throw_eq_error, error_bind]
  split_ifs
  · exact not_slips_valueError
  · exact not_slips_ok

theorem not_slips_checkMultipathLen (len : Option ℕ) (p : PubkeyProvider) :
    ¬Raising Undocumented (checkMultipathLen len p) := by
  unfold checkMultipathLen
  split_ifs
  · split
    · exact not_slips_ok
    · split_ifs
      · exact not_slips_valueError
      · exact not_slips_ok
  · exact not_slips_ok

/-! ### Keys of a multisig -/

/-- The keys of a multisig break off: at one of them, the ones before it being read. -/
inductive KeysBreakOff : Option ℕ → Str → Prop
  | here {len : Option ℕ} {expr : Str} (hne : expr ≠ []) (h : KeyBreaksOff (keyAndRest expr).1) :
      KeysBreakOff len expr
  | later {len len' : Option ℕ} {expr : Str} {p : PubkeyProvider} (hne : expr ≠ [])
      (hp : PubkeyProvider.parse (keyAndRest expr).1 0 = .ok p) (hlen : checkMultipathLen len p = .ok len')
      (h : KeysBreakOff len' (keyAndRest expr).2) : KeysBreakOff len expr

theorem keyAndRest_length {expr : Str} (hne : expr ≠ []) : (keyAndRest expr).2.length < expr.length := by
  unfold keyAndRest
  cases hcut : cut ',' expr with
  | none => exact List.length_pos_of_ne_nil hne
  | some parts =>
    obtain ⟨first, rest⟩ := parts
    obtain ⟨rfl, -⟩ := cut_eq_some.1 hcut
    simp
    omega

theorem slips_parsePubkeys {n : ℕ} {expr : Str} (hn : expr.length ≤ n) (i : ℕ) (len : Option ℕ) :
    Raising Undocumented (parsePubkeys n expr i len) ↔ KeysBreakOff len expr := by
  induction n generalizing expr i len with
  | zero =>
    rw [List.length_eq_zero_iff.1 (Nat.le_zero.1 hn)]
    refine iff_of_false not_slips_ok ?_
    rintro (⟨hne, -⟩ | ⟨hne, -⟩) <;> exact hne rfl
  | succ n ih =>
    by_cases hne : expr = []
    · rw [hne]
      refine iff_of_false not_slips_ok ?_
      rintro (⟨hne, -⟩ | ⟨hne, -⟩) <;> exact hne rfl
    have hshort : (keyAndRest expr).2.length ≤ n := by
      have := keyAndRest_length hne
      omega
    have hpass : parsePubkeys (n + 1) expr i len = parsePubkey expr i >>= fun x =>
        checkMultipathLen len x.1 >>= fun len => parsePubkeys n x.2.1 x.2.2 len >>= fun y =>
          .ok (x.1 :: y.1, y.2) := by
      cases expr with
      | nil => exact absurd rfl hne
      | cons c expr => rfl
    rw [hpass, raising_bind, slips_parsePubkey]
    constructor
    · rintro (h | ⟨⟨p, rest, j⟩, hp, h⟩)
      · exact .here hne h
      · obtain ⟨q, hq, rfl, rfl, rfl⟩ := parsePubkey_eq_ok.1 hp
        obtain ⟨len', hlen, h⟩ := (raising_bind_right (not_slips_checkMultipathLen _ _)).1 h
        rw [raising_bind_left fun _ _ => not_slips_ok, ih hshort] at h
        exact .later hne hq hlen h
    · rintro (⟨-, h⟩ | ⟨-, hq, hlen, h⟩)
      · exact Or.inl h
      · refine Or.inr ⟨_, parsePubkey_eq_ok.2 ⟨_, hq, rfl, rfl, rfl⟩, ?_⟩
        refine (raising_bind_right (not_slips_checkMultipathLen _ _)).2 ⟨_, hlen, ?_⟩
        rw [raising_bind_left fun _ _ => not_slips_ok]
        exact (ih hshort _ _).2 h

/-! ### Trees -/

/-- The leaf of a tree breaks off: it is a `pk` of a key that does. -/
def LeafBreaksOff (sarg : Str) : Prop :=
  ∃ expr, getFuncExpr sarg = .ok ("pk".toList, expr) ∧ KeyBreaksOff (keyAndRest expr).1

/-- A leaf that is read as a `pk` of the key. -/
def LeafReads (sarg : Str) (p : PubkeyProvider) : Prop :=
  ∃ expr, getFuncExpr sarg = .ok ("pk".toList, expr) ∧
    PubkeyProvider.parse (keyAndRest expr).1 0 = .ok p ∧ (keyAndRest expr).2 = []

theorem getExpr_append (level : ℕ) (s : Str) : (getExpr level s).1 ++ (getExpr level s).2 = s := by
  induction s generalizing level with
  | nil => rfl
  | cons c s ih =>
    unfold getExpr
    split_ifs
    · exact congrArg (c :: ·) (ih (level + 1))
    · exact congrArg (c :: ·) (ih (level - 1))
    · rfl
    · exact congrArg (c :: ·) (ih level)

theorem openBranches_braces {rest : Str} (hrest : rest.head? ≠ some '{') (k : ℕ) {branches : List Bool}
    (hbranches : branches.length ≤ MAX_TAPROOT_NODES) :
    openBranches (List.replicate k '{' ++ rest) branches =
      if MAX_TAPROOT_NODES < k + branches.length then
        .error (.valueError "tr() supports at most \x7bMAX_TAPROOT_NODES\x7d nesting levels")
      else if rest = [] then .error .indexError
      else .ok (rest, List.replicate k false ++ branches) := by
  induction k generalizing branches with
  | zero =>
    rw [if_neg (by omega)]
    cases rest with
    | nil => rfl
    | cons c rest =>
      rw [if_neg (List.cons_ne_nil _ _), List.replicate_zero, List.nil_append, openBranches]
      rw [if_pos fun hc => hrest (congrArg some hc)]
      rfl
  | succ k ih =>
    rw [List.replicate_succ, List.cons_append, openBranches, if_neg (not_not.2 rfl)]
    by_cases hdeep : MAX_TAPROOT_NODES < branches.length + 1
    · rw [if_pos hdeep, if_pos (by omega)]
    · rw [if_neg hdeep, ih (by rw [List.length_cons]; omega), List.length_cons, List.replicate_succ',
        List.append_assoc, List.singleton_append, Nat.add_assoc k 1, Nat.add_comm 1]

/-- The braces at the start of an expression, and what follows them. -/
theorem exists_braces (expr : Str) :
    ∃ k rest, expr = List.replicate k '{' ++ rest ∧ rest.head? ≠ some '{' := by
  induction expr with
  | nil => exact ⟨0, [], rfl, by simp⟩
  | cons c expr ih =>
    by_cases hc : c = '{'
    · obtain ⟨k, rest, rfl, hrest⟩ := ih
      exact ⟨k + 1, rest, by rw [hc]; rfl, hrest⟩
    · exact ⟨0, c :: expr, rfl, fun h => hc (Option.some.inj h)⟩

/-- What the parser does after a leaf. -/
def closeLeaf (expr : Str) (branches : List Bool) : Except Exc (Str × List Bool) :=
  closeBranches expr branches >>= fun x => nextBranch x.1 x.2

theorem closeLeaf_nil (expr : Str) : closeLeaf expr [] = .ok (expr, []) := by
  unfold closeLeaf
  rw [closeBranches]
  · rfl
  · intro _ h
    cases h

theorem closeLeaf_left (expr : Str) (branches : List Bool) :
    closeLeaf expr (false :: branches) = getConst expr ',' >>= fun expr => .ok (expr, true :: branches) := by
  unfold closeLeaf
  rw [closeBranches]
  · rfl
  · intro _ h
    cases h

theorem closeLeaf_right (expr : Str) (branches : List Bool) :
    closeLeaf expr (true :: branches) = getConst expr '}' >>= fun expr => closeLeaf expr branches := by
  unfold closeLeaf
  rw [closeBranches, bind_assoc]

theorem slips_getConst (expr : Str) (c : Char) : Raising Undocumented (getConst expr c) ↔ expr = [] := by
  unfold getConst
  cases expr with
  | nil =>
    refine iff_of_true ⟨.indexError, rfl, ?_⟩ rfl
    exact Bool.false_ne_true
  | cons d expr =>
    refine iff_of_false ?_ (List.cons_ne_nil _ _)
    dsimp only
    split_ifs
    · exact not_slips_valueError
    · exact not_slips_ok

theorem getConst_eq_ok {expr rest : Str} {c : Char} : getConst expr c = .ok rest ↔ expr = c :: rest := by
  unfold getConst
  cases expr with
  | nil => simp
  | cons d expr =>
    dsimp only
    rw [ite_error_eq_ok, not_not, Except.ok.injEq, List.cons.injEq]

/-- After a leaf the text breaks off where a brace or a comma is expected. -/
theorem slips_closeLeaf (expr : Str) (branches : List Bool) :
    Raising Undocumented (closeLeaf expr branches) ↔ ∃ j deeper, branches = List.replicate j true ++ deeper ∧
      deeper ≠ [] ∧ expr = List.replicate j '}' := by
  induction branches generalizing expr with
  | nil =>
    rw [closeLeaf_nil]
    refine iff_of_false not_slips_ok ?_
    rintro ⟨j, deeper, h, hdeeper, -⟩
    exact hdeeper (List.append_eq_nil_iff.1 h.symm).2
  | cons b branches ih =>
    cases b with
    | false =>
      rw [closeLeaf_left, raising_bind_left fun _ _ => not_slips_ok, slips_getConst]
      constructor
      · intro h
        exact ⟨0, false :: branches, rfl, List.cons_ne_nil _ _, h⟩
      · rintro ⟨j, deeper, h, -, hexpr⟩
        cases j with
        | zero => exact hexpr
        | succ j => cases h
    | true =>
      rw [closeLeaf_right, raising_bind, slips_getConst]
      constructor
      · rintro (h | ⟨rest, hrest, h⟩)
        · exact ⟨0, true :: branches, rfl, List.cons_ne_nil _ _, h⟩
        · obtain ⟨j, deeper, hbranches, hdeeper, hexpr⟩ := (ih rest).1 h
          refine ⟨j + 1, deeper, congrArg (true :: ·) hbranches, hdeeper, ?_⟩
          rw [getConst_eq_ok.1 hrest, hexpr]
          rfl
      · rintro ⟨j, deeper, hbranches, hdeeper, hexpr⟩
        cases j with
        | zero => exact Or.inl hexpr
        | succ j =>
          refine Or.inr ⟨List.replicate j '}', getConst_eq_ok.2 hexpr, ?_⟩
          exact (ih _).2 ⟨j, deeper, (List.cons.inj hbranches).2, hdeeper, rfl⟩

/-- After a leaf that is not the last one the parser gets to the next branch. -/
theorem closeLeaf_eq_ok {expr rest : Str} {branches branches' : List Bool} (hne : branches' ≠ []) :
    closeLeaf expr branches = .ok (rest, branches') ↔
      ∃ j deeper, branches = List.replicate j true ++ false :: deeper ∧ branches' = true :: deeper ∧
        expr = List.replicate j '}' ++ ',' :: rest := by
  induction branches generalizing expr with
  | nil =>
    rw [closeLeaf_nil]
    refine iff_of_false ?_ ?_
    · intro h
      cases h
      exact hne rfl
    · rintro ⟨j, deeper, h, -⟩
      cases (List.append_eq_nil_iff.1 h.symm).2
  | cons b branches ih =>
    cases b with
    | false =>
      rw [closeLeaf_left, bind_eq_ok]
      simp only [getConst_eq_ok]
      constructor
      · rintro ⟨rest', hexpr, h⟩
        cases h
        exact ⟨0, branches, rfl, rfl, hexpr⟩
      · rintro ⟨j, deeper, h, rfl, hexpr⟩
        cases j with
        | zero =>
          cases h
          exact ⟨rest, hexpr, rfl⟩
        | succ j => cases h
    | true =>
      rw [closeLeaf_right, bind_eq_ok]
      simp only [getConst_eq_ok, ih]
      constructor
      · rintro ⟨rest', hexpr, j, deeper, hbranches, hbranches', hrest⟩
        refine ⟨j + 1, deeper, congrArg (true :: ·) hbranches, hbranches', ?_⟩
        rw [hexpr, hrest]
        rfl
      · rintro ⟨j, deeper, hbranches, hbranches', hexpr⟩
        cases j with
        | zero => cases hbranches
        | succ j => exact ⟨_, hexpr, j, deeper, (List.cons.inj hbranches).2, hbranches', rfl⟩

/-- The text of a tree breaks off: after the braces in front of a leaf, in a leaf, or
after it where a closing brace or a comma is expected. -/
inductive TreeBreaksOff : List Bool → Option ℕ → Str → Prop
  | opening {branches : List Bool} {len : Option ℕ} {k : ℕ} (hk : k + branches.length ≤ MAX_TAPROOT_NODES) :
      TreeBreaksOff branches len (List.replicate k '{')
  | leaf {branches : List Bool} {len : Option ℕ} {k : ℕ} {rest : Str}
      (hk : k + branches.length ≤ MAX_TAPROOT_NODES) (hrest : rest.head? ≠ some '{')
      (hleaf : LeafBreaksOff (getExpr 0 rest).1) : TreeBreaksOff branches len (List.replicate k '{' ++ rest)
  | closing {branches deeper : List Bool} {len len' : Option ℕ} {k j : ℕ} {rest : Str} {p : PubkeyProvider}
      (hk : k + branches.length ≤ MAX_TAPROOT_NODES) (hrest : rest.head? ≠ some '{')
      (hleaf : LeafReads (getExpr 0 rest).1 p) (hlen : checkMultipathLen len p = .ok len')
      (hbranches : List.replicate k false ++ branches = List.replicate j true ++ deeper)
      (hdeeper : deeper ≠ []) (hend : (getExpr 0 rest).2 = List.replicate j '}') :
      TreeBreaksOff branches len (List.replicate k '{' ++ rest)
  | later {branches deeper : List Bool} {len len' : Option ℕ} {k j : ℕ} {rest expr : Str}
      {p : PubkeyProvider} (hk : k + branches.length ≤ MAX_TAPROOT_NODES) (hrest : rest.head? ≠ some '{')
      (hleaf : LeafReads (getExpr 0 rest).1 p) (hlen : checkMultipathLen len p = .ok len')
      (hbranches : List.replicate k false ++ branches = List.replicate j true ++ false :: deeper)
      (hnext : (getExpr 0 rest).2 = List.replicate j '}' ++ ',' :: expr)
      (h : TreeBreaksOff (true :: deeper) len' expr) :
      TreeBreaksOff branches len (List.replicate k '{' ++ rest)

/-- What the text says of a parser of leaves: when it slips, and what it returns. -/
structure ReadsLeaves (parseLeaf : Str → ℕ → Except Exc (Descriptor × ℕ)) : Prop where
  slips : ∀ s i, Raising Undocumented (parseLeaf s i) ↔ LeafBreaksOff s
  eq_ok : ∀ s i d j, parseLeaf s i = .ok (d, j) ↔
    ∃ p, LeafReads s p ∧ d = .pk { p with exprIndex := i } ∧ j = i + 1

theorem leafReads_ne_nil {sarg : Str} {p : PubkeyProvider} (h : LeafReads sarg p) : sarg ≠ [] := by
  rintro rfl
  obtain ⟨expr, h, -⟩ := h
  cases h

section
variable {parseLeaf : Str → ℕ → Except Exc (Descriptor × ℕ)} {n : ℕ}

theorem parseTree_succ (expr : Str) (branches : List Bool) (i : ℕ) (len : Option ℕ) :
    parseTree parseLeaf (n + 1) expr branches i len = openBranches expr branches >>= fun x =>
      parseLeaf (getExpr 0 x.1).1 i >>= fun y =>
      y.1.pubkeys.foldlM checkMultipathLen len >>= fun len =>
      closeLeaf (getExpr 0 x.1).2 x.2 >>= fun z =>
      if z.2 = [] then .ok ([y.1], [x.2.length], y.2)
      else parseTree parseLeaf n z.1 z.2 y.2 len >>= fun w => .ok (y.1 :: w.1, x.2.length :: w.2.1, w.2.2) := by
  unfold closeLeaf
  simp only [bind_assoc]
  rfl

theorem foldlM_pk (len : Option ℕ) (p : PubkeyProvider) (i : ℕ) :
    (Descriptor.pk { p with exprIndex := i }).pubkeys.foldlM checkMultipathLen len = checkMultipathLen len p := by
  unfold Descriptor.pubkeys
  rw [List.foldlM_cons]
  exact bind_pure _

/-- One pass of the loop over the leaves slips at the braces, in the leaf, or after it. -/
theorem slips_parseTree_succ (hparse : ReadsLeaves parseLeaf) {branches : List Bool}
    (hbranches : branches.length ≤ MAX_TAPROOT_NODES) {k : ℕ} {rest : Str} (hrest : rest.head? ≠ some '{')
    (i : ℕ) (len : Option ℕ) :
    Raising Undocumented (parseTree parseLeaf (n + 1) (List.replicate k '{' ++ rest) branches i len) ↔
      k + branches.length ≤ MAX_TAPROOT_NODES ∧ (rest = [] ∨ LeafBreaksOff (getExpr 0 rest).1 ∨
        ∃ p len', LeafReads (getExpr 0 rest).1 p ∧ checkMultipathLen len p = .ok len' ∧
          (Raising Undocumented (closeLeaf (getExpr 0 rest).2 (List.replicate k false ++ branches)) ∨
            ∃ expr branches', branches' ≠ [] ∧
              closeLeaf (getExpr 0 rest).2 (List.replicate k false ++ branches) = .ok (expr, branches') ∧
              Raising Undocumented (parseTree parseLeaf n expr branches' (i + 1) len'))) := by
  rw [parseTree_succ, openBranches_braces hrest k hbranches]
  by_cases hdeep : MAX_TAPROOT_NODES < k + branches.length
  · rw [if_pos hdeep, error_bind]
    exact iff_of_false not_slips_valueError fun h => absurd h.1 (not_le.2 hdeep)
  rw [if_neg hdeep, and_iff_right (not_lt.1 hdeep)]
  by_cases hnil : rest = []
  · rw [if_pos hnil, error_bind]
    refine iff_of_true ⟨.indexError, rfl, ?_⟩ (Or.inl hnil)
    exact Bool.false_ne_true
  rw [if_neg hnil, or_iff_right hnil, ok_bind, raising_bind, hparse.slips]
  refine or_congr_right ?_
  constructor
  · rintro ⟨⟨d, j⟩, hd, h⟩
    obtain ⟨p, hp, rfl, rfl⟩ := (hparse.eq_ok _ _ _ _).1 hd
    dsimp only at h
    rw [foldlM_pk] at h
    obtain ⟨len', hlen, h⟩ := (raising_bind_right (not_slips_checkMultipathLen _ _)).1 h
    refine ⟨p, len', hp, hlen, ?_⟩
    rcases raising_bind.1 h with h | ⟨⟨expr, branches'⟩, hclose, h⟩
    · exact Or.inl h
    · right
      dsimp only at h
      split_ifs at h with hend
      · exact absurd h not_slips_ok
      · rw [raising_bind_left fun _ _ => not_slips_ok] at h
        exact ⟨expr, branches', hend, hclose, h⟩
  · rintro ⟨p, len', hp, hlen, h⟩
    refine ⟨_, (hparse.eq_ok _ i _ _).2 ⟨p, hp, rfl, rfl⟩, ?_⟩
    dsimp only
    rw [foldlM_pk]
    refine (raising_bind_right (not_slips_checkMultipathLen _ _)).2 ⟨len', hlen, ?_⟩
    rw [raising_bind]
    refine h.imp_right ?_
    rintro ⟨expr, branches', hne, hclose, h⟩
    refine ⟨_, hclose, ?_⟩
    dsimp only
    rw [if_neg hne, raising_bind_left fun _ _ => not_slips_ok]
    exact h

/-- The parser of a tree slips just where the text breaks off. The passes do not run
out, as each takes a leaf and a comma. -/
theorem slips_parseTree (hparse : ReadsLeaves parseLeaf) {expr : Str} {branches : List Bool}
    (hn : max 1 expr.length ≤ n) (hbranches : branches.length ≤ MAX_TAPROOT_NODES) (i : ℕ) (len : Option ℕ) :
    Raising Undocumented (parseTree parseLeaf n expr branches i len) ↔ TreeBreaksOff branches len expr := by
  induction n generalizing expr branches i len with
  | zero => omega
  | succ n ih =>
    have hlater {k j : ℕ} {rest expr' : Str} {deeper : List Bool} {p : PubkeyProvider}
        (hlength : (List.replicate k '{' ++ rest).length ≤ n + 1) (hleaf : LeafReads (getExpr 0 rest).1 p)
        (hk : k + branches.length ≤ MAX_TAPROOT_NODES)
        (hjoin : List.replicate k false ++ branches = List.replicate j true ++ false :: deeper)
        (hnext : (getExpr 0 rest).2 = List.replicate j '}' ++ ',' :: expr') :
        max 1 expr'.length ≤ n ∧ (true :: deeper).length ≤ MAX_TAPROOT_NODES := by
      have hsarg := List.length_pos_of_ne_nil (leafReads_ne_nil hleaf)
      have hrest := congrArg List.length (getExpr_append 0 rest)
      have hdepth := congrArg List.length hjoin
      simp only [hnext, List.length_append, List.length_replicate, List.length_cons] at hrest hdepth hlength ⊢
      omega
    constructor
    · intro h
      obtain ⟨k, rest, rfl, hrest⟩ := exists_braces expr
      obtain ⟨hk, rfl | hleaf | ⟨p, len', hp, hlen, h⟩⟩ := (slips_parseTree_succ hparse hbranches hrest i len).1 h
      · rw [List.append_nil]
        exact .opening hk
      · exact .leaf hk hrest hleaf
      · rcases h with h | ⟨expr, branches', hne, hclose, h⟩
        · obtain ⟨j, deeper, hjoin, hdeeper, hend⟩ := (slips_closeLeaf _ _).1 h
          exact .closing hk hrest hp hlen hjoin hdeeper hend
        · obtain ⟨j, deeper, hjoin, rfl, hnext⟩ := (closeLeaf_eq_ok hne).1 hclose
          obtain ⟨hshort, hdepth⟩ := hlater (le_of_max_le_right hn) hp hk hjoin hnext
          exact .later hk hrest hp hlen hjoin hnext ((ih hshort hdepth _ _).1 h)
    · intro h
      cases h with
      | opening hk =>
        have hhead : ([] : Str).head? ≠ some '{' := by simp
        have hslip := (slips_parseTree_succ (n := n) hparse hbranches hhead i len).2 ⟨hk, Or.inl rfl⟩
        rwa [List.append_nil] at hslip
      | leaf hk hrest hleaf =>
        exact (slips_parseTree_succ hparse hbranches hrest i len).2 ⟨hk, Or.inr (Or.inl hleaf)⟩
      | closing hk hrest hleaf hlen hjoin hdeeper hend =>
        refine (slips_parseTree_succ hparse hbranches hrest i len).2 ⟨hk, Or.inr (Or.inr ⟨_, _, hleaf, hlen, ?_⟩)⟩
        exact Or.inl ((slips_closeLeaf _ _).2 ⟨_, _, hjoin, hdeeper, hend⟩)
      | later hk hrest hleaf hlen hjoin hnext h =>
        refine (slips_parseTree_succ hparse hbranches hrest i len).2 ⟨hk, Or.inr (Or.inr ⟨_, _, hleaf, hlen, ?_⟩)⟩
        obtain ⟨hshort, hdepth⟩ := hlater (le_of_max_le_right hn) hleaf hk hjoin hnext
        refine Or.inr ⟨_, _, List.cons_ne_nil _ _,
          (closeLeaf_eq_ok (List.cons_ne_nil _ _)).2 ⟨_, _, hjoin, rfl, hnext⟩, ?_⟩
        exact (ih hshort hdepth _ _).2 h

end

/-! ### Descriptors -/

/-- The text of a descriptor breaks off, to a depth of nested functions: at a key, in the
tree, or inside the function that it is. -/
def BreaksOff : ℕ → ParseDescriptorContext → Str → Prop
  | 0, _, _ => False
  | n + 1, ctx, desc => ∃ func expr, getFuncExpr desc = .ok (func, expr) ∧
    ((func = "pk".toList ∨ func = "pkh".toList ∧ ctx ∈ [.top, .p2sh, .p2wsh] ∨
        func = "wpkh".toList ∧ ctx ∈ [.top, .p2sh] ∨ func = "tr".toList ∧ ctx ∈ [.top]) ∧
        KeyBreaksOff (keyAndRest expr).1 ∨
      (func = "sortedmulti".toList ∨ func = "multi".toList) ∧ ctx ∈ [.top, .p2sh, .p2wsh] ∧
        (∃ thresh keys t, cut ',' expr = some (thresh, keys) ∧ int thresh = .ok t ∧ KeysBreakOff none keys) ∨
      func = "sh".toList ∧ ctx ∈ [.top] ∧ BreaksOff n .p2sh expr ∨
      func = "wsh".toList ∧ ctx ∈ [.top, .p2sh] ∧ BreaksOff n .p2wsh expr ∨
      func = "tr".toList ∧ ctx ∈ [.top] ∧ ∃ p len, PubkeyProvider.parse (keyAndRest expr).1 0 = .ok p ∧
        checkMultipathLen none p = .ok len ∧ (keyAndRest expr).2 ≠ [] ∧
        TreeBreaksOff [] len (keyAndRest expr).2)

/-- How deep functions are nested below a context. -/
def levels : ParseDescriptorContext → ℕ
  | .top => 3
  | .p2sh => 2
  | .p2wsh | .p2tr => 1

theorem not_slips_getFuncExpr (s : Str) : ¬Raising Undocumented (getFuncExpr s) := by
  unfold getFuncExpr
  split
  · exact not_slips_valueError
  · split
    · exact not_slips_ok
    · split_ifs
      · exact not_slips_ok
      · exact not_slips_valueError

theorem slips_checkContext_bind {allowed : List ParseDescriptorContext} {msg : String}
    {ctx : ParseDescriptorContext} {f : Unit → Except Exc α} :
    Raising Undocumented (checkContext allowed msg ctx >>= f) ↔ ctx ∈ allowed ∧ Raising Undocumented (f ()) := by
  unfold checkContext
  split_ifs with h
  · rw [ok_bind, and_iff_right h]
  · exact iff_of_false not_slips_valueError fun h' => h h'.1

theorem not_slips_checkMultisig (ctx : ParseDescriptorContext) (thresh : ℤ) (keys : ℕ) :
    ¬Raising Undocumented (checkMultisig ctx thresh keys) := by
  unfold checkMultisig
  split_ifs
  any_goals exact not_slips_valueError
  exact not_slips_ok

theorem slips_multisig (ctx : ParseDescriptorContext) (expr : Str) (i : ℕ) (isSorted : Bool) :
    Raising Undocumented (cutComma expr >>= fun x => int x.1 >>= fun thresh =>
      parsePubkeys x.2.length x.2 i none >>= fun y => checkMultisig ctx thresh y.1.length >>= fun _ =>
      .ok (Descriptor.multisig { pubkeys := y.1, thresh, isSorted }, y.2)) ↔
    ∃ thresh keys t, cut ',' expr = some (thresh, keys) ∧ int thresh = .ok t ∧ KeysBreakOff none keys := by
  unfold cutComma
  cases hcut : cut ',' expr with
  | none =>
    refine iff_of_false not_slips_valueError ?_
    rintro ⟨thresh, keys, t, h, -⟩
    cases h
  | some parts =>
    obtain ⟨thresh, keys⟩ := parts
    dsimp only
    rw [ok_bind, raising_bind_right (not_slips_int _)]
    have hkeys (t : ℤ) : Raising Undocumented (parsePubkeys keys.length keys i none >>= fun y =>
        checkMultisig ctx t y.1.length >>= fun _ =>
        Except.ok (Descriptor.multisig { pubkeys := y.1, thresh := t, isSorted }, y.2)) ↔ KeysBreakOff none keys := by
      rw [raising_bind_left, slips_parsePubkeys le_rfl]
      exact fun _ _ => not_raising_bind (not_slips_checkMultisig _ _ _) fun _ _ => not_slips_ok
    constructor
    · rintro ⟨t, ht, h⟩
      exact ⟨thresh, keys, t, rfl, ht, (hkeys t).1 h⟩
    · rintro ⟨thresh', keys', t, h, ht, hbreak⟩
      cases h
      exact ⟨t, ht, (hkeys t).2 hbreak⟩

theorem parseOnlyPubkey_eq_ok {msg : String} {expr : Str} {i j : ℕ} {p : PubkeyProvider} :
    parseOnlyPubkey msg expr i = .ok (p, j) ↔
      ∃ q, PubkeyProvider.parse (keyAndRest expr).1 0 = .ok q ∧ (keyAndRest expr).2 = [] ∧
        p = { q with exprIndex := i } ∧ j = i + 1 := by
  unfold parseOnlyPubkey
  rw [bind_eq_ok]
  constructor
  · rintro ⟨⟨p', rest, j'⟩, hp, h⟩
    obtain ⟨q, hq, rfl, rfl, rfl⟩ := parsePubkey_eq_ok.1 hp
    simp only [throw_eq_error, error_bind, ite_error_eq_ok, not_not] at h
    obtain ⟨hrest, h⟩ := h
    cases h
    exact ⟨q, hq, hrest, rfl, rfl⟩
  · rintro ⟨q, hq, hrest, rfl, rfl⟩
    refine ⟨_, parsePubkey_eq_ok.2 ⟨q, hq, rfl, rfl, rfl⟩, ?_⟩
    simp only [throw_eq_error, error_bind, ite_error_eq_ok, not_not]
    exact ⟨hrest, rfl⟩

/-- In a tree the only function is `pk`. -/
theorem parseDescriptorIn_leaf (n : ℕ) (s : Str) (i : ℕ) (d : Descriptor) (j : ℕ) :
    parseDescriptorIn (n + 1) s .p2tr i = .ok (d, j) ↔
      ∃ p, LeafReads s p ∧ d = .pk { p with exprIndex := i } ∧ j = i + 1 := by
  constructor
  · intro h
    obtain ⟨func, expr, hfunc, h⟩ : ∃ func expr, getFuncExpr s = .ok (func, expr) ∧ func = "pk".toList ∧
        ∃ p, parseOnlyPubkey "more than one pubkey in pk descriptor" expr i = .ok (p, j) ∧ d = .pk p := by
      unfold parseDescriptorIn at h
      obtain ⟨⟨func, expr⟩, hfunc, h⟩ := bind_eq_ok.1 h
      refine ⟨func, expr, hfunc, ?_⟩
      dsimp only at h
      split_ifs at h with hpk
      · obtain ⟨⟨p, k⟩, hp, h⟩ := bind_eq_ok.1 h
        cases h
        exact ⟨hpk, p, hp, rfl⟩
      all_goals cases h
    obtain ⟨rfl, p, hp, rfl⟩ := h
    obtain ⟨q, hq, hrest, rfl, rfl⟩ := parseOnlyPubkey_eq_ok.1 hp
    exact ⟨q, ⟨expr, hfunc, hq, hrest⟩, rfl, rfl⟩
  · rintro ⟨p, ⟨expr, hfunc, hp, hrest⟩, rfl, rfl⟩
    unfold parseDescriptorIn
    rw [hfunc, ok_bind]
    dsimp only
    rw [if_pos rfl, parseOnlyPubkey_eq_ok.2 ⟨p, hp, hrest, rfl, rfl⟩]
    rfl

theorem breaksOff_leaf (n : ℕ) (s : Str) : BreaksOff (n + 1) .p2tr s ↔ LeafBreaksOff s := by
  unfold BreaksOff LeafBreaksOff
  simp only [List.mem_cons, reduceCtorEq, List.not_mem_nil, or_false, and_false, false_and]
  constructor
  · rintro ⟨func, expr, hfunc, rfl, h⟩
    exact ⟨expr, hfunc, h⟩
  · rintro ⟨expr, hfunc, h⟩
    exact ⟨_, expr, hfunc, rfl, h⟩

theorem slips_parseTr {n : ℕ} (hleaf : ReadsLeaves fun sarg i => parseDescriptorIn n sarg .p2tr i) (expr : Str)
    (i : ℕ) : Raising Undocumented (do
        let (internalKey, expr, i) ← parsePubkey expr i
        let len ← checkMultipathLen none internalKey
        if expr = [] then return (Descriptor.tr internalKey [] [], i)
        else do
          let (subscripts, depths, i) ←
            parseTree (fun sarg i => parseDescriptorIn n sarg .p2tr i) expr.length expr [] i len
          return (Descriptor.tr internalKey subscripts depths, i)) ↔
      KeyBreaksOff (keyAndRest expr).1 ∨ ∃ p len, PubkeyProvider.parse (keyAndRest expr).1 0 = .ok p ∧
        checkMultipathLen none p = .ok len ∧ (keyAndRest expr).2 ≠ [] ∧
        TreeBreaksOff [] len (keyAndRest expr).2 := by
  have htree (hne : (keyAndRest expr).2 ≠ []) (len : Option ℕ) : Raising Undocumented
      (parseTree (fun sarg i => parseDescriptorIn n sarg .p2tr i) (keyAndRest expr).2.length (keyAndRest expr).2
        [] (i + 1) len) ↔ TreeBreaksOff [] len (keyAndRest expr).2 := by
    have hlen := List.length_pos_of_ne_nil hne
    exact slips_parseTree hleaf (max_le hlen le_rfl) (Nat.zero_le _) _ _
  rw [raising_bind, slips_parsePubkey]
  refine or_congr_right ?_
  constructor
  · rintro ⟨⟨p, rest, j⟩, hp, h⟩
    obtain ⟨q, hq, rfl, rfl, rfl⟩ := parsePubkey_eq_ok.1 hp
    obtain ⟨len, hlen, h⟩ := (raising_bind_right (not_slips_checkMultipathLen _ _)).1 h
    dsimp only at h
    split_ifs at h with hne
    · exact absurd h not_slips_ok
    · rw [raising_bind_pure, htree hne] at h
      exact ⟨q, len, hq, hlen, hne, h⟩
  · rintro ⟨q, len, hq, hlen, hne, h⟩
    refine ⟨_, parsePubkey_eq_ok.2 ⟨q, hq, rfl, rfl, rfl⟩, ?_⟩
    refine (raising_bind_right (not_slips_checkMultipathLen _ _)).2 ⟨len, hlen, ?_⟩
    dsimp only
    rw [if_neg hne, raising_bind_pure, htree hne]
    exact h

theorem slips_parseDescriptorIn {n : ℕ} {ctx : ParseDescriptorContext} (hn : levels ctx ≤ n) (desc : Str)
    (i : ℕ) : Raising Undocumented (parseDescriptorIn n desc ctx i) ↔ BreaksOff n ctx desc := by
  induction n generalizing ctx desc i with
  | zero => cases ctx <;> exact absurd hn (by decide)
  | succ n ih =>
    unfold parseDescriptorIn BreaksOff
    rw [raising_bind_right (not_slips_getFuncExpr _), Prod.exists]
    refine exists_congr fun func => exists_congr fun expr => and_congr_right fun _ => ?_
    dsimp only
    split_ifs with hpk hpkh hmulti hwpkh hsh hwsh htr hp2sh hp2wsh
    · rw [raising_bind_pure, slips_parseOnlyPubkey, hpk]
      simp
    · rw [slips_checkContext_bind, raising_bind_pure, slips_parseOnlyPubkey, hpkh]
      simp
    · have hbody := slips_multisig ctx expr i (func = "sortedmulti".toList)
      rw [slips_checkContext_bind]
      refine (and_congr_right fun _ => hbody).trans ?_
      rcases hmulti with rfl | rfl <;> simp
    · rw [slips_checkContext_bind, raising_bind_pure, slips_parseOnlyPubkey, hwpkh]
      simp
    · have hinner (hctx : ctx ∈ [.top]) :
          Raising Undocumented (parseDescriptorIn n expr .p2sh i) ↔ BreaksOff n .p2sh expr := by
        rw [List.mem_singleton.1 hctx] at hn
        have hlevels : levels .p2sh ≤ n := Nat.le_of_succ_le_succ hn
        exact ih hlevels _ _
      rw [slips_checkContext_bind, raising_bind_pure, and_congr_right hinner, hsh]
      simp
    · have hinner (hctx : ctx ∈ [.top, .p2sh]) :
          Raising Undocumented (parseDescriptorIn n expr .p2wsh i) ↔ BreaksOff n .p2wsh expr := by
        have hlevels : levels .p2wsh ≤ n := by
          simp only [List.mem_cons, List.not_mem_nil, or_false] at hctx
          rcases hctx with rfl | rfl
          · exact (Nat.le_succ 1).trans (Nat.le_of_succ_le_succ hn)
          · exact Nat.le_of_succ_le_succ hn
        exact ih hlevels _ _
      rw [slips_checkContext_bind, raising_bind_pure, and_congr_right hinner, hwsh]
      simp
    · have hleaf (hctx : ctx ∈ [.top]) : ReadsLeaves fun sarg i => parseDescriptorIn n sarg .p2tr i := by
        rw [List.mem_singleton.1 hctx] at hn
        have hdepth : 3 ≤ n + 1 := hn
        obtain ⟨m, rfl⟩ : ∃ m, n = m + 1 := ⟨n - 1, by omega⟩
        have hlevels : levels .p2tr ≤ m + 1 := Nat.le_add_left 1 m
        refine ⟨fun sarg i => ?_, parseDescriptorIn_leaf m⟩
        exact (ih hlevels sarg i).trans (breaksOff_leaf m sarg)
      rw [slips_checkContext_bind]
      refine (and_congr_right fun hctx => slips_parseTr (hleaf hctx) expr i).trans ?_
      rw [and_or_left, htr]
      simp
    all_goals
      refine iff_of_false not_slips_valueError ?_
      rw [not_or] at hmulti
      simp only [hpk, hpkh, hmulti.1, hmulti.2, hwpkh, hsh, hwsh, htr, false_and, or_self,
        not_false_eq_true]

theorem not_slips_stripChecksum (s : Str) : ¬Raising Undocumented (stripChecksum s) := by
  unfold stripChecksum
  split
  · exact not_slips_ok
  · dsimp only
    split_ifs
    · exact not_slips_valueError
    · exact not_slips_ok

/-- A string is parsed, or refused with a documented exception, just when its descriptor
does not break off. -/
theorem parseDescriptor_documented_iff (s : Str) :
    ((∃ d, parseDescriptor s = .ok d) ∨ ∃ e, parseDescriptor s = .error e ∧ Documented e) ↔
      ¬∃ desc, stripChecksum s = .ok desc ∧ BreaksOff 3 .top desc := by
  have hslips : Raising Undocumented (parseDescriptor s) ↔
      ∃ desc, stripChecksum s = .ok desc ∧ BreaksOff 3 .top desc := by
    unfold parseDescriptor
    rw [raising_bind_right (not_slips_stripChecksum s)]
    refine exists_congr fun desc => and_congr_right fun _ => ?_
    have hlevels : levels .top ≤ 3 := le_rfl
    exact raising_bind_pure.trans (slips_parseDescriptorIn hlevels desc 0)
  rw [← hslips]
  cases h : parseDescriptor s with
  | ok d => exact iff_of_true (Or.inl ⟨d, rfl⟩) not_slips_ok
  | error e =>
    rw [raising_error]
    constructor
    · rintro (⟨d, hd⟩ | ⟨e', he, hdoc⟩)
      · cases hd
      · cases he
        exact not_not.2 hdoc
    · intro hdoc
      exact Or.inr ⟨e, rfl, not_not.1 hdoc⟩

/-- An empty key raises `IndexError`, which is not documented. -/
theorem parseDescriptor_emptyKey :
    ¬ ∀ s, (∃ d, parseDescriptor s = .ok d) ∨ ∃ e, parseDescriptor s = .error e ∧ Documented e := by
  intro h
  have hindex : parseDescriptor ['p', 'k', '(', ')'] = .error .indexError := by rfl
  rcases h ['p', 'k', '(', ')'] with ⟨d, hd⟩ | ⟨e, he, hdoc⟩
  · rw [hindex] at hd
    cases hd
  · rw [hindex] at he
    cases he
    exact Bool.false_ne_true hdoc

end Hwi
