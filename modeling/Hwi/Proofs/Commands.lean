import Hwi.Proofs.PathIndex
import Hwi.Spec.Commands
import Mathlib.Data.List.DropRight

/-! The key expression that `getdescriptor` makes of a path, and the paths it refuses. -/

namespace Hwi

/-! ### Elements of a path string -/

/-- A character that no element of a path string has. -/
def Foreign (c : Char) : Prop :=
  isIntSpace c = false ∧ c ∉ ['-', '+', '_', 'h', '\''] ∧ decimal c = none

instance (c : Char) : Decidable (Foreign c) := inferInstanceAs (Decidable (_ ∧ _ ∧ _))

theorem isSome_of_mapM {α β : Type} {f : α → Option β} {l : List α} {r : List β} (h : l.mapM f = some r)
    {a : α} (ha : a ∈ l) : (f a).isSome = true := by
  induction l generalizing r with
  | nil => cases ha
  | cons b l ih =>
    rw [List.mapM_cons] at h
    obtain ⟨x, hx, h⟩ := Option.bind_eq_some_iff.1 h
    obtain ⟨xs, hxs, -⟩ := Option.bind_eq_some_iff.1 h
    rcases List.mem_cons.1 ha with rfl | ha
    · rw [hx]
      rfl
    · exact ih hxs ha

theorem not_mem_intDigits {s : Str} {ds : List ℕ} (h : intDigits s = some ds) {c : Char}
    (hc : Foreign c) : c ∉ s := by
  intro hmem
  unfold intDigits at h
  dsimp only at h
  split_ifs at h
  have hjoin : List.intercalate ['_'] (s.splitOn '_') = s := List.intercalate_splitOn '_'
  rw [← hjoin] at hmem
  rcases mem_intercalate hmem with hsep | hgroup
  · rw [List.mem_singleton.1 hsep] at hc
    exact absurd hc.2.1 (by decide)
  · have hsome := isSome_of_mapM h (List.mem_flatten.2 hgroup)
    rw [hc.2.2] at hsome
    cases hsome

theorem mem_dropWhile {α : Type} {q : α → Bool} {l : List α} {a : α} (ha : a ∈ l) (hq : q a = false) :
    a ∈ l.dropWhile q := by
  rw [← List.takeWhile_append_dropWhile (p := q) (l := l)] at ha
  rcases List.mem_append.1 ha with htake | hdrop
  · rw [List.mem_takeWhile_imp htake] at hq
    cases hq
  · exact hdrop

theorem mem_intSign {s : Str} {c : Char} (h : c ∈ s) (hc : Foreign c) : c ∈ (intSign s).2 := by
  have hsign : c ≠ '-' ∧ c ≠ '+' := by
    constructor <;> rintro rfl <;> exact absurd hc.2.1 (by decide)
  unfold intSign
  split
  · exact (List.mem_cons.1 h).resolve_left hsign.1
  · exact (List.mem_cons.1 h).resolve_left hsign.2
  · exact h

theorem not_mem_int {s : Str} {i : ℤ} (h : int s = .ok i) {c : Char} (hc : Foreign c) : c ∉ s := by
  intro hmem
  unfold int at h
  set stripped := ((s.dropWhile isIntSpace).reverse.dropWhile isIntSpace).reverse with hstripped
  have hin : c ∈ stripped := by
    rw [hstripped, List.mem_reverse]
    exact mem_dropWhile (List.mem_reverse.2 (mem_dropWhile hmem hc.1)) hc.1
  dsimp only at h
  split at h
  · cases h
  · rename_i ds hds
    exact not_mem_intDigits hds hc (mem_intSign hin hc)

theorem not_mem_element {x : Str} {i : ℤ} (h : strToHarden x = .ok i) {c : Char} (hc : Foreign c) :
    c ∉ x := by
  unfold strToHarden at h
  split_ifs at h with hminus hend
  · obtain ⟨n, hn, -⟩ := bind_eq_ok.1 h
    exact not_mem_int hn hc
  · obtain ⟨n, hn, -⟩ := bind_eq_ok.1 h
    intro hmem
    obtain ⟨last, hlast, hx⟩ : ∃ last, last ∈ ['h', '\''] ∧ x = x.dropLast ++ [last] := by
      rcases hend with hend | hend
      · exact ⟨'h', by decide, (List.dropLast_append_getLast? _ hend).symm⟩
      · exact ⟨'\'', by decide, (List.dropLast_append_getLast? _ hend).symm⟩
    rw [hx] at hmem
    rcases List.mem_append.1 hmem with hinit | hmem
    · exact not_mem_int hn hc hinit
    · rw [List.mem_singleton.1 hmem] at hc
      exact hc.2.1 (by revert hlast; simp; tauto)
  · exact not_mem_int h hc

/-! ### Path strings -/

/-- A path string with a leading `m`. -/
def pathText (elements : List Str) : Str := 'm' :: elements.flatMap fun x => '/' :: x

theorem pathText_eq (elements : List Str) : pathText elements = List.intercalate ['/'] (['m'] :: elements) := by
  unfold pathText
  induction elements with
  | nil => rfl
  | cons x elements ih =>
    rw [List.intercalate_cons_cons]
    cases elements with
    | nil => simp
    | cons y ys =>
      rw [List.intercalate_cons_cons] at ih
      rw [List.intercalate_cons_cons]
      simp at ih ⊢
      exact ih

theorem parseIndices_elements {elements : List Str} {steps : List ℤ}
    (h : List.Forall₂ (fun x i => strToHarden x = .ok i) elements steps) (seen : Bool) :
    parseIndices false elements seen = .ok (steps.map fun i => [i]) := by
  induction h with
  | nil => rfl
  | @cons x i elements steps hx _ ih =>
    have hplain : x.head? ≠ some '<' := by
      intro hhead
      exact not_mem_element hx (c := '<') (by decide) (List.mem_of_head? hhead)
    unfold parseIndices parseIndex
    rw [if_neg hplain, hx, ok_bind]
    dsimp only
    rw [pure_eq_ok, ok_bind]
    dsimp only
    rw [ih]
    rfl

theorem parsePath_pathText {elements : List Str} {steps : List ℤ}
    (h : List.Forall₂ (fun x i => strToHarden x = .ok i) elements steps) :
    parsePath (pathText elements) = .ok steps := by
  have hfree : ∀ x ∈ elements, '/' ∉ x := by
    intro x hx
    obtain ⟨i, -, hi⟩ := exists_of_forall₂_right h.flip hx
    exact not_mem_element hi (by decide)
  apply parsePath_of_steps
  unfold parseSteps
  rw [if_neg (by unfold pathText; exact List.cons_ne_nil _ _), pathText_eq, List.splitOn_intercalate]
  · exact parseIndices_elements h false
  · intro x hx
    rcases List.mem_cons.1 hx with rfl | hx
    · decide
    · exact hfree x hx
  · exact List.cons_ne_nil _ _

theorem element_of_parseIndex {x : Str} {seen seen' : Bool} {idx : List ℤ}
    (h : parseIndex false x seen = .ok (idx, seen')) : ∃ i, idx = [i] ∧ strToHarden x = .ok i := by
  unfold parseIndex at h
  by_cases hx : x.head? = some '<'
  · rw [if_pos hx] at h
    simp only [throw_eq_error, error_bind, ite_error_eq_ok] at h
    exact absurd rfl h.2.1
  · rw [if_neg hx] at h
    obtain ⟨i, hi, h⟩ := bind_eq_ok.1 h
    cases h
    exact ⟨i, rfl, hi⟩

theorem elements_of_parseIndices {elements : List Str} {seen : Bool} {steps : List ℤ}
    (h : parseIndices false elements seen = .ok (steps.map fun i => [i])) :
    List.Forall₂ (fun x i => strToHarden x = .ok i) elements steps := by
  induction elements generalizing seen steps with
  | nil =>
    cases steps with
    | nil => exact .nil
    | cons i steps => cases h
  | cons x elements ih =>
    unfold parseIndices at h
    obtain ⟨⟨idx, seen'⟩, hidx, h⟩ := bind_eq_ok.1 h
    obtain ⟨path, hpath, h⟩ := bind_eq_ok.1 h
    obtain ⟨i, rfl, hi⟩ := element_of_parseIndex hidx
    cases steps with
    | nil => cases h
    | cons j steps =>
      obtain ⟨hj, hrest⟩ := List.cons.inj (Except.ok.inj h)
      obtain rfl := List.singleton_inj.1 hj
      rw [hrest] at hpath
      exact .cons hi (ih hpath)

/-- What a text that starts with `m` is when it parses. -/
theorem eq_pathText_of_parsePath {s : Str} {steps : List ℤ} (hm : s.head? = some 'm')
    (h : parsePath s = .ok steps) :
    ∃ elements, s = pathText elements ∧ List.Forall₂ (fun x i => strToHarden x = .ok i) elements steps := by
  have hsteps := steps_of_parsePath h
  have hne : s ≠ [] := by
    rintro rfl
    cases hm
  have hjoin : List.intercalate ['/'] (s.splitOn '/') = s := List.intercalate_splitOn '/'
  unfold parseSteps at hsteps
  rw [if_neg hne] at hsteps
  obtain ⟨x, elements, hsplit⟩ := List.exists_cons_of_ne_nil (List.splitOn_ne_nil '/' s)
  rw [hsplit] at hsteps hjoin
  dsimp only at hsteps
  by_cases hx : x = ['m']
  · rw [if_pos (show (x :: elements).head? = some ['m'] from congrArg some hx)] at hsteps
    rw [hx] at hjoin
    exact ⟨elements, by rw [pathText_eq, hjoin], elements_of_parseIndices hsteps⟩
  · rw [if_neg (show ¬ (x :: elements).head? = some ['m'] from fun heq => hx (Option.some.inj heq))]
      at hsteps
    -- the first element has the `m` that no number has
    have hmem : 'm' ∈ x := by
      cases x with
      | nil =>
        cases elements with
        | nil => rw [← hjoin] at hm; cases hm
        | cons y ys =>
          rw [List.intercalate_cons_cons] at hjoin
          rw [← hjoin] at hm
          cases hm
      | cons c x =>
        have hc : s.head? = some c := by
          rw [← hjoin]
          cases elements <;> simp
        rw [hm] at hc
        rw [Option.some.inj hc]
        exact List.mem_cons_self
    cases elements_of_parseIndices hsteps with
    | cons hi _ => exact absurd hmem (not_mem_element hi (by decide))

/-! ### The origin of a path -/

/-- A path cut after its last hardened step. -/
structure Splits (path origin rest : List ℤ) : Prop where
  eq : path = origin ++ rest
  hardened : ∀ i, origin.getLast? = some i → isHardened i = true
  plain : ∀ i ∈ rest, isHardened i = false

/-- Where a hardened step is found the loop ends at the last one. -/
theorem loopIndex_hardened {path : List ℤ} (h : ∃ i ∈ path, isHardened i = true) (last : Option ℕ) :
    ∃ n, loopIndex path.reverse (path.length - 1) last = some n ∧ n < path.length ∧
      Splits path (path.take (n + 1)) (path.drop (n + 1)) := by
  induction path using List.reverseRecOn generalizing last with
  | nil =>
    obtain ⟨i, hi, -⟩ := h
    cases hi
  | append_singleton path i ih =>
    rw [List.reverse_append, List.reverse_singleton, List.singleton_append, loopIndex, List.length_append,
      List.length_singleton, Nat.add_sub_cancel]
    by_cases hi : isHardened i = true
    · rw [if_pos hi]
      refine ⟨path.length, rfl, Nat.lt_succ_self _, ?_, ?_, ?_⟩
      · rw [List.take_append_drop]
      · intro j hj
        rw [List.take_of_length_le (by simp), List.getLast?_concat] at hj
        rwa [← Option.some.inj hj]
      · rw [List.drop_eq_nil_of_le (by simp)]
        simp
    · rw [if_neg hi]
      have hrest : ∃ j ∈ path, isHardened j = true := by
        obtain ⟨j, hj, hhard⟩ := h
        rcases List.mem_append.1 hj with hj | hj
        · exact ⟨j, hj, hhard⟩
        · rw [List.mem_singleton.1 hj] at hhard
          exact absurd hhard hi
      obtain ⟨n, hn, hlt, -, hlast, hplain⟩ := ih hrest (some path.length)
      refine ⟨n, hn, Nat.lt_succ_of_lt hlt, ?_, ?_, ?_⟩
      · rw [List.take_append_drop]
      · rwa [List.take_append_of_le_length hlt]
      · rw [List.drop_append_of_le_length hlt]
        intro j hj
        rcases List.mem_append.1 hj with hj | hj
        · exact hplain j hj
        · rw [List.mem_singleton.1 hj]
          exact Bool.eq_false_of_not_eq_true hi

/-- Where no hardened step is found the variable ends at the first step. -/
theorem loopIndex_plain {path : List ℤ} (h : ∀ i ∈ path, isHardened i = false) (hne : path ≠ [])
    (last : Option ℕ) : loopIndex path.reverse (path.length - 1) last = some 0 := by
  induction path using List.reverseRecOn generalizing last with
  | nil => exact absurd rfl hne
  | append_singleton path i ih =>
    have hi := h i (List.mem_append_right _ List.mem_cons_self)
    rw [List.reverse_append, List.reverse_singleton, List.singleton_append, loopIndex, List.length_append,
      List.length_singleton, Nat.add_sub_cancel, if_neg (by rw [hi]; exact Bool.false_ne_true)]
    cases path with
    | nil => rfl
    | cons j path => exact ih (fun k hk => h k (List.mem_append_left _ hk)) (List.cons_ne_nil _ _) _

/-! ### The key expression -/

namespace HardwareWalletClient

/-- Every text the device gave, or gives, is that of a key. -/
structure Answering (client : HardwareWalletClient) : Prop where
  answered : ∀ path xpub, (path, xpub) ∈ client.answers → ∃ k, ExtendedKey.deserialize xpub = .ok k
  answers : ∀ path, ∃ xpub, client.device client.answers path = .ok xpub ∧
    ∃ k, ExtendedKey.deserialize xpub = .ok k

end HardwareWalletClient

/-- The key at a path is the one in the cache or the one the device gives for it. -/
theorem run_cachedXpub {client : HardwareWalletClient} (h : client.Answering) (pathBase : Str) :
    ∃ xpub client', (cachedXpub pathBase).run client = .ok xpub client' ∧
      (pathBase, xpub) ∈ client'.answers ∧ client'.canSignTaproot = client.canSignTaproot ∧
      ∃ k, ExtendedKey.deserialize xpub = .ok k := by
  unfold cachedXpub
  rw [EStateM.run_bind, EStateM.run_get]
  dsimp only
  cases hcached : client.xpubCache.get? pathBase with
  | some xpub =>
    have hmem := client.cached pathBase xpub hcached
    exact ⟨xpub, client, rfl, hmem, rfl, h.answered pathBase xpub hmem⟩
  | none =>
    obtain ⟨xpub, hxpub, hkey⟩ := h.answers pathBase
    dsimp only
    rw [hxpub, EStateM.run_bind, Procedure.run_ofExcept_ok]
    exact ⟨xpub, client.remember pathBase xpub, rfl, List.mem_append_right _ List.mem_cons_self, rfl, hkey⟩

theorem new_of_deserialize {xpub : Str} (h : ∃ k, ExtendedKey.deserialize xpub = .ok k)
    (origin : Option KeyOriginInfo) (derivPath : Option (List (List ℤ))) :
    ∃ p : PubkeyProvider, PubkeyProvider.new origin xpub derivPath 0 true = .ok p ∧ p.origin = origin ∧
      p.pubkey = xpub ∧ p.derivPath = derivPath ∧ p.ranged = true := by
  obtain ⟨k, hk⟩ := h
  unfold PubkeyProvider.new
  cases unhexlify xpub with
  | ok b => exact ⟨_, rfl, rfl, rfl, rfl, rfl⟩
  | error e =>
    dsimp only
    rw [hk]
    exact ⟨_, rfl, rfl, rfl, rfl, rfl⟩

/-- The descriptor that an address type makes of a key. -/
def keyDescriptor (p : PubkeyProvider) : AddressType → Descriptor
  | .legacy => .pkh p
  | .shWit => .sh (.wpkh p)
  | .wit => .wpkh p
  | .tap => .tr p [] []

theorem run_descriptorOf {addrType : AddressType} {client : HardwareWalletClient}
    (h : addrType = .tap → client.canSignTaproot = true) (p : PubkeyProvider) :
    (descriptorOf addrType p).run client = .ok (keyDescriptor p addrType) client := by
  cases addrType with
  | tap =>
    unfold descriptorOf
    rw [EStateM.run_bind, EStateM.run_get]
    dsimp only
    rw [h rfl]
    rfl
  | legacy | shWit | wit => rfl

/-- The key expression of a path cut into the base, where the device has the key, and
the rest. -/
structure Expresses (p : PubkeyProvider) (masterFpr : Bytes) (base rest : List ℤ)
    (answers : List (Str × Str)) : Prop where
  origin : p.origin = some { fingerprint := masterFpr, path := base }
  derivPath : p.derivPath = some (rest.map fun i => [i])
  ranged : p.ranged = true
  requested : (KeyOriginInfo.getDerivationPath { fingerprint := masterFpr, path := base }, p.pubkey) ∈ answers

section
variable (masterFpr : Bytes) (internal : Bool) (account : ℤ)
variable {addrType : AddressType} {client : HardwareWalletClient} {path : Option Str}

/-- Where the path has a step, the descriptor is that of the cut the loop finds. -/
theorem run_getdescriptor {steps : List ℤ} {n : ℕ} (hclient : client.Answering)
    (htap : addrType = .tap → client.canSignTaproot = true)
    (hsteps : targetPath client.chain path internal addrType account = .ok steps)
    (hn : loopIndex steps.reverse (steps.length - 1) none = some n) :
    ∃ p client', (getdescriptor masterFpr path internal addrType account).run client =
        .ok (keyDescriptor p addrType) client' ∧
      Expresses p masterFpr (steps.take (n + 1)) (steps.drop (n + 1)) client'.answers := by
  have hlen : originLength steps = .ok (n + 1) := by
    unfold originLength
    rw [hn]
  set origin : KeyOriginInfo := { fingerprint := masterFpr, path := steps.take (n + 1) } with horigin
  obtain ⟨xpub, client', hxpub, hrequested, hcan, hkey⟩ := run_cachedXpub hclient origin.getDerivationPath
  obtain ⟨p, hnew, hporigin, hpubkey, hderiv, hranged⟩ :=
    new_of_deserialize hkey (some origin) (some ((steps.drop (n + 1)).map fun i => [i]))
  refine ⟨p, client', ?_, hporigin, hderiv, hranged, ?_⟩
  · unfold getdescriptor
    rw [EStateM.run_bind, EStateM.run_get]
    dsimp only
    rw [hsteps, EStateM.run_bind, Procedure.run_ofExcept_ok]
    dsimp only
    rw [hlen, EStateM.run_bind, Procedure.run_ofExcept_ok]
    dsimp only
    rw [EStateM.run_bind, ← horigin, hxpub]
    dsimp only
    rw [hnew, EStateM.run_bind, Procedure.run_ofExcept_ok]
    exact run_descriptorOf (fun htype => hcan.trans (htap htype)) p
  · rw [hpubkey]
    exact hrequested

/-- Without a step the loop variable has no value. -/
theorem run_getdescriptor_nil (hsteps : targetPath client.chain path internal addrType account = .ok []) :
    ∃ e client', (getdescriptor masterFpr path internal addrType account).run client = .error e client' := by
  unfold getdescriptor
  rw [EStateM.run_bind, EStateM.run_get]
  dsimp only
  rw [hsteps, EStateM.run_bind, Procedure.run_ofExcept_ok]
  exact ⟨_, _, rfl⟩

theorem run_getdescriptor_error {e : Exc} (h : targetPath client.chain path internal addrType account = .error e) :
    ∃ e client', (getdescriptor masterFpr path internal addrType account).run client = .error e client' := by
  unfold getdescriptor
  rw [EStateM.run_bind, EStateM.run_get]
  dsimp only
  rw [h, EStateM.run_bind, Procedure.run_ofExcept_error]
  exact ⟨_, _, rfl⟩

end

/-! ### Paths that are accepted -/

/-- A path string with a last element of two characters that is a wildcard for the
second one. -/
structure ReadsAs (path : Str) (elements : List Str) (c : Char) (steps : List ℤ) : Prop where
  eq : path = pathText elements ++ [c, '*']
  elements : List.Forall₂ (fun x i => strToHarden x = .ok i) elements steps

theorem targetPath_of_readsAs {path : Str} {elements : List Str} {c : Char} {steps : List ℤ}
    (h : ReadsAs path elements c steps) (chain : Chain) (internal : Bool) (addrType : AddressType)
    (account : ℤ) : targetPath chain (some path) internal addrType account = .ok steps := by
  have hne : path ≠ [] := by
    rw [h.eq]
    exact List.append_ne_nil_of_right_ne_nil _ (List.cons_ne_nil _ _)
  have hfirst : path.head? = some 'm' := by
    rw [h.eq]
    rfl
  have hlast : path.getLast? = some '*' := by
    rw [h.eq, List.getLast?_append]
    rfl
  have hinit : path.dropLast.dropLast = pathText elements := by
    rw [h.eq, List.dropLast_append_of_ne_nil (List.cons_ne_nil _ _)]
    simp
  unfold targetPath
  cases path with
  | nil => exact absurd rfl hne
  | cons x path =>
    dsimp only
    rw [if_neg (not_not.2 hfirst), if_neg (not_not.2 hlast), hinit]
    exact parsePath_pathText h.elements

/-- Paths that are accepted read as steps before two characters. -/
theorem readsAs_of_targetPath {path : Str} {steps : List ℤ} {chain : Chain} {internal : Bool}
    {addrType : AddressType} {account : ℤ} (hne : path ≠ [])
    (h : targetPath chain (some path) internal addrType account = .ok steps) (hsteps : steps ≠ []) :
    ∃ elements c, ReadsAs path elements c steps := by
  unfold targetPath at h
  cases path with
  | nil => exact absurd rfl hne
  | cons x path =>
    dsimp only at h
    split_ifs at h with hfirst hlast
    rw [not_not] at hfirst hlast
    have hcut := List.dropLast_append_getLast? _ hlast
    cases hinit : (x :: path).dropLast.getLast? with
    | none =>
      rw [List.getLast?_eq_none_iff.1 hinit] at h
      cases h
      exact absurd rfl hsteps
    | some c =>
      have hcut' := List.dropLast_append_getLast? _ hinit
      have hm : ((x :: path).dropLast.dropLast).head? = some 'm' := by
        cases hrest : (x :: path).dropLast.dropLast with
        | nil =>
          rw [hrest] at h
          cases h
          exact absurd rfl hsteps
        | cons y rest =>
          rw [← hcut, ← hcut', hrest] at hfirst
          exact hfirst
      obtain ⟨elements, helements, hall⟩ := eq_pathText_of_parsePath hm h
      refine ⟨elements, c, ?_, hall⟩
      rw [← hcut, ← hcut', helements, List.append_assoc]
      rfl

/-- A cut of the path is found where a step is hardened, and no other where none is. -/
theorem splits_iff {steps : List ℤ} {n : ℕ} (hne : steps ≠ [])
    (hn : loopIndex steps.reverse (steps.length - 1) none = some n) :
    Splits steps (steps.take (n + 1)) (steps.drop (n + 1)) ↔ ∃ i ∈ steps, isHardened i = true := by
  by_cases h : ∃ i ∈ steps, isHardened i = true
  · obtain ⟨m, hm, -, hsplits⟩ := loopIndex_hardened h none
    obtain rfl := Option.some.inj (hn.symm.trans hm)
    exact iff_of_true hsplits h
  · refine iff_of_false ?_ h
    have hplain : ∀ i ∈ steps, isHardened i = false := by
      intro i hi
      exact Bool.eq_false_of_not_eq_true fun hhard => h ⟨i, hi, hhard⟩
    obtain rfl := Option.some.inj (hn.symm.trans (loopIndex_plain hplain hne none))
    intro hsplits
    cases steps with
    | nil => exact hne rfl
    | cons i steps =>
      exact h ⟨i, List.mem_cons_self, hsplits.hardened i rfl⟩

theorem exists_loopIndex {steps : List ℤ} (hne : steps ≠ []) :
    ∃ n, loopIndex steps.reverse (steps.length - 1) none = some n := by
  by_cases h : ∃ i ∈ steps, isHardened i = true
  · obtain ⟨n, hn, -⟩ := loopIndex_hardened h none
    exact ⟨n, hn⟩
  · refine ⟨0, loopIndex_plain (fun i hi => ?_) hne none⟩
    exact Bool.eq_false_of_not_eq_true fun hhard => h ⟨i, hi, hhard⟩

section
variable (masterFpr : Bytes) (path : Str) (internal : Bool) (account : ℤ)
variable {addrType : AddressType} {client : HardwareWalletClient}

/-- The descriptor for a path whose elements are the given steps. -/
def DescriptorFor (steps : List ℤ) (result : EStateM.Result Exc HardwareWalletClient Descriptor)
    (addrType : AddressType) (masterFpr : Bytes) : Prop :=
  ∃ p client' base rest, result = .ok (keyDescriptor p addrType) client' ∧
    Splits steps base rest ∧ Expresses p masterFpr base rest client'.answers

/-- A path without a step, or one that does not read as steps before two characters, is
refused. -/
theorem refused_iff (hclient : client.Answering) (htap : addrType = .tap → client.canSignTaproot = true) :
    (∃ e client', (getdescriptor masterFpr (some path) internal addrType account).run client =
        .error e client') ↔
      path ≠ [] ∧ ∀ elements c steps, ReadsAs path elements c steps → steps = [] := by
  have hrun (steps : List ℤ) (hne : steps ≠ [])
      (hsteps : targetPath client.chain (some path) internal addrType account = .ok steps) :
      ¬∃ e client', (getdescriptor masterFpr (some path) internal addrType account).run client =
        .error e client' := by
    rintro ⟨e, client', he⟩
    obtain ⟨n, hn⟩ := exists_loopIndex hne
    obtain ⟨p, client', hok, -⟩ := run_getdescriptor masterFpr internal account hclient htap hsteps hn
    rw [he] at hok
    cases hok
  constructor
  · intro h
    refine ⟨?_, ?_⟩
    · rintro rfl
      exact hrun _ (List.cons_ne_nil _ _) rfl h
    · intro elements c steps hreads
      by_contra hne
      exact hrun steps hne (targetPath_of_readsAs hreads client.chain internal addrType account) h
  · rintro ⟨hne, h⟩
    cases htarget : targetPath client.chain (some path) internal addrType account with
    | error e => exact run_getdescriptor_error masterFpr internal account htarget
    | ok steps =>
      by_cases hsteps : steps = []
      · rw [hsteps] at htarget
        exact run_getdescriptor_nil masterFpr internal account htarget
      · obtain ⟨elements, c, hreads⟩ := readsAs_of_targetPath hne htarget hsteps
        exact absurd (h elements c steps hreads) hsteps

/-- The descriptor of a path has the origin of its hardened steps where there is one. -/
theorem descriptorFor_iff (hclient : client.Answering)
    (htap : addrType = .tap → client.canSignTaproot = true) {elements : List Str} {c : Char}
    {steps : List ℤ} (hreads : ReadsAs path elements c steps) :
    DescriptorFor steps ((getdescriptor masterFpr (some path) internal addrType account).run client)
      addrType masterFpr ↔ ∃ i ∈ steps, isHardened i = true := by
  have htarget := targetPath_of_readsAs hreads client.chain internal addrType account
  by_cases hne : steps = []
  · rw [hne] at htarget ⊢
    obtain ⟨e, client', he⟩ := run_getdescriptor_nil masterFpr internal account htarget
    rw [he]
    refine iff_of_false ?_ (by simp)
    rintro ⟨p, client', base, rest, hok, -⟩
    cases hok
  · obtain ⟨n, hn⟩ := exists_loopIndex hne
    rw [← splits_iff hne hn]
    obtain ⟨p, client', hok, hp⟩ := run_getdescriptor masterFpr internal account hclient htap htarget hn
    constructor
    · rintro ⟨p', client'', base, rest, hok', hsplits, hp'⟩
      rw [hok] at hok'
      obtain ⟨hdescriptor, -⟩ := EStateM.Result.ok.inj hok'
      have horigin : some (KeyOriginInfo.mk masterFpr base) = some (KeyOriginInfo.mk masterFpr (steps.take (n + 1))) := by
        rw [← hp'.origin, ← hp.origin]
        cases addrType <;> cases hdescriptor <;> rfl
      obtain ⟨-, hbase⟩ := KeyOriginInfo.mk.inj (Option.some.inj horigin)
      have hrest : rest = steps.drop (n + 1) := by
        have heq := hsplits.eq
        rw [hbase] at heq
        exact (List.append_cancel_left ((List.take_append_drop (n + 1) steps).trans heq)).symm
      rwa [hbase, hrest] at hsplits
    · intro hsplits
      exact ⟨p, client', _, _, hok, hsplits, hp⟩

/-- The key expression of a path is that of its steps, and every other path is refused,
exactly when a path with steps has a hardened one and its wildcard has a slash. -/
theorem getdescriptor_iff (hclient : client.Answering)
    (htap : addrType = .tap → client.canSignTaproot = true) :
    ((∀ elements steps, ReadsAs path elements '/' steps →
        DescriptorFor steps ((getdescriptor masterFpr (some path) internal addrType account).run client)
          addrType masterFpr) ∧
      ((¬∃ elements steps, ReadsAs path elements '/' steps) →
        ∃ e client', (getdescriptor masterFpr (some path) internal addrType account).run client =
          .error e client')) ↔
      path ≠ [] ∧ ∀ elements c steps, ReadsAs path elements c steps →
        if c = '/' then ∃ i ∈ steps, isHardened i = true else steps = [] := by
  constructor
  · rintro ⟨hform, hother⟩
    constructor
    · rintro rfl
      refine ((refused_iff masterFpr [] internal account hclient htap).1 (hother ?_)).1 rfl
      rintro ⟨elements, steps, heq, -⟩
      cases heq
    · intro elements c steps hreads
      split_ifs with hc
      · subst hc
        exact (descriptorFor_iff masterFpr path internal account hclient htap hreads).1
          (hform elements steps hreads)
      · have hform : ¬∃ elements steps, ReadsAs path elements '/' steps := by
          rintro ⟨elements', steps', hreads'⟩
          have hlast := congrArg (fun s => s.dropLast.getLast?) (hreads.eq.symm.trans hreads'.eq)
          simp at hlast
          exact hc hlast
        exact ((refused_iff masterFpr path internal account hclient htap).1 (hother hform)).2
          elements c steps hreads
  · rintro ⟨hne, h⟩
    constructor
    · intro elements steps hreads
      have hhard := h elements '/' steps hreads
      rw [if_pos rfl] at hhard
      exact (descriptorFor_iff masterFpr path internal account hclient htap hreads).2 hhard
    · intro hform
      refine (refused_iff masterFpr path internal account hclient htap).2 ⟨hne, ?_⟩
      intro elements c steps hreads
      have hsteps := h elements c steps hreads
      rwa [if_neg] at hsteps
      rintro rfl
      exact hform ⟨elements, steps, hreads⟩

end

def sampleXpub : Str :=
  ("tpubD6NzVbkrYhZ4WaWSyoBvQwbpLkojyoTZPRsgXELWz3Popb3qkjcJyJUGLnL4qHHoQvao8ESaAstxYSnhyswJ76uZPStJRJCTK" ++
    "vosUCJZL5B").toList

/-- A client of a device that gives one key for every path. -/
def sampleClient : HardwareWalletClient where
  chain := .test
  xpubCache := ∅
  canSignTaproot := false
  device := fun _ _ => .ok sampleXpub
  answers := []
  cached := by
    intro path xpub h
    cases h

theorem sampleClient_answering : sampleClient.Answering := by
  have hsome : (ExtendedKey.deserialize sampleXpub).toOption.isSome = true := by decide +kernel
  obtain ⟨k, hk⟩ := Option.isSome_iff_exists.1 hsome
  constructor
  · intro path xpub h
    cases h
  · intro path
    exact ⟨sampleXpub, rfl, k, toOption_eq_some.1 hk⟩

theorem getdescriptor_iff_sample :
    DescriptorFor [harden 44, 0]
      ((getdescriptor [] (some ['m', '/', '4', '4', 'h', '/', '0', '/', '*']) false .wit 0).run sampleClient)
      .wit [] := by
  have hreads : ReadsAs ['m', '/', '4', '4', 'h', '/', '0', '/', '*'] [['4', '4', 'h'], ['0']] '/'
      [harden 44, 0] := by
    refine ⟨rfl, .cons ?_ (.cons ?_ .nil)⟩ <;> decide +kernel
  refine ((getdescriptor_iff [] _ false 0 sampleClient_answering (by decide)).2 ⟨by decide, ?_⟩).1 _ _ hreads
  intro elements c steps hreads'
  have hsteps : (Except.ok steps : Except Exc (List ℤ)) = .ok [harden 44, 0] :=
    (targetPath_of_readsAs hreads' .test false .wit 0).symm.trans (targetPath_of_readsAs hreads .test false .wit 0)
  have hlast := congrArg (fun s => s.dropLast.getLast?) (hreads.eq.symm.trans hreads'.eq)
  simp only [List.dropLast_append_of_ne_nil, ne_eq, reduceCtorEq, not_false_eq_true, List.dropLast_cons_cons,
    List.dropLast_singleton, List.getLast?_concat, Option.some.injEq] at hlast
  rw [if_pos hlast.symm, Except.ok.inj hsteps]
  decide

/-- A path without steps is refused. -/
theorem getdescriptor_empty :
    ¬ ∀ (masterFpr : Bytes) (path : Str) (internal : Bool) (account : ℤ) (addrType : AddressType)
      (client : HardwareWalletClient), client.Answering →
      (addrType = .tap → client.canSignTaproot = true) →
      (∀ elements steps, ReadsAs path elements '/' steps →
        DescriptorFor steps ((getdescriptor masterFpr (some path) internal addrType account).run client)
          addrType masterFpr) ∧
      ((¬∃ elements steps, ReadsAs path elements '/' steps) →
        ∃ e client', (getdescriptor masterFpr (some path) internal addrType account).run client =
          .error e client') := by
  intro h
  obtain ⟨p, client', base, rest, hok, -⟩ :=
    (h [] ['m', '/', '*'] false 0 .wit sampleClient sampleClient_answering (by decide)).1 [] [] ⟨rfl, .nil⟩
  cases hok

end Hwi
