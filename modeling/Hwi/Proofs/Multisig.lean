import Hwi.Format.Multisig

/-! Which scripts the two recognisers of multisig scripts get right. -/

namespace Hwi

/-! ### The pushes -/

theorem pushKeys_cons_append (key : Bytes) (keys : List Bytes) (rest : Bytes) :
    pushKeys (key :: keys) ++ rest = 33 :: (key ++ (pushKeys keys ++ rest)) := by
  simp [pushKeys]

theorem pushKeys_length {keys : List Bytes} (hkeys : ∀ key ∈ keys, key.length = 33) :
    (pushKeys keys).length = 34 * keys.length := by
  induction keys with
  | nil => rfl
  | cons key keys ih =>
    rw [List.forall_mem_cons] at hkeys
    rw [← List.append_nil (pushKeys _), pushKeys_cons_append, List.append_nil, List.length_cons,
      List.length_append, hkeys.1, ih hkeys.2, List.length_cons]
    omega

/-- What the loop over the pushes stops at: the end, a push that is cut off, or
another opcode. -/
theorem exists_pushes (s : Bytes) : ∃ keys rest, s = pushKeys keys ++ rest ∧
    (∀ key ∈ keys, key.length = 33) ∧ ((rest = [] ∨ ∃ key, rest = 33 :: key ∧ key.length < 33) ∨
      ∃ n tail, rest = n :: tail ∧ n ≠ 33) := by
  induction hlen : s.length using Nat.strong_induction_on generalizing s with
  | h len ih =>
    cases s with
    | nil => exact ⟨[], [], rfl, by simp, Or.inl (Or.inl rfl)⟩
    | cons n tail =>
      by_cases hn : n = 33
      · subst hn
        by_cases hcut : tail.length < 33
        · exact ⟨[], _, rfl, by simp, Or.inl (Or.inr ⟨tail, rfl, hcut⟩)⟩
        · have hdrop : (tail.drop 33).length < len := by
            rw [List.length_cons] at hlen
            rw [List.length_drop]
            omega
          obtain ⟨keys, rest, heq, hkeys, hrest⟩ := ih _ hdrop (tail.drop 33) rfl
          refine ⟨tail.take 33 :: keys, rest, ?_, ?_, hrest⟩
          · rw [pushKeys_cons_append, ← heq, List.take_append_drop]
          · rw [List.forall_mem_cons]
            refine ⟨?_, hkeys⟩
            rw [List.length_take]
            omega
      · exact ⟨[], _, rfl, by simp, Or.inr ⟨n, tail, rfl, hn⟩⟩

/-! ### The loop -/

theorem parseMultisigKeys_pushes {keys : List Bytes} (hkeys : ∀ key ∈ keys, key.length = 33)
    {fuel : ℕ} (hfuel : keys.length ≤ fuel) (rest : Bytes) :
    parseMultisigKeys fuel (pushKeys keys ++ rest) =
      (parseMultisigKeys (fuel - keys.length) rest).bind fun r => .ok (keys ++ r.1, r.2) := by
  induction keys generalizing fuel with
  | nil =>
    cases hstop : parseMultisigKeys fuel rest <;> simp [pushKeys, hstop, Except.bind]
  | cons key keys ih =>
    rw [List.forall_mem_cons] at hkeys
    rw [List.length_cons] at hfuel
    obtain ⟨fuel, rfl⟩ : ∃ k, fuel = k + 1 := ⟨fuel - 1, by omega⟩
    rw [pushKeys_cons_append, parseMultisigKeys, if_neg (by simp), ← hkeys.1, List.drop_left,
      List.take_left, ih hkeys.2 (by omega), List.length_cons, Nat.add_sub_add_right]
    cases parseMultisigKeys (fuel - keys.length) rest <;> rfl

theorem parseMultisigKeys_nil (fuel : ℕ) : parseMultisigKeys fuel [] = .error .indexError := by
  cases fuel <;> rfl

theorem parseMultisigKeys_cut {push : Bytes}
    (hpush : push = [] ∨ ∃ key, push = 33 :: key ∧ key.length < 33) (fuel : ℕ) :
    parseMultisigKeys fuel push = .error .indexError := by
  rcases hpush with rfl | ⟨key, rfl, hcut⟩
  · exact parseMultisigKeys_nil fuel
  · cases fuel with
    | zero => rfl
    | succ fuel =>
      rw [parseMultisigKeys, if_neg (by simp), List.drop_eq_nil_of_le (by omega),
        parseMultisigKeys_nil]
      rfl

theorem parseMultisigKeys_stop {n : UInt8} (hn : n ≠ 33) (fuel : ℕ) (tail : Bytes) :
    parseMultisigKeys (fuel + 1) (n :: tail) = .ok ([], n :: tail) := by
  rw [parseMultisigKeys, if_pos hn]

/-! ### The recogniser, on each kind of script -/

section

variable {op : UInt8} {keys : List Bytes}

theorem parseMultisig_other (hop : ¬IsThreshold op) (rest : Bytes) :
    parseMultisig (op :: rest) = .ok none := by
  have hrange : op < 81 ∨ op > 95 := by
    rw [IsThreshold, not_and_or, Nat.not_le, Nat.not_le] at hop
    exact hop
  unfold parseMultisig
  simp [byteAt, hrange]

/-- After the threshold the loop runs. -/
theorem parseMultisig_threshold (hop : IsThreshold op) (rest : Bytes) :
    parseMultisig (op :: rest) = (do
      let r ← parseMultisigKeys (rest.length + 1) rest
      let n ← byteAt r.2 0
      if (n.toNat : ℤ) - 80 ≠ r.1.length then return none
      let opCms ← byteAt r.2 1
      if opCms ≠ 174 then return none
      return some (op.toNat - 80, r.1)) := by
  have hrange : ¬(op < 81 ∨ op > 95) := by
    rw [not_or, UInt8.not_lt, UInt8.not_lt]
    exact hop
  unfold parseMultisig
  simp only [byteAt, List.getElem?_cons_zero, ok_bind, if_neg hrange, List.length_cons,
    List.drop_succ_cons, List.drop_zero]

theorem parseMultisig_keysCut (hop : IsThreshold op) (hkeys : ∀ key ∈ keys, key.length = 33)
    {push : Bytes} (hpush : push = [] ∨ ∃ key, push = 33 :: key ∧ key.length < 33) :
    parseMultisig (op :: (pushKeys keys ++ push)) = .error .indexError := by
  rw [parseMultisig_threshold hop, parseMultisigKeys_pushes hkeys ?_, parseMultisigKeys_cut hpush]
  · rfl
  · rw [List.length_append, pushKeys_length hkeys]
    omega

/-- The loop stops at the first opcode that is not a push of 33 bytes. -/
theorem parseMultisig_stop (hop : IsThreshold op) (hkeys : ∀ key ∈ keys, key.length = 33) {n : UInt8}
    (hn : n ≠ 33) (tail : Bytes) :
    parseMultisig (op :: (pushKeys keys ++ n :: tail)) = (do
      if n.toNat ≠ 80 + keys.length then return none
      let opCms ← byteAt tail 0
      if opCms ≠ 174 then return none
      return some (op.toNat - 80, keys)) := by
  have hfuel : keys.length ≤ (pushKeys keys ++ n :: tail).length := by
    rw [List.length_append, pushKeys_length hkeys]
    omega
  have hcount : (n.toNat : ℤ) - 80 ≠ keys.length ↔ n.toNat ≠ 80 + keys.length := by omega
  rw [parseMultisig_threshold hop, parseMultisigKeys_pushes hkeys (by omega),
    Nat.sub_add_comm hfuel, parseMultisigKeys_stop hn]
  simp only [Except.bind, ok_bind, List.append_nil, byteAt, List.getElem?_cons_zero, hcount,
    List.getElem?_cons_succ]

theorem ne_push {n : UInt8} (hn : n.toNat = 80 + keys.length) : n ≠ 33 := by
  rintro rfl
  simp at hn
  omega

theorem parseMultisig_endCut (hop : IsThreshold op) (hkeys : ∀ key ∈ keys, key.length = 33)
    {n : UInt8} (hn : n.toNat = 80 + keys.length) :
    parseMultisig (op :: (pushKeys keys ++ [n])) = .error .indexError := by
  rw [parseMultisig_stop hop hkeys (ne_push hn), if_neg (not_not.2 hn)]
  rfl

theorem parseMultisig_found (hop : IsThreshold op) (hkeys : ∀ key ∈ keys, key.length = 33)
    {n : UInt8} (hn : n.toNat = 80 + keys.length) (tail : Bytes) :
    parseMultisig (op :: (pushKeys keys ++ n :: 174 :: tail)) =
      .ok (some (op.toNat - 80, keys)) := by
  rw [parseMultisig_stop hop hkeys (ne_push hn), if_neg (not_not.2 hn)]
  rfl

/-- What is found is a multisig script unless it is loose. -/
theorem isMultisig_found (hop : IsThreshold op) (hkeys : ∀ key ∈ keys, key.length = 33) {n : UInt8}
    (hn : n.toNat = 80 + keys.length) {tail : Bytes} :
    IsMultisig (op :: (pushKeys keys ++ n :: 174 :: tail)) (op.toNat - 80) keys ↔
      ¬(keys.length < op.toNat - 80 ∨ 15 < keys.length ∨ tail ≠ []) := by
  obtain ⟨hle, -⟩ := hop
  have hopcode : UInt8.ofNat (80 + (op.toNat - 80)) = op := by
    rw [Nat.add_sub_cancel' (by omega), UInt8.ofNat_toNat]
  have hcount : UInt8.ofNat (80 + keys.length) = n := by rw [← hn, UInt8.ofNat_toNat]
  rw [not_or, not_or, not_not, Nat.not_lt, Nat.not_lt]
  constructor
  · intro h
    have heq := h.script_eq
    rw [hopcode, hcount, List.cons.injEq, List.append_cancel_left_eq] at heq
    simp only [List.cons.injEq, true_and] at heq
    exact ⟨h.m_le, h.le_fifteen, heq⟩
  · intro ⟨hm, hle15, htail⟩
    refine ⟨?_, hkeys, by omega, hm, hle15⟩
    rw [hopcode, hcount, htail]

end

section

variable {script : Bytes} {m : ℕ} {keys : List Bytes}

theorem IsMultisig.parse (h : IsMultisig script m keys) :
    parseMultisig script = .ok (some (m, keys)) := by
  obtain ⟨heq, hkeys, hone, hle, h15⟩ := h
  have hop : (UInt8.ofNat (80 + m)).toNat = 80 + m := by
    rw [UInt8.toNat_ofNat']
    omega
  have hn : (UInt8.ofNat (80 + keys.length)).toNat = 80 + keys.length := by
    rw [UInt8.toNat_ofNat']
    omega
  have hthreshold : IsThreshold (UInt8.ofNat (80 + m)) := by
    rw [IsThreshold, hop]
    omega
  rw [heq, parseMultisig_found hthreshold hkeys hn, hop, Nat.add_sub_cancel_left]

theorem IsMultisig.length (h : IsMultisig script m keys) : 37 ≤ script.length := by
  rw [h.script_eq, List.length_cons, List.length_append, pushKeys_length h.key_length]
  have hone := h.one_le
  have hle := h.m_le
  simp only [List.length_cons, List.length_nil]
  omega

theorem recognised_none (h : parseMultisig script = .ok none) :
    Recognised script (parseMultisig script) := by
  refine ⟨⟨none, h⟩, fun m keys => ⟨fun hsome => ?_, IsMultisig.parse⟩⟩
  rw [h] at hsome
  cases hsome

theorem recognised_some (h : IsMultisig script m keys) :
    Recognised script (parseMultisig script) := by
  refine ⟨⟨_, h.parse⟩, fun m' keys' => ⟨fun hsome => ?_, IsMultisig.parse⟩⟩
  rw [h.parse] at hsome
  cases hsome
  exact h

theorem not_recognised_error {e : Exc} (h : parseMultisig script = .error e) :
    ¬Recognised script (parseMultisig script) := by
  rintro ⟨⟨found, hfound⟩, -⟩
  rw [h] at hfound
  cases hfound

theorem MultisigCut.parse (h : MultisigCut script) : parseMultisig script = .error .indexError := by
  cases h with
  | keysCut hop hkeys hpush => exact parseMultisig_keysCut hop hkeys hpush
  | endCut hop hkeys hn => exact parseMultisig_endCut hop hkeys hn

theorem MultisigShaped.parse (h : MultisigShaped script keys) :
    ∃ m, parseMultisig script = .ok (some (m, keys)) := by
  obtain ⟨op, n, tail, hop, hkeys, hn, rfl⟩ := h
  exact ⟨_, parseMultisig_found hop hkeys hn tail⟩

theorem MultisigShaped.unique {keys' : List Bytes} (h : MultisigShaped script keys)
    (h' : MultisigShaped script keys') : keys = keys' := by
  obtain ⟨m, hm⟩ := h.parse
  obtain ⟨m', hm'⟩ := h'.parse
  rw [hm] at hm'
  cases hm'
  rfl

theorem MultisigCut.not_shaped (h : MultisigCut script) :
    ¬MultisigShaped script keys := by
  intro hshaped
  obtain ⟨m, hm⟩ := hshaped.parse
  rw [h.parse] at hm
  cases hm

theorem MultisigMisread.not_recognised (h : MultisigMisread script) :
    ¬Recognised script (parseMultisig script) := by
  cases h with
  | empty => exact not_recognised_error rfl
  | cut hcut => exact not_recognised_error hcut.parse
  | loose hop hkeys hn hloose =>
    intro h
    exact (isMultisig_found hop hkeys hn).1 ((h.2 _ _).1 (parseMultisig_found hop hkeys hn _)) hloose

/-- What the recogniser makes of a script. -/
theorem parseMultisig_cases (hne : script ≠ []) :
    MultisigCut script ∨ (∃ keys, MultisigShaped script keys) ∨ parseMultisig script = .ok none := by
  cases script with
  | nil => exact absurd rfl hne
  | cons op rest =>
    by_cases hop : IsThreshold op
    · obtain ⟨keys, rest, rfl, hkeys, hpush | ⟨n, tail, rfl, hn⟩⟩ := exists_pushes rest
      · exact Or.inl (.keysCut hop hkeys hpush)
      · by_cases hcount : n.toNat = 80 + keys.length
        · cases tail with
          | nil => exact Or.inl (.endCut hop hkeys hcount)
          | cons opCms tail =>
            by_cases hcms : opCms = 174
            · subst hcms
              exact Or.inr (Or.inl ⟨keys, op, n, tail, hop, hkeys, hcount, rfl⟩)
            · refine Or.inr (Or.inr ?_)
              rw [parseMultisig_stop hop hkeys hn, if_neg (not_not.2 hcount)]
              exact if_pos hcms
        · refine Or.inr (Or.inr ?_)
          rw [parseMultisig_stop hop hkeys hn, if_pos hcount]
          rfl
    · exact Or.inr (Or.inr (parseMultisig_other hop rest))

/-- The recogniser is right about every script that is not one of those. -/
theorem recognised_iff :
    Recognised script (parseMultisig script) ↔ ¬MultisigMisread script := by
  refine ⟨fun h hmisread => hmisread.not_recognised h, fun h => ?_⟩
  have hne : script ≠ [] := by
    rintro rfl
    exact h .empty
  rcases parseMultisig_cases hne with hcut | ⟨keys, op, n, tail, hop, hkeys, hn, rfl⟩ | hnone
  · exact absurd (.cut hcut) h
  · exact recognised_some ((isMultisig_found hop hkeys hn).2 fun hloose =>
      h (.loose hop hkeys hn hloose))
  · exact recognised_none hnone

end

/-! ### The recogniser of the driver -/

namespace TrezorClient

open Trezor

variable {R : Runtime} {txXpubs hdKeypaths : Dict Bytes KeyOriginInfo} {script : Bytes}

/-! ### The keys of nodes -/

section

variable {a b a' : KeyObject} {i : ℤ}

/-- The key of a child is a matter of the key and the chain code. -/
theorem derivePub_pubkey (hkey : a.pubkey = b.pubkey) (hchain : a.chaincode = b.chaincode)
    (h : KeyObject.derivePub R a i = .ok a') :
    ∃ b', KeyObject.derivePub R b i = .ok b' ∧ a'.pubkey = b'.pubkey ∧
      a'.chaincode = b'.chaincode := by
  unfold KeyObject.derivePub at h
  by_cases hhard : isHardened i = true
  · rw [if_pos hhard] at h
    cases h
  · rw [if_neg hhard, hkey, hchain] at h
    obtain ⟨index, hindex, h⟩ := bind_eq_ok.1 h
    obtain ⟨il, hil, h⟩ := bind_eq_ok.1 h
    obtain ⟨point, hpoint, h⟩ := bind_eq_ok.1 h
    obtain ⟨pubkey, hpubkey, h⟩ := bind_eq_ok.1 h
    cases h
    unfold KeyObject.derivePub
    simp only [if_neg hhard, hindex, hil, hpoint, hpubkey, ok_bind]
    exact ⟨_, rfl, rfl, rfl⟩

theorem derivePubPath_pubkey {path : List ℤ} (hkey : a.pubkey = b.pubkey)
    (hchain : a.chaincode = b.chaincode) (h : KeyObject.derivePubPath R a path = .ok a') :
    ∃ b', KeyObject.derivePubPath R b path = .ok b' ∧ a'.pubkey = b'.pubkey := by
  induction path generalizing a b with
  | nil =>
    cases h
    exact ⟨b, rfl, hkey⟩
  | cons i path ih =>
    obtain ⟨child, hchild, hpath⟩ := bind_eq_ok.1 h
    obtain ⟨child', hchild', hkey', hchain'⟩ := derivePub_pubkey hkey hchain hchild
    obtain ⟨b', hb', heq⟩ := ih hkey' hchain' hpath
    exact ⟨b', bind_eq_ok.2 ⟨child', hchild', hb'⟩, heq⟩

end

theorem nodeKey_plainNode (key : Bytes) : nodeKey R (plainNode key) = .ok key := rfl

/-- The node of an extended key and a path stands for the key derived from it. -/
theorem nodeKey_known {hd : KeyObject} {node : HDNodeType} {path : List ℤ} {key : Bytes}
    (hkey : node.publicKey = hd.pubkey) (hchain : node.chainCode = hd.chaincode) :
    nodeKey R { node, addressN := path } = .ok key ↔
      ∃ child, KeyObject.derivePubPath R hd path = .ok child ∧ child.pubkey = key := by
  constructor
  · intro h
    obtain ⟨child, hchild, h⟩ := bind_eq_ok.1 h
    obtain ⟨child', hchild', heq⟩ := derivePubPath_pubkey hkey hchain hchild
    cases h
    exact ⟨child', hchild', heq.symm⟩
  · rintro ⟨child, hchild, rfl⟩
    obtain ⟨child', hchild', heq⟩ :=
      derivePubPath_pubkey (b := nodeXpub node) hkey.symm hchain.symm hchild
    exact bind_eq_ok.2 ⟨child', hchild', congrArg Except.ok heq.symm⟩

/-! ### The search for an xpub -/

section

variable {derivation : KeyOriginInfo} {key : Bytes}

theorem findNode_cons (pub : HDNodePathType) (xpub : Bytes) (origin : KeyOriginInfo)
    (xpubs : List (Bytes × KeyOriginInfo)) :
    findNode R derivation pub ((xpub, origin) :: xpubs) = (do
      let hd ← ExtendedKey.deserialize (xpubText R xpub)
      if StartsAt derivation origin then
        return {
          addressN := derivation.path.drop origin.path.length
          node := {
            depth := hd.depth.toNat, fingerprint := Base58.toInt hd.parentFingerprint,
            childNum := hd.childNum, chainCode := hd.chaincode, publicKey := hd.pubkey } }
      else findNode R derivation pub xpubs) := rfl

/-- The search ends with a node for the key where the xpubs on its way can be read
and the one it ends at leads to the key. -/
theorem findNode_iff (xpubs : List (Bytes × KeyOriginInfo)) :
    (∃ node, findNode R derivation (plainNode key) xpubs = .ok node ∧ nodeKey R node = .ok key) ↔
      LeadsTo R key derivation xpubs := by
  induction xpubs with
  | nil =>
    exact iff_of_true ⟨_, rfl, nodeKey_plainNode key⟩ upTo_nil
  | cons entry xpubs ih =>
    obtain ⟨xpub, origin⟩ := entry
    rw [findNode_cons, LeadsTo, upTo_cons, ← LeadsTo, ← ih]
    cases hhd : ExtendedKey.deserialize (xpubText R xpub) with
    | error e => simp [KeyObject.deserialize, hhd]
    | ok hd =>
      rw [KeyObject.deserialize, hhd, ok_bind, ok_bind]
      by_cases hstart : StartsAt derivation origin
      · rw [if_pos hstart]
        simp only [pure_eq_ok, Except.ok.injEq, exists_eq_left', hstart, true_implies, not_true,
          false_implies, and_true]
        exact nodeKey_known rfl rfl
      · rw [if_neg hstart]
        simp [hstart]

end

/-- The node of a key, its xpub looked up. -/
def keyNode (R : Runtime) (txXpubs hdKeypaths : Dict Bytes KeyOriginInfo) (key : Bytes) :
    Except Exc HDNodePathType :=
  match hdKeypaths.get? key with
  | none => .ok (plainNode key)
  | some derivation => findNode R derivation (plainNode key) txXpubs.items

theorem keyNode_iff {key : Bytes} :
    (∃ node, keyNode R txXpubs hdKeypaths key = .ok node ∧ nodeKey R node = .ok key) ↔
      ∀ derivation, hdKeypaths.get? key = some derivation →
        LeadsTo R key derivation txXpubs.items := by
  unfold keyNode
  cases hder : hdKeypaths.get? key with
  | none => exact iff_of_true ⟨_, rfl, nodeKey_plainNode key⟩ fun _ h => nomatch h
  | some derivation =>
    rw [findNode_iff]
    simp

theorem parseMultisig_keys {m : ℕ} {keys : List Bytes} (h : IsMultisig script m keys) :
    parseMultisig R script txXpubs hdKeypaths = (do
      let pubkeys ← keys.mapM (keyNode R txXpubs hdKeypaths)
      return some { m, signatures := List.replicate keys.length [], pubkeys }) := by
  have hlen := h.length
  unfold parseMultisig
  rw [if_neg (by omega), h.parse]
  rfl

theorem parseMultisig_none (h : Hwi.parseMultisig script = .ok none) :
    parseMultisig R script txXpubs hdKeypaths = .ok none := by
  unfold parseMultisig
  rw [h]
  split_ifs <;> rfl

/-- On a script that `parse_multisig` is right about, the driver is right where
the xpubs that it looks for lead to the keys. -/
theorem reported_iff (h : Recognised script (Hwi.parseMultisig script)) :
    Reported R script (parseMultisig R script txXpubs hdKeypaths) ↔
      ∀ m keys, IsMultisig script m keys → ∀ key ∈ keys, ∀ derivation,
        hdKeypaths.get? key = some derivation → LeadsTo R key derivation txXpubs.items := by
  have hnodes : ∀ keys : List Bytes,
      (∃ nodes, keys.mapM (keyNode R txXpubs hdKeypaths) = .ok nodes ∧
        List.Forall₂ (fun key node => nodeKey R node = .ok key) keys nodes) ↔
      ∀ key ∈ keys, ∀ derivation, hdKeypaths.get? key = some derivation →
        LeadsTo R key derivation txXpubs.items := by
    intro keys
    rw [exists_mapM_forall₂]
    exact forall₂_congr fun _ _ => keyNode_iff
  constructor
  · intro ⟨hreported, _⟩ m keys hscript
    obtain ⟨multisig, hres, -, hkeys⟩ := hreported m keys hscript
    rw [parseMultisig_keys hscript] at hres
    obtain ⟨nodes, hmap, hres⟩ := bind_eq_ok.1 hres
    cases hres
    exact (hnodes keys).1 ⟨nodes, hmap, hkeys⟩
  · intro hleads
    refine ⟨fun m keys hscript => ?_, fun multisig hres => ?_⟩
    · obtain ⟨nodes, hmap, hkeys⟩ := (hnodes keys).2 (hleads m keys hscript)
      rw [parseMultisig_keys hscript, hmap]
      exact ⟨_, rfl, rfl, hkeys⟩
    · obtain ⟨⟨found, hfound⟩, hmultisig⟩ := h
      cases found with
      | none =>
        rw [parseMultisig_none hfound] at hres
        cases hres
      | some found => exact ⟨found.1, found.2, (hmultisig _ _).1 hfound⟩

end TrezorClient

/-- The two recognisers find exactly the multisig scripts, and the same of each,
outside the scripts that `parse_multisig` misreads, where the xpubs that the driver
looks for lead to the keys. -/
theorem parseMultisig_exact_iff (R : Runtime) (txXpubs hdKeypaths : Dict Bytes KeyOriginInfo)
    (script : Bytes) :
    Recognised script (parseMultisig script) ∧
        TrezorClient.Reported R script
          (TrezorClient.parseMultisig R script txXpubs hdKeypaths) ↔
      ¬MultisigMisread script ∧ ∀ m keys, IsMultisig script m keys → ∀ key ∈ keys, ∀ derivation,
        hdKeypaths.get? key = some derivation →
          TrezorClient.LeadsTo R key derivation txXpubs.items := by
  rw [← recognised_iff]
  exact and_congr_right TrezorClient.reported_iff

/-- The script `OP_1`, with nothing behind it. -/
theorem parseMultisig_cut : ¬Recognised [0x51] (parseMultisig [0x51]) :=
  not_recognised_error rfl

end Hwi
