import Hwi.Format.Derivation
import Hwi.Proofs.Values

/-! When derivation records are decoded exactly. A read past the end of a value returns
what is left of it. -/

namespace Hwi

open Reader

/-! ### Origins -/

theorem unpackWords_eq_ok : ∀ {s : Bytes} {words : List ℕ}, unpackWords s = .ok words →
    pathBytes (words.map Int.ofNat) = s ∧ ∀ i ∈ words.map Int.ofNat, 0 ≤ i ∧ i < 2 ^ 32
  | [], words, h => by
    cases h
    exact ⟨rfl, by simp⟩
  | [_], _, h | [_, _], _, h | [_, _, _], _, h => by cases h
  | a :: b :: c :: d :: s, words, h => by
    obtain ⟨rest, hrest, h⟩ := bind_eq_ok.1 h
    cases h
    obtain ⟨hbytes, hlt⟩ := unpackWords_eq_ok hrest
    have hword : ofLE [a, b, c, d] < 2 ^ 32 := (ofLE_lt [a, b, c, d]).trans_eq (by norm_num)
    refine ⟨?_, ?_⟩
    · rw [List.map_cons, pathBytes_cons, hbytes]
      exact congrArg (· ++ s) (toLE_ofLE [a, b, c, d])
    · intro i hi
      rcases List.mem_cons.1 hi with rfl | hi
      · refine ⟨Int.natCast_nonneg _, ?_⟩
        rw [Int.ofNat_eq_natCast]
        exact_mod_cast hword
      · exact hlt i hi

/-- Less than a fingerprint is a fingerprint without a path. -/
theorem deserialize_short {v : Bytes} (h : v.length < 4) : KeyOriginInfo.deserialize v = .ok ⟨v, []⟩ := by
  rw [KeyOriginInfo.deserialize, List.drop_eq_nil_of_le (by omega), List.take_of_length_le (by omega)]
  rfl

/-- Words of four bytes are all read. -/
theorem unpackWords_whole : ∀ s : Bytes, s.length % 4 = 0 → ∃ words, unpackWords s = .ok words
  | [], _ => ⟨[], rfl⟩
  | [_], h | [_, _], h | [_, _, _], h => by cases h
  | a :: b :: c :: d :: s, h => by
    obtain ⟨words, hwords⟩ := unpackWords_whole s (by simp only [List.length_cons] at h; omega)
    exact ⟨ofLE [a, b, c, d] :: words, by rw [unpackWords, hwords]; rfl⟩

theorem deserialize_whole {v : Bytes} (h : v.length % 4 = 0) :
    ∃ origin, KeyOriginInfo.deserialize v = .ok origin := by
  obtain ⟨words, hwords⟩ := unpackWords_whole (v.drop 4) (by rw [List.length_drop]; omega)
  exact ⟨_, by rw [KeyOriginInfo.deserialize, hwords]; rfl⟩

theorem originValue_of_deserialize {v : Bytes} {origin : KeyOriginInfo} (hlen : 4 ≤ v.length)
    (h : KeyOriginInfo.deserialize v = .ok origin) : OriginValue v origin := by
  obtain ⟨words, hwords, h⟩ := bind_eq_ok.1 h
  cases h
  obtain ⟨hbytes, hlt⟩ := unpackWords_eq_ok hwords
  refine ⟨?_, hlt, ?_⟩
  · rw [List.length_take]
    omega
  · rw [hbytes, List.take_append_drop]

theorem OriginValue.serialize {v : Bytes} {origin : KeyOriginInfo} (h : OriginValue v origin) :
    origin.serialize = .ok v := by
  rw [KeyOriginInfo.serialize_ok ⟨Or.inl h.fingerprint, h.path⟩, h.value]
  rfl

theorem OriginValue.length {v : Bytes} {origin : KeyOriginInfo} (h : OriginValue v origin) :
    4 ≤ v.length := by
  have hfingerprint := h.fingerprint
  rw [h.value, List.length_append]
  omega

theorem exactOrigin_iff (v : Bytes) : ExactOrigin v ↔ 4 ≤ v.length := by
  constructor
  · intro h
    by_contra hlt
    have hshort := deserialize_short (show v.length < 4 by omega)
    exact hlt (h _ hshort).1.length
  · intro hlen origin h
    have hvalue := originValue_of_deserialize hlen h
    exact ⟨hvalue, hvalue.serialize⟩

/-! ### Counts -/

theorem Counted.exactly {v s : Bytes} {n : ℕ} (h : Counted v n s) : deserCompactSize v = .ok n s := by
  cases h with
  | one h =>
    have hread := exactly_deserCompactSize (show n < 2 ^ 64 by omega) s
    rwa [serCompactSize, if_pos h] at hread
  | two h => exact exactly_compactSize_tail (b := 253) (by decide) (exactly_readInt (by omega)) s
  | four h => exact exactly_compactSize_tail (b := 254) (by decide) (exactly_readInt (by omega)) s
  | eight h => exact exactly_compactSize_tail (b := 255) (by decide) (exactly_readInt (by omega)) s

/-- The count that is read is one of the four forms. -/
theorem counted_of_ok {v s : Bytes} {n : ℕ} (h : deserCompactSize v = .ok n s) : Counted v n s := by
  obtain ⟨nit, t, hnit, hrest⟩ := Reader.bind_eq_ok.1 h
  obtain ⟨hlt, rfl⟩ := readInt_eq_ok hnit
  clear h hnit
  split_ifs at hrest with h253 h254 h255
  · obtain ⟨hn, rfl⟩ := readInt_eq_ok hrest
    rw [h253]
    exact .two (by omega)
  · obtain ⟨hn, rfl⟩ := readInt_eq_ok hrest
    rw [h254]
    exact .four (by omega)
  · obtain ⟨hn, rfl⟩ := readInt_eq_ok hrest
    rw [h255]
    exact .eight (by omega)
  · cases hrest
    exact .one (by omega)

theorem Counted.lt {v s : Bytes} {n : ℕ} (h : Counted v n s) : n < 2 ^ 64 := by
  cases h with
  | one h | two h | four h | eight h => omega

theorem Counted.length_lt {v s : Bytes} {n : ℕ} (h : Counted v n s) : s.length < v.length := by
  cases h with
  | one _ | two _ | four _ | eight _ =>
    simp only [List.length_cons, List.length_append, toLE_length]
    omega

/-! ### Leaf hashes -/

/-- With enough bytes the hashes are those of the value. -/
theorem cutHashes_complete {n : ℕ} {s : Bytes} (h : 32 * n ≤ s.length) :
    (∀ a ∈ cutHashes n s, a.length = 32) ∧ (cutHashes n s).flatten ++ s.drop (32 * n) = s := by
  induction n generalizing s with
  | zero => exact ⟨fun a ha => absurd ha List.not_mem_nil, rfl⟩
  | succ n ih =>
    obtain ⟨hall, hjoin⟩ := ih (s := s.drop 32) (by rw [List.length_drop]; omega)
    rw [cutHashes]
    refine ⟨List.forall_mem_cons.2 ⟨?_, hall⟩, ?_⟩
    · rw [List.length_take]
      omega
    · rw [List.drop_drop] at hjoin
      rw [List.flatten_cons, List.append_assoc, Nat.mul_succ, Nat.add_comm, hjoin, List.take_append_drop]

theorem tapBip32Value_eq {v s : Bytes} {n : ℕ} (h : deserCompactSize v = .ok n s) :
    tapBip32Value v = (KeyOriginInfo.deserialize (s.drop (32 * n))).map fun origin =>
      ((cutHashes n s).foldl OrderedSet.add ∅, origin) := by
  have hall : readAll (s.drop (32 * n)) = .ok (s.drop (32 * n)) [] := rfl
  unfold tapBip32Value runOn
  rw [bind_apply, h]
  dsimp only
  rw [bind_apply, readN_hashes]
  dsimp only
  rw [bind_apply, hall]
  dsimp only
  rw [bind_apply]
  cases KeyOriginInfo.deserialize (s.drop (32 * n)) with
  | ok origin => rfl
  | error e => rfl

theorem tapBip32Value_eq_ok {v : Bytes} {leafHashes : OrderedSet Bytes} {origin : KeyOriginInfo}
    (h : tapBip32Value v = .ok (leafHashes, origin)) : ∃ n s, deserCompactSize v = .ok n s ∧
      leafHashes = (cutHashes n s).foldl OrderedSet.add ∅ ∧
      KeyOriginInfo.deserialize (s.drop (32 * n)) = .ok origin := by
  cases hcount : deserCompactSize v with
  | error e s =>
    unfold tapBip32Value runOn at h
    rw [bind_apply, hcount] at h
    cases h
  | ok n s =>
    rw [tapBip32Value_eq hcount] at h
    cases horigin : KeyOriginInfo.deserialize (s.drop (32 * n)) with
    | error e =>
      rw [horigin] at h
      cases h
    | ok o =>
      rw [horigin] at h
      cases h
      exact ⟨n, s, rfl, rfl, horigin⟩

/-- A value in its form has a count in its shortest form. -/
theorem TapPathValue.count {v packed : Bytes} {hashes : List Bytes} {origin : KeyOriginInfo}
    (h : TapPathValue v hashes packed origin) :
    deserCompactSize v = .ok hashes.length (hashes.flatten ++ packed) := by
  rw [h.value]
  exact exactly_deserCompactSize h.size _

/-! ### Exact values -/

theorem exactTapPath_of_room {R : Runtime} {v : Bytes} (h : TapPathRoom v) : ExactTapPath R v := by
  refine ⟨fun n s hcount => ?_, fun leafHashes origin hok => ?_⟩
  · have hcounted := counted_of_ok hcount
    have hroom := (h n s hcounted).1
    have hlt := hcounted.length_lt
    omega
  · obtain ⟨n, s, hcount, rfl, horigin⟩ := tapBip32Value_eq_ok hok
    have hcounted := counted_of_ok hcount
    obtain ⟨hroom, hshortest⟩ := h n s hcounted
    obtain ⟨hall, hjoin⟩ := cutHashes_complete (show 32 * n ≤ s.length by omega)
    have hlen : 4 ≤ (s.drop (32 * n)).length := by
      rw [List.length_drop]
      omega
    have hvalue := originValue_of_deserialize hlen horigin
    have hfour : s.length % 4 = 0 := by
      have hpacked := congrArg List.length hvalue.value
      have hpath : (pathBytes origin.path).length % 4 = 0 := by
        rw [pathBytes_length]
        omega
      rw [List.length_append, hvalue.fingerprint, List.length_drop] at hpacked
      omega
    refine ⟨cutHashes n s, s.drop (32 * n), ⟨?_, hall, hvalue, ?_⟩, ?_⟩
    · rw [cutHashes_length]
      exact hcounted.lt
    · rw [cutHashes_length, hjoin]
      exact hshortest hfour
    · set leafHashes := (cutHashes n s).foldl OrderedSet.add ∅ with hset
      have hperm := R.setOrder_perm leafHashes.elems
      refine ⟨R.setOrder leafHashes.elems, ?_, hperm.nodup_iff.2 leafHashes.nodup, fun a => ?_⟩
      · rw [serTapBip32Value, hvalue.serialize, hperm.length_eq, ← List.append_assoc]
        rfl
      · have hmem : a ∈ leafHashes ↔ a ∈ cutHashes n s ∨ a ∈ (∅ : OrderedSet Bytes) :=
          OrderedSet.mem_foldl_add
        rw [hperm.mem_iff, ← OrderedSet.mem_def, hmem, or_iff_left (OrderedSet.not_mem_empty a)]

/-- An accepted value that is in its form has room for what it announces. -/
theorem room_of_exactTapPath {R : Runtime} {v : Bytes} (h : ExactTapPath R v) : TapPathRoom v := by
  intro n s hcounted
  have hcount := hcounted.exactly
  have hform (origin : KeyOriginInfo) (horigin : KeyOriginInfo.deserialize (s.drop (32 * n)) = .ok origin) :
      32 * n + 4 ≤ s.length ∧ v = serCompactSize n ++ s := by
    have hok := tapBip32Value_eq hcount
    rw [horigin] at hok
    obtain ⟨hashes, packed, hvalue, -⟩ := h.2 _ _ hok
    have hsame := hvalue.count
    rw [hcount] at hsame
    cases hsame
    have hpacked := hvalue.origin.length
    refine ⟨?_, hvalue.value⟩
    rw [List.length_append, flatten_length hvalue.hashLength]
    omega
  by_cases hshort : (s.drop (32 * n)).length < 4
  · exact ⟨(hform _ (deserialize_short hshort)).1, fun _ => (hform _ (deserialize_short hshort)).2⟩
  · rw [List.length_drop] at hshort
    refine ⟨by omega, fun hfour => ?_⟩
    obtain ⟨origin, horigin⟩ := deserialize_whole (v := s.drop (32 * n)) (by rw [List.length_drop]; omega)
    exact (hform origin horigin).2

/-- Derivation records are decoded exactly when they are at least a fingerprint, and the
taproot ones when they have room for the hashes they announce. -/
theorem derivation_exact_iff (R : Runtime) :
    (∀ v, ExactOrigin v ↔ 4 ≤ v.length) ∧ ∀ v, ExactTapPath R v ↔ TapPathRoom v :=
  ⟨exactOrigin_iff, fun _ => ⟨room_of_exactTapPath, exactTapPath_of_room⟩⟩

/-- An empty record is accepted as an origin, and a count without its hash as a path. -/
theorem derivation_empty : KeyOriginInfo.deserialize [] = .ok ⟨[], []⟩ ∧
    tapBip32Value [0x01] = .ok (OrderedSet.add ∅ [], ⟨[], []⟩) ∧
    ¬((∀ v, ExactOrigin v) ∧ ∀ R v, ExactTapPath R v) := by
  refine ⟨rfl, by decide, fun h => ?_⟩
  exact absurd ((exactOrigin_iff []).1 (h.1 [])) (by decide)

end Hwi
