import Hwi.Format.Serialize

/-! What the readers of `_serialize.py` do on a complete encoding, and what an
arbitrary stream looks like when they succeed on it. -/

namespace Hwi

open Reader

/-! ### Complete encodings -/

theorem exactly_read {n : ℕ} {ts : Bytes} (h : ts.length = n) : Exactly (read n) ts ts := by
  intro rest
  rw [read, List.take_left' h, List.drop_left' h]

theorem exactly_readAnnounced (R : Runtime) {s : Bytes} (h : s.length ≤ maxBytes) :
    Exactly (readAnnounced R s.length) s s := by
  intro rest
  have hthere : ¬((s ++ rest).length < s.length ∧ R.memory < s.length) := by
    rw [List.length_append]
    omega
  rw [readAnnounced, if_neg (by omega), if_neg hthere, List.take_left' rfl, List.drop_left' rfl]

theorem exactly_readInt {k n : ℕ} (hn : n < 256 ^ k) : Exactly (readInt k) (toLE k n) n := by
  refine Exactly.bind_nil (exactly_read (toLE_length k n)) ?_
  rw [unpack, if_pos (toLE_length k n), ofLE_toLE hn]
  exact exactly_pure n

theorem exactly_readSigned {k : ℕ} {n : ℤ} (hn : SignedFits k n) :
    Exactly (readSigned k) (toSignedLE k n) n := by
  refine Exactly.bind_nil (exactly_read (toSignedLE_length k n)) ?_
  rw [unpackSigned, if_pos (toSignedLE_length k n), ofSignedLE_toSignedLE hn]
  exact exactly_pure n

/-- The first byte of a compact size selects the width of the rest. -/
theorem exactly_compactSize_tail {b : ℕ} {t : Bytes} {n : ℕ} (hb : b < 256)
    (h : Exactly (if b = 253 then readInt 2 else if b = 254 then readInt 4
      else if b = 255 then readInt 8 else pure b) t n) :
    Exactly deserCompactSize (toLE 1 b ++ t) n :=
  (exactly_readInt (by simpa using hb)).bind h

theorem toLE_one {b : ℕ} (hb : b < 256) : toLE 1 b = [UInt8.ofNat b] := by
  simp [toLE, Nat.mod_eq_of_lt hb]

theorem exactly_deserCompactSize {n : ℕ} (h : n < 2 ^ 64) :
    Exactly deserCompactSize (serCompactSize n) n := by
  unfold serCompactSize
  split_ifs with h1 h2 h3
  · have := exactly_compactSize_tail (b := n) (t := []) (n := n) (by omega) (by
      rw [if_neg (by omega), if_neg (by omega), if_neg (by omega)]
      exact exactly_pure n)
    simpa using this
  · exact exactly_compactSize_tail (b := 253) (by decide)
      (exactly_readInt (by omega))
  · exact exactly_compactSize_tail (b := 254) (by decide)
      (exactly_readInt (by omega))
  · exact exactly_compactSize_tail (b := 255) (by decide)
      (exactly_readInt (by omega))

theorem maxBytes_lt : maxBytes < 2 ^ 64 := by decide

theorem exactly_deserString {R : Runtime} {s : Bytes} (h : s.length ≤ maxBytes) :
    Exactly (deserString R) (serString s) s :=
  (exactly_deserCompactSize (h.trans_lt maxBytes_lt)).bind (exactly_readAnnounced R h)

theorem exactly_deserVector {α : Type} {c : Read α} {enc : α → Bytes} {l : List α}
    (hl : l.length < 2 ^ 64) (h : ∀ a ∈ l, Exactly c (enc a) a) :
    Exactly (deserVector c) (serCompactSize l.length ++ l.flatMap enc) l :=
  (exactly_deserCompactSize hl).bind (exactly_readN h)

theorem exactly_deserStringVector {R : Runtime} {v : List Bytes} (hv : v.length < 2 ^ 64)
    (h : ∀ s ∈ v, s.length ≤ maxBytes) : Exactly (deserStringVector R) (serStringVector v) v :=
  exactly_deserVector hv fun s hs => exactly_deserString (h s hs)

/-- Writing the low words one after the other writes the low bytes. -/
theorem flatMap_words (u k : ℕ) :
    ((List.range k).flatMap fun i => toLE 4 (u >>> (32 * i))) = toLE (4 * k) u := by
  induction k with
  | zero => rfl
  | succ k ih =>
    have hpow : 2 ^ (32 * k) = 256 ^ (4 * k) := by
      rw [show (256 : ℕ) = 2 ^ 8 from rfl, ← pow_mul]
      congr 1
      omega
    rw [List.range_succ, List.flatMap_append, ih, Nat.mul_succ, toLE_add]
    simp [Nat.shiftRight_eq_div_pow, hpow]

theorem serUint256_eq (u : ℕ) : serUint256 u = toLE 32 u := flatMap_words u 8

@[simp] theorem serUint256_length (u : ℕ) : (serUint256 u).length = 32 := by
  rw [serUint256_eq, toLE_length]

/-- Adding up the low words gives the number they are cut from. -/
theorem ofWords_words (u k : ℕ) :
    ofWords ((List.range k).map fun i => (u >>> (32 * i)) % 2 ^ 32) = u % 2 ^ (32 * k) := by
  induction k generalizing u with
  | zero => simp [ofWords, Nat.mod_one]
  | succ k ih =>
    have hshift (i : ℕ) : u >>> (32 * (i + 1)) = (u / 2 ^ 32) >>> (32 * i) := by
      rw [← Nat.shiftRight_eq_div_pow, ← Nat.shiftRight_add, Nat.mul_succ, Nat.add_comm]
    have hmap : ((List.range (k + 1)).map fun i => (u >>> (32 * i)) % 2 ^ 32) =
        u % 2 ^ 32 :: (List.range k).map fun i => ((u / 2 ^ 32) >>> (32 * i)) % 2 ^ 32 := by
      rw [List.range_succ_eq_map, List.map_cons, List.map_map, Nat.mul_zero, Nat.shiftRight_zero]
      congr 1
      apply List.map_congr_left
      intro i _
      rw [Function.comp_apply, Nat.succ_eq_add_one, hshift]
    rw [hmap, ofWords, ih, Nat.mul_succ, Nat.add_comm (32 * k), pow_add, Nat.mod_mul]

theorem exactly_deserUint256 {u : ℕ} (h : u < 2 ^ 256) :
    Exactly deserUint256 (serUint256 u) u := by
  have hwords := exactly_readN (r := readInt 4) (g := toLE 4)
    (l := (List.range 8).map fun i => (u >>> (32 * i)) % 2 ^ 32) (by
      intro a ha
      obtain ⟨i, _, rfl⟩ := List.mem_map.1 ha
      exact exactly_readInt (by
        rw [show (256 : ℕ) ^ 4 = 2 ^ 32 by norm_num]
        exact Nat.mod_lt _ (by positivity)))
  have hmod (n : ℕ) : toLE 4 (n % 2 ^ 32) = toLE 4 n := by
    rw [show (2 : ℕ) ^ 32 = 256 ^ 4 by norm_num, toLE_mod]
  simp only [List.flatMap_map, hmod, List.length_map, List.length_range] at hwords
  have hread := hwords.bind_pure (f := ofWords)
  have hsum : u % 2 ^ (32 * 8) = u := Nat.mod_eq_of_lt h
  rw [ofWords_words, hsum] at hread
  exact hread

/-! ### Arbitrary streams -/

theorem read_eq_ok {n : ℕ} {f f' b : Bytes} :
    read n f = .ok b f' ↔ b = f.take n ∧ f' = f.drop n := by
  rw [read, EStateM.Result.ok.injEq]
  exact and_congr eq_comm eq_comm

theorem readAnnounced_eq_ok {R : Runtime} {n : ℕ} {f f' b : Bytes} :
    readAnnounced R n f = .ok b f' ↔ Readable R n f ∧ b = f.take n ∧ f' = f.drop n := by
  unfold readAnnounced
  split_ifs with hfits hroom
  · refine iff_of_false (fun h => (by cases h)) fun h => ?_
    have := h.1.fits
    omega
  · refine iff_of_false (fun h => (by cases h)) fun h => ?_
    have := h.1.room
    omega
  · rw [EStateM.Result.ok.injEq]
    constructor
    · rintro ⟨rfl, rfl⟩
      exact ⟨⟨by omega, by omega⟩, rfl, rfl⟩
    · rintro ⟨-, rfl, rfl⟩
      exact ⟨rfl, rfl⟩

theorem shrinks_read (n : ℕ) : Shrinks (read n) := fun f => List.drop_suffix n f

theorem shrinks_readAnnounced (R : Runtime) (n : ℕ) : Shrinks (readAnnounced R n) := by
  intro f
  unfold readAnnounced
  split_ifs
  · exact List.suffix_refl f
  · exact List.suffix_refl f
  · exact List.drop_suffix n f

theorem shrinks_readInt (k : ℕ) : Shrinks (readInt k) :=
  (shrinks_read k).bind fun b => shrinks_ofExcept (unpack k b)

theorem shrinks_deserCompactSize : Shrinks deserCompactSize := by
  refine (shrinks_readInt 1).bind fun nit => ?_
  split_ifs
  · exact shrinks_readInt 2
  · exact shrinks_readInt 4
  · exact shrinks_readInt 8
  · exact shrinks_pure nit

theorem shrinks_deserString (R : Runtime) : Shrinks (deserString R) :=
  shrinks_deserCompactSize.bind (shrinks_readAnnounced R)

/-- An integer is only read when all its bytes are there. -/
theorem readInt_eq_ok {k n : ℕ} {f f' : Bytes} (h : readInt k f = .ok n f') :
    n < 256 ^ k ∧ f = toLE k n ++ f' := by
  obtain ⟨b, f₁, hr, hb⟩ := Reader.bind_eq_ok.1 h
  obtain ⟨rfl, rfl⟩ := read_eq_ok.1 hr
  obtain ⟨hu, rfl⟩ := ofExcept_eq_ok.1 hb
  unfold unpack at hu
  split_ifs at hu with hlen
  cases hu
  have hlt := ofLE_lt (f.take k)
  rw [hlen] at hlt
  refine ⟨hlt, ?_⟩
  rw [toLE_ofLE_of_length hlen, List.take_append_drop]

theorem determined_readInt (k : ℕ) : Determined (readInt k) := by
  intro f n f' h
  obtain ⟨hlt, rfl⟩ := readInt_eq_ok h
  exact ⟨toLE k n, rfl, exactly_readInt hlt⟩

theorem determined_deserCompactSize : Determined deserCompactSize := by
  refine (determined_readInt 1).bind fun nit => ?_
  split_ifs
  · exact determined_readInt 2
  · exact determined_readInt 4
  · exact determined_readInt 8
  · exact determined_pure nit

theorem Announces.ne_nil {p : Bytes} {n : ℕ} (h : Announces p n) : p ≠ [] := by
  rintro rfl
  have h' := h.run
  cases h'

theorem deserCompactSize_eq_ok {f f' : Bytes} {n : ℕ} (h : deserCompactSize f = .ok n f') :
    ∃ p, f = p ++ f' ∧ Announces p n := determined_deserCompactSize f n f' h

theorem deserString_eq_ok_iff {R : Runtime} {s s' v : Bytes} : deserString R s = .ok v s' ↔
    ∃ n s₁, deserCompactSize s = .ok n s₁ ∧ Readable R n s₁ ∧ v = s₁.take n ∧ s' = s₁.drop n := by
  rw [deserString, Reader.bind_eq_ok]
  simp only [readAnnounced_eq_ok]

theorem deserString_eq_ok {R : Runtime} {f f' s : Bytes} (h : deserString R f = .ok s f') :
    ∃ p n f₁, f = p ++ f₁ ∧ Announces p n ∧ Readable R n f₁ ∧ s = f₁.take n ∧ f' = f₁.drop n := by
  obtain ⟨n, f₁, hn, hr⟩ := deserString_eq_ok_iff.1 h
  obtain ⟨p, hf, hp⟩ := deserCompactSize_eq_ok hn
  exact ⟨p, n, f₁, hf, hp, hr⟩

end Hwi
