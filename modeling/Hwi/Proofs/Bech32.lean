import Hwi.Lib.Alphabet
import Hwi.Lib.Digits
import Hwi.Lib.Result
import Hwi.Spec.Bech32

/-! Segwit addresses read back as the program they were made of: the checksum by
its linearity, the regrouping of bits by the number the bits stand for. -/

namespace Hwi

namespace Bech32

/-! ### The checksum -/

theorem applyGenerators_xor : ∀ (gs : List ℕ) (s t c d : ℕ),
    applyGenerators gs (s ^^^ t) (c ^^^ d) = applyGenerators gs s c ^^^ applyGenerators gs t d
  | [], s, t, c, d => rfl
  | g :: gs, s, t, c, d => by
    have hbit : (if (s ^^^ t) &&& 1 = 1 then g else 0) =
        (if s &&& 1 = 1 then g else 0) ^^^ if t &&& 1 = 1 then g else 0 := by
      rw [Nat.and_xor_distrib_right]
      rcases Nat.mod_two_eq_zero_or_one s with hs | hs
      all_goals
        rcases Nat.mod_two_eq_zero_or_one t with ht | ht
        all_goals simp [Nat.and_one_is_mod, hs, ht]
    unfold applyGenerators
    rw [Nat.shiftRight_xor_distrib, hbit, ← applyGenerators_xor gs]
    congr 1
    ac_rfl

theorem polymodStep_xor (c d v w : ℕ) :
    polymodStep (c ^^^ d) (v ^^^ w) = polymodStep c v ^^^ polymodStep d w := by
  unfold polymodStep
  rw [← applyGenerators_xor, Nat.shiftRight_xor_distrib, Nat.and_xor_distrib_right,
    Nat.shiftLeft_xor_distrib]
  congr 1
  ac_rfl

/-- The checksum state is linear in the start and the values. -/
theorem foldl_polymodStep_xor : ∀ (vs ws : List ℕ) (c d : ℕ), vs.length = ws.length →
    (List.zipWith (· ^^^ ·) vs ws).foldl polymodStep (c ^^^ d) =
      vs.foldl polymodStep c ^^^ ws.foldl polymodStep d
  | [], [], c, d, h => rfl
  | v :: vs, w :: ws, c, d, h => by
    rw [List.zipWith_cons_cons, List.foldl_cons, List.foldl_cons, List.foldl_cons, polymodStep_xor]
    exact foldl_polymodStep_xor vs ws _ _ (Nat.succ.inj h)

theorem applyGenerators_zero : ∀ (gs : List ℕ) (c : ℕ), applyGenerators gs 0 c = c
  | [], c => rfl
  | g :: gs, c => by
    unfold applyGenerators
    rw [Nat.zero_shiftRight, Nat.zero_and, if_neg Nat.zero_ne_one, Nat.xor_zero]
    exact applyGenerators_zero gs c

theorem shiftLeft_xor_of_lt {v n : ℕ} (c : ℕ) (h : v < 2 ^ n) : c <<< n ^^^ v = c * 2 ^ n + v := by
  refine Nat.eq_of_testBit_eq fun i => ?_
  rw [Nat.mul_comm, Nat.testBit_two_pow_mul_add c h, Nat.testBit_xor, Nat.testBit_shiftLeft]
  by_cases hi : i < n
  · simp [hi, not_le.2 hi]
  · rw [Nat.testBit_lt_two_pow (h.trans_le (Nat.pow_le_pow_right Nat.two_pos (not_lt.1 hi)))]
    simp [hi, not_lt.1 hi]

/-- A small state takes a value in as its lowest digit. -/
theorem polymodStep_of_lt {c v : ℕ} (hc : c < 2 ^ 25) (hv : v < 2 ^ 5) :
    polymodStep c v = c * 32 + v := by
  have htop : c >>> 25 = 0 := by
    rw [Nat.shiftRight_eq_div_pow]
    exact Nat.div_eq_of_lt hc
  have hlow : c &&& 0x1ffffff = c := by
    rw [show 0x1ffffff = 2 ^ 25 - 1 from rfl, Nat.and_two_pow_sub_one_eq_mod]
    exact Nat.mod_eq_of_lt hc
  rw [polymodStep, htop, applyGenerators_zero, hlow, shiftLeft_xor_of_lt c hv]
  rfl

theorem applyGenerators_lt : ∀ {gs : List ℕ} {t c : ℕ}, (∀ g ∈ gs, g < 2 ^ 30) → c < 2 ^ 30 →
    applyGenerators gs t c < 2 ^ 30
  | [], t, c, hgs, hc => hc
  | g :: gs, t, c, hgs, hc => by
    unfold applyGenerators
    refine applyGenerators_lt (fun g' hg' => hgs g' (List.mem_cons_of_mem g hg')) ?_
    refine Nat.xor_lt_two_pow hc ?_
    split_ifs
    · exact hgs g List.mem_cons_self
    · exact Nat.two_pow_pos 30

theorem polymodStep_lt {v : ℕ} (c : ℕ) (hv : v < 2 ^ 5) : polymodStep c v < 2 ^ 30 := by
  refine applyGenerators_lt (by decide) (Nat.xor_lt_two_pow ?_ (hv.trans (by decide)))
  rw [show 0x1ffffff = 2 ^ 25 - 1 from rfl, Nat.and_two_pow_sub_one_eq_mod, Nat.shiftLeft_eq]
  have hlt := Nat.mod_lt c (Nat.two_pow_pos 25)
  omega

/-- The six characters of a number of thirty bits. -/
def checksumDigits (n : ℕ) : List ℕ := (List.range 6).map fun i => n >>> (5 * (5 - i)) &&& 31

theorem checksumDigits_lt {n d : ℕ} (h : d ∈ checksumDigits n) : d < 32 := by
  obtain ⟨i, -, rfl⟩ := List.mem_map.1 h
  exact (Nat.and_le_right).trans_lt (by decide)

theorem ofBE_checksumDigits {n : ℕ} (h : n < 2 ^ 30) : ofBE 32 (checksumDigits n) = n := by
  have hdigit (k : ℕ) : n >>> k &&& 31 = n / 2 ^ k % 32 := by
    rw [show 31 = 2 ^ 5 - 1 from rfl, Nat.and_two_pow_sub_one_eq_mod, Nat.shiftRight_eq_div_pow]
  have heq : checksumDigits n = [n / 2 ^ 25 % 32, n / 2 ^ 20 % 32, n / 2 ^ 15 % 32,
      n / 2 ^ 10 % 32, n / 2 ^ 5 % 32, n / 2 ^ 0 % 32] := by
    simp only [checksumDigits, hdigit, List.range_succ, List.range_zero, List.nil_append,
      List.map_cons, List.map_nil, List.cons_append]
  rw [heq]
  simp only [ofBE_cons, ofBE_nil, List.length_cons, List.length_nil]
  omega

/-- Small values taken in one by one are the digits of the state. -/
theorem foldl_polymodStep_of_lt : ∀ {vs : List ℕ} {c : ℕ}, (∀ v ∈ vs, v < 32) →
    (c + 1) * 32 ^ vs.length ≤ 2 ^ 30 →
      vs.foldl polymodStep c = c * 32 ^ vs.length + ofBE 32 vs
  | [], c, hvs, hc => by simp
  | v :: vs, c, hvs, hc => by
    have hv := hvs v List.mem_cons_self
    rw [List.length_cons, pow_succ'] at hc
    have hsmall : c < 2 ^ 25 := by
      have hone := Nat.one_le_pow vs.length 32 (by omega)
      have hle : (c + 1) * 32 ≤ (c + 1) * (32 * 32 ^ vs.length) := by
        refine Nat.mul_le_mul_left (c + 1) ?_
        omega
      omega
    have hnext : (c * 32 + v + 1) * 32 ^ vs.length ≤ 2 ^ 30 := by
      refine le_trans ?_ hc
      rw [← mul_assoc]
      refine Nat.mul_le_mul_right _ ?_
      omega
    rw [List.foldl_cons, polymodStep_of_lt hsmall hv,
      foldl_polymodStep_of_lt (fun w hw => hvs w (List.mem_cons_of_mem v hw)) hnext, ofBE_cons,
      List.length_cons]
    ring

theorem foldl_checksumDigits {n : ℕ} (h : n < 2 ^ 30) :
    (checksumDigits n).foldl polymodStep 0 = n := by
  rw [foldl_polymodStep_of_lt (fun _ => checksumDigits_lt), ofBE_checksumDigits h, Nat.zero_mul,
    Nat.zero_add]
  rw [checksumDigits, List.length_map, List.length_range]
  decide

theorem checksumConst_lt (encoding : Encoding) : checksumConst encoding < 2 ^ 30 := by
  cases encoding <;> decide

/-- The checksum of values brings their state to a constant below `2 ^ 30`. -/
theorem polymod_append_checksumDigits (values : List ℕ) {const : ℕ} (hconst : const < 2 ^ 30) :
    polymod (values ++ checksumDigits (polymod (values ++ [0, 0, 0, 0, 0, 0]) ^^^ const)) = const := by
  have hlt : polymod (values ++ [0, 0, 0, 0, 0, 0]) < 2 ^ 30 := by
    unfold polymod
    rw [List.foldl_append]
    exact polymodStep_lt _ (by decide)
  have hdigits := foldl_checksumDigits (Nat.xor_lt_two_pow hlt hconst)
  generalize hn : polymod (values ++ [0, 0, 0, 0, 0, 0]) = n at hlt hdigits ⊢
  have hlinear := foldl_polymodStep_xor [0, 0, 0, 0, 0, 0] (checksumDigits (n ^^^ const))
    (polymod values) 0 rfl
  have hzip : List.zipWith (· ^^^ ·) [0, 0, 0, 0, 0, 0] (checksumDigits (n ^^^ const)) =
      checksumDigits (n ^^^ const) := by
    simp [checksumDigits, List.range_succ]
  unfold polymod at hn hlinear ⊢
  rw [List.foldl_append] at hn ⊢
  rw [hzip, Nat.xor_zero, hn, hdigits] at hlinear
  rw [hlinear, ← Nat.xor_assoc, Nat.xor_self, Nat.zero_xor]

/-- Data with its checksum verifies. -/
theorem verifyChecksum_createChecksum (encoding : Encoding) (hrp : Str) (data : List ℕ) :
    verifyChecksum hrp (data ++ createChecksum encoding hrp data) = some encoding := by
  have hcheck := polymod_append_checksumDigits (hrpExpand hrp ++ data) (checksumConst_lt encoding)
  have hcreate : createChecksum encoding hrp data = checksumDigits
      (polymod (hrpExpand hrp ++ data ++ [0, 0, 0, 0, 0, 0]) ^^^ checksumConst encoding) := rfl
  rw [verifyChecksum, ← List.append_assoc, hcreate, hcheck]
  cases encoding <;> rfl

/-! ### Characters -/

theorem charset_eq : CHARSET = ['q', 'p', 'z', 'r', 'y', '9', 'x', '8', 'g', 'f', '2', 't', 'v', 'd',
    'w', '0', 's', '3', 'j', 'n', '5', '4', 'k', 'h', 'c', 'e', '6', 'm', 'u', 'a', '7', 'l'] := by
  unfold CHARSET
  simp only [String.reduceToList]

theorem charset_nodup : CHARSET.Nodup := by
  rw [charset_eq]
  decide

theorem charset_spec {d : ℕ} (h : d < 32) :
    CHARSET.getD d 'q' ∈ CHARSET ∧ CHARSET.idxOf (CHARSET.getD d 'q') = d := by
  have hlt : d < CHARSET.length := by rwa [charset_eq]
  exact ⟨Alphabet.getD_mem 'q' hlt, Alphabet.idxOf_getD 'q' charset_nodup hlt⟩

/-- A character that can be part of a lower case address. -/
def Plain (c : Char) : Prop := 33 ≤ c.toNat ∧ c.toNat ≤ 126 ∧ c.toLower = c

instance (c : Char) : Decidable (Plain c) := inferInstanceAs (Decidable (_ ∧ _))

theorem plain_of_mem_charset {c : Char} (h : c ∈ CHARSET) : Plain c ∧ c ≠ '1' := by
  have hall : ∀ c ∈ CHARSET, Plain c ∧ c ≠ '1' := by simp [charset_eq, Plain]
  exact hall c h

theorem rfind_append {s t : Str} (h : '1' ∉ t) : rfind (s ++ '1' :: t) '1' = some s.length := by
  have hidx : (s ++ '1' :: t).reverse.idxOf? '1' = some t.length := by
    have hnone : t.reverse.idxOf? '1' = none := by
      rw [List.idxOf?_eq_none_iff, List.mem_reverse]
      exact h
    unfold List.idxOf? at hnone ⊢
    rw [List.reverse_append, List.reverse_cons, List.append_assoc, List.findIdx?_append, hnone,
      Option.none_or, List.singleton_append, List.findIdx?_cons, List.length_reverse]
    simp
  rw [rfind, hidx, Option.map_some, List.length_append, List.length_cons]
  congr 1
  omega

/-- A string of the data of an address is read back. -/
theorem bech32Decode_bech32Encode (encoding : Encoding) {hrp : Str} {data : List ℕ}
    (hhrp : ∀ c ∈ hrp, Plain c) (hne : hrp ≠ []) (hdata : ∀ d ∈ data, d < 32)
    (hlen : hrp.length + data.length ≤ 83) :
    bech32Decode (bech32Encode encoding hrp data) = some (encoding, hrp, data) := by
  have hcombined : ∀ d ∈ data ++ createChecksum encoding hrp data, d < 32 := by
    intro d hd
    rcases List.mem_append.1 hd with hd | hd
    · exact hdata d hd
    · exact checksumDigits_lt hd
  have hchecksum : (createChecksum encoding hrp data).length = 6 := by
    simp [createChecksum]
  unfold bech32Encode
  simp only
  generalize hchars : (data ++ createChecksum encoding hrp data).map (fun d => CHARSET.getD d 'q') =
    chars
  have hcharset : ∀ c ∈ chars, c ∈ CHARSET := by
    intro c hc
    rw [← hchars] at hc
    obtain ⟨d, hd, rfl⟩ := List.mem_map.1 hc
    exact (charset_spec (hcombined d hd)).1
  have hback : chars.map CHARSET.idxOf = data ++ createChecksum encoding hrp data := by
    rw [← hchars, List.map_map]
    refine (List.map_congr_left fun d hd => ?_).trans (List.map_id _)
    exact (charset_spec (hcombined d hd)).2
  have hcharsLen : chars.length = data.length + 6 := by
    rw [← hchars, List.length_map, List.length_append, hchecksum]
  have hplain : ∀ c ∈ hrp ++ '1' :: chars, Plain c := by
    intro c hc
    rw [List.mem_append, List.mem_cons] at hc
    rcases hc with hc | rfl | hc
    · exact hhrp c hc
    · decide
    · exact (plain_of_mem_charset (hcharset c hc)).1
  have hlower : (hrp ++ '1' :: chars).map Char.toLower = hrp ++ '1' :: chars :=
    (List.map_congr_left fun c hc => (hplain c hc).2.2).trans (List.map_id _)
  have hrange : (hrp ++ '1' :: chars).any (fun x => x.toNat < 33 ∨ 126 < x.toNat) = false := by
    rw [List.any_eq_false]
    intro c hc
    obtain ⟨hmin, hmax, -⟩ := hplain c hc
    rw [decide_eq_true_iff]
    omega
  have hone : '1' ∉ chars := fun hmem => (plain_of_mem_charset (hcharset '1' hmem)).2 rfl
  have hpos : 0 < hrp.length := List.length_pos_iff.2 hne
  have hdrop : (hrp ++ '1' :: chars).drop (hrp.length + 1) = chars := by
    rw [List.append_cons, List.drop_left' (by simp)]
  have hverify := verifyChecksum_createChecksum encoding hrp data
  rw [← hback] at hverify
  rw [List.append_assoc, List.singleton_append, bech32Decode, hrange, hlower]
  simp only [Bool.false_eq_true, ne_eq, not_true_eq_false, false_and, or_self, if_false]
  rw [rfind_append hone]
  simp only [hdrop]
  rw [if_neg, if_neg, List.take_left, hverify]
  · simp only [hback, List.length_append, hchecksum, Nat.add_sub_cancel, List.take_left]
  · rw [not_not, List.all_eq_true]
    exact fun c hc => decide_eq_true (hcharset c hc)
  · rw [List.length_append, List.length_cons, hcharsLen]
    omega

/-! ### Regrouping bits -/

/-- What is emitted are the leading digits of the bits held, the rest stays. -/
theorem emit_spec {tobits : ℕ} (ht : 0 < tobits) (acc bits : ℕ) :
    (emit tobits acc bits).2 < tobits ∧
      (emit tobits acc bits).2 + tobits * (emit tobits acc bits).1.length = bits ∧
      (∀ d ∈ (emit tobits acc bits).1, d < 2 ^ tobits) ∧
      acc % 2 ^ bits = ofBE (2 ^ tobits) (emit tobits acc bits).1 * 2 ^ (emit tobits acc bits).2 +
        acc % 2 ^ (emit tobits acc bits).2 := by
  induction bits using Nat.strongRecOn with
  | ind bits ih =>
    rw [emit]
    split_ifs with h
    · obtain ⟨hlt, hsum, hdigits, hvalue⟩ := ih (bits - tobits) (by omega)
      simp only
      generalize emit tobits acc (bits - tobits) = r at hlt hsum hdigits hvalue ⊢
      have hdigit : acc >>> (bits - tobits) &&& (1 <<< tobits - 1) =
          acc / 2 ^ (bits - tobits) % 2 ^ tobits := by
        rw [Nat.one_shiftLeft, Nat.and_two_pow_sub_one_eq_mod, Nat.shiftRight_eq_div_pow]
      rw [hdigit]
      refine ⟨hlt, ?_, ?_, ?_⟩
      · rw [List.length_cons, Nat.mul_add]
        omega
      · intro d hd
        rcases List.mem_cons.1 hd with rfl | hd
        · exact Nat.mod_lt _ (Nat.two_pow_pos tobits)
        · exact hdigits d hd
      · have hpow : 2 ^ bits = 2 ^ (bits - tobits) * 2 ^ tobits := by
          rw [← pow_add]
          congr 1
          omega
        have hpow' : 2 ^ (bits - tobits) = 2 ^ r.2 * (2 ^ tobits) ^ r.1.length := by
          rw [← pow_mul, ← pow_add, hsum]
        rw [hpow, Nat.mod_mul, hvalue, ofBE_cons, hpow']
        ring
    · simp only
      refine ⟨by omega, by simp, fun d hd => absurd hd List.not_mem_nil, by simp⟩


/-- A value is shifted into the bits held. -/
theorem shiftIn (acc : ℕ) {f t bits value : ℕ} (hvalue : value < 2 ^ f) (hbits : bits < t) :
    ((acc <<< f ||| value) &&& (1 <<< (f + t - 1) - 1)) % 2 ^ (bits + f) =
      acc % 2 ^ bits * 2 ^ f + value := by
  have hmod : (acc * 2 ^ f + value) % 2 ^ f = value := by
    rw [Nat.add_comm, Nat.add_mul_mod_self_right, Nat.mod_eq_of_lt hvalue]
  have hdiv : (acc * 2 ^ f + value) / 2 ^ f = acc := by
    rw [Nat.add_comm, Nat.add_mul_div_right _ _ (Nat.two_pow_pos f), Nat.div_eq_of_lt hvalue,
      Nat.zero_add]
  rw [Nat.one_shiftLeft, Nat.and_two_pow_sub_one_eq_mod, ← Nat.shiftLeft_add_eq_or_of_lt hvalue,
    Nat.shiftLeft_eq, Nat.mod_mod_of_dvd _ (Nat.pow_dvd_pow 2 (by omega)), pow_add,
    Nat.mul_comm (2 ^ bits), Nat.mod_mul, hmod, hdiv]
  ring

/-- What the loop appends, with the bits it leaves, are the digits of the number
that the data stand for. -/
theorem convertbitsLoop_spec {f t : ℕ} (ht : 0 < t) : ∀ {data : List ℕ} (acc : ℕ)
    {bits : ℕ}, (∀ v ∈ data, v < 2 ^ f) → bits < t → ∃ ret acc' bits',
      convertbitsLoop f t data acc bits = some (ret, acc', bits') ∧ bits' < t ∧
      bits' + t * ret.length = bits + f * data.length ∧ (∀ d ∈ ret, d < 2 ^ t) ∧
      ofBE (2 ^ t) ret * 2 ^ bits' + acc' % 2 ^ bits' =
        acc % 2 ^ bits * 2 ^ (f * data.length) + ofBE (2 ^ f) data
  | [], acc, bits, hdata, hbits =>
    ⟨[], acc, bits, rfl, hbits, by simp, fun d hd => absurd hd List.not_mem_nil, by simp⟩
  | value :: data, acc, bits, hdata, hbits => by
    have hvalue := hdata value List.mem_cons_self
    have hfits : ¬value >>> f ≠ 0 := by
      rw [not_not, Nat.shiftRight_eq_div_pow]
      exact Nat.div_eq_of_lt hvalue
    unfold convertbitsLoop
    rw [if_neg hfits]
    simp only
    have hacc := shiftIn acc hvalue hbits
    generalize ((acc <<< f ||| value) &&& (1 <<< (f + t - 1) - 1)) = acc₁ at hacc ⊢
    obtain ⟨hlt, hsum, hdigits, hemit⟩ := emit_spec ht acc₁ (bits + f)
    generalize emit t acc₁ (bits + f) = r at hlt hsum hdigits hemit ⊢
    obtain ⟨ret, acc', bits', hloop, hbits', hlen, hret, hval⟩ := convertbitsLoop_spec (f := f) ht
      acc₁ (fun v hv => hdata v (List.mem_cons_of_mem value hv)) hlt
    rw [hloop]
    refine ⟨r.1 ++ ret, acc', bits', rfl, hbits', ?_, ?_, ?_⟩
    · rw [List.length_append, List.length_cons, Nat.mul_add, Nat.mul_add]
      omega
    · intro d hd
      rcases List.mem_append.1 hd with hd | hd
      · exact hdigits d hd
      · exact hret d hd
    · have hpow : (2 ^ t) ^ ret.length * 2 ^ bits' = 2 ^ r.2 * 2 ^ (f * data.length) := by
        rw [← pow_mul, ← pow_add, ← pow_add, Nat.add_comm, hlen]
      calc ofBE (2 ^ t) (r.1 ++ ret) * 2 ^ bits' + acc' % 2 ^ bits'
          = ofBE (2 ^ t) r.1 * ((2 ^ t) ^ ret.length * 2 ^ bits') +
              (ofBE (2 ^ t) ret * 2 ^ bits' + acc' % 2 ^ bits') := by
            rw [ofBE_append]
            ring
        _ = (ofBE (2 ^ t) r.1 * 2 ^ r.2 + acc₁ % 2 ^ r.2) * 2 ^ (f * data.length) +
              ofBE (2 ^ f) data := by
            rw [hpow, hval]
            ring
        _ = acc % 2 ^ bits * 2 ^ (f * (value :: data).length) + ofBE (2 ^ f) (value :: data) := by
            rw [← hemit, hacc, ofBE_cons, List.length_cons, Nat.mul_add, pow_add, Nat.mul_one,
              ← pow_mul]
            ring

theorem shiftOut {t acc bits : ℕ} (hbits : bits ≤ t) :
    acc <<< (t - bits) &&& (1 <<< t - 1) = acc % 2 ^ bits * 2 ^ (t - bits) := by
  have hpow : 2 ^ t = 2 ^ (t - bits) * 2 ^ bits := by
    rw [← pow_add, Nat.sub_add_cancel hbits]
  rw [Nat.one_shiftLeft, Nat.and_two_pow_sub_one_eq_mod, Nat.shiftLeft_eq, hpow, Nat.mul_comm acc,
    Nat.mul_mod_mul_left, Nat.mul_comm]

/-- With padding the data become digits of the number shifted by the padding. -/
theorem convertbits_pad {f t : ℕ} (ht : 0 < t) {data : List ℕ} (hdata : ∀ v ∈ data, v < 2 ^ f) :
    ∃ ret k, convertbits data f t true = some ret ∧ k < t ∧
      t * ret.length = f * data.length + k ∧ (∀ d ∈ ret, d < 2 ^ t) ∧
      ofBE (2 ^ t) ret = ofBE (2 ^ f) data * 2 ^ k := by
  obtain ⟨ret, acc, bits, hloop, hbits, hlen, hret, hval⟩ :=
    convertbitsLoop_spec ht 0 hdata ht
  rw [Nat.zero_mod, Nat.zero_mul, Nat.zero_add] at hval
  unfold convertbits
  rw [hloop]
  simp only [if_true]
  by_cases hzero : bits = 0
  · subst hzero
    rw [if_neg (not_not.2 rfl)]
    refine ⟨ret, 0, rfl, ht, by omega, hret, ?_⟩
    rw [pow_zero, Nat.mod_one, Nat.mul_one, Nat.add_zero] at hval
    rw [hval, pow_zero, Nat.mul_one]
  · rw [if_pos hzero, shiftOut hbits.le]
    have hpow : 2 ^ t = 2 ^ bits * 2 ^ (t - bits) := by
      rw [← pow_add, Nat.add_sub_cancel' hbits.le]
    refine ⟨_, t - bits, rfl, by omega, ?_, ?_, ?_⟩
    · rw [List.length_append, List.length_singleton, Nat.mul_add]
      omega
    · intro d hd
      rcases List.mem_append.1 hd with hd | hd
      · exact hret d hd
      · rw [List.mem_singleton.1 hd, hpow]
        exact Nat.mul_lt_mul_of_pos_right (Nat.mod_lt _ (Nat.two_pow_pos bits))
          (Nat.two_pow_pos (t - bits))
    · rw [ofBE_concat, ← hval, hpow]
      ring

/-- Regrouped with padding and back the data are what they were. -/
theorem convertbits_convertbits {f t : ℕ} (hf : 0 < f) (ht : 0 < t) (htf : t ≤ f) {data : List ℕ}
    (hdata : ∀ v ∈ data, v < 2 ^ f) :
    ∃ ret, convertbits data f t true = some ret ∧ t * ret.length < f * data.length + t ∧
      (∀ d ∈ ret, d < 2 ^ t) ∧ convertbits ret t f false = some data := by
  obtain ⟨ret, k, hpad, hk, hlen, hret, hval⟩ := convertbits_pad ht hdata
  refine ⟨ret, hpad, by omega, hret, ?_⟩
  obtain ⟨back, acc, bits, hloop, hbits, hlen', hback, hval'⟩ :=
    convertbitsLoop_spec (f := t) hf 0 hret hf
  rw [Nat.zero_mod, Nat.zero_mul, Nat.zero_add, hval] at hval'
  rw [Nat.zero_add, hlen] at hlen'
  have hsame : back.length = data.length := by
    refine Nat.le_antisymm (Nat.lt_succ_iff.1 ?_) (Nat.lt_succ_iff.1 ?_)
    all_goals
      refine Nat.lt_of_mul_lt_mul_left (a := f) ?_
      rw [Nat.mul_succ]
      omega
  have hbitsk : bits = k := by
    rw [hsame] at hlen'
    omega
  subst hbitsk
  have hmod : acc % 2 ^ bits = 0 := by
    have hrest := congrArg (· % 2 ^ bits) hval'
    simp only [Nat.mul_mod_left, Nat.mul_add_mod_self_right, Nat.mod_mod] at hrest
    exact hrest
  have heq : ofBE (2 ^ f) back = ofBE (2 ^ f) data := by
    rw [hmod, Nat.add_zero] at hval'
    exact Nat.eq_of_mul_eq_mul_right (Nat.two_pow_pos bits) hval'
  unfold convertbits
  rw [hloop]
  simp only [Bool.false_eq_true, if_false]
  rw [shiftOut hbits.le, hmod, Nat.zero_mul, if_neg (by omega),
    ofBE_inj (Nat.one_lt_two_pow hf.ne') hsame hback hdata heq]

/-! ### Addresses -/

/-- An address for every program but one of version 0 with a length of its own,
and it is read back as the program it was made of. -/
theorem encode_spec {hrp : Str} {witver : ℕ} {witprog : Bytes} (hhrp : ∀ c ∈ hrp, Plain c)
    (hne : hrp ≠ []) (hlen : hrp.length ≤ 10) (hver : witver ≤ 16) (hmin : 2 ≤ witprog.length)
    (hmax : witprog.length ≤ 40) :
    if witver = 0 ∧ witprog.length ≠ 20 ∧ witprog.length ≠ 32 then encode hrp witver witprog = none
    else ∃ addr, encode hrp witver witprog = some addr ∧
      decode hrp addr = some (witver, witprog.map UInt8.toNat) := by
  have hbytes : ∀ v ∈ witprog.map UInt8.toNat, v < 2 ^ 8 := by
    intro v hv
    obtain ⟨c, -, rfl⟩ := List.mem_map.1 hv
    exact c.toNat_lt
  obtain ⟨conv, hconv, hconvLen, hconvLt, hback⟩ :=
    convertbits_convertbits (f := 8) (t := 5) (by omega) (by omega) (by omega) hbytes
  rw [List.length_map] at hconvLen
  unfold encode
  simp only [hconv]
  generalize henc : (if witver = 0 then Encoding.bech32 else Encoding.bech32m) = encoding
  have hdata : ∀ d ∈ witver :: conv, d < 32 := by
    intro d hd
    rcases List.mem_cons.1 hd with rfl | hd
    · omega
    · exact hconvLt d hd
  have hread := bech32Decode_bech32Encode encoding hhrp hne hdata (by
    rw [List.length_cons]
    omega)
  generalize bech32Encode encoding hrp (witver :: conv) = addr at hread ⊢
  have hdecode : decode hrp addr = if witver = 0 ∧ witprog.length ≠ 20 ∧ witprog.length ≠ 32 then none
      else some (witver, witprog.map UInt8.toNat) := by
    unfold decode
    rw [hread]
    simp only [List.drop_one, List.tail_cons, hback, List.length_map, List.headD_cons]
    rw [if_neg (not_not.2 rfl), if_neg (by omega), if_neg (by omega)]
    split_ifs with hlength hencoding
    · rfl
    · rw [← henc] at hencoding
      rcases hencoding with ⟨hzero, hencoding⟩ | ⟨hzero, hencoding⟩
      · rw [if_pos hzero] at hencoding
        exact absurd rfl hencoding
      · rw [if_neg hzero] at hencoding
        exact absurd rfl hencoding
    · exact if_neg hencoding
  split_ifs at hdecode ⊢
  · rw [hdecode]
  · refine ⟨addr, ?_, hdecode⟩
    rw [hdecode]

end Bech32

end Hwi
