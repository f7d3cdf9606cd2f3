import Hwi.Lib.Alphabet
import Hwi.Lib.Digits
import Hwi.Lib.Result
import Hwi.Spec.Base58

/-! Base58 strings read back as the bytes they were made of. -/

namespace Hwi

namespace Base58

/-- The character of a digit. -/
def digitChar (r : ℕ) : Char := b58Digits.getD r '1'

theorem b58Digits_length : b58Digits.length = 58 :=
  (congrArg List.length String.toList_ofList).trans rfl

theorem b58Digits_nodup : b58Digits.Nodup :=
  (congrArg List.Nodup String.toList_ofList).mpr (by decide)

theorem digitChar_spec {r : ℕ} (h : r < 58) :
    digitChar r ∈ b58Digits ∧ b58Digits.idxOf (digitChar r) = r ∧ (digitChar r = '1' ↔ r = 0) := by
  have hlt : r < b58Digits.length := b58Digits_length.symm ▸ h
  have hpos : 0 < b58Digits.length := b58Digits_length.symm ▸ Nat.succ_pos 57
  have hzero : digitChar 0 = '1' := (congrArg (List.getD · 0 '1') String.toList_ofList).trans rfl
  refine ⟨Alphabet.getD_mem '1' hlt, Alphabet.idxOf_getD '1' b58Digits_nodup hlt, fun hone => ?_, ?_⟩
  · exact Alphabet.getD_injective '1' b58Digits_nodup hlt hpos (hone.trans hzero.symm)
  · rintro rfl
    exact hzero

theorem fromDigits_map : ∀ {l : List ℕ} (n : ℕ), (∀ d ∈ l, d < 58) →
    fromDigits (l.map digitChar) n = .ok (n * 58 ^ l.length + ofBE 58 l)
  | [], n, h => by simp [fromDigits]
  | d :: l, n, h => by
    obtain ⟨hmem, hidx, -⟩ := digitChar_spec (h d List.mem_cons_self)
    rw [List.map_cons, fromDigits, if_pos hmem, hidx,
      fromDigits_map (n * 58 + d) fun d' hd' => h d' (List.mem_cons_of_mem d hd'), ofBE_cons,
      List.length_cons]
    congr 1
    ring

theorem toInt_eq (b : Bytes) : toInt b = ofBE 256 (b.map UInt8.toNat) := by
  rw [toInt, ofBE, List.map_reverse]

theorem toInt_replicate_zero_append (n : ℕ) (b : Bytes) :
    toInt (List.replicate n 0 ++ b) = toInt b := by
  rw [toInt_eq, toInt_eq, List.map_append, List.map_replicate]
  exact ofBE_replicate_zero_append n _

theorem digits_toInt {b : Bytes} (h : b.head? ≠ some 0) :
    (Nat.digits 256 (toInt b)).reverse = b.map UInt8.toNat := by
  rw [toInt_eq]
  refine digits_ofBE (by omega) (fun d hd => ?_) fun d hd hzero => h ?_
  · obtain ⟨c, -, rfl⟩ := List.mem_map.1 hd
    exact c.toNat_lt
  · rw [List.head?_map, Option.map_eq_some_iff] at hd
    obtain ⟨c, hc, rfl⟩ := hd
    rw [hc, ← UInt8.toNat_inj.1 (hzero.trans UInt8.toNat_zero.symm)]

theorem toInt_ne_zero {b : Bytes} (hne : b ≠ []) (h : b.head? ≠ some 0) : toInt b ≠ 0 := by
  intro hzero
  have hdigits := digits_toInt h
  rw [hzero, Nat.digits_zero, List.reverse_nil] at hdigits
  exact hne (List.map_eq_nil_iff.1 hdigits.symm)

/-- The bytes of a number that does not start with a zero byte. -/
theorem toBytes_toInt {b : Bytes} (hne : b ≠ []) (h : b.head? ≠ some 0) : toBytes (toInt b) = b := by
  rw [toBytes, if_neg (toInt_ne_zero hne h), ← List.map_reverse, digits_toInt h, List.map_map]
  exact (List.map_congr_left fun c _ => UInt8.ofNat_toNat).trans (List.map_id b)

/-- A base58 string as its digits, the leading zero bytes as zeros. -/
theorem encode_eq (n : ℕ) {b : Bytes} (h : b.head? ≠ some 0) :
    encode (List.replicate n 0 ++ b) =
      (List.replicate n 0 ++ (Nat.digits 58 (toInt b)).reverse).map digitChar := by
  unfold encode
  rw [takeWhile_leading n h, List.length_replicate, toInt_replicate_zero_append, List.map_append,
    List.map_replicate, List.map_reverse]
  rfl

theorem takeWhile_map_digitChar {l : List ℕ} (h : ∀ d ∈ l, d < 58) :
    ((l.map digitChar).takeWhile fun c => c = '1').length = (l.takeWhile fun d => d = 0).length := by
  induction l with
  | nil => rfl
  | cons d l ih =>
    have hrest := ih fun d' hd' => h d' (List.mem_cons_of_mem d hd')
    have hone := (digitChar_spec (h d List.mem_cons_self)).2.2
    rw [List.map_cons, List.takeWhile_cons, List.takeWhile_cons]
    simp only [decide_eq_true_iff, hone]
    split_ifs
    · rw [List.length_cons, List.length_cons, hrest]
    · rfl

/-- A string is read back as the bytes it was made of. -/
theorem decode_encode {b : Bytes} (h : b ≠ []) : decode (encode b) = .ok b := by
  obtain ⟨n, rest, rfl, hhead⟩ := exists_leading 0 b
  have hdigit : ∀ d ∈ List.replicate n 0 ++ (Nat.digits 58 (toInt rest)).reverse, d < 58 := by
    intro d hd
    rcases List.mem_append.1 hd with hzero | hd
    · rw [List.eq_of_mem_replicate hzero]
      omega
    · exact Nat.digits_lt_base (by omega) (List.mem_reverse.1 hd)
  have hint : ofBE 58 (List.replicate n 0 ++ (Nat.digits 58 (toInt rest)).reverse) = toInt rest := by
    rw [ofBE_replicate_zero_append, ofBE_digits]
  rw [encode_eq n hhead, decode, if_neg, fromDigits_map 0 hdigit, Nat.zero_mul, Nat.zero_add, hint,
    ok_bind, ← List.map_dropLast, takeWhile_map_digitChar fun d hd => hdigit d (List.mem_of_mem_dropLast hd)]
  · cases rest with
    | nil =>
      -- the number is zero, whose one byte stands for the last of the zero bytes
      have hpred : n = n - 1 + 1 := by
        cases n with
        | zero => exact absurd rfl h
        | succ n => rfl
      have hzero : toInt [] = 0 := rfl
      rw [hzero, Nat.digits_zero, List.reverse_nil, List.append_nil, List.append_nil,
        List.dropLast_replicate, ← List.append_nil (List.replicate (n - 1) 0),
        takeWhile_leading (n - 1) (by simp), List.length_replicate]
      conv_rhs => rw [hpred, List.replicate_succ']
      rfl
    | cons c rest =>
      have hpos := toInt_ne_zero (List.cons_ne_nil c rest) hhead
      have hne : (Nat.digits 58 (toInt (c :: rest))).reverse ≠ [] := by
        rw [Ne, List.reverse_eq_nil_iff]
        exact Nat.digits_ne_nil_iff_ne_zero.2 hpos
      rw [toBytes_toInt (List.cons_ne_nil c rest) hhead, List.dropLast_append_of_ne_nil hne,
        takeWhile_leading n, List.length_replicate]
      · rfl
      · intro hzero
        rw [List.head?_dropLast] at hzero
        split_ifs at hzero
        exact head?_reverse_digits_ne_zero hzero rfl
  · rw [List.map_eq_nil_iff, List.append_eq_nil_iff, List.reverse_eq_nil_iff,
      Nat.digits_eq_nil_iff_eq_zero]
    rintro ⟨hn, hrest⟩
    refine toInt_ne_zero (fun hnil => h ?_) hhead hrest
    rw [hnil, List.append_nil, (List.replicate_eq_nil_iff 0).1 hn]
    rfl

/-- The digits of a string that is read. -/
theorem exists_digits {s : Str} {n m : ℕ} (h : fromDigits s n = .ok m) :
    ∃ l : List ℕ, (∀ d ∈ l, d < 58) ∧ s = l.map digitChar := by
  induction s generalizing n with
  | nil => exact ⟨[], by simp, rfl⟩
  | cons c s ih =>
    rw [fromDigits] at h
    split_ifs at h with hc
    obtain ⟨l, hl, rfl⟩ := ih h
    have hidx := List.idxOf_lt_length_of_mem hc
    refine ⟨b58Digits.idxOf c :: l, ?_, ?_⟩
    · intro d hd
      rcases List.mem_cons.1 hd with rfl | hd
      · exact hidx
      · exact hl d hd
    · rw [List.map_cons, digitChar, List.getD_eq_getElem?_getD, List.getElem?_eq_getElem hidx,
        List.getElem_idxOf, Option.getD_some]

/-- Some bytes without a leading zero are those of each number. -/
theorem exists_toInt (n : ℕ) : ∃ b : Bytes, b.head? ≠ some 0 ∧ toInt b = n := by
  refine ⟨((Nat.digits 256 n).map UInt8.ofNat).reverse, ?_, ?_⟩
  · intro hzero
    rw [← List.map_reverse, List.head?_map, Option.map_eq_some_iff] at hzero
    obtain ⟨d, hd, hd0⟩ := hzero
    refine head?_reverse_digits_ne_zero hd ?_
    have hlt := Nat.digits_lt_base (by omega) (List.mem_reverse.1 (List.mem_of_head? hd))
    have hnat := congrArg UInt8.toNat hd0
    rwa [UInt8.toNat_ofNat_of_lt' hlt] at hnat
  · have hback : ((Nat.digits 256 n).map UInt8.ofNat).map UInt8.toNat = Nat.digits 256 n := by
      rw [List.map_map]
      refine (List.map_congr_left fun d hd => ?_).trans (List.map_id _)
      exact UInt8.toNat_ofNat_of_lt' (Nat.digits_lt_base (by decide) hd)
    rw [toInt, List.reverse_reverse, hback, Nat.ofDigits_digits]

/-- The bytes that are read make the string they were read from. -/
theorem encode_decode {s : Str} {b : Bytes} (h : decode s = .ok b) : encode b = s := by
  have hcopy := h
  unfold decode at hcopy
  split_ifs at hcopy with hnil
  · cases hcopy
    rw [hnil]
    rfl
  · obtain ⟨m, hm, -⟩ := bind_eq_ok.1 hcopy
    obtain ⟨l, hl, rfl⟩ := exists_digits hm
    obtain ⟨n, rest, rfl, hhead⟩ := exists_leading 0 l
    obtain ⟨c, hc, hint⟩ := exists_toInt (ofBE 58 rest)
    have hdigits : (Nat.digits 58 (toInt c)).reverse = rest := by
      rw [hint]
      exact digits_ofBE (by omega) (fun d hd => hl d (List.mem_append_right _ hd))
        fun d hd hzero => hhead (hzero ▸ hd)
    have hencode : encode (List.replicate n 0 ++ c) = (List.replicate n 0 ++ rest).map digitChar := by
      rw [encode_eq n hc, hdigits]
    have hne : List.replicate n 0 ++ c ≠ [] := by
      intro hempty
      rw [hempty] at hencode
      exact hnil hencode.symm
    rw [← hencode, decode_encode hne] at h
    cases h
    exact hencode

/-! ### The strings that are read -/

theorem decode_encode_any (b : Bytes) : decode (encode b) = .ok b := by
  by_cases h : b = []
  · rw [h]
    rfl
  · exact decode_encode h

/-- A string over the alphabet has an integer. -/
theorem fromDigits_of_mem {s : Str} (h : ∀ c ∈ s, c ∈ b58Digits) (n : ℕ) :
    ∃ m, fromDigits s n = .ok m := by
  induction s generalizing n with
  | nil => exact ⟨n, rfl⟩
  | cons c s ih =>
    rw [fromDigits, if_pos (h c List.mem_cons_self)]
    exact ih (fun d hd => h d (List.mem_cons_of_mem c hd)) _

/-- The first character outside the alphabet ends the conversion. -/
theorem fromDigits_of_not_mem {s : Str} {c : Char} (hc : c ∈ s) (h : c ∉ b58Digits) (n : ℕ) :
    ∃ msg, fromDigits s n = .error (.badArgumentError msg) := by
  induction s generalizing n with
  | nil => exact absurd hc List.not_mem_nil
  | cons d s ih =>
    rw [fromDigits]
    split_ifs with hd
    · refine ih ?_ _
      rcases List.mem_cons.1 hc with rfl | hc
      · exact absurd hd h
      · exact hc
    · exact ⟨_, rfl⟩

theorem mem_encode {b : Bytes} {c : Char} (h : c ∈ encode b) : c ∈ b58Digits := by
  unfold encode at h
  rcases List.mem_append.1 h with hpad | hres
  · rw [List.eq_of_mem_replicate hpad]
    exact (digitChar_spec (r := 0) (by omega)).1
  · obtain ⟨r, hr, rfl⟩ := List.mem_map.1 (List.mem_reverse.1 hres)
    exact (digitChar_spec (Nat.digits_lt_base (by omega) hr)).1

/-- Exactly the strings over the alphabet are read. -/
theorem decode_isOk_iff (s : Str) : (∃ b, decode s = .ok b) ↔ ∀ c ∈ s, c ∈ b58Digits := by
  constructor
  · rintro ⟨b, hb⟩ c hc
    rw [← encode_decode hb] at hc
    exact mem_encode hc
  · intro h
    by_cases hnil : s = []
    · exact ⟨[], by rw [decode, if_pos hnil]⟩
    · obtain ⟨m, hm⟩ := fromDigits_of_mem h 0
      rw [decode, if_neg hnil, hm]
      exact ⟨_, rfl⟩

theorem decode_of_not_mem {s : Str} {c : Char} (hc : c ∈ s) (h : c ∉ b58Digits) :
    ∃ msg, decode s = .error (.badArgumentError msg) := by
  obtain ⟨msg, hmsg⟩ := fromDigits_of_not_mem hc h 0
  rw [decode, if_neg (List.ne_nil_of_mem hc), hmsg]
  exact ⟨msg, rfl⟩

/-! ### Checksums -/

theorem hash256_take_length (R : Runtime) (b : Bytes) : ((R.hash256 b).take 4).length = 4 := by
  rw [List.length_take, R.hash256_length]
  rfl

theorem decodeCheck_encodeCheck (R : Runtime) (b : Bytes) : decodeCheck R (encodeCheck R b) = .ok b := by
  unfold decodeCheck encodeCheck
  simp only
  rw [decode_encode_any, ok_bind, List.length_append, hash256_take_length, Nat.add_sub_cancel,
    List.take_left, List.drop_left, if_neg (not_not.2 rfl)]
  rfl

/-- A string passes as the checksum encoding of what is returned, and as no other. -/
theorem decodeCheck_eq_ok_iff (R : Runtime) (s : Str) (b : Bytes) :
    decodeCheck R s = .ok b ↔ s = encodeCheck R b := by
  constructor
  · intro h
    obtain ⟨data, hdata, h⟩ := bind_eq_ok.1 h
    dsimp only at h
    split_ifs at h with hsum
    · cases h
    · cases h
      have hsplit := List.take_append_drop (data.length - 4) data
      rw [not_not.1 hsum] at hsplit
      rw [encodeCheck, hsplit, encode_decode hdata]
  · rintro rfl
    exact decodeCheck_encodeCheck R b

/-- Base58 is a bijection between the byte strings and the strings over its alphabet,
every other string is refused, and a checksum is accepted exactly where it was added. -/
theorem encode_decode_bijective (R : Runtime) :
    (∀ b : Bytes, decode (encode b) = .ok b ∧ ∀ c ∈ encode b, c ∈ b58Digits) ∧
    (∀ s : Str, (∀ c ∈ s, c ∈ b58Digits) → ∃ b, decode s = .ok b ∧ encode b = s) ∧
    (∀ s : Str, (∃ c ∈ s, c ∉ b58Digits) → ∃ msg, decode s = .error (.badArgumentError msg)) ∧
    ∀ (s : Str) (b : Bytes), decodeCheck R s = .ok b ↔ s = encodeCheck R b := by
  refine ⟨fun b => ⟨decode_encode_any b, fun c hc => mem_encode hc⟩, fun s hs => ?_, ?_,
    decodeCheck_eq_ok_iff R⟩
  · obtain ⟨b, hb⟩ := (decode_isOk_iff s).2 hs
    exact ⟨b, hb, encode_decode hb⟩
  · rintro s ⟨c, hc, hnot⟩
    exact decode_of_not_mem hc hnot

/-- A Base58Check string is read back as the version and the data it was made of. -/
theorem decodeCheck_toAddress (R : Runtime) {b version : Bytes} :
    decodeCheck R (toAddress R b version) = .ok (version ++ b) :=
  decodeCheck_encodeCheck R (version ++ b)

end Base58

end Hwi
