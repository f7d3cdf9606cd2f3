import Hwi.Format.Der
import Hwi.Lib.Result
import Hwi.Spec.Serialize
import Mathlib.Data.List.TakeWhile
import Mathlib.Data.Nat.Bitwise

/-! The signatures of `ser_sig_der` are strict. -/

namespace Hwi

namespace Der

theorem and_sign_ne_zero_iff (b : UInt8) : b &&& 0x80 ≠ 0 ↔ 0x80 ≤ b.toNat := by
  have hand : (b &&& 0x80).toNat = (b.toNat.testBit 7).toNat * 128 := Nat.and_two_pow b.toNat 7
  have hlt := b.toNat_lt
  have hbit : b.toNat.testBit 7 = decide (0x80 ≤ b.toNat) := by
    rw [Nat.testBit_eq_decide_div_mod_eq, decide_eq_decide]
    omega
  rw [Ne, ← UInt8.toNat_inj, hand, hbit]
  by_cases h : 0x80 ≤ b.toNat
  · simp [h]
  · simp [h]

theorem value_replicate_zero_append (n : ℕ) (b : Bytes) : value (List.replicate n 0 ++ b) = value b := by
  unfold value
  rw [List.map_append, List.map_replicate]
  exact ofBE_replicate_zero_append n _

/-- The zeros in front of a number do not count. -/
theorem value_dropWhile (b : Bytes) : value (b.dropWhile fun c => c = 0) = value b := by
  induction b with
  | nil => rfl
  | cons c b ih =>
    rw [List.dropWhile_cons]
    split_ifs with hc
    · rw [ih, of_decide_eq_true hc]
      exact (value_replicate_zero_append 1 b).symm
    · rfl

/-- The bytes of an integer that a strict reader takes. -/
structure Minimal (b : Bytes) : Prop where
  ne_nil : b ≠ []
  positive : (b.getD 0 0).toNat < 0x80
  minimal : 1 < b.length → (b.getD 0 0).toNat = 0 → 0x80 ≤ (b.getD 1 0).toNat

/-- What becomes of a number of at most 32 bytes that is not zero. -/
theorem derInteger_spec {b : Bytes} (hlen : b.length ≤ 32) (hne : ∃ c ∈ b, c ≠ 0) :
    ∃ e, derInteger b = .ok e ∧ Minimal e ∧ e.length ≤ 33 ∧ value e = value b := by
  have hstrip : (b.dropWhile fun c => c = 0) ≠ [] := by
    obtain ⟨c, hc, hc0⟩ := hne
    rw [Ne, List.dropWhile_eq_nil_iff]
    intro hall
    exact hc0 (of_decide_eq_true (hall c hc))
  have hvalue := value_dropWhile b
  have hshort := List.length_dropWhile_le (p := fun c => decide (c = (0 : UInt8))) b
  have hhead := List.head?_dropWhile_not (fun c => decide (c = (0 : UInt8))) b
  unfold derInteger
  cases hdrop : b.dropWhile fun c => decide (c = 0) with
  | nil => exact absurd hdrop hstrip
  | cons first rest =>
    rw [hdrop] at hvalue hshort hhead
    have hfirst : first.toNat ≠ 0 := by
      have hfalse : first ≠ 0 := by simpa using hhead
      exact fun hzero => hfalse (UInt8.toNat_inj.1 hzero)
    rw [List.length_cons] at hshort
    dsimp only
    split_ifs with hsign
    · have hbig := (and_sign_ne_zero_iff first).1 hsign
      refine ⟨_, rfl, ⟨by simp, by simp, fun _ _ => hbig⟩, ?_, ?_⟩
      · rw [List.length_cons, List.length_cons]
        omega
      · rw [← hvalue]
        exact value_replicate_zero_append 1 (first :: rest)
    · have hsmall : first.toNat < 0x80 := by
        have hnot := (and_sign_ne_zero_iff first).not.1 hsign
        omega
      refine ⟨_, rfl, ⟨by simp, hsmall, fun _ hzero => absurd hzero hfirst⟩, ?_, hvalue⟩
      rw [List.length_cons]
      omega

/-- A signature with two integers of bytes. -/
def layout (r s : Bytes) : Bytes :=
  [0x30, UInt8.ofNat (r.length + s.length + 4), 0x02, UInt8.ofNat r.length] ++ r ++
    [0x02, UInt8.ofNat s.length] ++ s ++ [0x01]

theorem byteAt_append_right (a b : Bytes) (i : ℕ) : byteAt (a ++ b) (a.length + i) = byteAt b i := by
  unfold byteAt
  rw [List.getD_eq_getElem?_getD, List.getD_eq_getElem?_getD, List.getElem?_append_right (Nat.le_add_right _ i),
    Nat.add_sub_cancel_left]

theorem byteAt_append_left {a : Bytes} (b : Bytes) {i : ℕ} (h : i < a.length) :
    byteAt (a ++ b) i = byteAt a i := by
  unfold byteAt
  rw [List.getD_eq_getElem?_getD, List.getD_eq_getElem?_getD, List.getElem?_append_left h]

theorem layout_length (r s : Bytes) : (layout r s).length = r.length + s.length + 7 := by
  simp only [layout, List.length_append, List.length_cons, List.length_nil]
  omega

/-- The element of the first integer. -/
theorem byteAt_first {r : Bytes} (s : Bytes) {i : ℕ} (h : i < r.length) :
    byteAt (layout r s) (4 + i) = byteAt r i := by
  unfold layout
  rw [List.append_assoc, List.append_assoc, List.append_assoc]
  exact (byteAt_append_right [_, _, _, _] _ i).trans (byteAt_append_left _ h)

/-- What comes after the first integer. -/
theorem byteAt_second (r s : Bytes) (i : ℕ) :
    byteAt (layout r s) (4 + r.length + i) = byteAt ([0x02, UInt8.ofNat s.length] ++ s ++ [0x01]) i := by
  rw [Nat.add_assoc]
  unfold layout
  rw [List.append_assoc, List.append_assoc, ← List.append_assoc [0x02, UInt8.ofNat s.length],
    List.append_assoc]
  exact (byteAt_append_right [_, _, _, _] _ _).trans (byteAt_append_right r _ i)

theorem elementLength_first {r : Bytes} (s : Bytes) (h : r.length < 256) :
    elementLength (layout r s) 2 = r.length := UInt8.toNat_ofNat_of_lt' h

theorem elementLength_second (r : Bytes) {s : Bytes} (h : s.length < 256) :
    elementLength (layout r s) (4 + r.length) = s.length := by
  unfold elementLength
  rw [byteAt_second]
  exact UInt8.toNat_ofNat_of_lt' h

theorem integerAt_first {r : Bytes} (s : Bytes) (h : r.length ≤ 33) (hr : Minimal r) :
    IntegerAt (layout r s) 2 := by
  have hlen := elementLength_first s (show r.length < 256 by omega)
  have hpos : 0 < r.length := List.length_pos_iff.2 hr.ne_nil
  refine ⟨rfl, ?_, ?_, ?_⟩
  · rw [hlen]
    omega
  · exact (byteAt_first s hpos).trans_lt hr.positive
  · rw [hlen]
    intro hlong hzero
    exact (hr.minimal hlong ((byteAt_first s hpos).symm.trans hzero)).trans_eq (byteAt_first s hlong).symm

theorem integerAt_second (r : Bytes) {s : Bytes} (h : s.length ≤ 33) (hs : Minimal s) :
    IntegerAt (layout r s) (4 + r.length) := by
  have hlen := elementLength_second r (show s.length < 256 by omega)
  have hpos : 0 < s.length := List.length_pos_iff.2 hs.ne_nil
  have hbyte (i : ℕ) (hi : i < s.length) : byteAt (layout r s) (4 + r.length + (2 + i)) = byteAt s i := by
    rw [byteAt_second, List.append_assoc]
    exact (byteAt_append_right [_, _] _ i).trans (byteAt_append_left _ hi)
  refine ⟨byteAt_second r s 0, ?_, ?_, ?_⟩
  · rw [hlen]
    omega
  · exact (hbyte 0 hpos).trans_lt hs.positive
  · rw [hlen]
    intro hlong hzero
    exact (hs.minimal hlong ((hbyte 0 hpos).symm.trans hzero)).trans_eq (hbyte 1 hlong).symm

theorem isValidSignatureEncoding_layout {r s : Bytes} (hr : Minimal r) (hrlen : r.length ≤ 33)
    (hs : Minimal s) (hslen : s.length ≤ 33) : IsValidSignatureEncoding (layout r s) := by
  have hfirst := elementLength_first s (show r.length < 256 by omega)
  have hsecond := elementLength_second r (show s.length < 256 by omega)
  have hrpos : 0 < r.length := List.length_pos_iff.2 hr.ne_nil
  have hspos : 0 < s.length := List.length_pos_iff.2 hs.ne_nil
  have hlen := layout_length r s
  refine ⟨by omega, by omega, rfl, ?_, by omega, by rw [hfirst, hsecond, hlen],
    integerAt_first s hrlen hr, ?_⟩
  · rw [hlen]
    exact UInt8.toNat_ofNat_of_lt' (show r.length + s.length + 4 < 256 by omega)
  · rw [hfirst]
    exact integerAt_second r hslen hs

theorem integers_layout {r s : Bytes} (hr : r.length < 256) (hs : s.length < 256) :
    integers (layout r s) = (value r, value s) := by
  have hfirst := elementLength_first s hr
  unfold integers
  simp only [hfirst, elementLength_second r hs]
  have hdrop : (layout r s).drop 4 = r ++ ([0x02, UInt8.ofNat s.length] ++ s ++ [0x01]) := by
    simp [layout]
  have hrest : (layout r s).drop (4 + r.length + 2) = s ++ [0x01] := by
    rw [Nat.add_assoc, ← List.drop_drop, hdrop, ← List.drop_drop, List.drop_left]
    rfl
  rw [hdrop, hrest, List.take_left, List.take_left]

end Der

/-- The bytes of a number between one and the largest of 32 bytes. -/
def Scalar (b : Bytes) : Prop := b.length ≤ 32 ∧ ∃ c ∈ b, c ≠ 0

theorem serSigDer_eq {r s r' s' : Bytes} (hr : derInteger r = .ok r') (hs : derInteger s = .ok s')
    (hrlen : r'.length ≤ 33) (hslen : s'.length ≤ 33) : serSigDer r s = .ok (Der.layout r' s') := by
  have hpack (n : ℕ) (h : n < 256) : pack 1 n = .ok [UInt8.ofNat n] := by
    rw [pack, if_pos ⟨by omega, by omega⟩, Int.toNat_natCast, toLE, toLE, Nat.mod_eq_of_lt h]
  unfold serSigDer
  rw [hr, ok_bind, hs, ok_bind]
  have htotal := hpack (r'.length + s'.length + 4) (by omega)
  push_cast at htotal
  rw [htotal, ok_bind, hpack r'.length (by omega), ok_bind, hpack s'.length (by omega), ok_bind]
  simp [Der.layout]

/-- Every signature of two scalars is strict, ends with the hash type, and says which
integers it is for. -/
theorem serSigDer_strict {r s : Bytes} (hr : Scalar r) (hs : Scalar s) :
    (∃ body, serSigDer r s = .ok (body ++ [0x01]) ∧ Der.IsValidSignatureEncoding (body ++ [0x01]) ∧
      Der.integers (body ++ [0x01]) = (Der.value r, Der.value s)) ∧
    ∀ r' s', Scalar r' → Scalar s' → (Der.value r, Der.value s) ≠ (Der.value r', Der.value s') →
      serSigDer r s ≠ serSigDer r' s' := by
  have hspec (r s : Bytes) (hr : Scalar r) (hs : Scalar s) : ∃ e f, serSigDer r s = .ok (Der.layout e f) ∧
      Der.IsValidSignatureEncoding (Der.layout e f) ∧
      Der.integers (Der.layout e f) = (Der.value r, Der.value s) := by
    obtain ⟨e, he, hemin, helen, hevalue⟩ := Der.derInteger_spec hr.1 hr.2
    obtain ⟨f, hf, hfmin, hflen, hfvalue⟩ := Der.derInteger_spec hs.1 hs.2
    refine ⟨e, f, serSigDer_eq he hf helen hflen,
      Der.isValidSignatureEncoding_layout hemin helen hfmin hflen, ?_⟩
    rw [Der.integers_layout (by omega) (by omega), hevalue, hfvalue]
  obtain ⟨e, f, hsig, hvalid, hintegers⟩ := hspec r s hr hs
  refine ⟨⟨_, hsig, hvalid, hintegers⟩, fun r' s' hr' hs' hne heq => hne ?_⟩
  obtain ⟨e', f', hsig', -, hintegers'⟩ := hspec r' s' hr' hs'
  rw [hsig, hsig'] at heq
  rw [← hintegers, ← hintegers', Except.ok.inj heq]

theorem serSigDer_strict_sample : serSigDer [0, 0x80] [1] = .ok ([0x30, 7, 2, 2, 0, 0x80, 2, 1, 1] ++ [0x01]) ∧
    serSigDer [0, 0x80] [1] ≠ serSigDer [0x81] [1] := by
  have hr : Scalar [0, 0x80] := ⟨by decide, 0x80, by decide, by decide⟩
  have hs : Scalar [1] := ⟨by decide, 1, by decide, by decide⟩
  have hr' : Scalar [0x81] := ⟨by decide, 0x81, by decide, by decide⟩
  exact ⟨by decide, (serSigDer_strict hr hs).2 [0x81] [1] hr' hs (by decide)⟩

end Hwi
