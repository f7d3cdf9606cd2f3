import Hwi.Format.Sighash
import Hwi.Lib.Result
import Hwi.Proofs.Serialize

/-! The BIP 143 message fixes the script code and the amount. -/

namespace Hwi

theorem serCompactSize_length_mono {m n : ℕ} (h : m ≤ n) :
    (serCompactSize m).length ≤ (serCompactSize n).length := by
  unfold serCompactSize
  split_ifs <;> first | omega | simp

/-- A string is fixed by its serialization, also in front of something of one length. -/
theorem serString_append_inj {s t x y : Bytes} (hxy : x.length = y.length)
    (h : serString s ++ x = serString t ++ y) : s = t ∧ x = y := by
  have hlen : (serString s).length = (serString t).length := by
    have := congrArg List.length h
    simp only [List.length_append] at this
    omega
  have hsize : s.length = t.length := by
    simp only [serString, List.length_append] at hlen
    rcases Nat.lt_trichotomy s.length t.length with hlt | heq | hgt
    · have := serCompactSize_length_mono hlt.le
      omega
    · exact heq
    · have := serCompactSize_length_mono hgt.le
      omega
  obtain ⟨hst, rfl⟩ := List.append_inj h hlen
  rw [serString, serString, hsize] at hst
  exact ⟨List.append_cancel_left hst, rfl⟩

theorem packSigned_eq_ok {k : ℕ} {n : ℤ} {b : Bytes} (h : packSigned k n = .ok b) :
    SignedFits k n ∧ b = toSignedLE k n := by
  unfold packSigned at h
  split_ifs at h with hfits
  cases h
  exact ⟨hfits, rfl⟩

theorem packSigned_inj {k : ℕ} {m n : ℤ} {b : Bytes} (hm : packSigned k m = .ok b)
    (hn : packSigned k n = .ok b) : m = n := by
  obtain ⟨hfitm, rfl⟩ := packSigned_eq_ok hm
  obtain ⟨hfitn, heq⟩ := packSigned_eq_ok hn
  rw [← ofSignedLE_toSignedLE hfitm, heq, ofSignedLE_toSignedLE hfitn]

/-- The parts of a BIP 143 message. -/
theorem bip143Message_eq_ok {R : Runtime} {tx : CTransaction} {txin : CTxIn} {scriptCode : Bytes}
    {amount : ℤ} {message : Bytes} (h : bip143Message R tx txin scriptCode amount = .ok message) :
    ∃ before value after, packSigned 8 amount = .ok value ∧
      message = before ++ (serString scriptCode ++ (value ++ after)) ∧
      ∀ (scriptCode' : Bytes) (amount' : ℤ) (message' : Bytes),
        bip143Message R tx txin scriptCode' amount' = .ok message' → ∃ value',
          packSigned 8 amount' = .ok value' ∧
            message' = before ++ (serString scriptCode' ++ (value' ++ after)) := by
  simp only [bip143Message, bind_eq_ok] at h
  obtain ⟨nVersion, hv, prevouts, hp, sequences, hs, outpoint, ho, value, hval, nSequence, hq,
    outputs, hout, nLockTime, hl, h⟩ := h
  cases h
  refine ⟨nVersion ++ (R.hash256 prevouts.flatten ++ (R.hash256 sequences.flatten ++ outpoint)), value,
    nSequence ++ (R.hash256 outputs.flatten ++ (nLockTime ++ sighashAll)), hval, ?_, ?_⟩
  · simp only [List.append_assoc]
  · intro scriptCode' amount' message' h'
    simp only [bip143Message, hv, hp, hs, ho, hq, hout, hl, ok_bind, bind_eq_ok] at h'
    obtain ⟨value', hval', h'⟩ := h'
    cases h'
    exact ⟨value', hval', by simp only [List.append_assoc]⟩

/-- Two BIP 143 messages of one input agree only in script code and amount. -/
theorem bip143Message_inj {R : Runtime} {tx : CTransaction} {txin : CTxIn} {c c' message : Bytes}
    {n n' : ℤ} (h : bip143Message R tx txin c n = .ok message)
    (h' : bip143Message R tx txin c' n' = .ok message) : c = c' ∧ n = n' := by
  obtain ⟨before, value, after, hval, rfl, hrest⟩ := bip143Message_eq_ok h
  obtain ⟨value', hval', heq⟩ := hrest c' n' _ h'
  have hlen : (value ++ after).length = (value' ++ after).length := by
    obtain ⟨-, rfl⟩ := packSigned_eq_ok hval
    obtain ⟨-, rfl⟩ := packSigned_eq_ok hval'
    simp
  obtain ⟨rfl, htail⟩ := serString_append_inj hlen (List.append_cancel_left heq)
  obtain rfl := List.append_cancel_right htail
  exact ⟨rfl, packSigned_inj hval hval'⟩

end Hwi
