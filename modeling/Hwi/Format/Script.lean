import Hwi.Spec.Script
import Mathlib.Data.UInt

/-! The scripts the classifiers of `_script.py` look for, as what they consist of. -/

namespace Hwi

/-- The opcode of a witness version: `OP_0` or `OP_1` to `OP_16`. -/
def versionOpcode (v : ℕ) : UInt8 := if v = 0 then 0x00 else UInt8.ofNat (0x50 + v)

/-- A witness program: the opcode of its version, then one push of 2 to 40 bytes. -/
structure WitnessProgram (script : Bytes) (v : ℕ) (prog : Bytes) : Prop where
  script_eq : script = versionOpcode v :: UInt8.ofNat prog.length :: prog
  version_le : v ≤ 16
  two_le : 2 ≤ prog.length
  le_forty : prog.length ≤ 40

/-- `OP_HASH160 <hash> OP_EQUAL` -/
def p2shScript (hash : Bytes) : Bytes := [0xa9, 0x14] ++ hash ++ [0x87]

/-- `OP_DUP OP_HASH160 <hash> OP_EQUALVERIFY OP_CHECKSIG` -/
def p2pkhScript (hash : Bytes) : Bytes := [0x76, 0xa9, 0x14] ++ hash ++ [0x88, 0xac]

theorem versionOpcode_toNat {v : ℕ} (h : v ≤ 16) :
    (versionOpcode v).toNat = if v = 0 then 0 else 0x50 + v := by
  unfold versionOpcode
  split_ifs
  · rfl
  · rw [UInt8.toNat_ofNat']
    omega

theorem versionOpcode_inj {v w : ℕ} (hv : v ≤ 16) (hw : w ≤ 16)
    (h : versionOpcode v = versionOpcode w) : v = w := by
  have hnat := congrArg UInt8.toNat h
  rw [versionOpcode_toNat hv, versionOpcode_toNat hw] at hnat
  split_ifs at hnat <;> omega

/-- A script is at most one witness program. -/
theorem WitnessProgram.unique {script p q : Bytes} {v w : ℕ} (h : WitnessProgram script v p)
    (h' : WitnessProgram script w q) : v = w ∧ p = q := by
  obtain ⟨rfl, hv, -, -⟩ := h
  obtain ⟨heq, hw, -, -⟩ := h'
  rw [List.cons.injEq, List.cons.injEq] at heq
  obtain ⟨hop, -, hprog⟩ := heq
  exact ⟨versionOpcode_inj hv hw hop, hprog⟩

theorem WitnessProgram.head_le {script prog : Bytes} {v : ℕ} {op : UInt8}
    (h : WitnessProgram script v prog) (hop : script.head? = some op) : op.toNat ≤ 96 := by
  rw [h.script_eq] at hop
  rw [← Option.some.inj hop, versionOpcode_toNat h.version_le]
  have hle := h.version_le
  split_ifs <;> omega

/-! ### The classifiers -/

theorem versionOpcode_of_byte {op : UInt8} (h81 : 81 ≤ op.toNat) (h96 : op.toNat ≤ 96) :
    versionOpcode (op.toNat - 0x50) = op := by
  apply UInt8.toNat_inj.1
  rw [versionOpcode_toNat (by omega), if_neg (by omega)]
  omega

theorem ofNat_length_toNat {prog : Bytes} (h : prog.length ≤ 40) :
    (UInt8.ofNat prog.length).toNat = prog.length := by
  rw [UInt8.toNat_ofNat']
  omega

/-- `is_witness` finds the witness programs. -/
theorem isWitness_eq_true_iff {script prog : Bytes} {v : ℕ} :
    isWitness script = (true, v, prog) ↔ WitnessProgram script v prog := by
  constructor
  · intro h
    match script, h with
    | op :: n :: rest, h =>
      simp only [isWitness] at h
      split_ifs at h with hlen hop hpush hne
      all_goals simp only [Prod.mk.injEq, Bool.false_eq_true, false_and, true_and] at h
      all_goals
        obtain ⟨rfl, rfl⟩ := h
        simp only [List.length_cons] at hlen hpush
        have hn : UInt8.ofNat rest.length = n := by
          apply UInt8.toNat_inj.1
          rw [UInt8.toNat_ofNat']
          omega
      · have hrange : ¬(op < 81 ∨ op > 96) := fun hr => hop ⟨hne, hr⟩
        rw [not_or, UInt8.not_lt, UInt8.not_lt, UInt8.le_iff_toNat_le, UInt8.le_iff_toNat_le] at hrange
        obtain ⟨h81, h96⟩ : 81 ≤ op.toNat ∧ op.toNat ≤ 96 := hrange
        exact ⟨by rw [hn, versionOpcode_of_byte h81 h96], by omega, by omega, by omega⟩
      · obtain rfl := not_not.1 hne
        exact ⟨by rw [hn]; rfl, by omega, by omega, by omega⟩
  · rintro ⟨rfl, hv, h2, h40⟩
    have hn := ofNat_length_toNat h40
    have hop := versionOpcode_toNat hv
    have hzero : versionOpcode v = 0 ↔ v = 0 := by
      rw [← UInt8.toNat_inj, hop]
      split_ifs <;> simp [*]
    have hrange : ¬(versionOpcode v ≠ 0 ∧ (versionOpcode v < 81 ∨ versionOpcode v > 96)) := by
      rintro ⟨hne, hbyte⟩
      rw [Ne, hzero] at hne
      rw [if_neg hne] at hop
      rcases hbyte with hlt | hgt
      · have h81 : (versionOpcode v).toNat < 81 := UInt8.lt_iff_toNat_lt.1 hlt
        omega
      · have h96 : 96 < (versionOpcode v).toNat := UInt8.lt_iff_toNat_lt.1 hgt
        omega
    simp only [isWitness, List.length_cons]
    rw [if_neg (by omega), if_neg hrange, if_pos (by omega), hop]
    by_cases h0 : v = 0
    · simp [h0, versionOpcode]
    · rw [if_pos (hzero.not.2 h0), if_neg h0]
      simp

theorem isWitness_fst_iff {script : Bytes} :
    (isWitness script).1 = true ↔ ∃ v prog, WitnessProgram script v prog := by
  constructor
  · intro h
    exact ⟨_, _, isWitness_eq_true_iff.1 (Prod.ext h rfl)⟩
  · rintro ⟨v, prog, h⟩
    rw [isWitness_eq_true_iff.2 h]

/-- The hash of a script that `is_p2sh` finds. -/
theorem eq_p2shScript {script : Bytes} (h : isP2sh script = true) :
    ((script.drop 2).take 20).length = 20 ∧ script = p2shScript ((script.drop 2).take 20) := by
  rw [isP2sh, decide_eq_true_iff] at h
  obtain ⟨hlen, h0, h1, h22⟩ := h
  match script with
  | a :: b :: rest =>
    cases h0
    cases h1
    simp only [List.length_cons, List.drop_succ_cons, List.drop_zero, List.getElem?_cons_succ,
      List.length_take] at hlen h22 ⊢
    refine ⟨by omega, ?_⟩
    have hlast : rest.drop 20 = [0x87] := by
      rw [List.drop_eq_getElem_cons (by omega), List.drop_eq_nil_of_le (by omega)]
      rw [List.getElem?_eq_getElem (by omega)] at h22
      rw [Option.some.inj h22]
    conv_lhs => rw [← List.take_append_drop 20 rest, hlast]
    rfl

/-- The hash of a script that `is_p2pkh` finds. -/
theorem eq_p2pkhScript {script : Bytes} (h : isP2pkh script = true) :
    ((script.drop 3).take 20).length = 20 ∧ script = p2pkhScript ((script.drop 3).take 20) := by
  rw [isP2pkh, decide_eq_true_iff] at h
  obtain ⟨hlen, h0, h1, h2, h23, h24⟩ := h
  match script with
  | a :: b :: c :: rest =>
    cases h0
    cases h1
    cases h2
    simp only [List.length_cons, List.drop_succ_cons, List.drop_zero, List.getElem?_cons_succ,
      List.length_take] at hlen h23 h24 ⊢
    refine ⟨by omega, ?_⟩
    have hlast : rest.drop 20 = [0x88, 0xac] := by
      rw [List.drop_eq_getElem_cons (by omega), List.drop_eq_getElem_cons (by omega),
        List.drop_eq_nil_of_le (by omega)]
      rw [List.getElem?_eq_getElem (by omega)] at h23 h24
      rw [Option.some.inj h23, Option.some.inj h24]
    conv_lhs => rw [← List.take_append_drop 20 rest, hlast]
    rfl

theorem isP2wpkh_iff {script : Bytes} :
    isP2wpkh script = true ↔ ∃ prog, WitnessProgram script 0 prog ∧ prog.length = 20 := by
  simp only [isP2wpkh, Bool.decide_and, Bool.and_eq_true, decide_eq_true_eq]
  constructor
  · rintro ⟨hwit, hver, hlen⟩
    exact ⟨_, isWitness_eq_true_iff.1 (Prod.ext hwit (Prod.ext hver rfl)), hlen⟩
  · rintro ⟨prog, h, hlen⟩
    rw [isWitness_eq_true_iff.2 h]
    exact ⟨rfl, rfl, hlen⟩

theorem isP2wsh_iff {script : Bytes} :
    isP2wsh script = true ↔ ∃ prog, WitnessProgram script 0 prog ∧ prog.length = 32 := by
  simp only [isP2wsh, Bool.decide_and, Bool.and_eq_true, decide_eq_true_eq]
  constructor
  · rintro ⟨hwit, hver, hlen⟩
    exact ⟨_, isWitness_eq_true_iff.1 (Prod.ext hwit (Prod.ext hver rfl)), hlen⟩
  · rintro ⟨prog, h, hlen⟩
    rw [isWitness_eq_true_iff.2 h]
    exact ⟨rfl, rfl, hlen⟩

end Hwi
