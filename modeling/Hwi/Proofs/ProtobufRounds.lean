import Hwi.Proofs.ProtobufRead

/-! The loops of `load_message` end: each round takes a byte, so a bound on the rounds
that is above the number of bytes does not matter. -/

namespace Hwi

namespace Trezorlib

namespace Protobuf

open Source
open LedgerBitcoin (utf8Decode)

variable {M : Messages}

theorem shrinks_loadUvarintLoop (fuel result shift bytesRead : ℕ) :
    Shrinks (loadUvarintLoop fuel result shift bytesRead) := by
  induction fuel generalizing result shift bytesRead with
  | zero => exact shrinks_pure result
  | succ fuel ih =>
    rw [loadUvarintLoop_succ]
    refine (shrinks_readinto 1).bind fun buffer => ?_
    cases buffer with
    | nil =>
      split_ifs
      · exact shrinks_throw _
      · exact shrinks_throw _
    | cons byte rest =>
      change Shrinks (if byte.toNat &&& 0x80 ≠ 0 then
        loadUvarintLoop fuel (result + (byte.toNat &&& 0x7F) <<< shift) (shift + 7) (bytesRead + 1)
        else pure (result + (byte.toNat &&& 0x7F) <<< shift))
      split_ifs
      · exact ih _ _ _
      · exact shrinks_pure _

theorem shrinks_loadUvarint : Shrinks loadUvarint :=
  shrinks_get_bind fun _ => shrinks_loadUvarintLoop _ 0 0 0

/-- A number takes a byte. -/
theorem loadUvarint_lt {s s' : Source UInt8} {n : ℕ} (h : loadUvarint.run s = .ok n s') :
    s'.data.length < s.data.length := by
  change (loadUvarintLoop (s.data.length + 1) 0 0 0).run s = .ok n s' at h
  rw [loadUvarintLoop_succ] at h
  obtain ⟨buffer, s₁, hread, h⟩ := Procedure.run_bind_eq_ok.1 h
  cases buffer with
  | nil => cases h
  | cons byte rest =>
    have hlength := readinto_length hread
    rw [List.length_cons] at hlength
    have hle : s'.data.length ≤ s₁.data.length := by
      change (if byte.toNat &&& 0x80 ≠ 0 then
        loadUvarintLoop s.data.length (0 + (byte.toNat &&& 0x7F) <<< 0) (0 + 7) (0 + 1)
        else pure (0 + (byte.toNat &&& 0x7F) <<< 0) : Loader ℕ).run s₁ = _ at h
      split_ifs at h
      · exact (shrinks_loadUvarintLoop _ _ _ _).ok h
      · exact (shrinks_pure _).ok h
    omega

theorem loadKey_lt {s s' : Source UInt8} {fkey : ℕ} (h : loadKey.run s = .ok (some fkey) s') :
    s'.data.length < s.data.length := by
  change loadKey s = _ at h
  unfold loadKey at h
  cases hrun : loadUvarint s with
  | ok n s₁ =>
    rw [hrun] at h
    cases h
    exact loadUvarint_lt hrun
  | error e s₁ =>
    rw [hrun] at h
    cases e <;> cases h

theorem shrinks_loadKey : Shrinks loadKey := by
  intro s
  have hs := shrinks_loadUvarint s
  change (left (loadUvarint s)).data.length ≤ _ at hs
  change (left (loadKey s)).data.length ≤ _
  unfold loadKey
  cases hrun : loadUvarint s with
  | ok n s₁ =>
    rw [hrun] at hs
    exact hs
  | error e s₁ =>
    rw [hrun] at hs
    cases e <;> exact hs

theorem shrinks_readBuffer (n : ℕ) : Shrinks (readBuffer n) :=
  (shrinks_readinto n).bind fun _ => shrinks_pure _

theorem shrinks_decodeVarintField (field : Field) : Shrinks (decodeVarintField M field) := by
  unfold decodeVarintField
  refine (shrinks_ofExcept _).bind fun wireType => shrinks_ite_throw ?_
  refine shrinks_loadUvarint.bind fun value => ?_
  cases field.type with
  | bytes => exact shrinks_throw _
  | string => exact shrinks_throw _
  | _ => exact shrinks_pure _

theorem shrinks_packedLoop (field : Field) (fuel : ℕ) : Shrinks (packedLoop M field fuel) := by
  induction fuel with
  | zero => exact shrinks_pure []
  | succ fuel ih =>
    intro s
    have hs := shrinks_decodeVarintField (M := M) field s
    change (left (decodeVarintField M field s)).data.length ≤ _ at hs
    change (left (packedLoop M field (fuel + 1) s)).data.length ≤ _
    unfold packedLoop
    cases hrun : decodeVarintField M field s with
    | ok value s₁ =>
      rw [hrun] at hs
      exact Nat.le_trans (ih.bind (fun values => shrinks_pure (value :: values)) s₁) hs
    | error e s₁ =>
      rw [hrun] at hs
      cases e <;> exact hs

theorem shrinks_decodePackedArrayField (field : Field) : Shrinks (decodePackedArrayField M field) := by
  unfold decodePackedArrayField
  refine shrinks_ite_throw (shrinks_loadUvarint.bind fun length => shrinks_get_bind fun _ => ?_)
  exact (shrinks_packedLoop field _).within length

theorem shrinks_skipField (wtype : ℕ) : Shrinks (skipField wtype) := by
  unfold skipField
  split_ifs
  · exact shrinks_loadUvarint.bind fun _ => shrinks_pure _
  · exact shrinks_loadUvarint.bind fun n => (shrinks_readinto n).bind fun _ => shrinks_pure _
  · exact shrinks_throw _

theorem shrinks_decodeLengthDelimitedField {load : MessageClass → Loader Value}
    (hload : ∀ cls, Shrinks (load cls)) (field : Field) :
    Shrinks (decodeLengthDelimitedField M load field) := by
  unfold decodeLengthDelimitedField
  refine shrinks_loadUvarint.bind fun value => ?_
  cases field.type with
  | bytes => exact (shrinks_readBuffer value).bind fun _ => shrinks_pure _
  | string =>
    refine (shrinks_readBuffer value).bind fun buf => ?_
    cases utf8Decode buf with
    | ok s => exact shrinks_pure _
    | error e => exact shrinks_throw _
  | _ =>
    cases getFieldTypeObject M field with
    | none => exact shrinks_throw _
    | some object =>
      cases object with
      | message cls => exact (hload cls).within value
      | enum members => exact shrinks_throw _

theorem shrinks_decodeField {load : MessageClass → Loader Value} (hload : ∀ cls, Shrinks (load cls))
    (field : Field) (wtype : ℕ) : Shrinks (decodeField M load field wtype) := by
  unfold decodeField
  refine (shrinks_ofExcept _).bind fun wireType => ?_
  split_ifs
  · exact shrinks_decodePackedArrayField field
  · exact shrinks_throw _
  · exact (shrinks_decodeLengthDelimitedField hload field).bind fun _ => shrinks_pure _
  · exact (shrinks_decodeVarintField field).bind fun _ => shrinks_pure _
  · exact shrinks_throw _

theorem shrinks_loadField {fuel : ℕ} (hload : ∀ cls, Shrinks (loadMessageFrom M fuel cls))
    (cls : MessageClass) (fkey : ℕ) (d : MsgDict) : Shrinks (loadField M fuel cls fkey d) := by
  unfold loadField
  cases cls.fields.lookup (fkey >>> 3) with
  | none => exact (shrinks_skipField _).bind fun _ => shrinks_pure d
  | some field => exact (shrinks_decodeField hload field _).bind fun _ => shrinks_ofExcept _

theorem shrinks_loadFields (fuel : ℕ) (cls : MessageClass) (d : MsgDict) :
    Shrinks (loadFields M fuel cls d) := by
  induction fuel generalizing cls d with
  | zero => exact shrinks_pure d
  | succ fuel ih =>
    rw [loadFields_succ]
    refine shrinks_loadKey.bind fun key => ?_
    cases key with
    | none => exact shrinks_pure d
    | some fkey =>
      have hload (inner : MessageClass) : Shrinks (loadMessageFrom M fuel inner) :=
        (ih inner inner.seed).bind fun _ => shrinks_ofExcept _
      exact (shrinks_loadField hload cls fkey d).bind fun d' => ih cls d'

theorem shrinks_loadMessageFrom (fuel : ℕ) (cls : MessageClass) : Shrinks (loadMessageFrom M fuel cls) :=
  (shrinks_loadFields fuel cls cls.seed).bind fun _ => shrinks_ofExcept _

/-! ### More rounds do not matter -/

theorem decodeLengthDelimitedField_congr {load load' : MessageClass → Loader Value} {s : Source UInt8}
    (h : ∀ cls s', s'.data.length ≤ s.data.length → (load cls).run s' = (load' cls).run s') (field : Field) :
    (decodeLengthDelimitedField M load field).run s = (decodeLengthDelimitedField M load' field).run s := by
  unfold decodeLengthDelimitedField
  refine bind_congr_of_shrinks shrinks_loadUvarint fun value s' hs' => ?_
  cases field.type with
  | bytes => rfl
  | string => rfl
  | _ =>
    cases getFieldTypeObject M field with
    | none => rfl
    | some object =>
      cases object with
      | enum members => rfl
      | message cls =>
        have hinner := h cls ⟨s'.data, value :: s'.limits⟩ hs'
        change (load cls) ⟨s'.data, value :: s'.limits⟩ = load' cls _ at hinner
        change within value (load cls) s' = within value (load' cls) s'
        unfold within
        rw [hinner]

theorem decodeField_congr {load load' : MessageClass → Loader Value} {s : Source UInt8}
    (h : ∀ cls s', s'.data.length ≤ s.data.length → (load cls).run s' = (load' cls).run s') (field : Field)
    (wtype : ℕ) : (decodeField M load field wtype).run s = (decodeField M load' field wtype).run s := by
  unfold decodeField
  refine bind_congr_of_shrinks (shrinks_ofExcept _) fun wireType s' hs' => ?_
  split_ifs
  · rfl
  · rfl
  · rw [EStateM.run_bind, EStateM.run_bind, decodeLengthDelimitedField_congr fun cls s'' hs'' =>
      h cls s'' (Nat.le_trans hs'' hs')]
  · rfl
  · rfl

/-- With more rounds than there are bytes the message is the same. -/
theorem loadFields_rounds {fuel fuel' : ℕ} {s : Source UInt8} (hfuel : s.data.length < fuel)
    (hfuel' : s.data.length < fuel') (cls : MessageClass) (d : MsgDict) :
    (loadFields M fuel cls d).run s = (loadFields M fuel' cls d).run s := by
  induction fuel generalizing fuel' s cls d with
  | zero => omega
  | succ fuel ih =>
    obtain ⟨fuel', rfl⟩ : ∃ k, fuel' = k + 1 := ⟨fuel' - 1, by omega⟩
    rw [loadFields_succ, loadFields_succ, EStateM.run_bind, EStateM.run_bind]
    cases hkey : loadKey.run s with
    | error e s₁ => rfl
    | ok key s₁ =>
      cases key with
      | none => rfl
      | some fkey =>
        have hlt := loadKey_lt hkey
        have hload (inner : MessageClass) (s' : Source UInt8) (hs' : s'.data.length ≤ s₁.data.length) :
            (loadMessageFrom M fuel inner).run s' = (loadMessageFrom M fuel' inner).run s' := by
          unfold loadMessageFrom
          rw [EStateM.run_bind, EStateM.run_bind, @ih fuel' s' (by omega) (by omega)]
        have hfield : (loadField M fuel cls fkey d).run s₁ = (loadField M fuel' cls fkey d).run s₁ := by
          unfold loadField
          cases cls.fields.lookup (fkey >>> 3) with
          | none => rfl
          | some field =>
            change (decodeField M _ field _ >>= _).run s₁ = (decodeField M _ field _ >>= _).run s₁
            rw [EStateM.run_bind, EStateM.run_bind, decodeField_congr hload]
        change (loadField M fuel cls fkey d >>= loadFields M fuel cls).run s₁ =
          (loadField M fuel' cls fkey d >>= loadFields M fuel' cls).run s₁
        rw [EStateM.run_bind, EStateM.run_bind, hfield]
        cases hrun : (loadField M fuel' cls fkey d).run s₁ with
        | error e s₂ => rfl
        | ok d' s₂ =>
          have hle := (shrinks_loadField (fun inner => shrinks_loadMessageFrom fuel' inner) cls fkey d).ok hrun
          exact @ih fuel' s₂ (by omega) (by omega) cls d'

theorem loadMessageFrom_rounds {fuel : ℕ} {data : Bytes} (h : data.length < fuel) (cls : MessageClass) :
    (loadMessageFrom M fuel cls).run ⟨data, []⟩ =
      (loadMessageFrom M (data.length + 1) cls).run ⟨data, []⟩ := by
  unfold loadMessageFrom
  rw [EStateM.run_bind, EStateM.run_bind,
    @loadFields_rounds M fuel (data.length + 1) ⟨data, []⟩ h (Nat.lt_succ_self _)]

end Protobuf

end Trezorlib

end Hwi
