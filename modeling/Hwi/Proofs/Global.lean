import Hwi.Format.Global
import Hwi.Proofs.Output

/-! The global map as a store of entries. -/

namespace Hwi

open Reader

namespace GlobalEntry

@[simp] theorem field_slot (e : GlobalEntry) : e.slot.field = e.field := by cases e <;> rfl

@[simp] theorem key_slot (e : GlobalEntry) : e.slot.key = e.key := by cases e <;> rfl

@[simp] theorem key_stored (e : GlobalEntry) : e.stored.key = e.key := by cases e <;> rfl

/-- An unsigned transaction is read back from its bytes. -/
theorem unsignedTx_bytes {R : Runtime} {tx : CTransaction} (h : tx.Valid) (hnull : tx.witIsNull)
    (hsig : ∀ txin ∈ tx.vin, txin.scriptSig = []) : PSBT.unsignedTx R tx.bytes = .ok tx.asRead := by
  have hread := (CTransaction.exactly_deserializeWithoutWitness (R := R) h.onWire).run
  rw [← CTransaction.asRead_of_null hnull] at hread
  have hempty : tx.asRead.vtxinwit = [] := if_pos hnull
  have hwit : tx.asRead.witIsNull = true := by rw [CTransaction.witIsNull, hempty]; rfl
  have hany : (tx.asRead.vin.any fun txin =>
      decide (txin.scriptSig.length ≠ 0) || !tx.asRead.witIsNull) = false := by
    rw [List.any_eq_false]
    intro txin hin
    simp [hsig txin hin, hwit]
  simp only [PSBT.unsignedTx, hread, List.take_nil, List.length_nil, lt_self_iff_false, if_false, hany]
  rfl

/-- The record of a valid entry is read as the entry. -/
theorem ofRecord_record {R : Runtime} {e : GlobalEntry} (h : e.Valid) :
    ofRecord R e.key e.value e.field = some e.stored := by
  cases e
  case unsignedTx tx => simp [ofRecord, field, value, stored, unsignedTx_bytes h.1 h.2.1 h.2.2]
  case xpub pubkey origin =>
    simp [ofRecord, field, value, stored, key, KeyOriginInfo.deserialize_bytes h.2]
  case txVersion n =>
    obtain ⟨h0, hlt⟩ := h
    have hn : n.toNat < 2 ^ 32 := by omega
    simp [ofRecord, field, value, stored, unpack_four hn, h0]
  case fallbackLocktime n | version n =>
    simp [ofRecord, field, value, stored, unpack_four h]
  case inputCount n | outputCount n =>
    simp [ofRecord, field, value, stored, runOn_of_exactly (exactly_deserCompactSize h)]
  case txModifiable n =>
    have hn : ofLE (toLE 1 n) = n := ofLE_toLE (by simpa [Valid] using h)
    simp [ofRecord, field, value, stored, unpack, hn]
  case unknown => rfl

end GlobalEntry

namespace PSBT.Global

theorem field_of_mem_contents {self : Global} {f : GlobalField} {e : GlobalEntry}
    (h : e ∈ self.contents f) : e.field = f := by
  cases f <;> simp only [contents] at h
  case unsignedTx | version =>
    split_ifs at h
    · rw [List.mem_singleton.1 h]
      rfl
    · exact absurd h List.not_mem_nil
  all_goals first
    | (obtain ⟨_, _, rfl⟩ := mem_optionEntries.1 h; rfl)
    | (obtain ⟨_, _, _, rfl⟩ := mem_dictEntries.1 h; rfl)

theorem contents_add_of_ne {self : Global} {e : GlobalEntry} {f : GlobalField}
    (h : f ≠ e.field) : (self.add e).contents f = self.contents f := by
  cases e <;> cases f <;> first | rfl | exact absurd rfl h

/-- What adding an entry does to its own field. -/
theorem contents_add (self : Global) (e : GlobalEntry) :
    ((self.add e).contents e.field).Perm ([e] ++
      (self.contents e.field).filter fun a => decide (a.slot ≠ e.slot)) := by
  cases e
  case unsignedTx tx =>
    rw [filter_slot_eq_nil, List.append_nil]
    · rfl
    · intro a ha
      simp only [GlobalEntry.field, contents] at ha
      split_ifs at ha
      · rw [List.mem_singleton.1 ha]
        rfl
      · exact absurd ha List.not_mem_nil
  case version n =>
    rw [filter_slot_eq_nil, List.append_nil]
    · rfl
    · intro a ha
      simp only [GlobalEntry.field, contents] at ha
      split_ifs at ha
      · rw [List.mem_singleton.1 ha]
        rfl
      · exact absurd ha List.not_mem_nil
  all_goals first
    | exact optionEntries_perm (fun _ _ => rfl) _ _
    | exact dictEntries_perm _ (fun _ _ _ _ => by simp [GlobalEntry.slot]) _ _ _

/-- The global map as a store of entries. No global value stands for absence. -/
def store : FieldStore Global GlobalEntry GlobalField GlobalEntry where
  fields := GlobalField.all
  mem_fields f := by cases f <;> decide
  nodup_fields := by decide
  contents := contents
  add := add
  field := GlobalEntry.field
  slot := GlobalEntry.slot
  null _ := false
  field_of_mem := field_of_mem_contents
  field_of_slot h := by simpa using congrArg GlobalEntry.field h
  contents_add_of_ne := contents_add_of_ne
  contents_add := contents_add

/-! ### The branches of the read loop -/

/-- What a branch stores for the bytes it takes as the value. -/
def Stores (b : Branch Global) (v : Bytes) : Option Global :=
  match b with
  | .value _ store => (store v).toOption
  | .count _ store => (runOn deserCompactSize v).toOption.map store

/-- Every branch stores the entry its record is read as. -/
theorem branch_store (R : Runtime) (key : Bytes) (seen : List Bytes) (self : Global) (t : ℕ) (v : Bytes) :
    Stores (branch R key seen self t) v =
      (GlobalEntry.ofRecord R key v (GlobalField.ofType t)).map self.add := by
  unfold branch
  split
  case h_9 =>
    have hf : GlobalField.ofType t = .unknown := by
      unfold GlobalField.ofType
      split <;> first | rfl | contradiction
    rw [hf]
    rfl
  all_goals simp only [GlobalField.ofType, GlobalEntry.ofRecord, Stores]
  case h_1 => cases PSBT.unsignedTx R v <;> rfl
  case h_2 =>
    rw [hdKeypathStore]
    cases KeyOriginInfo.deserialize v <;> rfl
  case h_5 | h_6 => cases runOn deserCompactSize v <;> rfl
  case h_7 =>
    simp only [toOption_bind, fixedInt_toOption]
    cases unpack 1 v <;> rfl
  all_goals
    simp only [toOption_bind, fixedInt_toOption]
    cases unpack 4 v <;> rfl

/-- Only the two count records are read past their length. -/
theorem branch_count {R : Runtime} {key : Bytes} {seen : List Bytes} {self : Global} {t : ℕ}
    {check : Except Exc Unit} {put : ℕ → Global} (h : branch R key seen self t = .count check put) :
    GlobalField.ofType t = .inputCount ∨ GlobalField.ofType t = .outputCount := by
  unfold branch at h
  split at h
  case h_5 => exact Or.inl rfl
  case h_6 => exact Or.inr rfl
  all_goals cases h

/-- The branch of a valid entry that is new to the map passes its checks. -/
theorem branch_check {R : Runtime} {seen : List Bytes} {self : Global} {e : GlobalEntry} (hv : e.Valid)
    (hseen : e.key ∉ seen) (hfresh : ∀ a ∈ store.held self, a.key ≠ e.key) : ∃ t,
      runOn deserCompactSize e.key = .ok t ∧ GlobalField.ofType t = e.field ∧
        (branch R e.key seen self t).check = .ok () := by
  have hnot (a : GlobalEntry) (ha : a.key = e.key) : a ∉ self.contents a.field := fun hmem =>
    hfresh a (store.mem_held.2 hmem) ha
  cases e
  case xpub pubkey origin =>
    have hlen : ¬((0x01 :: pubkey).length ∉ [79]) := by
      have := hv.1
      simp only [List.length_cons, List.mem_singleton, not_not]
      omega
    have hdup : self.psbt.xpub.contains pubkey = false := contains_eq_false fun v hmem =>
      hnot (.xpub pubkey v) rfl (mem_dictEntries.2 ⟨_, _, hmem, rfl⟩)
    refine ⟨1, runOn_type (by decide) _, rfl, ?_⟩
    simp only [branch, Branch.check, GlobalEntry.key, hdKeypathCheck, if_neg hlen,
      List.drop_succ_cons, List.drop_zero, hdup]
    rfl
  case unknown key value =>
    obtain ⟨t, ht, hf⟩ := hv
    have hdup : self.psbt.unknown.contains key = false := contains_eq_false fun v hmem =>
      hnot (.unknown key v) rfl (mem_dictEntries.2 ⟨_, _, hmem, rfl⟩)
    refine ⟨t, ht, hf, ?_⟩
    unfold branch
    split
    case h_9 => simp [Branch.check, GlobalEntry.key, hdup]
    all_goals exact absurd hf (by decide)
  all_goals exact ⟨_, runOn_type (by decide) _, rfl, checkKey_ok _ _ hseen rfl⟩

/-- The format of the global map. -/
def format (R : Runtime) : MapFormat R Global GlobalEntry GlobalField where
  store := store
  branch := branch R
  key := GlobalEntry.key
  value := GlobalEntry.value
  stored := GlobalEntry.stored
  ofRecord t key v := GlobalEntry.ofRecord R key v (GlobalField.ofType t)
  Valid _ e := e.Valid
  valid_add h := h
  key_of_slot {a b} h := by
    have hslot : a.slot = b.slot := h
    simpa using congrArg GlobalEntry.key hslot
  key_stored := GlobalEntry.key_stored
  null_stored _ := rfl
  takes {seen self e} h hseen hfresh := by
    obtain ⟨t, ht, hf, hcheck⟩ := branch_check (R := R) h hseen hfresh
    have hstore := branch_store R e.key seen self t e.value
    rw [hf, GlobalEntry.ofRecord_record h] at hstore
    refine ⟨t, ht, ?_⟩
    cases hb : branch R e.key seen self t with
    | value check put =>
      rw [hb] at hcheck hstore
      obtain rfl : check = .ok () := hcheck
      exact .value (toOption_eq_some.1 hstore)
    | count check put =>
      have hcount := branch_count hb
      rw [hb] at hcheck hstore
      obtain rfl : check = .ok () := hcheck
      rw [hf] at hcount
      cases e with
      | inputCount n | outputCount n =>
        have hrun := runOn_of_exactly (exactly_deserCompactSize h)
        simp only [Stores, GlobalEntry.value, hrun, toOption_ok, Option.map_some,
          Option.some.injEq] at hstore
        have htakes : Branch.Takes (.count (.ok ()) put) (serCompactSize n) (put n) := .count h
        rwa [hstore] at htakes
      | _ => simp [GlobalEntry.field] at hcount
  reads {key seen self t f n v self' f'} h := by
    have hstore := branch_store R key seen self t v
    cases hb : branch R key seen self t with
    | value check put =>
      rw [hb] at h hstore
      cases h with
      | value _ _ hst =>
        rw [Stores, hst, toOption_ok, eq_comm, Option.map_eq_some_iff] at hstore
        obtain ⟨e, he, rfl⟩ := hstore
        exact ⟨e, he, rfl⟩
    | count check put =>
      rw [hb] at h hstore
      cases h with
      | count _ hv =>
        rw [Stores, runOn_of_exactly hv, toOption_ok, Option.map_some, eq_comm,
          Option.map_eq_some_iff] at hstore
        obtain ⟨e, he, hadd⟩ := hstore
        exact ⟨e, he, hadd.symm⟩

end PSBT.Global

end Hwi
