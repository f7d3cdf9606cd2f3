import Hwi.Format.Protobuf
import Hwi.Proofs.RegisteredDescriptor

/-! How `load_message` reads: the numbers, the values of fields, and the fields one after
the other. -/

namespace Hwi

namespace Trezorlib

namespace Protobuf

open Source
open LedgerBitcoin (utf8 utf8Decode utf8Decode_utf8)

variable {E : Error → Prop}

/-! ### Numbers -/

def uvarint (n : ℕ) : Bytes := dumpUvarintLoop (n + 1) n

theorem dumpUvarint_natCast (n : ℕ) : dumpUvarint n = .ok (uvarint n) :=
  if_neg (Int.not_lt.2 (Int.natCast_nonneg n))

theorem dumpUvarint_eq_ok {z : ℤ} {b : Bytes} (h : dumpUvarint z = .ok b) :
    ∃ n : ℕ, z = n ∧ b = uvarint n := by
  by_cases hz : z < 0
  · rw [dumpUvarint, if_pos hz] at h
    cases h
  · rw [dumpUvarint, if_neg hz] at h
    cases h
    exact ⟨z.toNat, (Int.toNat_of_nonneg (Int.not_lt.1 hz)).symm, rfl⟩

/-- The byte that `dump_uvarint` writes for the low seven bits. -/
def uvarintByte (n : ℕ) (more : Prop) [Decidable more] : UInt8 :=
  UInt8.ofNat ((n &&& 0x7F) ||| if more then 0x80 else 0x00)

theorem uvarintByte_toNat (n : ℕ) (more : Prop) [Decidable more] :
    (uvarintByte n more).toNat &&& 0x7F = n % 128 ∧
      ((uvarintByte n more).toNat &&& 0x80 ≠ 0 ↔ more) := by
  have hsmall : ∀ m : Fin 128, ((UInt8.ofNat (m ||| 0x80)).toNat &&& 0x7F = m ∧
      (UInt8.ofNat (m ||| 0x80)).toNat &&& 0x80 ≠ 0) ∧
      (UInt8.ofNat (m ||| 0x00)).toNat &&& 0x7F = m ∧
      (UInt8.ofNat (m ||| 0x00)).toNat &&& 0x80 = 0 := by decide
  have hmod : n &&& 0x7F = n % 128 := Nat.and_two_pow_sub_one_eq_mod n 7
  obtain ⟨hmore, hlast⟩ := hsmall ⟨n % 128, Nat.mod_lt n (by decide)⟩
  unfold uvarintByte
  rw [hmod]
  by_cases h : more
  · rw [if_pos h]
    exact ⟨hmore.1, iff_of_true hmore.2 h⟩
  · rw [if_neg h]
    exact ⟨hlast.1, iff_of_false (not_not_intro hlast.2) h⟩

theorem dumpUvarintLoop_succ (fuel n : ℕ) :
    dumpUvarintLoop (fuel + 1) n = uvarintByte n (n >>> 7 ≠ 0) ::
      if n >>> 7 ≠ 0 then dumpUvarintLoop fuel (n >>> 7) else [] := rfl

theorem loadUvarintLoop_succ (fuel result shift bytesRead : ℕ) :
    loadUvarintLoop (fuel + 1) result shift bytesRead = readinto 1 >>= fun buffer => match buffer with
      | [] => if bytesRead > 0 then throw (.ioError "Interrupted UVarint") else throw .eofError
      | byte :: _ =>
        let result := result + (byte.toNat &&& 0x7F) <<< shift
        if byte.toNat &&& 0x80 ≠ 0 then loadUvarintLoop fuel result (shift + 7) (bytesRead + 1)
        else return result := rfl

/-- A step of `load_uvarint` for the byte that is written. -/
theorem reads_uvarintByte {n fuel result shift bytesRead : ℕ} {more : Prop} [Decidable more]
    {bs : Bytes} {x : Option ℕ}
    (h : Reads E (if more then
      loadUvarintLoop fuel (result + (n % 128) <<< shift) (shift + 7) (bytesRead + 1)
      else pure (result + (n % 128) <<< shift)) bs x) :
    Reads E (loadUvarintLoop (fuel + 1) result shift bytesRead) (uvarintByte n more :: bs) x := by
  obtain ⟨hlow, hmore⟩ := uvarintByte_toNat n more
  rw [loadUvarintLoop_succ]
  refine (reads_readinto [uvarintByte n more]).bind (u := bs) (f := fun _ => x) fun buffer hbuffer => ?_
  obtain rfl := Option.some.inj hbuffer
  change Reads E (if (uvarintByte n more).toNat &&& 0x80 ≠ 0 then
    loadUvarintLoop fuel (result + ((uvarintByte n more).toNat &&& 0x7F) <<< shift) (shift + 7) (bytesRead + 1)
    else pure (result + ((uvarintByte n more).toNat &&& 0x7F) <<< shift)) bs x
  rw [hlow]
  by_cases hm : more
  · rw [if_pos (hmore.2 hm)]
    rwa [if_pos hm] at h
  · rw [if_neg (mt hmore.1 hm)]
    rwa [if_neg hm] at h

theorem reads_loadUvarintLoop {fuel n : ℕ} (hn : n < fuel) {fuel' result shift bytesRead : ℕ}
    (hfuel : (dumpUvarintLoop fuel n).length ≤ fuel') :
    Reads E (loadUvarintLoop fuel' result shift bytesRead) (dumpUvarintLoop fuel n)
      (some (result + n <<< shift)) := by
  induction fuel generalizing n fuel' result shift bytesRead with
  | zero => exact absurd hn (Nat.not_lt_zero n)
  | succ fuel ih =>
    rw [dumpUvarintLoop_succ] at hfuel ⊢
    obtain ⟨fuel', rfl⟩ : ∃ k, fuel' = k + 1 := ⟨fuel' - 1, by rw [List.length_cons] at hfuel; omega⟩
    rw [List.length_cons, Nat.add_le_add_iff_right] at hfuel
    apply reads_uvarintByte
    have hshift : n >>> 7 = n / 128 := Nat.shiftRight_eq_div_pow n 7
    by_cases hmore : n >>> 7 ≠ 0
    · rw [if_pos hmore] at hfuel ⊢
      rw [if_pos hmore]
      have hvalue : result + n <<< shift = result + (n % 128) <<< shift + (n >>> 7) <<< (shift + 7) := by
        have hdigits : n % 128 + n / 128 * 2 ^ 7 = n := by omega
        have hpow : 2 ^ (shift + 7) = 2 ^ 7 * 2 ^ shift := by rw [pow_add, Nat.mul_comm]
        rw [hshift, Nat.shiftLeft_eq, Nat.shiftLeft_eq, Nat.shiftLeft_eq, hpow, Nat.add_assoc,
          ← Nat.mul_assoc, ← Nat.add_mul, hdigits]
      rw [hvalue]
      exact ih (by omega) hfuel
    · rw [if_neg hmore, if_neg hmore]
      have hsmall : n % 128 = n := Nat.mod_eq_of_lt (by omega)
      rw [hsmall]
      exact reads_pure _

theorem reads_loadUvarint (n : ℕ) : Reads E loadUvarint (uvarint n) (some n) := by
  intro rest limits hroom
  have hfuel : (uvarint n).length ≤ (uvarint n ++ rest).length + 1 := by
    rw [List.length_append]
    omega
  have hread := @reads_loadUvarintLoop E (n + 1) n (Nat.lt_succ_self n) _ 0 0 0 hfuel rest limits hroom
  rw [Nat.shiftLeft_zero, Nat.zero_add] at hread
  exact hread

theorem loadUvarint_ended {s : Source UInt8} (h : s.Ended) :
    loadUvarint.run s = .error .eofError s := by
  change (loadUvarintLoop (s.data.length + 1) 0 0 0).run s = _
  rw [loadUvarintLoop_succ, EStateM.run_bind, readinto_ended Nat.one_pos h]
  rfl

theorem reads_loadKey (n : ℕ) : Reads E loadKey (uvarint n) (some (some n)) := by
  intro rest limits hroom
  have hread : loadUvarint.run _ = .ok n _ := reads_loadUvarint (E := E) n rest limits hroom
  change loadUvarint _ = _ at hread
  change loadKey _ = _
  rw [loadKey, hread]

theorem loadKey_ended {s : Source UInt8} (h : s.Ended) : loadKey.run s = .ok none s := by
  have hread : loadUvarint s = _ := loadUvarint_ended h
  change loadKey _ = _
  rw [loadKey, hread]

theorem uvarint_length_pos (n : ℕ) : 0 < (uvarint n).length := by
  rw [uvarint, dumpUvarintLoop_succ]
  exact Nat.succ_pos _

/-- Signed numbers are interleaved: 0, -1, 1, -2, 2, ... -/
theorem uintToSint_sintToUint (n : ℤ) : 0 ≤ sintToUint n ∧ uintToSint (sintToUint n).toNat = n := by
  unfold sintToUint uintToSint
  by_cases hn : n < 0
  · have hz : -(n * 2) - 1 = ((2 * (-n - 1).toNat + 1 : ℕ) : ℤ) := by omega
    rw [if_pos hn, hz, Int.toNat_natCast, Nat.and_one_is_mod, Nat.shiftRight_one]
    refine ⟨Int.natCast_nonneg _, ?_⟩
    rw [if_pos (by omega)]
    omega
  · have hz : n * 2 = ((2 * n.toNat : ℕ) : ℤ) := by omega
    rw [if_neg hn, hz, Int.toNat_natCast, Nat.and_one_is_mod, Nat.shiftRight_one]
    refine ⟨Int.natCast_nonneg _, ?_⟩
    rw [if_neg (by omega)]
    omega

/-! ### Values -/

section Values

variable {M : Messages} {field : Field} {value : Value} {b : Bytes}

theorem dumpInt_eq_ok {n : ℤ} (h : dumpInt field value = .ok n) :
    value.asInt? = some n ∧ field.valueFits n = .ok true := by
  unfold dumpInt at h
  cases hint : value.asInt? with
  | none =>
    rw [hint] at h
    cases h
  | some m =>
    rw [hint] at h
    obtain ⟨fits, hfits, h⟩ := bind_eq_ok.1 h
    cases fits with
    | false => cases h
    | true =>
      cases h
      exact ⟨rfl, hfits⟩

/-- The value that is read for the number of a field. -/
def varintValue (field : Field) (n : ℕ) : Value :=
  match field.type with
  | .sint32 | .sint64 => .int (uintToSint n)
  | .bool => .bool (n ≠ 0)
  | _ => .int n

theorem reads_decodeVarintField (h : field.wireType M = .ok wireTypeInt) (n : ℕ) :
    Reads E (decodeVarintField M field) (uvarint n) (some (varintValue field n)) := by
  unfold decodeVarintField
  rw [h]
  refine (reads_loadUvarint n).bind_some_nil ?_
  unfold varintValue
  unfold Field.wireType at h
  cases htype : field.type with
  | uint32 => exact reads_pure _
  | uint64 => exact reads_pure _
  | sint32 => exact reads_pure _
  | sint64 => exact reads_pure _
  | bool => exact reads_pure _
  | named name => exact reads_pure _
  | bytes =>
    rw [htype] at h
    cases h
  | string =>
    rw [htype] at h
    cases h

/-- The numbers of the fields that have to fit. -/
theorem receiveSimple_uint (h : field.type = .uint32 ∨ field.type = .uint64) {z : ℤ} {n : ℕ}
    (hvalue : value.asInt? = some z) (hz : z = n) :
    field.receiveSimple value = varintValue field n := by
  subst hz
  unfold Field.receiveSimple varintValue
  rcases h with h | h <;> simp only [h, hvalue]

theorem receiveSimple_sint (h : field.type = .sint32 ∨ field.type = .sint64) {z : ℤ} {n : ℕ}
    (hvalue : value.asInt? = some z) (hz : sintToUint z = n) :
    field.receiveSimple value = varintValue field n := by
  have hsint := (uintToSint_sintToUint z).2
  rw [hz, Int.toNat_natCast] at hsint
  unfold Field.receiveSimple varintValue
  rcases h with h | h <;> simp only [h, hvalue, hsint]

/-- A message is not written as another value. -/
theorem dumpSimple_message {cls : String} {attrs : List Attr} :
    dumpSimple M field (.message cls attrs) ≠ .ok b := by
  intro h
  unfold dumpSimple at h
  split at h
  · split at h <;> cases h
  all_goals cases h

theorem receiveValue_simple {A B : Messages} (h : dumpSimple M field value = .ok b) :
    receiveValue A B field value = some (field.receiveSimple value) := by
  cases value with
  | message cls attrs => exact absurd h dumpSimple_message
  | int n => rw [receiveValue]
  | bool c => rw [receiveValue]
  | bytes c => rw [receiveValue]
  | str s => rw [receiveValue]

/-- What is written for a value that is not a message. -/
theorem dumpSimple_eq_ok (h : dumpSimple M field value = .ok b) :
    (∃ n, field.wireType M = .ok wireTypeInt ∧ b = uvarint n ∧
      field.receiveSimple value = varintValue field n) ∨
    (∃ c, field.type = .bytes ∧ value = .bytes c ∧ b = uvarint c.length ++ c) ∨
    ∃ s, field.type = .string ∧ value = .str s ∧ b = uvarint (utf8 s).length ++ utf8 s := by
  unfold dumpSimple at h
  cases htype : field.type with
  | uint32 =>
    rw [htype] at h
    obtain ⟨z, hz, h⟩ := bind_eq_ok.1 h
    obtain ⟨n, hn, rfl⟩ := dumpUvarint_eq_ok h
    exact Or.inl ⟨n, by rw [Field.wireType, htype], rfl,
      receiveSimple_uint (Or.inl htype) (dumpInt_eq_ok hz).1 hn⟩
  | uint64 =>
    rw [htype] at h
    obtain ⟨z, hz, h⟩ := bind_eq_ok.1 h
    obtain ⟨n, hn, rfl⟩ := dumpUvarint_eq_ok h
    exact Or.inl ⟨n, by rw [Field.wireType, htype], rfl,
      receiveSimple_uint (Or.inr htype) (dumpInt_eq_ok hz).1 hn⟩
  | sint32 =>
    rw [htype] at h
    obtain ⟨z, hz, h⟩ := bind_eq_ok.1 h
    obtain ⟨n, hn, rfl⟩ := dumpUvarint_eq_ok h
    exact Or.inl ⟨n, by rw [Field.wireType, htype], rfl,
      receiveSimple_sint (Or.inl htype) (dumpInt_eq_ok hz).1 hn⟩
  | sint64 =>
    rw [htype] at h
    obtain ⟨z, hz, h⟩ := bind_eq_ok.1 h
    obtain ⟨n, hn, rfl⟩ := dumpUvarint_eq_ok h
    exact Or.inl ⟨n, by rw [Field.wireType, htype], rfl,
      receiveSimple_sint (Or.inr htype) (dumpInt_eq_ok hz).1 hn⟩
  | bool =>
    rw [htype] at h
    obtain ⟨z, hz, h⟩ := bind_eq_ok.1 h
    obtain ⟨n, rfl, rfl⟩ := dumpUvarint_eq_ok h
    refine Or.inl ⟨n, by rw [Field.wireType, htype], rfl, ?_⟩
    simp only [Field.receiveSimple, varintValue, htype, hz]
    exact congrArg Value.bool (decide_eq_decide.2 (not_congr Int.natCast_eq_zero))
  | bytes =>
    rw [htype] at h
    cases value with
    | bytes c =>
      obtain ⟨size, hsize, h⟩ := bind_eq_ok.1 h
      cases h
      rw [dumpUvarint_natCast] at hsize
      cases hsize
      exact Or.inr (Or.inl ⟨c, rfl, rfl, rfl⟩)
    | int _ => cases h
    | bool _ => cases h
    | str _ => cases h
    | message _ _ => cases h
  | string =>
    rw [htype] at h
    cases value with
    | str s =>
      obtain ⟨size, hsize, h⟩ := bind_eq_ok.1 h
      cases h
      rw [dumpUvarint_natCast] at hsize
      cases hsize
      exact Or.inr (Or.inr ⟨s, rfl, rfl, rfl⟩)
    | int _ => cases h
    | bool _ => cases h
    | bytes _ => cases h
    | message _ _ => cases h
  | named name =>
    rw [htype] at h
    cases hM : M name with
    | none =>
      simp only [hM] at h
      cases h
    | some object =>
      simp only [hM] at h
      cases object with
      | message cls => cases h
      | enum members =>
        cases hint : value.asInt? with
        | none =>
          simp only [hint] at h
          cases h
        | some z =>
          simp only [hint] at h
          by_cases hz : z ∈ members
          · rw [if_pos hz] at h
            obtain ⟨n, rfl, rfl⟩ := dumpUvarint_eq_ok h
            refine Or.inl ⟨n, by rw [Field.wireType, getFieldTypeObject, htype]; simp only [hM], rfl, ?_⟩
            simp only [Field.receiveSimple, varintValue, htype, hint]
          · rw [if_neg hz] at h
            cases h

end Values

section Decode

variable {A B : Messages} {load : MessageClass → Loader Value} {field : Field} {value : Value} {b : Bytes}

theorem reads_readBuffer (c : Bytes) : Reads E (readBuffer c.length) c (some c) := by
  refine (reads_readinto c).bind_some_nil ?_
  rw [Nat.sub_self, List.replicate_zero, List.append_nil]
  exact reads_pure c

theorem reads_decodeBytes (htype : field.type = .bytes) (c : Bytes) :
    Reads E (decodeLengthDelimitedField B load field) (uvarint c.length ++ c) (some (.bytes c)) := by
  unfold decodeLengthDelimitedField
  rw [htype]
  exact (reads_loadUvarint c.length).bind_some ((reads_readBuffer c).bind_some_nil (reads_pure _))

theorem reads_decodeString (htype : field.type = .string) (s : Str) :
    Reads E (decodeLengthDelimitedField B load field) (uvarint (utf8 s).length ++ utf8 s)
      (some (.str s)) := by
  unfold decodeLengthDelimitedField
  rw [htype]
  refine (reads_loadUvarint (utf8 s).length).bind_some ((reads_readBuffer (utf8 s)).bind_some_nil ?_)
  rw [utf8Decode_utf8]
  exact reads_pure _

theorem reads_decodeMessage {cls : MessageClass} (hcls : getFieldTypeObject B field = some (.message cls))
    {content : Bytes} {x : Option Value} (h : ReadsToEnd E (load cls) content x) :
    Reads E (decodeLengthDelimitedField B load field) (uvarint content.length ++ content) x := by
  unfold decodeLengthDelimitedField
  refine (reads_loadUvarint content.length).bind_some ?_
  unfold getFieldTypeObject at hcls
  cases htype : field.type with
  | named name =>
    have hobject : getFieldTypeObject B field = some (.message cls) := by
      rw [getFieldTypeObject, htype]
      rwa [htype] at hcls
    simp only [hobject]
    exact h.reads_within
  | _ =>
    rw [htype] at hcls
    cases hcls

/-- A field with a number. -/
theorem reads_decodeField_int (h : field.wireType B = .ok wireTypeInt) (n : ℕ) :
    Reads E (decodeField B load field wireTypeInt) (uvarint n) (some [varintValue field n]) := by
  unfold decodeField
  rw [h]
  exact (reads_decodeVarintField h n).bind_pure

/-- A field with a size. -/
theorem reads_decodeField_length (h : field.wireType B = .ok wireTypeLength) {x : Option Value}
    (hread : Reads E (decodeLengthDelimitedField B load field) b x) :
    Reads E (decodeField B load field wireTypeLength) b (x.map fun value => [value]) := by
  unfold decodeField
  rw [h]
  exact hread.bind_pure

/-- A field that is not known. -/
theorem reads_skipField_int (n : ℕ) : Reads E (skipField wireTypeInt) (uvarint n) (some ()) :=
  (reads_loadUvarint n).bind_some_nil (reads_pure ())

theorem reads_skipField_length (c : Bytes) :
    Reads E (skipField wireTypeLength) (uvarint c.length ++ c) (some ()) :=
  (reads_loadUvarint c.length).bind_some ((reads_readinto c).bind_some_nil (reads_pure ()))

end Decode

/-! ### What was read of a message -/

section Store

variable {cls : MessageClass} {d : MsgDict} {pairs : List (Field × Value)}

theorem field_of_name {f g : ℕ × Field} (hf : f ∈ cls.fields) (hg : g ∈ cls.fields)
    (h : f.2.name = g.2.name) : f = g :=
  List.inj_on_of_nodup_map cls.nodup_names hf hg h

theorem field_of_tag {f g : ℕ × Field} (hf : f ∈ cls.fields) (hg : g ∈ cls.fields) (h : f.1 = g.1) :
    f = g :=
  List.inj_on_of_nodup_map cls.nodup_tags hf hg h

/-- The dictionary holds what was read for the fields of the message. -/
def Holds (cls : MessageClass) (d : MsgDict) (pairs : List (Field × Value)) : Prop :=
  ∀ f ∈ cls.fields, d.get? f.2.name = f.2.assemble (valuesOf f.2.name pairs)

/-- Add a value that was read for a field. -/
def put (d : MsgDict) (p : Field × Value) : MsgDict :=
  if p.1.repeated then
    match d.get? p.1.name with
    | some (.many values) => d.set p.1.name (.many (values ++ [p.2]))
    | _ => d
  else d.set p.1.name (.one p.2)

theorem holds_seed (cls : MessageClass) : Holds cls cls.seed [] := by
  have hfold (fields : List (ℕ × Field)) (hnodup : (fields.map fun f => f.2.name).Nodup) (d : MsgDict)
      (hd : ∀ f ∈ fields, d.get? f.2.name = none) :
      let d' := fields.foldl (fun d f =>
        if f.2.repeated then d.set f.2.name (.many [])
        else if !f.2.required then d.set f.2.name f.2.defaultAttr
        else d) d
      (∀ f ∈ fields, d'.get? f.2.name = f.2.assemble []) ∧
        ∀ name, name ∉ fields.map (fun f => f.2.name) → d'.get? name = d.get? name := by
    induction fields generalizing d with
    | nil => exact ⟨fun f hf => absurd hf List.not_mem_nil, fun _ _ => rfl⟩
    | cons g fields ih =>
      rw [List.map_cons, List.nodup_cons] at hnodup
      have hg := hd g List.mem_cons_self
      have hstep (name : String) : (if g.2.repeated then d.set g.2.name (.many [])
          else if !g.2.required then d.set g.2.name g.2.defaultAttr else d).get? name =
            if name = g.2.name then g.2.assemble [] else d.get? name := by
        unfold Field.assemble
        by_cases hname : name = g.2.name
        · subst hname
          rw [if_pos rfl]
          cases g.2.repeated <;> cases g.2.required <;> simp [Dict.get?_set, hg]
        · rw [if_neg hname]
          cases g.2.repeated <;> cases g.2.required <;> simp [Dict.get?_set, hname]
      have hne {f : ℕ × Field} (hf : f ∈ fields) : f.2.name ≠ g.2.name := fun heq =>
        hnodup.1 (List.mem_map.2 ⟨f, hf, heq⟩)
      obtain ⟨hin, hout⟩ := ih hnodup.2 (if g.2.repeated then d.set g.2.name (.many [])
          else if !g.2.required then d.set g.2.name g.2.defaultAttr else d) fun f hf => by
        rw [hstep, if_neg (hne hf)]
        exact hd f (List.mem_cons_of_mem _ hf)
      refine ⟨fun f hf => ?_, fun name hname => ?_⟩
      · rcases List.mem_cons.1 hf with rfl | hf
        · exact (hout _ hnodup.1).trans ((hstep _).trans (if_pos rfl))
        · exact hin f hf
      · rw [List.map_cons, List.mem_cons, not_or] at hname
        exact (hout name hname.2).trans ((hstep name).trans (if_neg hname.1))
  exact fun f hf => (hfold cls.fields cls.nodup_names ∅ fun _ _ => Dict.get?_empty _).1 f hf

theorem valuesOf_append (name : String) (pairs pairs' : List (Field × Value)) :
    valuesOf name (pairs ++ pairs') = valuesOf name pairs ++ valuesOf name pairs' := by
  rw [valuesOf, List.filter_append, List.map_append]
  rfl

theorem holds_put (h : Holds cls d pairs) {p : Field × Value} {tag : ℕ} (hp : (tag, p.1) ∈ cls.fields) :
    Holds cls (put d p) (pairs ++ [p]) := by
  intro f hf
  rw [valuesOf_append]
  have hget := h _ hp
  by_cases hname : f.2.name = p.1.name
  · obtain rfl : f = (tag, p.1) := field_of_name hf hp hname
    have hvalues : valuesOf p.1.name [p] = [p.2] := by simp [valuesOf]
    rw [hvalues]
    unfold put Field.assemble
    unfold Field.assemble at hget
    cases hrepeated : p.1.repeated with
    | true =>
      rw [hrepeated, if_pos rfl] at hget
      simp only [hget]
      exact (Dict.get?_set _ _ _ _).trans (if_pos rfl)
    | false =>
      rw [if_neg Bool.false_ne_true, if_neg Bool.false_ne_true, Dict.get?_set, if_pos rfl,
        List.getLast?_append]
      rfl
  · have hvalues : valuesOf f.2.name [p] = [] := by simp [valuesOf, Ne.symm hname]
    rw [hvalues, List.append_nil, ← h f hf]
    unfold put
    have hset (attr : Attr) : (d.set p.1.name attr).get? f.2.name = d.get? f.2.name := by
      rw [Dict.get?_set, if_neg hname]
    split_ifs
    · split
      · exact hset _
      · rfl
    · exact hset _

theorem store_eq_ok (h : Holds cls d pairs) {p : Field × Value} {tag : ℕ} (hp : (tag, p.1) ∈ cls.fields) :
    store p.1 [p.2] d = .ok (put d p) := by
  have hget := h _ hp
  unfold store put
  unfold Field.assemble at hget
  cases hrepeated : p.1.repeated with
  | true =>
    rw [hrepeated, if_pos rfl] at hget
    simp only [hget, if_pos]
  | false => rfl

theorem mapM_option_some {α β : Type} {f : α → Option β} {g : α → β} {l : List α}
    (h : ∀ a ∈ l, f a = some (g a)) : l.mapM f = some (l.map g) := by
  induction l with
  | nil => rfl
  | cons a l ih =>
    rw [List.mapM_cons, h a List.mem_cons_self, ih fun b hb => h b (List.mem_cons_of_mem _ hb)]
    rfl

theorem mapM_option_none {α β : Type} {f : α → Option β} {l : List α} {a : α} (ha : a ∈ l)
    (h : f a = none) : l.mapM f = none := by
  induction l with
  | nil => exact absurd ha List.not_mem_nil
  | cons b l ih =>
    rw [List.mapM_cons]
    rcases List.mem_cons.1 ha with rfl | ha
    · rw [h]
      rfl
    · rw [ih ha]
      cases f b <;> rfl

theorem required_of_assemble {field : Field} {values : List Value} (h : field.assemble values = none) :
    field.required = true := by
  unfold Field.assemble at h
  by_cases hrepeated : field.repeated = true
  · rw [if_pos hrepeated] at h
    cases h
  · rw [if_neg hrepeated] at h
    by_contra hrequired
    rw [if_neg hrequired] at h
    cases hlast : values.getLast? with
    | none =>
      rw [hlast] at h
      cases h
    | some value =>
      rw [hlast] at h
      cases h

/-- A required field for which nothing was received. -/
def Unreceived (cls : MessageClass) (pairs : List (Field × Value)) (f : ℕ × Field) : Prop :=
  f ∈ cls.fields ∧ f.2.required = true ∧ f.2.repeated = false ∧ valuesOf f.2.name pairs = []

theorem unreceived_of_assemble {f : ℕ × Field} (hf : f ∈ cls.fields)
    (h : f.2.assemble (valuesOf f.2.name pairs) = none) : Unreceived cls pairs f := by
  have hrequired := required_of_assemble h
  unfold Field.assemble at h
  cases hrepeated : f.2.repeated with
  | true =>
    rw [hrepeated, if_pos rfl] at h
    cases h
  | false =>
    rw [hrepeated, if_neg Bool.false_ne_true] at h
    refine ⟨hf, hrequired, hrepeated, ?_⟩
    cases hlast : (valuesOf f.2.name pairs).getLast? with
    | none => exact List.getLast?_eq_none_iff.1 hlast
    | some value =>
      rw [hlast] at h
      cases h

theorem Unreceived.assemble_eq {f : ℕ × Field} (h : Unreceived cls pairs f) :
    cls.assemble pairs = none := by
  obtain ⟨hf, hrequired, hrepeated, hvalues⟩ := h
  have hnone : f.2.assemble (valuesOf f.2.name pairs) = none := by
    rw [Field.assemble, hrepeated, if_neg Bool.false_ne_true, hvalues]
    exact if_pos hrequired
  rw [MessageClass.assemble, mapM_option_none hf hnone]
  rfl

/-- `construct` gives the message of the values, unless a required field has none. -/
theorem construct_of_holds (h : Holds cls d pairs)
    (hmissing : ∀ f, Unreceived cls pairs f → E (notReceived f.2.name)) :
    Reads E (Procedure.ofExcept (cls.construct d) : Loader Value) [] (cls.assemble pairs) := by
  unfold MessageClass.construct MessageClass.assemble
  cases hfind : cls.fields.find? fun f => f.2.required && !d.contains f.2.name with
  | none =>
    have hall (f : ℕ × Field) (hf : f ∈ cls.fields) : f.2.assemble (valuesOf f.2.name pairs) =
        some ((d.get? f.2.name).getD .none) := by
      have hnot := List.find?_eq_none.1 hfind f hf
      rw [← h f hf]
      cases hget : d.get? f.2.name with
      | some attr => rfl
      | none =>
        rw [Dict.contains_eq_isSome, hget] at hnot
        exact absurd (by rw [required_of_assemble ((h f hf).symm.trans hget)]; rfl) hnot
    rw [mapM_option_some hall]
    exact reads_pure _
  | some f =>
    have hf := List.mem_of_find?_eq_some hfind
    have hfound := List.find?_some hfind
    rw [Bool.and_eq_true, Bool.not_eq_true', Dict.contains_eq_isSome, Option.isSome_eq_false_iff,
      Option.isNone_iff_eq_none] at hfound
    have hnone := (h f hf).symm.trans hfound.2
    rw [mapM_option_none hf hnone]
    exact reads_throw (hmissing f (unreceived_of_assemble hf hnone))

end Store

/-! ### One field after the other -/

/-- What is read off some items one after the other, if each of them can be. -/
def collect {α : Type} : List (Option (List α)) → Option (List α)
  | [] => some []
  | x :: xs => x.bind fun new => (collect xs).map fun rest => new ++ rest

theorem collect_append {α : Type} (xs ys : List (Option (List α))) :
    collect (xs ++ ys) = (collect xs).bind fun new => (collect ys).map fun rest => new ++ rest := by
  induction xs with
  | nil => cases h : collect ys <;> simp [collect, h]
  | cons x xs ih =>
    rw [List.cons_append, collect, collect, ih]
    cases x <;> cases collect xs <;> cases collect ys <;> simp

section Loop

variable {B : Messages} {cls : MessageClass}

/-- What the loop of `load_message` does after the key of a field. -/
def loadField (B : Messages) (fuel : ℕ) (cls : MessageClass) (fkey : ℕ) (d : MsgDict) : Loader MsgDict :=
  match cls.fields.lookup (fkey >>> 3) with
  | none => skipField (fkey &&& 7) >>= fun _ => pure d
  | some field => decodeField B (loadMessageFrom B fuel) field (fkey &&& 7) >>= fun fvalues =>
      Procedure.ofExcept (store field fvalues d)

theorem loadFields_succ (fuel : ℕ) (d : MsgDict) :
    loadFields B (fuel + 1) cls d = loadKey >>= fun key => match key with
      | none => pure d
      | some fkey => loadField B fuel cls fkey d >>= loadFields B fuel cls := by
  rw [loadFields]
  congr 1
  funext key
  cases key with
  | none => rfl
  | some fkey =>
    unfold loadField
    cases hlookup : cls.fields.lookup (fkey >>> 3) with
    | none => simp only [hlookup, bind_assoc, pure_bind]
    | some field =>
      simp only [hlookup, bind_assoc]
      rfl

/-- The bytes of an item, its key first, and the values that are read off it. -/
def ItemReads (E : Error → Prop) (B : Messages) (cls : MessageClass) (item : Bytes)
    (x : Option (List (Field × Value))) : Prop :=
  ∃ fkey payload, item = uvarint fkey ++ payload ∧
    (∀ new, x = some new → ∀ p ∈ new, ∃ tag, (tag, p.1) ∈ cls.fields) ∧
    ∀ fuel d pairs, payload.length ≤ fuel → Holds cls d pairs →
      Reads E (loadField B fuel cls fkey d) payload (x.map fun new => new.foldl put d)

theorem holds_foldl_put {d : MsgDict} {pairs new : List (Field × Value)} (h : Holds cls d pairs)
    (hnew : ∀ p ∈ new, ∃ tag, (tag, p.1) ∈ cls.fields) : Holds cls (new.foldl put d) (pairs ++ new) := by
  induction new generalizing d pairs with
  | nil => rwa [List.append_nil]
  | cons p new ih =>
    obtain ⟨tag, hp⟩ := hnew p List.mem_cons_self
    have hrest := ih (holds_put h hp) fun q hq => hnew q (List.mem_cons_of_mem _ hq)
    rwa [List.append_assoc, List.singleton_append] at hrest

theorem collect_fields {items : List Bytes} {xs : List (Option (List (Field × Value)))}
    (h : List.Forall₂ (ItemReads E B cls) items xs) {new : List (Field × Value)} (hnew : collect xs = some new) :
    ∀ p ∈ new, ∃ tag, (tag, p.1) ∈ cls.fields := by
  induction h generalizing new with
  | nil =>
    obtain rfl := Option.some.inj hnew
    exact fun p hp => absurd hp List.not_mem_nil
  | @cons item x items xs hitem _ ih =>
    obtain ⟨fkey, payload, -, hfields, -⟩ := hitem
    obtain ⟨first, hx, hrest⟩ := Option.bind_eq_some_iff.1 hnew
    obtain ⟨rest, hxs, rfl⟩ := Option.map_eq_some_iff.1 hrest
    exact fun p hp => (List.mem_append.1 hp).elim (hfields first hx p) (ih hxs p)

theorem loadFields_items {items : List Bytes} {xs : List (Option (List (Field × Value)))}
    (h : List.Forall₂ (ItemReads E B cls) items xs) {fuel : ℕ} (hfuel : items.flatten.length < fuel)
    {d : MsgDict} {pairs : List (Field × Value)} (hd : Holds cls d pairs) :
    ReadsToEnd E (loadFields B fuel cls d) items.flatten
      ((collect xs).map fun new => new.foldl put d) := by
  induction h generalizing fuel d pairs with
  | nil =>
    obtain ⟨fuel, rfl⟩ : ∃ k, fuel = k + 1 := ⟨fuel - 1, by omega⟩
    intro rest limits _ hend
    have hlimits : limits.map (· - ([] : List Bytes).flatten.length) = limits := by
      simp only [List.flatten_nil, List.length_nil, Nat.sub_zero, List.map_id']
    rw [hlimits] at hend ⊢
    rw [loadFields_succ, List.flatten_nil, List.nil_append, EStateM.run_bind, loadKey_ended hend]
    rfl
  | @cons item x items xs hitem _ ih =>
    obtain ⟨fkey, payload, rfl, hnew, hread⟩ := hitem
    have hkey := uvarint_length_pos fkey
    rw [List.flatten_cons, List.length_append, List.length_append] at hfuel
    obtain ⟨fuel, rfl⟩ : ∃ k, fuel = k + 1 := ⟨fuel - 1, by omega⟩
    rw [loadFields_succ, List.flatten_cons, List.append_assoc]
    refine (reads_loadKey fkey).bind_toEnd (f := fun _ => (collect (x :: xs)).map fun new => new.foldl put d)
      fun key hk => ?_
    obtain rfl := Option.some.inj hk
    have hstep := (hread fuel d pairs (by omega) hd).bind_toEnd (k := loadFields B fuel cls)
      (f := fun d' => (collect xs).map fun new => new.foldl put d') (u := items.flatten) fun d' hd' => by
        obtain ⟨new, hx, rfl⟩ := Option.map_eq_some_iff.1 hd'
        exact ih (by omega) (holds_foldl_put hd (hnew new hx))
    have hcollect : (collect (x :: xs)).map (fun new => new.foldl put d) =
        (x.map fun new => new.foldl put d).bind fun d' => (collect xs).map fun new => new.foldl put d' := by
      rw [collect]
      cases x <;> cases collect xs <;> simp
    rw [hcollect]
    exact hstep

theorem loadMessageFrom_items {items : List Bytes} {xs : List (Option (List (Field × Value)))}
    (h : List.Forall₂ (ItemReads E B cls) items xs)
    (hmissing : ∀ new, collect xs = some new → ∀ f, Unreceived cls new f → E (notReceived f.2.name))
    {fuel : ℕ} (hfuel : items.flatten.length < fuel) :
    ReadsToEnd E (loadMessageFrom B fuel cls) items.flatten ((collect xs).bind cls.assemble) := by
  refine (loadFields_items h hfuel (holds_seed cls)).bind (fun d hd => ?_) fun hnone => ?_
  · obtain ⟨new, hnew, rfl⟩ := Option.map_eq_some_iff.1 hd
    rw [hnew]
    exact construct_of_holds (holds_foldl_put (holds_seed cls) (collect_fields h hnew)) (hmissing new hnew)
  · rw [Option.map_eq_none_iff.1 hnone]
    rfl

end Loop

end Protobuf

end Trezorlib

end Hwi
