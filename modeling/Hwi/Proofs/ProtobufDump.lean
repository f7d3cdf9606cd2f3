import Hwi.Proofs.ProtobufRead

/-! How a receiver that may know other fields reads what `dump_message` writes. -/

namespace Hwi

namespace Trezorlib

namespace Protobuf

open Source
open LedgerBitcoin (utf8)

section Dump

variable {A B : Messages} {name : String} {known : MessageClass} {E : Error → Prop}

theorem wireType_known (hext : Extends A B) (hB : B name = some (.message known)) {f : ℕ × Field}
    (hf : f ∈ known.fields) : f.2.wireType B = f.2.wireType A := by
  unfold Field.wireType getFieldTypeObject
  cases htype : f.2.type with
  | named type =>
    have hclosed := hext.closed hB hf htype
    cases hobject : B type with
    | none =>
      rw [hobject] at hclosed
      cases hclosed
    | some object =>
      cases object with
      | message cls =>
        obtain ⟨cls', hcls', -⟩ := hext.message hobject
        simp only [hobject, hcls']
      | enum members =>
        obtain ⟨members', hmembers'⟩ := hext.enum hobject
        simp only [hobject, hmembers']
  | _ => rfl

theorem wireType_eq_ok {field : Field} {w : ℕ} (h : field.wireType A = .ok w) :
    w = wireTypeInt ∨ w = wireTypeLength := by
  unfold Field.wireType at h
  split at h
  · exact Or.inl (Except.ok.inj h).symm
  · exact Or.inl (Except.ok.inj h).symm
  · exact Or.inl (Except.ok.inj h).symm
  · exact Or.inl (Except.ok.inj h).symm
  · exact Or.inl (Except.ok.inj h).symm
  · exact Or.inr (Except.ok.inj h).symm
  · exact Or.inr (Except.ok.inj h).symm
  · split at h
    · exact Or.inr (Except.ok.inj h).symm
    · exact Or.inl (Except.ok.inj h).symm
    · cases h

/-- What is written for a message in a field. -/
theorem dumpValue_message {field : Field} {cls : String} {attrs : List Attr} {b : Bytes}
    (h : dumpValue A field (.message cls attrs) = .ok b) :
    ∃ mtype content, getFieldTypeObject A field = some (.message mtype) ∧ cls = mtype.name ∧
      dumpFields A mtype.fields attrs = .ok content ∧ b = uvarint content.length ++ content := by
  have hsimple (h : dumpSimple A field (.message cls attrs) = .ok b) : False := dumpSimple_message h
  rw [dumpValue] at h
  cases hobject : getFieldTypeObject A field with
  | none =>
    simp only [hobject] at h
    exact (hsimple h).elim
  | some object =>
    cases object with
    | enum members =>
      simp only [hobject] at h
      exact (hsimple h).elim
    | message mtype =>
      simp only [hobject] at h
      by_cases hcls : cls = mtype.name
      · rw [if_pos hcls] at h
        obtain ⟨content, hcontent, h⟩ := bind_eq_ok.1 h
        rw [dumpUvarint_natCast, ok_bind] at h
        cases h
        exact ⟨mtype, content, rfl, hcls, hcontent, rfl⟩
      · rw [if_neg hcls] at h
        cases h

/-- A message that is dumped for `A` is loaded for `B` as it is received. -/
def LoadsInner (A B : Messages) (value : Value) : Prop :=
  ∀ (cls : String) (attrs : List Attr) (sent known : MessageClass) (b : Bytes) (fuel : ℕ),
    value = .message cls attrs → A cls = some (.message sent) → B cls = some (.message known) →
    dumpFields A sent.fields attrs = .ok b → b.length < fuel →
    ReadsToEnd (MissingField A B cls attrs) (loadMessageFrom B fuel known) b
      ((receiveAttrs A B known sent.fields attrs).bind known.assemble)

/-- The exceptions for what a value lacks, if it is a message. -/
def InnerMissing (A B : Messages) (E : Error → Prop) (value : Value) : Prop :=
  ∀ cls attrs, value = .message cls attrs → ∀ e, MissingField A B cls attrs e → E e

theorem dumpValue_cases {field : Field} {value : Value} {b : Bytes} (h : dumpValue A field value = .ok b) :
    dumpSimple A field value = .ok b ∨ ∃ cls attrs, value = .message cls attrs := by
  cases value with
  | message cls attrs => exact Or.inr ⟨cls, attrs, rfl⟩
  | int n => exact Or.inl (by rwa [dumpValue] at h)
  | bool c => exact Or.inl (by rwa [dumpValue] at h)
  | bytes c => exact Or.inl (by rwa [dumpValue] at h)
  | str s => exact Or.inl (by rwa [dumpValue] at h)

theorem reads_value (hext : Extends A B) (hB : B name = some (.message known)) {f : ℕ × Field}
    (hf : f ∈ known.fields) {value : Value} (hvalue : LoadsInner A B value)
    (hinner : InnerMissing A B E value) {b : Bytes} (hdump : dumpValue A f.2 value = .ok b) {w : ℕ}
    (hw : f.2.wireType A = .ok w) {fuel : ℕ} (hfuel : b.length ≤ fuel) :
    Reads E (decodeField B (loadMessageFrom B fuel) f.2 w) b
      ((receiveValue A B f.2 value).map fun value => [value]) := by
  have hwB := (wireType_known hext hB hf).trans hw
  rcases dumpValue_cases hdump with hsimple | ⟨cls, attrs, rfl⟩
  · rw [receiveValue_simple hsimple]
    rcases dumpSimple_eq_ok hsimple with ⟨n, hint, rfl, hreceive⟩ | ⟨c, htype, rfl, rfl⟩ | ⟨s, htype, rfl, rfl⟩
    · rw [hw] at hint
      obtain rfl := Except.ok.inj hint
      rw [hreceive]
      exact reads_decodeField_int hwB n
    · have hlength : w = wireTypeLength := by
        rw [Field.wireType, htype] at hw
        exact (Except.ok.inj hw).symm
      subst hlength
      rw [Field.receiveSimple, htype]
      exact reads_decodeField_length hwB (reads_decodeBytes htype c)
    · have hlength : w = wireTypeLength := by
        rw [Field.wireType, htype] at hw
        exact (Except.ok.inj hw).symm
      subst hlength
      rw [Field.receiveSimple, htype]
      exact reads_decodeField_length hwB (reads_decodeString htype s)
  · obtain ⟨sent, content, hobject, hcls, hcontent, rfl⟩ := dumpValue_message hdump
    cases htype : f.2.type with
    | named type =>
      have hA : A type = some (.message sent) := by rwa [getFieldTypeObject, htype] at hobject
      obtain rfl : cls = type := hcls.trans (hext.named hA)
      have hlength : w = wireTypeLength := by
        rw [Field.wireType, htype, hobject] at hw
        exact (Except.ok.inj hw).symm
      subst hlength
      obtain ⟨object, hobjectB⟩ := Option.isSome_iff_exists.1 (hext.closed hB hf htype)
      cases object with
      | enum members =>
        obtain ⟨members', hmembers'⟩ := hext.enum hobjectB
        rw [hA] at hmembers'
        cases hmembers'
      | message inner =>
        rw [receiveValue]
        simp only [hA, hobjectB]
        have hinnerB : getFieldTypeObject B f.2 = some (.message inner) := by
          rwa [getFieldTypeObject, htype]
        have hsize := uvarint_length_pos content.length
        rw [List.length_append] at hfuel
        have hread := hvalue cls attrs sent inner content fuel rfl hA hobjectB hcontent (by omega)
        exact reads_decodeField_length hwB
          (reads_decodeMessage hinnerB (hread.mono (hinner cls attrs rfl)))
    | _ =>
      rw [getFieldTypeObject, htype] at hobject
      cases hobject

/-- The bytes of any value are skipped. -/
theorem reads_skip {field : Field} {value : Value} {b : Bytes} (hdump : dumpValue A field value = .ok b)
    {w : ℕ} (hw : field.wireType A = .ok w) : Reads E (skipField w) b (some ()) := by
  rcases dumpValue_cases hdump with hsimple | ⟨cls, attrs, rfl⟩
  · rcases dumpSimple_eq_ok hsimple with ⟨n, hint, rfl, -⟩ | ⟨c, htype, -, rfl⟩ | ⟨s, htype, -, rfl⟩
    · rw [hw] at hint
      obtain rfl := Except.ok.inj hint
      exact reads_skipField_int n
    · rw [Field.wireType, htype] at hw
      obtain rfl := Except.ok.inj hw
      exact reads_skipField_length c
    · rw [Field.wireType, htype] at hw
      obtain rfl := Except.ok.inj hw
      exact reads_skipField_length _
  · obtain ⟨sent, content, hobject, -, -, rfl⟩ := dumpValue_message hdump
    unfold Field.wireType at hw
    cases htype : field.type with
    | named type =>
      rw [htype, hobject] at hw
      obtain rfl := Except.ok.inj hw
      exact reads_skipField_length content
    | _ =>
      rw [getFieldTypeObject, htype] at hobject
      cases hobject

theorem tag_of_key {w : ℕ} (hw : w = wireTypeInt ∨ w = wireTypeLength) (tag : ℕ) :
    (tag <<< 3 ||| w) >>> 3 = tag ∧ (tag <<< 3 ||| w) &&& 7 = w := by
  have hlt : w < 2 ^ 3 := by rcases hw with rfl | rfl <;> decide
  rw [← Nat.shiftLeft_add_eq_or_of_lt hlt, Nat.shiftRight_eq_div_pow, Nat.shiftLeft_eq]
  have hmask : (tag * 2 ^ 3 + w) &&& 7 = (tag * 2 ^ 3 + w) % 2 ^ 3 := Nat.and_two_pow_sub_one_eq_mod _ 3
  rw [hmask]
  omega

/-- What is received of a value: nothing if its field is not known. -/
def receivePair (A B : Messages) (known : MessageClass) (tag : ℕ) (field : Field) (value : Value) :
    Option (List (Field × Value)) :=
  if tag ∈ known.fields.map Prod.fst then
    (receiveValue A B field value).map fun value => [(field, value)]
  else some []

theorem itemReads_value (hext : Extends A B) (hB : B name = some (.message known)) {tag : ℕ}
    {field : Field} (hf : tag ∈ known.fields.map Prod.fst → (tag, field) ∈ known.fields)
    {value : Value} (hvalue : LoadsInner A B value)
    (hinner : tag ∈ known.fields.map Prod.fst → InnerMissing A B E value) {b : Bytes}
    (hdump : dumpValue A field value = .ok b) {w : ℕ} (hw : field.wireType A = .ok w) :
    ItemReads E B known (uvarint (tag <<< 3 ||| w) ++ b) (receivePair A B known tag field value) := by
  obtain ⟨htag, hwtype⟩ := tag_of_key (wireType_eq_ok hw) tag
  unfold receivePair
  by_cases hmem : tag ∈ known.fields.map Prod.fst
  · rw [if_pos hmem]
    have hlookup : known.fields.lookup tag = some field :=
      (Dict.lookup_eq_some_iff known.nodup_tags).2 (hf hmem)
    refine ⟨_, b, rfl, ?_, fun fuel d pairs hfuel hd => ?_⟩
    · intro new hnew p hp
      obtain ⟨value', -, rfl⟩ := Option.map_eq_some_iff.1 hnew
      obtain rfl := List.mem_singleton.1 hp
      exact ⟨tag, hf hmem⟩
    · unfold loadField
      rw [htag, hwtype]
      simp only [hlookup]
      have hread := reads_value hext hB (hf hmem) hvalue (hinner hmem) hdump hw hfuel
      have hstore := hread.bind (k := fun fvalues => Procedure.ofExcept (store field fvalues d)) (u := [])
        (f := fun fvalues => (fvalues.head?).map fun value => put d (field, value)) fun fvalues hfvalues => by
          obtain ⟨value', -, rfl⟩ := Option.map_eq_some_iff.1 hfvalues
          have hst : store field [value'] d = .ok (put d (field, value')) :=
            store_eq_ok (p := (field, value')) hd (hf hmem)
          rw [hst]
          exact reads_pure _
      rw [List.append_nil] at hstore
      cases hreceive : receiveValue A B field value with
      | none =>
        rw [hreceive] at hstore
        exact hstore
      | some value' =>
        rw [hreceive] at hstore
        exact hstore
  · rw [if_neg hmem]
    have hlookup : known.fields.lookup tag = none := by
      refine Option.eq_none_iff_forall_ne_some.2 fun g hg => hmem ?_
      exact List.mem_map.2 ⟨(tag, g), (Dict.lookup_eq_some_iff known.nodup_tags).1 hg, rfl⟩
    refine ⟨_, b, rfl, fun new hnew p hp => ?_, fun fuel d pairs _ _ => ?_⟩
    · obtain rfl := Option.some.inj hnew
      exact absurd hp List.not_mem_nil
    · unfold loadField
      rw [htag, hwtype]
      simp only [hlookup]
      exact (reads_skip hdump hw).bind_some_nil (reads_pure d)

theorem items_of_values (hext : Extends A B) (hB : B name = some (.message known)) {tag : ℕ}
    {field : Field} (hf : tag ∈ known.fields.map Prod.fst → (tag, field) ∈ known.fields)
    {values : List Value} (hvalues : ∀ value ∈ values, LoadsInner A B value)
    (hinner : tag ∈ known.fields.map Prod.fst → ∀ value ∈ values, InnerMissing A B E value) {w : ℕ}
    (hw : field.wireType A = .ok w) {b : Bytes}
    (hdump : dumpValues A (tag <<< 3 ||| w) field values = .ok b) :
    ∃ items xs, b = items.flatten ∧ List.Forall₂ (ItemReads E B known) items xs ∧
      collect xs = if tag ∈ known.fields.map Prod.fst then receiveValues A B field values else some [] := by
  induction values generalizing b with
  | nil =>
    rw [dumpValues] at hdump
    cases hdump
    exact ⟨[], [], rfl, .nil, by rw [receiveValues, ite_self]; rfl⟩
  | cons value values ih =>
    rw [dumpValues, dumpUvarint_natCast, ok_bind] at hdump
    obtain ⟨payload, hpayload, hdump⟩ := bind_eq_ok.1 hdump
    obtain ⟨rest, hrest, hdump⟩ := bind_eq_ok.1 hdump
    cases hdump
    obtain ⟨items, xs, rfl, hitems, hxs⟩ :=
      ih (fun value hvalue => hvalues value (List.mem_cons_of_mem _ hvalue))
        (fun hmem value hvalue => hinner hmem value (List.mem_cons_of_mem _ hvalue)) hrest
    have hitem := itemReads_value hext hB hf (hvalues value List.mem_cons_self)
      (fun hmem => hinner hmem value List.mem_cons_self) hpayload hw
    refine ⟨_ :: items, _ :: xs, rfl, .cons hitem hitems, ?_⟩
    rw [collect, hxs, receivePair, receiveValues]
    by_cases hmem : tag ∈ known.fields.map Prod.fst
    · rw [if_pos hmem, if_pos hmem, if_pos hmem]
      cases receiveValue A B field value <;> rfl
    · rw [if_neg hmem, if_neg hmem, if_neg hmem]
      rfl

/-- A value that is not a message lacks nothing. -/
theorem inner_of_simple {field : Field} {value : Value} {b : Bytes}
    (h : dumpSimple A field value = .ok b) : LoadsInner A B value ∧ InnerMissing A B E value := by
  constructor
  · rintro cls attrs sent known b' fuel rfl
    exact absurd h dumpSimple_message
  · rintro cls attrs rfl
    exact absurd h dumpSimple_message

/-- What a single value in a repeated field consists of is dumped like a list of values. -/
theorem dumpSimples_eq_ok {fkey : ℕ} {field : Field} {values : List Value} {b : Bytes}
    (h : dumpSimples A fkey field values = .ok b) :
    dumpValues A fkey field values = .ok b ∧
      receiveValues A B field values = some (values.map fun value => (field, field.receiveSimple value)) ∧
      ∀ value ∈ values, LoadsInner A B value ∧ InnerMissing A B E value := by
  induction values generalizing b with
  | nil =>
    rw [dumpSimples] at h
    exact ⟨by rw [dumpValues, h], by rw [receiveValues]; rfl, by simp⟩
  | cons value values ih =>
    rw [dumpSimples, dumpUvarint_natCast, ok_bind] at h
    obtain ⟨payload, hpayload, h⟩ := bind_eq_ok.1 h
    obtain ⟨rest, hrest, h⟩ := bind_eq_ok.1 h
    obtain ⟨hdumps, hreceives, hinner⟩ := ih hrest
    have hdump : dumpValue A field value = .ok payload := by
      cases value with
      | message cls attrs => exact absurd hpayload dumpSimple_message
      | _ => rw [dumpValue, hpayload]
    refine ⟨?_, ?_, List.forall_mem_cons.2 ⟨inner_of_simple hpayload, hinner⟩⟩
    · rw [dumpValues, dumpUvarint_natCast, ok_bind, hdump, ok_bind, hdumps, ← h]
      rfl
    · rw [receiveValues, receiveValue_simple hpayload, hreceives]
      rfl

theorem items_of_attr (hext : Extends A B) (hB : B name = some (.message known)) {tag : ℕ}
    {field : Field} (hf : tag ∈ known.fields.map Prod.fst → (tag, field) ∈ known.fields)
    {attr : Attr} (hvalues : ∀ value ∈ attr.values, LoadsInner A B value)
    (hinner : tag ∈ known.fields.map Prod.fst → ∀ value ∈ field.sent attr, InnerMissing A B E value)
    {b : Bytes} (hdump : dumpAttr A tag field attr = .ok b) :
    ∃ items xs, b = items.flatten ∧ List.Forall₂ (ItemReads E B known) items xs ∧
      collect xs = if tag ∈ known.fields.map Prod.fst then receiveAttr A B field attr else some [] := by
  cases attr with
  | none =>
    rw [dumpAttr] at hdump
    cases hdump
    exact ⟨[], [], rfl, .nil, by rw [receiveAttr, ite_self]; rfl⟩
  | placeholder =>
    rw [dumpAttr] at hdump
    cases hdump
  | one value =>
    rw [dumpAttr] at hdump
    obtain ⟨w, hw, hdump⟩ := bind_eq_ok.1 hdump
    rw [Field.sent] at hinner
    cases hrepeated : field.repeated with
    | true =>
      simp only [hrepeated, if_true] at hdump
      cases hiterate : value.iterate? with
      | none =>
        rw [hiterate] at hdump
        cases hdump
      | some values =>
        rw [hiterate] at hdump
        obtain ⟨hdumps, hreceives, hsimple⟩ := @dumpSimples_eq_ok A B E _ _ _ _ hdump
        obtain ⟨items, xs, hb, hitems, hxs⟩ := items_of_values hext hB hf
          (fun value hvalue => (hsimple value hvalue).1) (fun _ value hvalue => (hsimple value hvalue).2)
          hw hdumps
        refine ⟨items, xs, hb, hitems, ?_⟩
        rw [hxs, hreceives, receiveAttr, if_pos hrepeated, hiterate, Option.getD_some]
    | false =>
      rw [hrepeated, if_neg Bool.false_ne_true] at hinner
      simp only [hrepeated, if_neg Bool.false_ne_true] at hdump
      rw [dumpUvarint_natCast, ok_bind] at hdump
      obtain ⟨payload, hpayload, hdump⟩ := bind_eq_ok.1 hdump
      cases hdump
      have hitem := itemReads_value hext hB hf (hvalues value List.mem_cons_self)
        (fun hmem => hinner hmem value List.mem_cons_self) hpayload hw
      refine ⟨[_], [_], (List.append_nil _).symm, .cons hitem .nil, ?_⟩
      rw [collect, collect, receivePair, receiveAttr, hrepeated, if_neg Bool.false_ne_true]
      by_cases hmem : tag ∈ known.fields.map Prod.fst
      · rw [if_pos hmem]
        cases receiveValue A B field value <;> rfl
      · rw [if_neg hmem]
        rfl
  | many values =>
    rw [dumpAttr] at hdump
    obtain ⟨w, hw, hdump⟩ := bind_eq_ok.1 hdump
    cases hrepeated : field.repeated with
    | false =>
      rw [hrepeated] at hdump
      cases hdump
    | true =>
      simp only [hrepeated, if_true] at hdump
      rw [receiveAttr]
      exact items_of_values hext hB hf hvalues hinner hw hdump

theorem dumpFields_nil (fields : List (ℕ × Field)) : dumpFields A fields [] = .ok [] := by
  cases fields <;> rfl

theorem dumpFields_no_fields (attrs : List Attr) : dumpFields A [] attrs = .ok [] := by
  cases attrs <;> rfl

theorem receiveAttrs_nil (fields : List (ℕ × Field)) : receiveAttrs A B known fields [] = some [] := by
  cases fields <;> rfl

theorem receiveAttrs_no_fields (attrs : List Attr) : receiveAttrs A B known [] attrs = some [] := by
  cases attrs <;> rfl

theorem items_of_fields (hext : Extends A B) (hB : B name = some (.message known))
    {fields : List (ℕ × Field)} (hfields : ∀ f ∈ fields, f.1 ∈ known.fields.map Prod.fst → f ∈ known.fields)
    {attrs : List Attr} (hvalues : ∀ attr ∈ attrs, ∀ value ∈ attr.values, LoadsInner A B value)
    (hinner : ∀ (i : ℕ) f attr, fields[i]? = some f → attrs[i]? = some attr →
      f.1 ∈ known.fields.map Prod.fst → ∀ value ∈ f.2.sent attr, InnerMissing A B E value) {b : Bytes}
    (hdump : dumpFields A fields attrs = .ok b) :
    ∃ items xs, b = items.flatten ∧ List.Forall₂ (ItemReads E B known) items xs ∧
      collect xs = receiveAttrs A B known fields attrs := by
  induction fields generalizing attrs b with
  | nil =>
    rw [dumpFields_no_fields] at hdump
    cases hdump
    exact ⟨[], [], rfl, .nil, (receiveAttrs_no_fields attrs).symm⟩
  | cons f fields ih =>
    cases attrs with
    | nil =>
      rw [dumpFields_nil] at hdump
      cases hdump
      exact ⟨[], [], rfl, .nil, (receiveAttrs_nil _).symm⟩
    | cons attr attrs =>
      rw [dumpFields] at hdump
      obtain ⟨first, hfirst, hdump⟩ := bind_eq_ok.1 hdump
      obtain ⟨rest, hrest, hdump⟩ := bind_eq_ok.1 hdump
      cases hdump
      obtain ⟨items, xs, rfl, hitems, hxs⟩ := items_of_attr hext hB (hfields f List.mem_cons_self)
        (hvalues attr List.mem_cons_self) (hinner 0 f attr rfl rfl) hfirst
      obtain ⟨items', xs', rfl, hitems', hxs'⟩ := ih (fun g hg => hfields g (List.mem_cons_of_mem _ hg))
        (fun attr hattr => hvalues attr (List.mem_cons_of_mem _ hattr)) (fun i => hinner (i + 1)) hrest
      refine ⟨items ++ items', xs ++ xs', List.flatten_append.symm, List.rel_append hitems hitems', ?_⟩
      rw [collect_append, hxs, hxs', receiveAttrs]
      by_cases hmem : f.1 ∈ known.fields.map Prod.fst
      · rw [if_pos hmem, if_pos hmem]
      · rw [if_neg hmem, if_neg hmem]
        cases receiveAttrs A B known fields attrs <;> rfl

/-- The fields that the receiver knows are those of the sender. -/
theorem known_of_tag (hext : Extends A B) {cls : String} {sent : MessageClass}
    (hA : A cls = some (.message sent)) (hB : B cls = some (.message known)) {f : ℕ × Field}
    (hf : f ∈ sent.fields) (htag : f.1 ∈ known.fields.map Prod.fst) : f ∈ known.fields := by
  obtain ⟨sent', hA', hsub⟩ := hext.message hB
  rw [hA] at hA'
  cases hA'
  obtain ⟨g, hg, heq⟩ := List.mem_map.1 htag
  exact field_of_tag (hsub hg) hf heq ▸ hg

/-! ### What is not set -/

theorem receiveAttr_fields {field : Field} {attr : Attr} {pairs : List (Field × Value)}
    (h : receiveAttr A B field attr = some pairs) : ∀ p ∈ pairs, p.1 = field := by
  have hvalues {values : List Value} {pairs : List (Field × Value)}
      (h : receiveValues A B field values = some pairs) : ∀ p ∈ pairs, p.1 = field := by
    induction values generalizing pairs with
    | nil =>
      rw [receiveValues] at h
      cases h
      simp
    | cons value values ih =>
      rw [receiveValues] at h
      obtain ⟨value', -, h⟩ := Option.bind_eq_some_iff.1 h
      obtain ⟨rest, hrest, rfl⟩ := Option.map_eq_some_iff.1 h
      exact List.forall_mem_cons.2 ⟨rfl, ih hrest⟩
  cases attr with
  | none =>
    rw [receiveAttr] at h
    cases h
    simp
  | placeholder =>
    rw [receiveAttr] at h
    cases h
    simp
  | one value =>
    rw [receiveAttr] at h
    split_ifs at h
    · cases h
      simp
    · obtain ⟨value', -, rfl⟩ := Option.map_eq_some_iff.1 h
      simp
  | many values =>
    rw [receiveAttr] at h
    exact hvalues h

/-- Nothing was received for a field that is not repeated: the attribute was not set. -/
theorem unset_of_values {fields : List (ℕ × Field)} {attrs : List Attr} {b : Bytes}
    (hdump : dumpFields A fields attrs = .ok b) {new : List (Field × Value)}
    (hnew : receiveAttrs A B known fields attrs = some new) {i : ℕ} {f : ℕ × Field}
    (hf : fields[i]? = some f) (hmem : f.1 ∈ known.fields.map Prod.fst)
    (hrepeated : f.2.repeated = false) (hvalues : valuesOf f.2.name new = []) :
    attrs[i]?.getD .none = .none := by
  induction fields generalizing attrs b new i with
  | nil => cases hf
  | cons g fields ih =>
    cases attrs with
    | nil => rfl
    | cons attr attrs =>
      rw [dumpFields] at hdump
      obtain ⟨first, hfirst, hdump⟩ := bind_eq_ok.1 hdump
      obtain ⟨rest, hrest, -⟩ := bind_eq_ok.1 hdump
      rw [receiveAttrs] at hnew
      cases i with
      | zero =>
        cases hf
        rw [if_pos hmem] at hnew
        obtain ⟨pairs, hpairs, hnew⟩ := Option.bind_eq_some_iff.1 hnew
        obtain ⟨others, -, rfl⟩ := Option.map_eq_some_iff.1 hnew
        rw [valuesOf_append, List.append_eq_nil_iff] at hvalues
        cases attr with
        | none => rfl
        | placeholder =>
          rw [dumpAttr] at hfirst
          cases hfirst
        | one value =>
          rw [receiveAttr, hrepeated, if_neg Bool.false_ne_true] at hpairs
          obtain ⟨value', -, rfl⟩ := Option.map_eq_some_iff.1 hpairs
          simp [valuesOf] at hvalues
        | many values =>
          rw [dumpAttr] at hfirst
          obtain ⟨w, -, hfirst⟩ := bind_eq_ok.1 hfirst
          rw [hrepeated] at hfirst
          cases hfirst
      | succ i =>
        by_cases hg : g.1 ∈ known.fields.map Prod.fst
        · rw [if_pos hg] at hnew
          obtain ⟨pairs, -, hnew⟩ := Option.bind_eq_some_iff.1 hnew
          obtain ⟨others, hothers, rfl⟩ := Option.map_eq_some_iff.1 hnew
          rw [valuesOf_append, List.append_eq_nil_iff] at hvalues
          exact ih hrest hothers hf hvalues.2
        · rw [if_neg hg] at hnew
          exact ih hrest hnew hf hvalues

/-- Each value that is received comes from the attribute of its field. -/
theorem receiveAttrs_mem {fields : List (ℕ × Field)} {attrs : List Attr} {new : List (Field × Value)}
    (hnew : receiveAttrs A B known fields attrs = some new) {p : Field × Value} (hp : p ∈ new) :
    ∃ (i : ℕ) (f : ℕ × Field) (attr : Attr) (pairs : List (Field × Value)), fields[i]? = some f ∧
      attrs[i]? = some attr ∧ receiveAttr A B f.2 attr = some pairs ∧ p ∈ pairs := by
  induction fields generalizing attrs new with
  | nil =>
    rw [receiveAttrs_no_fields] at hnew
    cases hnew
    simp at hp
  | cons g fields ih =>
    cases attrs with
    | nil =>
      rw [receiveAttrs_nil] at hnew
      cases hnew
      simp at hp
    | cons attr attrs =>
      have hrest {new : List (Field × Value)} (hnew : receiveAttrs A B known fields attrs = some new)
          (hp : p ∈ new) : ∃ (i : ℕ) (f : ℕ × Field) (attr' : Attr) (pairs : List (Field × Value)),
          (g :: fields)[i]? = some f ∧ (attr :: attrs)[i]? = some attr' ∧
            receiveAttr A B f.2 attr' = some pairs ∧ p ∈ pairs := by
        obtain ⟨i, f, attr', pairs, hf, hattr, hpairs, hp⟩ := ih hnew hp
        exact ⟨i + 1, f, attr', pairs, hf, hattr, hpairs, hp⟩
      rw [receiveAttrs] at hnew
      split_ifs at hnew with hg
      · obtain ⟨pairs, hpairs, hnew⟩ := Option.bind_eq_some_iff.1 hnew
        obtain ⟨others, hothers, rfl⟩ := Option.map_eq_some_iff.1 hnew
        rcases List.mem_append.1 hp with hp | hp
        · exact ⟨0, g, attr, pairs, rfl, rfl, hpairs, hp⟩
        · exact hrest hothers hp
      · exact hrest hnew hp

/-- An attribute that cannot be received. -/
theorem receiveAttrs_none {fields : List (ℕ × Field)} {attrs : List Attr} {i : ℕ} {f : ℕ × Field}
    {attr : Attr} (hf : fields[i]? = some f) (hattr : attrs[i]? = some attr)
    (hmem : f.1 ∈ known.fields.map Prod.fst) (h : receiveAttr A B f.2 attr = none) :
    receiveAttrs A B known fields attrs = none := by
  induction fields generalizing attrs i with
  | nil => cases hf
  | cons g fields ih =>
    cases attrs with
    | nil => cases hattr
    | cons attr' attrs =>
      rw [receiveAttrs]
      cases i with
      | zero =>
        cases hf
        cases hattr
        rw [if_pos hmem, h]
        rfl
      | succ i =>
        rw [ih hf hattr]
        split_ifs
        · cases receiveAttr A B g.2 attr' <;> rfl
        · rfl

/-- A message in an attribute that cannot be received. -/
theorem receiveAttr_none {field : Field} {attr : Attr} {cls : String} {attrs : List Attr}
    (hvalue : .message cls attrs ∈ field.sent attr) (h : receive A B (.message cls attrs) = none) :
    receiveAttr A B field attr = none := by
  have hnone : receiveValue A B field (.message cls attrs) = none := by
    rw [receive] at h
    rwa [receiveValue]
  cases attr with
  | none => simp [Field.sent] at hvalue
  | placeholder => simp [Field.sent] at hvalue
  | one value =>
    rw [Field.sent] at hvalue
    rw [receiveAttr]
    split_ifs at hvalue ⊢
    · cases value <;> simp [Value.iterate?] at hvalue
    · obtain rfl := List.mem_singleton.1 hvalue
      rw [hnone]
      rfl
  | many values =>
    change _ ∈ values at hvalue
    rw [receiveAttr]
    induction values with
    | nil => simp at hvalue
    | cons value values ih =>
      rw [receiveValues]
      rcases List.mem_cons.1 hvalue with rfl | hvalue
      · rw [hnone]
        rfl
      · rw [ih hvalue]
        cases receiveValue A B field value <;> rfl

/-- A message that lacks a required field is not received. -/
theorem receive_of_lacks {cls name : String} {attrs : List Attr}
    (h : Lacks A B cls attrs name) : receive A B (.message cls attrs) = none := by
  induction h with
  | @inner cls cls' name attrs attrs' sent known i f attr hA hB hsent hknown hattr hvalue _ ih =>
    rw [receive]
    simp only [hA, hB]
    rw [receiveAttrs_none hsent hattr (List.mem_map_of_mem hknown) (receiveAttr_none hvalue ih)]
    rfl
  | @unset cls attrs sent known i f hA hB hsent hknown hrequired hrepeated hunset =>
    rw [receive]
    simp only [hA, hB]
    cases hnew : receiveAttrs A B known sent.fields attrs with
    | none => rfl
    | some new =>
      refine Unreceived.assemble_eq (f := f) ⟨hknown, hrequired, hrepeated, ?_⟩
      unfold valuesOf
      rw [List.map_eq_nil_iff, List.filter_eq_nil_iff]
      intro p hp heq
      obtain ⟨j, g, attr, pairs, hg, hattr, hpairs, hp⟩ := receiveAttrs_mem hnew hp
      have hname : g.2.name = f.2.name := by
        rw [← receiveAttr_fields hpairs p hp]
        exact of_decide_eq_true heq
      obtain rfl : j = i := by
        obtain ⟨hi, rfl⟩ := List.getElem?_eq_some_iff.1 hsent
        obtain ⟨hj, rfl⟩ := List.getElem?_eq_some_iff.1 hg
        refine (@List.Nodup.getElem_inj_iff _ _ sent.nodup_names j ?_ i ?_).1 ?_
        · rwa [List.length_map]
        · rwa [List.length_map]
        · rw [List.getElem_map, List.getElem_map]
          exact hname
      rw [hattr, Option.getD_some] at hunset
      subst hunset
      rw [receiveAttr] at hpairs
      cases hpairs
      simp at hp

theorem loadsInner (hext : Extends A B) (value : Value) : LoadsInner A B value := by
  induction value using Value.ind with
  | int n =>
    intro cls attrs sent known b fuel heq
    cases heq
  | bool c =>
    intro cls attrs sent known b fuel heq
    cases heq
  | bytes c =>
    intro cls attrs sent known b fuel heq
    cases heq
  | str s =>
    intro cls attrs sent known b fuel heq
    cases heq
  | message cls attrs ih =>
    intro cls' attrs' sent known b fuel heq hA hB hdump hfuel
    cases heq
    have hknown (f : ℕ × Field) (hf : f ∈ sent.fields) := @known_of_tag _ _ _ hext cls sent hA hB f hf
    have hinner (i : ℕ) (f : ℕ × Field) (attr : Attr) (hf : sent.fields[i]? = some f)
        (hattr : attrs[i]? = some attr) (hmem : f.1 ∈ known.fields.map Prod.fst) (value : Value)
        (hvalue : value ∈ f.2.sent attr) : InnerMissing A B (MissingField A B cls attrs) value := by
      rintro cls' attrs' rfl e ⟨name, hlacks, rfl⟩
      exact ⟨name, .inner hA hB hf (hknown f (List.mem_of_getElem? hf) hmem) hattr hvalue hlacks, rfl⟩
    obtain ⟨items, xs, rfl, hitems, hxs⟩ := items_of_fields hext hB hknown ih hinner hdump
    rw [← hxs]
    refine loadMessageFrom_items hitems (fun new hnew f hf => ?_) hfuel
    obtain ⟨hmem, hrequired, hrepeated, hvalues⟩ := hf
    obtain ⟨sent', hA', hsub⟩ := hext.message hB
    rw [hA] at hA'
    cases hA'
    obtain ⟨i, hi⟩ := List.mem_iff_getElem?.1 (hsub hmem)
    have hunset := unset_of_values hdump (hxs.symm.trans hnew) hi (List.mem_map_of_mem hmem) hrepeated hvalues
    exact ⟨f.2.name, .unset hA hB hi hmem hrequired hrepeated hunset, rfl⟩

theorem loads_of_dumps (hext : Extends A B) {cls : String} {attrs : List Attr} {b : Bytes}
    (hdump : dumpMessage A (.message cls attrs) = .ok b) (hB : B cls = some (.message known)) :
    (∀ msg, receive A B (.message cls attrs) = some msg → loadMessage B b known = .ok msg) ∧
      (receive A B (.message cls attrs) = none → ∃ name, Lacks A B cls attrs name ∧
        loadMessage B b known = .error (notReceived name)) := by
  obtain ⟨sent, hA, -⟩ := hext.message hB
  rw [dumpMessage] at hdump
  simp only [hA] at hdump
  have hread := loadsInner hext (.message cls attrs) cls attrs sent known b (b.length + 1) rfl hA hB hdump
    (Nat.lt_succ_self _) [] [] (fun limit hlimit => absurd hlimit List.not_mem_nil) (Or.inl rfl)
  rw [List.append_nil] at hread
  rw [receive]
  simp only [hA, hB]
  unfold loadMessage
  constructor
  · intro msg hmsg
    rw [hmsg] at hread
    have hrun : (loadMessageFrom B (b.length + 1) known).run ⟨b, []⟩ = .ok msg _ := hread
    rw [hrun]
  · intro hnone
    rw [hnone] at hread
    obtain ⟨e, s, hrun, name, hlacks, rfl⟩ := hread
    exact ⟨name, hlacks, by rw [hrun]⟩

end Dump

end Protobuf

end Trezorlib

end Hwi
