import Hwi.Proofs.ProtobufDump

/-! What `dump_message` writes is what `load_message` reads, also for a receiver that knows
other fields. -/

namespace Hwi

namespace Trezorlib

namespace Protobuf

open Source
open LedgerBitcoin (utf8)

/-! ### Messages that are received as they are -/

section RoundTrip

variable {M : Messages}

theorem exists_wireType (hM : Extends M M) {name : String} {cls : MessageClass}
    (hcls : M name = some (.message cls)) {f : ℕ × Field} (hf : f ∈ cls.fields) :
    ∃ w, f.2.wireType M = .ok w := by
  unfold Field.wireType getFieldTypeObject
  cases htype : f.2.type with
  | named type =>
    obtain ⟨object, hobject⟩ := Option.isSome_iff_exists.1 (hM.closed hcls hf htype)
    simp only [hobject]
    cases object with
    | message inner => exact ⟨_, rfl⟩
    | enum members => exact ⟨_, rfl⟩
  | _ => exact ⟨_, rfl⟩

theorem attrFits_values {field : Field} {attr : Attr} (h : AttrFits M field attr) :
    ∀ value ∈ attr.values, ValueFits M field value := by
  cases attr with
  | none => exact fun value hvalue => absurd hvalue List.not_mem_nil
  | placeholder => exact fun value hvalue => absurd hvalue List.not_mem_nil
  | one value =>
    rw [AttrFits] at h
    exact fun value' hvalue' => List.mem_singleton.1 hvalue' ▸ h.2
  | many values =>
    rw [AttrFits] at h
    obtain ⟨-, hvalues⟩ := h
    change ∀ value ∈ values, ValueFits M field value
    induction values with
    | nil => exact fun value hvalue => absurd hvalue List.not_mem_nil
    | cons v values ih =>
      rw [ValuesFit] at hvalues
      exact fun value hvalue => (List.mem_cons.1 hvalue).elim (fun heq => heq ▸ hvalues.1) (ih hvalues.2 value)

/-- The values of the attributes, each with its field. -/
def pairsOf (fields : List (ℕ × Field)) (attrs : List Attr) : List (Field × Value) :=
  (fields.zip attrs).flatMap fun p => p.2.values.map fun value => (p.1.2, value)

theorem attr_of_values {field : Field} {attr : Attr} (h : AttrFits M field attr) :
    field.assemble attr.values = some attr := by
  unfold Field.assemble
  cases attr with
  | none =>
    rw [AttrFits] at h
    obtain ⟨hrepeated, hrequired, hdefault⟩ := h
    rw [hrepeated, if_neg Bool.false_ne_true, Attr.values, List.getLast?_nil, hrequired]
    simp only [if_neg Bool.false_ne_true, Field.defaultAttr, hdefault]
  | placeholder => cases h
  | one value =>
    rw [AttrFits] at h
    rw [h.1, if_neg Bool.false_ne_true]
    rfl
  | many values =>
    rw [AttrFits] at h
    rw [h.1, if_pos rfl]
    rfl

theorem valuesOf_pairsOf {name : String} {fields : List (ℕ × Field)} {attrs : List Attr}
    (h : name ∉ fields.map fun f => f.2.name) : valuesOf name (pairsOf fields attrs) = [] := by
  unfold valuesOf
  rw [List.map_eq_nil_iff, List.filter_eq_nil_iff]
  intro p hp
  obtain ⟨⟨f, attr⟩, hf, hvalue⟩ := List.mem_flatMap.1 hp
  obtain ⟨value, -, rfl⟩ := List.mem_map.1 hvalue
  rw [decide_eq_true_iff]
  exact fun heq => h (List.mem_map.2 ⟨f, (List.of_mem_zip hf).1, heq⟩)

/-- The attributes that fit are assembled of their values. -/
theorem assemble_pairsOf {fields : List (ℕ × Field)} {attrs : List Attr}
    (hnodup : (fields.map fun f => f.2.name).Nodup) (h : AttrsFit M fields attrs)
    {l : List (Field × Value)} (hl : ∀ f ∈ fields, valuesOf f.2.name l = []) :
    (fields.mapM fun f : ℕ × Field => f.2.assemble (valuesOf f.2.name (l ++ pairsOf fields attrs))) =
      some attrs := by
  induction fields generalizing attrs l with
  | nil =>
    cases attrs with
    | nil => rfl
    | cons attr attrs => cases h
  | cons f fields ih =>
    cases attrs with
    | nil => cases h
    | cons attr attrs =>
      rw [AttrsFit] at h
      rw [List.map_cons, List.nodup_cons] at hnodup
      have hpairs : pairsOf (f :: fields) (attr :: attrs) =
          attr.values.map (fun value => (f.2, value)) ++ pairsOf fields attrs := rfl
      have hown : valuesOf f.2.name (attr.values.map fun value => (f.2, value)) = attr.values := by
        unfold valuesOf
        rw [List.filter_eq_self.2, List.map_map]
        · exact List.map_id attr.values
        · intro p hp
          obtain ⟨value, -, rfl⟩ := List.mem_map.1 hp
          exact decide_eq_true rfl
      have hfirst : valuesOf f.2.name (l ++ pairsOf (f :: fields) (attr :: attrs)) = attr.values := by
        rw [hpairs, valuesOf_append, valuesOf_append, hl f List.mem_cons_self, hown,
          valuesOf_pairsOf hnodup.1, List.nil_append, List.append_nil]
      have hrest := ih hnodup.2 h.2 (l := l ++ attr.values.map fun value => (f.2, value))
        fun g hg => by
          have hne : f.2.name ≠ g.2.name := fun heq =>
            hnodup.1 (List.mem_map.2 ⟨g, hg, heq.symm⟩)
          rw [valuesOf_append, hl g (List.mem_cons_of_mem _ hg), List.nil_append]
          unfold valuesOf
          rw [List.map_eq_nil_iff, List.filter_eq_nil_iff]
          intro p hp
          obtain ⟨value, -, rfl⟩ := List.mem_map.1 hp
          rw [decide_eq_true_iff]
          exact hne
      rw [List.append_assoc, ← hpairs] at hrest
      rw [List.mapM_cons, hfirst, attr_of_values h.1, hrest]
      rfl

theorem class_of_field (hM : Extends M M) {field : Field} {mtype : MessageClass}
    (h : getFieldTypeObject M field = some (.message mtype)) : M mtype.name = some (.message mtype) := by
  cases htype : field.type with
  | named type =>
    rw [getFieldTypeObject, htype] at h
    exact (hM.named h).symm ▸ h
  | _ =>
    rw [getFieldTypeObject, htype] at h
    cases h

theorem dumpUvarint_of_nonneg {z : ℤ} (h : 0 ≤ z) : ∃ b, dumpUvarint z = .ok b :=
  ⟨_, if_neg (Int.not_lt.2 h)⟩

theorem valueFits_nonneg {field : Field} (htype : field.type = .uint32 ∨ field.type = .uint64) {z : ℤ}
    (h : field.valueFits z = .ok true) : 0 ≤ z := by
  unfold Field.valueFits at h
  rcases htype with htype | htype
  all_goals
    rw [htype] at h
    exact (of_decide_eq_true (Except.ok.inj h)).1

theorem dumpSimple_int {field : Field} {n : ℤ} (h : ValueFits M field (.int n)) :
    ∃ b, dumpSimple M field (.int n) = .ok b := by
  rw [ValueFits] at h
  have hint (hfits : field.valueFits n = .ok true) : dumpInt field (.int n) = .ok n := by
    change (field.valueFits n >>= fun fits => _) = _
    rw [hfits]
    rfl
  unfold dumpSimple
  cases htype : field.type with
  | uint32 =>
    simp only [htype] at h
    rw [hint h]
    exact dumpUvarint_of_nonneg (valueFits_nonneg (Or.inl htype) h)
  | uint64 =>
    simp only [htype] at h
    rw [hint h]
    exact dumpUvarint_of_nonneg (valueFits_nonneg (Or.inr htype) h)
  | sint32 =>
    simp only [htype] at h
    rw [hint h]
    exact dumpUvarint_of_nonneg (uintToSint_sintToUint n).1
  | sint64 =>
    simp only [htype] at h
    rw [hint h]
    exact dumpUvarint_of_nonneg (uintToSint_sintToUint n).1
  | named type =>
    simp only [htype] at h
    obtain ⟨members, hmembers, hn, hnonneg⟩ := h
    simp only [hmembers, Value.asInt?, if_pos hn]
    exact dumpUvarint_of_nonneg hnonneg
  | bool =>
    simp only [htype] at h
  | bytes =>
    simp only [htype] at h
  | string =>
    simp only [htype] at h

/-- Values that fit are dumped. -/
def Dumps (M : Messages) (value : Value) : Prop :=
  ∀ field, ValueFits M field value → ∃ b, dumpValue M field value = .ok b

theorem dumpValues_of_fits {field : Field} {values : List Value} (hvalues : ∀ value ∈ values, Dumps M value)
    (h : ∀ value ∈ values, ValueFits M field value) (fkey : ℕ) :
    ∃ b, dumpValues M fkey field values = .ok b := by
  induction values with
  | nil => exact ⟨[], by rw [dumpValues]⟩
  | cons value values ih =>
    obtain ⟨first, hfirst⟩ := hvalues value List.mem_cons_self field (h value List.mem_cons_self)
    obtain ⟨rest, hrest⟩ := ih (fun v hv => hvalues v (List.mem_cons_of_mem _ hv))
      fun v hv => h v (List.mem_cons_of_mem _ hv)
    exact ⟨_, by rw [dumpValues, dumpUvarint_natCast, ok_bind, hfirst, ok_bind, hrest]; rfl⟩

theorem dumpAttr_of_fits {tag w : ℕ} {field : Field} (hw : field.wireType M = .ok w) {attr : Attr}
    (hvalues : ∀ value ∈ attr.values, Dumps M value) (h : AttrFits M field attr) :
    ∃ b, dumpAttr M tag field attr = .ok b := by
  have hfits := attrFits_values h
  cases attr with
  | none => exact ⟨[], by rw [dumpAttr]⟩
  | placeholder => cases h
  | one value =>
    rw [AttrFits] at h
    obtain ⟨b, hb⟩ := hvalues value List.mem_cons_self field h.2
    refine ⟨uvarint (tag <<< 3 ||| w) ++ b, ?_⟩
    rw [dumpAttr, hw, ok_bind, h.1, if_neg Bool.false_ne_true]
    rw [dumpUvarint_natCast, ok_bind, hb]
    rfl
  | many values =>
    rw [AttrFits] at h
    obtain ⟨b, hb⟩ := dumpValues_of_fits hvalues hfits (tag <<< 3 ||| w)
    refine ⟨b, ?_⟩
    rw [dumpAttr, hw, ok_bind, h.1]
    exact hb

theorem dumpFields_of_fits {fields : List (ℕ × Field)} (hfields : ∀ f ∈ fields, ∃ w, f.2.wireType M = .ok w)
    {attrs : List Attr} (hvalues : ∀ attr ∈ attrs, ∀ value ∈ attr.values, Dumps M value)
    (h : AttrsFit M fields attrs) : ∃ b, dumpFields M fields attrs = .ok b := by
  induction fields generalizing attrs with
  | nil => exact ⟨[], dumpFields_no_fields attrs⟩
  | cons f fields ih =>
    cases attrs with
    | nil => cases h
    | cons attr attrs =>
      rw [AttrsFit] at h
      obtain ⟨w, hw⟩ := hfields f List.mem_cons_self
      obtain ⟨first, hfirst⟩ := @dumpAttr_of_fits M f.1 w f.2 hw attr (hvalues attr List.mem_cons_self) h.1
      obtain ⟨rest, hrest⟩ := ih (fun g hg => hfields g (List.mem_cons_of_mem _ hg))
        (fun attr hattr => hvalues attr (List.mem_cons_of_mem _ hattr)) h.2
      exact ⟨_, by rw [dumpFields, hfirst, ok_bind, hrest]; rfl⟩

theorem dumps_of_fits (hM : Extends M M) (value : Value) : Dumps M value := by
  induction value using Value.ind with
  | int n =>
    intro field h
    obtain ⟨b, hb⟩ := dumpSimple_int h
    exact ⟨b, by rw [dumpValue, hb]⟩
  | bool c =>
    intro field h
    rw [ValueFits] at h
    refine ⟨uvarint (if c then 1 else 0), ?_⟩
    rw [dumpValue]
    unfold dumpSimple
    rw [h]
    cases c <;> rfl
  | bytes c =>
    intro field h
    rw [ValueFits] at h
    refine ⟨uvarint c.length ++ c, ?_⟩
    rw [dumpValue, dumpSimple, h]
    change (dumpUvarint c.length >>= fun size => _) = _
    rw [dumpUvarint_natCast]
    rfl
  | str s =>
    intro field h
    rw [ValueFits] at h
    refine ⟨uvarint (utf8 s).length ++ utf8 s, ?_⟩
    rw [dumpValue, dumpSimple, h]
    change (dumpUvarint (utf8 s).length >>= fun size => _) = _
    rw [dumpUvarint_natCast]
    rfl
  | message cls attrs ih =>
    intro field h
    rw [ValueFits] at h
    obtain ⟨mtype, hobject, rfl, hattrs⟩ := h
    have hcls := class_of_field hM hobject
    obtain ⟨content, hcontent⟩ := dumpFields_of_fits (fun f hf => exists_wireType hM hcls hf) ih hattrs
    refine ⟨uvarint content.length ++ content, ?_⟩
    rw [dumpValue]
    simp only [hobject, if_pos]
    rw [hcontent, ok_bind, dumpUvarint_natCast]
    rfl

theorem dumpMessage_of_fits (hM : Extends M M) {cls : MessageClass}
    (hcls : M cls.name = some (.message cls)) {attrs : List Attr} (h : AttrsFit M cls.fields attrs) :
    ∃ b, dumpMessage M (.message cls.name attrs) = .ok b := by
  rw [dumpMessage]
  simp only [hcls]
  exact dumpFields_of_fits (fun f hf => exists_wireType hM hcls hf)
    (fun attr _ value _ => dumps_of_fits hM value) h

/-- Values that fit are received as they are. -/
def ReceivedSame (M : Messages) (value : Value) : Prop :=
  ∀ field, ValueFits M field value → receiveValue M M field value = some value

theorem receiveAttr_of_fits {field : Field} {attr : Attr} (hvalues : ∀ value ∈ attr.values, ReceivedSame M value)
    (h : AttrFits M field attr) :
    receiveAttr M M field attr = some (attr.values.map fun value => (field, value)) := by
  have hfits := attrFits_values h
  cases attr with
  | none => rfl
  | placeholder => rfl
  | one value =>
    rw [AttrFits] at h
    rw [receiveAttr, h.1, if_neg Bool.false_ne_true,
      hvalues value List.mem_cons_self field (hfits value List.mem_cons_self)]
    rfl
  | many values =>
    rw [receiveAttr]
    change receiveValues M M field values = some (values.map fun value => (field, value))
    change ∀ value ∈ values, _ at hvalues hfits
    clear h
    induction values with
    | nil => rw [receiveValues, List.map_nil]
    | cons value values ih =>
      rw [receiveValues, hvalues value List.mem_cons_self field (hfits value List.mem_cons_self),
        ih (fun v hv => hvalues v (List.mem_cons_of_mem _ hv)) fun v hv => hfits v (List.mem_cons_of_mem _ hv)]
      rfl

theorem receiveAttrs_of_fits {cls : MessageClass} {fields : List (ℕ × Field)} (hfields : fields ⊆ cls.fields)
    {attrs : List Attr} (hvalues : ∀ attr ∈ attrs, ∀ value ∈ attr.values, ReceivedSame M value)
    (h : AttrsFit M fields attrs) : receiveAttrs M M cls fields attrs = some (pairsOf fields attrs) := by
  induction fields generalizing attrs with
  | nil => exact receiveAttrs_no_fields attrs
  | cons f fields ih =>
    cases attrs with
    | nil => cases h
    | cons attr attrs =>
      rw [AttrsFit] at h
      have hmem : f.1 ∈ cls.fields.map Prod.fst := List.mem_map_of_mem (hfields List.mem_cons_self)
      rw [receiveAttrs, if_pos hmem, receiveAttr_of_fits (hvalues attr List.mem_cons_self) h.1,
        ih (fun g hg => hfields (List.mem_cons_of_mem _ hg))
          (fun attr hattr => hvalues attr (List.mem_cons_of_mem _ hattr)) h.2]
      rfl

/-- A message whose attributes fit is assembled of its own values. -/
theorem receive_of_fits {cls : MessageClass} {attrs : List Attr}
    (hvalues : ∀ attr ∈ attrs, ∀ value ∈ attr.values, ReceivedSame M value)
    (h : AttrsFit M cls.fields attrs) :
    (receiveAttrs M M cls cls.fields attrs).bind cls.assemble = some (.message cls.name attrs) := by
  have hassemble := assemble_pairsOf cls.nodup_names h (l := []) fun f _ => rfl
  rw [List.nil_append] at hassemble
  rw [receiveAttrs_of_fits (List.Subset.refl _) hvalues h, Option.bind_some, MessageClass.assemble, hassemble]
  rfl

theorem receivedSame (hM : Extends M M) (value : Value) : ReceivedSame M value := by
  induction value using Value.ind with
  | int n =>
    intro field h
    rw [ValueFits] at h
    rw [receiveValue, Field.receiveSimple]
    cases htype : field.type with
    | bool => simp only [htype] at h
    | _ => rfl
  | bool c =>
    intro field h
    rw [ValueFits] at h
    rw [receiveValue, Field.receiveSimple, h]
    cases c <;> rfl
  | bytes c =>
    intro field h
    rw [ValueFits] at h
    rw [receiveValue, Field.receiveSimple, h]
    rfl
  | str s =>
    intro field h
    rw [ValueFits] at h
    rw [receiveValue, Field.receiveSimple, h]
    rfl
  | message cls attrs ih =>
    intro field h
    rw [ValueFits] at h
    obtain ⟨mtype, hobject, rfl, hattrs⟩ := h
    have hcls := class_of_field hM hobject
    rw [receiveValue]
    simp only [hcls]
    exact receive_of_fits ih hattrs

/-! ### The requests of a device -/

/-- A field of a class with neither lists nor required fields. -/
def optionalField (name : String) (type : FieldType) : Field := ⟨name, type, false, false, none⟩

def txRequestDetailsType : MessageClass where
  name := "TxRequestDetailsType"
  messageWireType := none
  fields := [(1, optionalField "request_index" .uint32), (2, optionalField "tx_hash" .bytes),
    (3, optionalField "extra_data_len" .uint32), (4, optionalField "extra_data_offset" .uint32)]
  nodup_tags := by decide
  nodup_names := by decide

def txRequestSerializedType : MessageClass where
  name := "TxRequestSerializedType"
  messageWireType := none
  fields := [(1, optionalField "signature_index" .uint32), (2, optionalField "signature" .bytes),
    (3, optionalField "serialized_tx" .bytes)]
  nodup_tags := by decide
  nodup_names := by decide

def txRequest : MessageClass where
  name := "TxRequest"
  messageWireType := some 21
  fields := [(1, optionalField "request_type" (.named "RequestType")),
    (2, optionalField "details" (.named "TxRequestDetailsType")),
    (3, optionalField "serialized" (.named "TxRequestSerializedType"))]
  nodup_tags := by decide
  nodup_names := by decide

/-- The part of `messages` that `TxRequest` needs. -/
def txMessages : Messages := fun name =>
  if name = "TxRequest" then some (.message txRequest)
  else if name = "TxRequestDetailsType" then some (.message txRequestDetailsType)
  else if name = "TxRequestSerializedType" then some (.message txRequestSerializedType)
  else if name = "RequestType" then some (.enum [0, 1, 2, 3, 4, 5, 6])
  else none

theorem txMessages_message {name : String} {cls : MessageClass} (h : txMessages name = some (.message cls)) :
    cls = txRequest ∧ name = "TxRequest" ∨ cls = txRequestDetailsType ∧ name = "TxRequestDetailsType" ∨
      cls = txRequestSerializedType ∧ name = "TxRequestSerializedType" := by
  unfold txMessages at h
  split_ifs at h with h1 h2 h3 h4
  · exact Or.inl ⟨by cases h; rfl, h1⟩
  · exact Or.inr (Or.inl ⟨by cases h; rfl, h2⟩)
  · exact Or.inr (Or.inr ⟨by cases h; rfl, h3⟩)
  · cases h

theorem txMessages_extends : Extends txMessages txMessages where
  named h := by rcases txMessages_message h with ⟨rfl, rfl⟩ | ⟨rfl, rfl⟩ | ⟨rfl, rfl⟩ <;> rfl
  named' h := by rcases txMessages_message h with ⟨rfl, rfl⟩ | ⟨rfl, rfl⟩ | ⟨rfl, rfl⟩ <;> rfl
  message h := ⟨_, h, List.Subset.refl _⟩
  enum h := ⟨_, h⟩
  closed h f hf type htype := by
    rcases txMessages_message h with ⟨rfl, -⟩ | ⟨rfl, -⟩ | ⟨rfl, -⟩
    all_goals
      simp only [txRequest, txRequestDetailsType, txRequestSerializedType, optionalField, List.mem_cons,
        List.not_mem_nil, or_false] at hf
    · rcases hf with rfl | rfl | rfl <;> cases htype <;> rfl
    · rcases hf with rfl | rfl | rfl | rfl <;> cases htype
    · rcases hf with rfl | rfl | rfl <;> cases htype

/-- A request for the first input, with a signature. -/
def sampleRequest : List Attr :=
  [.one (.int 0), .one (.message "TxRequestDetailsType" [.one (.int 0), .none, .none, .none]),
    .one (.message "TxRequestSerializedType" [.one (.int 300), .one (.bytes [1, 2, 3]), .none])]

theorem sampleRequest_fits : AttrsFit txMessages txRequest.fields sampleRequest := by
  refine ⟨⟨rfl, [0, 1, 2, 3, 4, 5, 6], rfl, by decide, by decide⟩,
    ⟨rfl, txRequestDetailsType, rfl, rfl, ⟨rfl, rfl⟩, ⟨rfl, rfl, rfl⟩, ⟨rfl, rfl, rfl⟩, ⟨rfl, rfl, rfl⟩, trivial⟩,
    ⟨rfl, txRequestSerializedType, rfl, rfl, ⟨rfl, rfl⟩, ⟨rfl, rfl⟩, ⟨rfl, rfl, rfl⟩, trivial⟩, trivial⟩

/-- An older version of it, without what is serialized. -/
def oldTxRequest : MessageClass where
  name := "TxRequest"
  messageWireType := some 21
  fields := [(1, optionalField "request_type" (.named "RequestType")),
    (2, optionalField "details" (.named "TxRequestDetailsType"))]
  nodup_tags := by decide
  nodup_names := by decide

def oldTxMessages : Messages := fun name =>
  if name = "TxRequest" then some (.message oldTxRequest)
  else if name = "TxRequestDetailsType" then some (.message txRequestDetailsType)
  else if name = "RequestType" then some (.enum [0, 1, 2, 3, 4])
  else none

theorem oldTxMessages_message {name : String} {cls : MessageClass}
    (h : oldTxMessages name = some (.message cls)) :
    cls = oldTxRequest ∧ name = "TxRequest" ∨
      cls = txRequestDetailsType ∧ name = "TxRequestDetailsType" := by
  unfold oldTxMessages at h
  split_ifs at h with h1 h2 h3
  · exact Or.inl ⟨by cases h; rfl, h1⟩
  · exact Or.inr ⟨by cases h; rfl, h2⟩
  · cases h

theorem oldTxMessages_enum {name : String} {members : List ℤ} (h : oldTxMessages name = some (.enum members)) :
    name = "RequestType" := by
  unfold oldTxMessages at h
  split_ifs at h with h1 h2 h3
  · cases h
  · cases h
  · exact h3

theorem txMessages_extends_old : Extends txMessages oldTxMessages where
  named h := txMessages_extends.named h
  named' h := by rcases oldTxMessages_message h with ⟨rfl, rfl⟩ | ⟨rfl, rfl⟩ <;> rfl
  message h := by
    rcases oldTxMessages_message h with ⟨rfl, rfl⟩ | ⟨rfl, rfl⟩
    · exact ⟨txRequest, rfl, fun f hf => List.mem_append_left [_] hf⟩
    · exact ⟨txRequestDetailsType, rfl, List.Subset.refl _⟩
  enum h := by
    obtain rfl := oldTxMessages_enum h
    exact ⟨_, rfl⟩
  closed h f hf type htype := by
    rcases oldTxMessages_message h with ⟨rfl, -⟩ | ⟨rfl, -⟩
    all_goals
      simp only [oldTxRequest, txRequestDetailsType, optionalField, List.mem_cons, List.not_mem_nil,
        or_false] at hf
    · rcases hf with rfl | rfl <;> cases htype <;> rfl
    · rcases hf with rfl | rfl | rfl | rfl <;> cases htype

def pinMatrixAck : MessageClass where
  name := "PinMatrixAck"
  messageWireType := some 19
  fields := [(1, ⟨"pin", .string, false, true, none⟩)]
  nodup_tags := by decide
  nodup_names := by decide

/-- Messages with one more class, which has a required field. -/
def withPin (M : Messages) : Messages := fun name =>
  if name = "PinMatrixAck" then some (.message pinMatrixAck) else M name

theorem withPin_extends {A B : Messages} (h : Extends A B) : Extends (withPin A) (withPin B) where
  named {name cls} hcls := by
    unfold withPin at hcls
    split_ifs at hcls with hname
    · cases hcls
      exact hname.symm
    · exact h.named hcls
  named' {name cls} hcls := by
    unfold withPin at hcls
    split_ifs at hcls with hname
    · cases hcls
      exact hname.symm
    · exact h.named' hcls
  message {name known} hcls := by
    unfold withPin at hcls ⊢
    split_ifs at hcls ⊢ with hname
    · cases hcls
      exact ⟨_, rfl, List.Subset.refl _⟩
    · exact h.message hcls
  enum {name members} henum := by
    unfold withPin at henum ⊢
    by_cases hname : name = "PinMatrixAck"
    · rw [if_pos hname] at henum
      cases henum
    · rw [if_neg hname] at henum ⊢
      exact h.enum henum
  closed {name known} hcls {f} hf {type} htype := by
    unfold withPin at hcls ⊢
    by_cases hname : name = "PinMatrixAck"
    · rw [if_pos hname] at hcls
      cases hcls
      obtain rfl := List.mem_singleton.1 hf
      cases htype
    · rw [if_neg hname] at hcls
      split_ifs
      · rfl
      · exact h.closed hcls hf htype

/-- What is dumped for one version of the messages is loaded for another one as it is
received. It is not received exactly when a field that is required there was not set, and
the exception names such a field. -/
theorem loadMessage_dumpMessage {A B : Messages} (hext : Extends A B) {known : MessageClass}
    {cls : String} {attrs : List Attr} {b : Bytes} (hdump : dumpMessage A (.message cls attrs) = .ok b)
    (hB : B cls = some (.message known)) :
    (∀ msg, receive A B (.message cls attrs) = some msg → loadMessage B b known = .ok msg) ∧
      (receive A B (.message cls attrs) = none → ∃ name, Lacks A B cls attrs name ∧
        loadMessage B b known = .error (notReceived name)) ∧
      ∀ name, Lacks A B cls attrs name → receive A B (.message cls attrs) = none := by
  obtain ⟨hloads, hlacks⟩ := loads_of_dumps hext hdump hB
  exact ⟨hloads, hlacks, fun name => receive_of_lacks⟩

theorem lacks_pin {A B : Messages} {name : String}
    (h : Lacks (withPin A) (withPin B) "PinMatrixAck" [.none] name) : name = "pin" := by
  generalize hattrs : [Attr.none] = attrs at h
  generalize hcls : "PinMatrixAck" = cls at h
  cases h with
  | @unset _ _ sent _ i f hA _ hsent =>
    subst hcls
    cases hA
    obtain rfl := List.mem_singleton.1 (List.mem_of_getElem? hsent)
    rfl
  | @inner _ cls' _ _ attrs' _ _ i f attr _ _ _ _ hattr hvalue =>
    subst hattrs
    obtain rfl := List.mem_singleton.1 (List.mem_of_getElem? hattr)
    cases hvalue

/-- A message without what the receiver does not know, and one without a required field. -/
theorem loadMessage_dumpMessage_old : ∃ b b',
    dumpMessage (withPin txMessages) (.message "TxRequest" sampleRequest) = .ok b ∧
    loadMessage (withPin oldTxMessages) b oldTxRequest = .ok (.message "TxRequest" (sampleRequest.take 2)) ∧
    dumpMessage (withPin txMessages) (.message "PinMatrixAck" [.none]) = .ok b' ∧
    loadMessage (withPin oldTxMessages) b' pinMatrixAck = .error (notReceived "pin") := by
  have hext := withPin_extends txMessages_extends_old
  have hdump : dumpMessage (withPin txMessages) (.message "TxRequest" sampleRequest) =
      .ok [8, 0, 18, 2, 8, 0, 26, 8, 8, 172, 2, 18, 3, 1, 2, 3] := rfl
  have hpin : dumpMessage (withPin txMessages) (.message "PinMatrixAck" [.none]) = .ok [] := rfl
  have hload := (loadMessage_dumpMessage hext hdump rfl).1 (.message "TxRequest" (sampleRequest.take 2)) rfl
  obtain ⟨name, hlacks, hmissing⟩ := (loadMessage_dumpMessage hext hpin rfl).2.1 rfl
  obtain rfl := lacks_pin hlacks
  exact ⟨_, _, hdump, hload, hpin, hmissing⟩

/-- A message of a class of `messages` whose attributes fit is dumped, and loaded as it was. -/
theorem loadMessage_roundTrip (hM : Extends M M) {cls : MessageClass} (hcls : M cls.name = some (.message cls))
    {attrs : List Attr} (h : AttrsFit M cls.fields attrs) :
    ∃ b, dumpMessage M (.message cls.name attrs) = .ok b ∧
      loadMessage M b cls = .ok (.message cls.name attrs) := by
  obtain ⟨b, hdump⟩ := dumpMessage_of_fits hM hcls h
  refine ⟨b, hdump, (loads_of_dumps hM hdump hcls).1 _ ?_⟩
  rw [receive]
  simp only [hcls]
  exact receive_of_fits (fun attr _ value _ => receivedSame hM value) h

theorem loadMessage_roundTrip_sample : ∃ b, dumpMessage txMessages (.message "TxRequest" sampleRequest) = .ok b ∧
    loadMessage txMessages b txRequest = .ok (.message "TxRequest" sampleRequest) :=
  loadMessage_roundTrip txMessages_extends rfl sampleRequest_fits

end RoundTrip

end Protobuf

end Trezorlib

end Hwi
