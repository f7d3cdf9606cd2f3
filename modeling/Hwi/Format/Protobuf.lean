import Hwi.Spec.Protobuf

/-! What a receiver with its own version of `messages` gets of a message, and the
messages that it gets as they were. -/

namespace Hwi

namespace Trezorlib

namespace Protobuf

def Attr.values : Attr → List Value
  | .none | .placeholder => []
  | .one value => [value]
  | .many values => values

/-- An induction on the values of the attributes of messages. -/
theorem Value.ind {P : Value → Prop} (int : ∀ n, P (.int n)) (bool : ∀ b, P (.bool b))
    (bytes : ∀ b, P (.bytes b)) (str : ∀ s, P (.str s))
    (message : ∀ cls attrs, (∀ attr ∈ attrs, ∀ value ∈ attr.values, P value) → P (.message cls attrs))
    (value : Value) : P value :=
  @Value.rec P (fun attr => ∀ value ∈ attr.values, P value)
    (fun attrs => ∀ attr ∈ attrs, ∀ value ∈ attr.values, P value) (fun values => ∀ value ∈ values, P value)
    int bool bytes str message (fun _ h => absurd h List.not_mem_nil) (fun _ h => absurd h List.not_mem_nil)
    (fun _ hvalue _ h => List.mem_singleton.1 h ▸ hvalue) (fun _ hvalues => hvalues)
    (fun _ h => absurd h List.not_mem_nil)
    (fun _ _ hhead htail _ h => (List.mem_cons.1 h).elim (fun heq => heq ▸ hhead) (htail _))
    (fun _ h => absurd h List.not_mem_nil)
    (fun _ _ hhead htail _ h => (List.mem_cons.1 h).elim (fun heq => heq ▸ hhead) (htail _)) value

/-! ### Versions of the messages -/

/-- `B` knows some of the fields of the messages of `A`, with the same types. -/
structure Extends (A B : Messages) : Prop where
  named {name : String} {cls : MessageClass} (h : A name = some (.message cls)) : cls.name = name
  named' {name : String} {cls : MessageClass} (h : B name = some (.message cls)) : cls.name = name
  message {name : String} {known : MessageClass} (h : B name = some (.message known)) :
    ∃ cls, A name = some (.message cls) ∧ known.fields ⊆ cls.fields
  enum {name : String} {members : List ℤ} (h : B name = some (.enum members)) :
    ∃ members', A name = some (.enum members')
  closed {name : String} {known : MessageClass} (h : B name = some (.message known)) {f : ℕ × Field}
    (hf : f ∈ known.fields) {type : String} (htype : f.2.type = .named type) : (B type).isSome

/-- The attribute of the values that are received for a field: all of them, or the last. -/
def Field.assemble (field : Field) (values : List Value) : Option Attr :=
  if field.repeated then some (.many values)
  else match values.getLast? with
    | some value => some (.one value)
    | none => if field.required then none else some field.defaultAttr

/-- The values that are received for a field. -/
def valuesOf (name : String) (pairs : List (Field × Value)) : List Value :=
  (pairs.filter fun p => p.1.name = name).map Prod.snd

/-- The message of the values that are received, each with its field. -/
def MessageClass.assemble (known : MessageClass) (pairs : List (Field × Value)) : Option Value :=
  (known.fields.mapM fun f : ℕ × Field => f.2.assemble (valuesOf f.2.name pairs)).map
    (.message known.name)

/-- A value other than a message as its field has it. -/
def Field.receiveSimple (field : Field) (value : Value) : Value :=
  match field.type with
  | .bool => match value.toInt with
    | .ok n => .bool (n ≠ 0)
    | .error _ => value
  | _ => match value.asInt? with
    | some n => .int n
    | none => value

/-- The values that are sent of an attribute. -/
def Field.sent (field : Field) : Attr → List Value
  | .none | .placeholder => []
  | .one value => if field.repeated then value.iterate?.getD [] else [value]
  | .many values => values

mutual

/-- A value that was sent, without the fields that the receiver does not know; none if
a field that the receiver requires was not set. -/
def receiveValue (A B : Messages) (field : Field) : Value → Option Value
  | .message cls attrs =>
    match A cls, B cls with
    | some (.message sent), some (.message known) =>
      (receiveAttrs A B known sent.fields attrs).bind known.assemble
    | _, _ => none
  | .int n => some (field.receiveSimple (.int n))
  | .bool b => some (field.receiveSimple (.bool b))
  | .bytes b => some (field.receiveSimple (.bytes b))
  | .str s => some (field.receiveSimple (.str s))

def receiveValues (A B : Messages) (field : Field) : List Value → Option (List (Field × Value))
  | [] => some []
  | value :: values =>
    (receiveValue A B field value).bind fun value =>
      (receiveValues A B field values).map fun rest => (field, value) :: rest

def receiveAttr (A B : Messages) (field : Field) : Attr → Option (List (Field × Value))
  | .none | .placeholder => some []
  | .one value =>
    if field.repeated then
      some ((value.iterate?.getD []).map fun value => (field, field.receiveSimple value))
    else (receiveValue A B field value).map fun value => [(field, value)]
  | .many values => receiveValues A B field values

/-- The values that were set for the fields that the receiver knows. -/
def receiveAttrs (A B : Messages) (known : MessageClass) :
    List (ℕ × Field) → List Attr → Option (List (Field × Value))
  | f :: fields, attr :: attrs =>
    if f.1 ∈ known.fields.map Prod.fst then
      (receiveAttr A B f.2 attr).bind fun pairs =>
        (receiveAttrs A B known fields attrs).map fun rest => pairs ++ rest
    else
      receiveAttrs A B known fields attrs
  | _, _ => some []

end

/-- The message that a receiver with `B` gets when `A` sends it. -/
def receive (A B : Messages) : Value → Option Value
  | .message cls attrs =>
    match A cls, B cls with
    | some (.message sent), some (.message known) =>
      (receiveAttrs A B known sent.fields attrs).bind known.assemble
    | _, _ => none
  | _ => none

/-- A field that the receiver requires was not set: one of the message, or of a message in
a field that the receiver knows. -/
inductive Lacks (A B : Messages) : String → List Attr → String → Prop
  | unset {cls : String} {attrs : List Attr} {sent known : MessageClass} {i : ℕ} {f : ℕ × Field}
      (hA : A cls = some (.message sent)) (hB : B cls = some (.message known))
      (hsent : sent.fields[i]? = some f) (hknown : f ∈ known.fields) (hrequired : f.2.required = true)
      (hrepeated : f.2.repeated = false) (hunset : attrs[i]?.getD .none = .none) :
      Lacks A B cls attrs f.2.name
  | inner {cls cls' name : String} {attrs attrs' : List Attr} {sent known : MessageClass} {i : ℕ}
      {f : ℕ × Field} {attr : Attr}
      (hA : A cls = some (.message sent)) (hB : B cls = some (.message known))
      (hsent : sent.fields[i]? = some f) (hknown : f ∈ known.fields) (hattr : attrs[i]? = some attr)
      (hvalue : .message cls' attrs' ∈ f.2.sent attr) (h : Lacks A B cls' attrs' name) :
      Lacks A B cls attrs name

/-- The exception of a receiver that names a field it did not receive. -/
def notReceived (name : String) : Error := .valueError ("Did not receive value for field " ++ name)

/-- The exception names a required field that was not set. -/
def MissingField (A B : Messages) (cls : String) (attrs : List Attr) (e : Error) : Prop :=
  ∃ name, Lacks A B cls attrs name ∧ e = notReceived name

/-! ### Messages that are received as they are -/

mutual

/-- The value is one of the type of its field. -/
def ValueFits (M : Messages) (field : Field) : Value → Prop
  | .message cls attrs =>
    ∃ mtype, getFieldTypeObject M field = some (.message mtype) ∧ cls = mtype.name ∧
      AttrsFit M mtype.fields attrs
  | .int n =>
    match field.type with
    | .uint32 | .uint64 | .sint32 | .sint64 => field.valueFits n = .ok true
    | .named name => ∃ members, M name = some (.enum members) ∧ n ∈ members ∧ 0 ≤ n
    | _ => False
  | .bool _ => field.type = .bool
  | .bytes _ => field.type = .bytes
  | .str _ => field.type = .string

def ValuesFit (M : Messages) (field : Field) : List Value → Prop
  | [] => True
  | value :: values => ValueFits M field value ∧ ValuesFit M field values

/-- What is not set is not required and has no other default. -/
def AttrFits (M : Messages) (field : Field) : Attr → Prop
  | .none => field.repeated = false ∧ field.required = false ∧ field.default = none
  | .placeholder => False
  | .one value => field.repeated = false ∧ ValueFits M field value
  | .many values => field.repeated = true ∧ ValuesFit M field values

def AttrsFit (M : Messages) : List (ℕ × Field) → List Attr → Prop
  | [], [] => True
  | f :: fields, attr :: attrs => AttrFits M f.2 attr ∧ AttrsFit M fields attrs
  | _, _ => False

end

end Protobuf

end Trezorlib

end Hwi
