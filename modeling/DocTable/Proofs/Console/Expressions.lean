import DocTable.Proofs.Console.Query
/-!
# DocTable.Proofs.Console.Expressions

Filters, and the expressions on fields that say the same.

A comparison can be written as a filter or as an expression on a field. Both check the path in the
same way, and where both accept a value they come to the same comparison. They differ in what they
accept. A membership in what is no array is refused for a filter, while an expression takes the
items of any value that has some. Equality with null is refused for an expression, while a filter
binds the null (`condition_agrees`).
-/

namespace DocTable.Sql

/-- The expression on a field that an operator stands for. A test for null has no value. -/
def Field.expression (f : Field) (v : Json) : Operator → Except QueryError Condition
  | .equal => f.equal v
  | .notEqual => f.notEqual v
  | .oneOf => f.oneOf v
  | .isNull => .ok f.isNull
  | .isNotNull => .ok f.isNotNull
  | op => .ok (f.compare op v)

/-- Equality with null, or inequality. -/
def Operator.ComparesNull (op : Operator) (v : Json) : Prop :=
  (op = .equal ∨ op = .notEqual) ∧ v = .null

end DocTable.Sql

namespace DocTable.Console.Filter

open Sql

variable {f : Filter} {op : Operator} {v : Json}

/-- The path of the field that a filter is about. -/
def fieldPath (f : Filter) : Text :=
  Text.dropStart ['$'] f.path

/-- A value is what the value text of a filter says; a test for null looks at none. -/
def Decodes (f : Filter) (op : Operator) (v : Json) : Prop :=
  op.isNullTest = false → Json.read f.value = .ok v

/-- The expression on the field of a filter. -/
def expression (f : Filter) (op : Operator) (v : Json) : Except QueryError Condition := do
  let field ← (Field.ofPath f.fieldPath).mapError .path
  field.expression v op

/-- One filter is not combined with anything. -/
theorem conditionOfAll_singleton (f : Filter) : conditionOfAll [f] = some <$> f.condition := by
  rw [conditionOfAll, List.mapM_cons, List.mapM_nil]
  cases f.condition with
  | error e => rfl
  | ok c => rfl

theorem decodes_of_bound (h : f.bound op = .ok v) : f.Decodes op v := by
  intro hnull
  cases op with
  | oneOf =>
    obtain ⟨items, rfl, hread⟩ := bound_oneOf.1 h
    exact hread
  | isNull | isNotNull => cases hnull
  | _ => exact (bound_value (by rfl) (by simp)).1 h

/-- A filter binds each null that it is compared with. -/
theorem bound_of_comparesNull (hv : f.Decodes op v) (h : op.ComparesNull v) :
    f.bound op = .ok v := by
  obtain ⟨rfl | rfl, -⟩ := h <;> exact (bound_value (by rfl) (by simp)).2 (hv rfl)

/-- Where a filter has a value, the expression comes to the same comparison, unless it is one with
null. -/
theorem expression_of_bound (hlike : op ≠ .like) (hknown : ∀ other, op ≠ .unknown other)
    {w : Json} (hbound : f.bound op = .ok w) (hv : f.Decodes op v) (field : Field) :
    field.expression v op = .ok (field.compare op w) ↔ ¬ op.ComparesNull v := by
  have hread : op.isNullTest = false → w = v := by
    intro hnull
    exact Except.ok.inj ((decodes_of_bound hbound hnull).symm.trans (hv hnull))
  cases op with
  | like => exact absurd rfl hlike
  | unknown other => exact absurd rfl (hknown other)
  | isNull | isNotNull =>
    obtain rfl := (bound_isNullTest (by rfl)).1 hbound
    simp [Field.expression, Field.isNull, Field.isNotNull, Operator.ComparesNull]
  | oneOf =>
    obtain ⟨items, rfl, -⟩ := bound_oneOf.1 hbound
    obtain rfl := hread rfl
    simp [Field.expression, Field.oneOf, Json.items?, Operator.ComparesNull]
  | equal | notEqual =>
    obtain rfl := hread rfl
    cases w with
    | null => simp [Field.expression, Field.equal, Field.notEqual, Operator.ComparesNull]
    | _ => simp [Field.expression, Field.equal, Field.notEqual, Operator.ComparesNull]
  | greater | greaterEqual | less | lessEqual =>
    obtain rfl := hread rfl
    simp [Field.expression, Operator.ComparesNull]

/-- An accepted filter has a field and a value, and the expression on that field comes to the same
comparison, unless it is one with null. -/
theorem expression_of_condition (hop : operator? f.operator = some op) (hlike : op ≠ .like)
    {c : Condition} (hc : f.condition = .ok c) :
    ∃ field w, Field.ofPath f.fieldPath = .ok field ∧ f.bound op = .ok w ∧
      ∀ v, f.Decodes op v → (f.expression op v = .ok c ↔ ¬ op.ComparesNull v) := by
  obtain ⟨op', field, w, hop', hfield, hbound, rfl⟩ := condition_eq_ok_iff.1 hc
  obtain rfl : op = op' := Option.some.inj (hop.symm.trans hop')
  have hpath : Field.ofPath f.fieldPath = .ok field := hfield
  refine ⟨field, w, hpath, hbound, ?_⟩
  intro v hv
  have hexpression : f.expression op v = field.expression v op := by
    rw [expression, hpath]
    rfl
  rw [hexpression]
  exact expression_of_bound hlike (ne_unknown_of_operator? hop) hbound hv field

/-- A filter on an accepted path with a value for its operator is a comparison of the field. -/
theorem conditionOfAll_of_field (hop : operator? f.operator = some op) {field : Field}
    (hfield : Field.ofPath f.fieldPath = .ok field) (hbound : f.bound op = .ok v) :
    conditionOfAll [f] = .ok (some (field.compare op v)) := by
  have hc := condition_eq_ok_iff.2 ⟨op, field, v, hop, hfield, hbound, rfl⟩
  rw [conditionOfAll_singleton, hc]
  rfl

/-- A path that is refused for a field is refused for a filter, whatever its value. -/
theorem conditionOfAll_of_path {e : PathError} (hop : operator? f.operator = some op)
    (h : Field.ofPath f.fieldPath = .error e) :
    conditionOfAll [f] = .error (.query (.path e)) := by
  have hfield : Field.ofPath (Text.dropStart ['$'] f.path) = .error e := h
  rw [conditionOfAll_singleton, condition, hop]
  dsimp only
  rw [hfield]
  rfl

/-- **Filters and expressions agree, except about null.** A filter that is accepted has a value, and
the expression with that value is accepted exactly if it is no equality with null, as the same
comparison. A filter is refused with its path; where the expression is refused, the filter is
refused, too, exactly if it does not compare a field with null. -/
theorem condition_agrees (hop : operator? f.operator = some op) (hlike : op ≠ .like) :
    (∀ r, conditionOfAll [f] = .ok r → ∃ c v, r = some c ∧ f.Decodes op v ∧
      (f.expression op v = .ok c ↔ ¬ op.ComparesNull v)) ∧
    (∀ e, Field.ofPath f.fieldPath = .error e →
      conditionOfAll [f] = .error (.query (.path e))) ∧
    ∀ v e, f.Decodes op v → f.expression op v = .error e →
      ((∃ e', conditionOfAll [f] = .error e') ↔
        ¬ (op.ComparesNull v ∧ ∃ field, Field.ofPath f.fieldPath = .ok field)) := by
  refine ⟨?_, fun e => conditionOfAll_of_path hop, ?_⟩
  · intro r hr
    rw [conditionOfAll_singleton] at hr
    obtain ⟨c, hc, rfl⟩ := map_eq_ok_iff.1 hr
    obtain ⟨field, w, -, hbound, hagrees⟩ := expression_of_condition hop hlike hc
    have hw := decodes_of_bound hbound
    exact ⟨c, w, rfl, hw, hagrees w hw⟩
  · intro v e hv hrefused
    constructor
    · intro ⟨e', he'⟩ ⟨hnull, field, hfield⟩
      have hok := conditionOfAll_of_field hop hfield (bound_of_comparesNull hv hnull)
      cases hok.symm.trans he'
    · intro hnull
      rw [conditionOfAll_singleton]
      cases hc : f.condition with
      | error e' => exact ⟨e', rfl⟩
      | ok c =>
        obtain ⟨field, w, hfield, -, hagrees⟩ := expression_of_condition hop hlike hc
        have hother : ¬ op.ComparesNull v := fun h => hnull ⟨h, field, hfield⟩
        cases ((hagrees v hv).2 hother).symm.trans hrefused

/-- A membership among nulls, and a path with a blank in it. -/
theorem condition_agrees_membership :
    let among : Filter := ⟨"$home.planet".toList, "in".toList, "[null]".toList⟩
    let blank : Filter := ⟨"home planet".toList, "gte".toList, "1".toList⟩
    (∃ c v, conditionOfAll [among] = .ok (some c) ∧ among.Decodes .oneOf v ∧
      among.expression .oneOf v = .ok c) ∧
    ∃ e, blank.expression .greaterEqual (.int 1) = .error (.path e) ∧
      conditionOfAll [blank] = .error (.query (.path e)) := by
  intro among blank
  have hin : operator? among.operator = some .oneOf := rfl
  have hgte : operator? blank.operator = some .greaterEqual := rfl
  constructor
  · have hfield : Field.ofPath among.fieldPath = .ok ⟨"home.planet".toList⟩ := rfl
    have hread : Json.read among.value = .ok (.array [.null]) := rfl
    have hok := conditionOfAll_of_field hin hfield (bound_oneOf.2 ⟨_, rfl, hread⟩)
    obtain ⟨c, v, hr, hv, hagrees⟩ := (condition_agrees hin nofun).1 _ hok
    have hother : ¬ Operator.oneOf.ComparesNull v := by
      simp [Operator.ComparesNull]
    exact ⟨c, v, hr ▸ hok, hv, hagrees.2 hother⟩
  · have hpath : Field.ofPath blank.fieldPath = .error (.segment "home planet".toList) := rfl
    refine ⟨_, ?_, (condition_agrees hgte nofun).2.1 _ hpath⟩
    rw [expression, hpath]
    rfl

/-- Equality with null, and inequality, are accepted as filters and refused as expressions. -/
theorem filter_binds_null :
    let eq : Filter := ⟨"a".toList, "eq".toList, "null".toList⟩
    let ne : Filter := ⟨"a".toList, "ne".toList, "null".toList⟩
    (conditionOfAll [eq] = .ok (some (.comparison "a".toList .equal .null)) ∧
      eq.Decodes .equal .null ∧ eq.expression .equal .null = .error .equalsNull) ∧
    conditionOfAll [ne] = .ok (some (.comparison "a".toList .notEqual .null)) ∧
      ne.Decodes .notEqual .null ∧ ne.expression .notEqual .null = .error .differsFromNull := by
  intro eq ne
  have hread : Json.read "null".toList = .ok .null := rfl
  have heq : eq.Decodes .equal .null := fun _ => hread
  have hne : ne.Decodes .notEqual .null := fun _ => hread
  have hfield : Field.ofPath eq.fieldPath = .ok ⟨"a".toList⟩ := rfl
  have hequal := bound_of_comparesNull heq ⟨.inl rfl, rfl⟩
  have hdiffers := bound_of_comparesNull hne ⟨.inr rfl, rfl⟩
  exact ⟨⟨conditionOfAll_of_field rfl hfield hequal, heq, rfl⟩,
    conditionOfAll_of_field rfl hfield hdiffers, hne, rfl⟩

end DocTable.Console.Filter
