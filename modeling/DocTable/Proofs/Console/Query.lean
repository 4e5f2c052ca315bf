import DocTable.Console.Query
import DocTable.Proofs.Condition.Wording
import DocTable.Proofs.Result
/-!
# DocTable.Proofs.Console.Query

What the options that select documents stand for, when they stand for something.
-/

namespace DocTable.Sql.Field

theorem check_of_ofPath {path : Text} {f : Field} (h : Field.ofPath path = .ok f) :
    Path.check f.path = .ok () := by
  obtain ⟨_, hpath, h⟩ := bind_eq_ok_iff.1 h
  cases h
  exact hpath

end DocTable.Sql.Field

namespace DocTable.Console

open Sql

namespace Filter

theorem ne_unknown_of_operator? {name : Text} {op : Operator} (h : operator? name = some op)
    (other : Text) : op ≠ .unknown other := by
  obtain ⟨o, ho, rfl⟩ := Option.map_eq_some_iff.1 h
  have hknown : ∀ o ∈ operators, o.2 ≠ .unknown other := by
    simp [operators]
  exact hknown o (List.mem_of_find?_eq_some ho)

theorem bound_isNullTest {f : Filter} {op : Operator} (hop : op.isNullTest = true) {v : Json} :
    f.bound op = .ok v ↔ v = .null := by
  rw [bound, if_pos hop, Except.ok.injEq, eq_comm]

/-- A membership is among the items of an array. -/
theorem bound_oneOf {f : Filter} {v : Json} :
    f.bound .oneOf = .ok v ↔
      ∃ items, v = .array items ∧ Json.read f.value = .ok (.array items) := by
  rw [bound, if_neg (by simp [Operator.isNullTest]), bind_eq_ok_iff]
  constructor
  · rintro ⟨w, hw, h⟩
    rw [mapError_eq_ok_iff] at hw
    cases w with
    | array items =>
      cases h
      exact ⟨items, rfl, hw⟩
    | null | bool | int | float | text | object => cases h
  · rintro ⟨items, rfl, hread⟩
    exact ⟨_, mapError_eq_ok_iff.2 hread, rfl⟩

/-- All other comparisons are with any value. -/
theorem bound_value {f : Filter} {op : Operator} (hnull : op.isNullTest = false)
    (hlist : op ≠ .oneOf) {v : Json} : f.bound op = .ok v ↔ Json.read f.value = .ok v := by
  have hbound : f.bound op = (Json.read f.value).mapError .reading >>= pure := by
    rw [bound, hnull, if_neg Bool.false_ne_true]
    cases op with
    | oneOf => exact absurd rfl hlist
    | _ => rfl
  rw [hbound, bind_pure, mapError_eq_ok_iff]

/-- A filter stands for a comparison of the field at its path. -/
theorem condition_eq_ok_iff {f : Filter} {c : Condition} :
    f.condition = .ok c ↔ ∃ op field v, operator? f.operator = some op ∧
      Field.ofPath (Text.dropStart ['$'] f.path) = .ok field ∧ f.bound op = .ok v ∧
      c = field.compare op v := by
  unfold condition
  cases hop : operator? f.operator with
  | none => simp
  | some op =>
    simp only [bind_eq_ok_iff, mapError_eq_ok_iff, Option.some.injEq]
    constructor
    · rintro ⟨field, hfield, v, hv, h⟩
      exact ⟨op, field, v, rfl, hfield, hv, (Except.ok.inj h).symm⟩
    · rintro ⟨_, field, v, rfl, hfield, hv, rfl⟩
      exact ⟨field, hfield, v, hv, rfl⟩

/-- What conditions are together: nothing, the only one of them, or their conjunction. -/
def together : List Condition → Option Condition
  | [] => none
  | [c] => some c
  | cs => some (.logical .and cs)

theorem conditionOfAll_eq_ok_iff {fs : List Filter} {r : Option Condition} :
    conditionOfAll fs = .ok r ↔
      ∃ cs, List.Forall₂ (fun f c => f.condition = .ok c) fs cs ∧ together cs = r := by
  unfold conditionOfAll
  simp only [bind_eq_ok_iff, mapM_eq_ok_iff]
  refine exists_congr fun cs => and_congr_right fun _ => ?_
  match cs with
  | [] | [_] | _ :: _ :: _ => exact ⟨Except.ok.inj, congrArg Except.ok⟩

theorem together_eq_none_iff {cs : List Condition} : together cs = none ↔ cs = [] := by
  match cs with
  | [] | [_] | _ :: _ :: _ => simp [together]

/-! ### Filters are well-formed conditions -/

/-- The value of a filter fits its operator. -/
theorem fits_of_bound {f : Filter} {op : Operator} (hop : ∀ other, op ≠ .unknown other) {v : Json}
    (h : f.bound op = .ok v) : Condition.Fits op v := by
  cases op with
  | unknown name => exact absurd rfl (hop name)
  | isNull | isNotNull => exact (bound_isNullTest rfl).1 h
  | oneOf =>
    obtain ⟨items, hitems, -⟩ := bound_oneOf.1 h
    exact ⟨items, hitems⟩
  | _ => trivial

theorem wellFormed_condition {f : Filter} {c : Condition} (h : f.condition = .ok c) :
    c.WellFormed := by
  obtain ⟨op, field, v, hop, hfield, hbound, rfl⟩ := condition_eq_ok_iff.1 h
  exact ⟨Field.check_of_ofPath hfield, fits_of_bound (ne_unknown_of_operator? hop) hbound⟩

theorem allWellFormed_of_forall₂ {fs : List Filter} {cs : List Condition}
    (h : List.Forall₂ (fun f c => f.condition = .ok c) fs cs) : Condition.AllWellFormed cs := by
  induction h with
  | nil => trivial
  | cons hc _ ih => exact ⟨wellFormed_condition hc, ih⟩

theorem wellFormed_together {cs : List Condition} (h : Condition.AllWellFormed cs) {c : Condition}
    (hc : together cs = some c) : c.WellFormed := by
  match cs, hc with
  | [c], rfl => exact h.1
  | c :: d :: cs, rfl => exact h

end Filter

namespace Query

/-! ### The conditions of a query -/

/-- The fragments of a condition that may be absent. -/
inductive Compiled : Option Condition → List Fragment → Prop
  | absent : Compiled none []
  | present {c : Condition} {f : Fragment} : c.compile = .ok f → Compiled (some c) [f]

theorem filterCondition_eq_ok_iff {q : Query} {fs : List Fragment} :
    q.filterCondition = .ok fs ↔
      ∃ filters cs, List.Forall₂ (fun raw f => Filter.ofText raw = .ok f) q.filters filters ∧
        List.Forall₂ (fun f c => Filter.condition f = .ok c) filters cs ∧
        Compiled (Filter.together cs) fs := by
  unfold filterCondition
  simp only [bind_eq_ok_iff, mapM_eq_ok_iff, Filter.conditionOfAll_eq_ok_iff]
  constructor
  · rintro ⟨filters, hfilters, r, ⟨cs, hcs, rfl⟩, h⟩
    refine ⟨filters, cs, hfilters, hcs, ?_⟩
    cases hc : Filter.together cs with
    | none =>
      rw [hc] at h
      cases h
      exact .absent
    | some c =>
      rw [hc] at h
      obtain ⟨f, hf, h⟩ := bind_eq_ok_iff.1 h
      cases h
      exact .present (mapError_eq_ok_iff.1 hf)
  · rintro ⟨filters, cs, hfilters, hcs, h⟩
    refine ⟨filters, hfilters, _, ⟨cs, hcs, rfl⟩, ?_⟩
    cases hc : Filter.together cs with
    | none =>
      rw [hc] at h
      cases h
      rfl
    | some c =>
      rw [hc] at h
      cases h with
      | present hf => exact bind_eq_ok_iff.2 ⟨_, mapError_eq_ok_iff.2 hf, rfl⟩

/-- The conditions of a query, in order, and its clauses. -/
theorem fragments_eq_ok_iff {q : Query} {fs : List Fragment} :
    q.fragments = .ok fs ↔
      ∃ byTemplate byFilters byId order, q.templateCondition = .ok byTemplate ∧
        q.filterCondition = .ok byFilters ∧ q.idCondition = .ok byId ∧ q.orderClause = .ok order ∧
        fs = whereClause (byTemplate ++ byFilters ++ byId) ++ order ++ q.limitClause := by
  unfold fragments
  simp only [bind_eq_ok_iff]
  constructor
  · rintro ⟨byTemplate, ht, byFilters, hf, byId, hi, order, ho, h⟩
    exact ⟨byTemplate, byFilters, byId, order, ht, hf, hi, ho, (Except.ok.inj h).symm⟩
  · rintro ⟨byTemplate, byFilters, byId, order, ht, hf, hi, ho, rfl⟩
    exact ⟨byTemplate, ht, byFilters, hf, byId, hi, order, ho, rfl⟩

/-- The condition of a template that is not empty. -/
theorem templateCondition_eq_ok_iff {q : Query} {fs : List Fragment} :
    q.templateCondition = .ok fs ↔
      (nonEmpty? q.template = none ∧ q.arguments = [] ∧ fs = []) ∨
      ∃ template values f, nonEmpty? q.template = some template ∧
        List.Forall₂ (fun a v => Json.read a = .ok v) q.arguments values ∧
        Fragment.sql template values = .ok f ∧ fs = [f] := by
  unfold templateCondition
  cases nonEmpty? q.template with
  | none =>
    cases hargs : q.arguments with
    | nil => simp [eq_comm]
    | cons a as => simp
  | some template =>
    simp only [bind_eq_ok_iff, mapM_eq_ok_iff, mapError_eq_ok_iff]
    constructor
    · rintro ⟨values, hvalues, f, hf, h⟩
      exact .inr ⟨template, values, f, rfl, hvalues, hf, (Except.ok.inj h).symm⟩
    · rintro (⟨h, -⟩ | ⟨_, values, f, h, hvalues, hf, rfl⟩)
      · cases h
      · cases h
        exact ⟨values, hvalues, f, hf, rfl⟩

theorem idCondition_eq_ok_iff {q : Query} {fs : List Fragment} :
    q.idCondition = .ok fs ↔ (q.id = none ∧ fs = []) ∨
      ∃ id f, q.id = some id ∧ Fragment.sql "$id = ?".toList [.text id] = .ok f ∧ fs = [f] := by
  unfold idCondition
  cases q.id with
  | none => simp [eq_comm]
  | some id =>
    simp only [bind_eq_ok_iff, mapError_eq_ok_iff]
    constructor
    · rintro ⟨f, hf, h⟩
      exact .inr ⟨id, f, rfl, hf, (Except.ok.inj h).symm⟩
    · rintro (⟨h, -⟩ | ⟨_, f, h, hf, rfl⟩)
      · cases h
      · cases h
        exact ⟨f, hf, rfl⟩

end Query

end DocTable.Console
