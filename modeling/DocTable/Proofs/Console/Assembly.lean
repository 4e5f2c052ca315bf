import DocTable.Proofs.Condition.Rendering
import DocTable.Proofs.Console.Selection
/-!
# DocTable.Proofs.Console.Assembly

What the options of a query become, taken together.

Each option is compiled on its own: the template, all filters, the id, the order and the limit. The
conditions are then embedded into one clause and expanded again there. Without two dollar signs in a
row in the template they come through that as they were, so the clause has their texts between
brackets and their values in order (`fragments_assembled`).
-/

namespace DocTable.Sql

namespace Fragment

/-- A fragment of a template stays as it is when it is expanded again, unless the template has two
dollar signs in a row. -/
theorem expanded_sql {t : Text} (ht : ¬ "$$".toList <:+: t) {values : List Json} {f : Fragment}
    (h : sql t values = .ok f) : f.expanded = f := by
  refine expanded_eq_self ?_
  rw [parts_sql h, List.forall_mem_map]
  intro p hp
  rw [Shorthand.expand_expand_eq_iff]
  intro hloose
  have hpiece : "$$".toList <:+: p := Shorthand.HasLooseDollar.infix hloose
  exact ht (hpiece.trans (Text.infix_of_mem_pieces hp))

end Fragment

end DocTable.Sql

namespace DocTable.Console

open Sql

namespace Filter

/-- The values that a filter binds: none for a test for null, the items of an array for a
membership, and otherwise the one value it is given. -/
inductive Binds (f : Filter) : List Json → Prop
  | nullTest {op : Operator} : operator? f.operator = some op → op.isNullTest = true →
    f.Binds []
  | items {items : List Json} : operator? f.operator = some .oneOf →
    Json.read f.value = .ok (.array items) → f.Binds items
  | value {op : Operator} {v : Json} : operator? f.operator = some op → op.isNullTest = false →
    op ≠ .oneOf → Json.read f.value = .ok v → f.Binds [v]

theorem binds_of_condition {f : Filter} {c : Condition} (h : f.condition = .ok c) :
    f.Binds (Condition.leafValues c) := by
  obtain ⟨op, field, v, hop, -, hbound, rfl⟩ := condition_eq_ok_iff.1 h
  show f.Binds (Condition.comparedValues op v)
  cases op with
  | unknown name => exact absurd rfl (ne_unknown_of_operator? hop name)
  | isNull | isNotNull => exact .nullTest hop rfl
  | oneOf =>
    obtain ⟨items, rfl, hread⟩ := bound_oneOf.1 hbound
    exact .items hop hread
  | _ => exact .value hop rfl nofun ((bound_value (by rfl) (by simp)).1 hbound)

theorem leafValues_together {cs : List Condition} {c : Condition} (h : together cs = some c) :
    Condition.leafValues c = cs.flatMap Condition.leafValues := by
  match cs, h with
  | [c], rfl => simp
  | c :: d :: cs, rfl => exact Condition.leafValuesAll_eq_flatMap _

/-- Filters in order, each with the values it binds. -/
theorem binds_of_conditions {raws : List Text} {filters : List Filter} {cs : List Condition}
    (hfilters : List.Forall₂ (fun raw f => ofText raw = .ok f) raws filters)
    (hcs : List.Forall₂ (fun f c => condition f = .ok c) filters cs) :
    List.Forall₂ (fun raw vs => ∃ f, ofText raw = .ok f ∧ f.Binds vs) raws
      (cs.map Condition.leafValues) := by
  induction hfilters generalizing cs with
  | nil =>
    cases hcs
    exact .nil
  | cons hraw _ ih =>
    cases hcs with
    | cons hc hcs => exact .cons ⟨_, hraw, binds_of_condition hc⟩ (ih hcs)

end Filter

namespace Query

/-! ### The parts of a query -/

/-- The fragment of the template, if it is not empty. -/
inductive TemplateBuilds (q : Query) : List Fragment → Prop
  | absent : nonEmpty? q.template = none → TemplateBuilds q []
  | given {template : Text} {values : List Json} {f : Fragment} :
    nonEmpty? q.template = some template →
    List.Forall₂ (fun a v => Json.read a = .ok v) q.arguments values →
    Fragment.sql template values = .ok f → TemplateBuilds q [f]

/-- The conditions of a query, each built on its own: that of the template, that of all filters
together, and that of the id. -/
def Builds (q : Query) (conditions : List Fragment) : Prop :=
  ∃ byTemplate byFilters byId, q.TemplateBuilds byTemplate ∧ q.FiltersSupply byFilters ∧
    q.IdSupplies byId ∧ conditions = byTemplate ++ byFilters ++ byId

/-- The text that selects by conditions: each of them between brackets, with `AND` between them. -/
def whereTexts (conditions : List Text) : List Text :=
  if conditions.isEmpty then []
  else ["where ".toList ++ Text.join " AND ".toList (conditions.map fun t => '(' :: t ++ [')'])]

/-- The text that sorts, for an order that is not empty. -/
def orderTexts (q : Query) : List Text :=
  (nonEmpty? q.order).toList.map fun path =>
    "order by ".toList ++ columnText (Text.dropStart ['$'] path) ++
      directionText q.descending

/-- The text that limits. -/
def limitTexts (q : Query) : List Text :=
  q.limit.toList.map fun _ => "limit ?".toList

/-- The template has no two dollar signs in a row. -/
def SingleDollars (q : Query) : Prop :=
  ∀ template, q.template = some template → ¬ "$$".toList <:+: template

/-! ### Templates -/

theorem template_of_nonEmpty? {t : Option Text} {template : Text}
    (h : nonEmpty? t = some template) : t = some template := by
  rw [nonEmpty?, Option.filter_eq_some_iff] at h
  exact h.1

/-- The template binds the arguments; without a template there are none. -/
theorem templateBuilds_of_compiled {q : Query} {fs : List Fragment}
    (h : q.templateCondition = .ok fs) :
    q.TemplateBuilds fs ∧
      List.Forall₂ (fun a v => Json.read a = .ok v) q.arguments (fs.flatMap Fragment.values) := by
  rcases templateCondition_eq_ok_iff.1 h with ⟨hnone, hargs, rfl⟩ |
    ⟨template, values, f, ht, hvalues, hf, rfl⟩
  · rw [hargs]
    exact ⟨.absent hnone, .nil⟩
  · refine ⟨.given ht hvalues hf, ?_⟩
    rw [List.flatMap_singleton, Fragment.values_sql hf]
    exact hvalues

theorem TemplateBuilds.map_expanded {q : Query} (hq : q.SingleDollars) {fs : List Fragment}
    (h : q.TemplateBuilds fs) : fs.map Fragment.expanded = fs := by
  cases h with
  | absent => rfl
  | given ht _ hf =>
    rw [List.map_singleton, Fragment.expanded_sql (hq _ (template_of_nonEmpty? ht)) hf]

/-! ### Clauses -/

theorem FiltersSupply.binds {q : Query} {fs : List Fragment} (h : q.FiltersSupply fs) :
    ∃ bound : List (List Json),
      List.Forall₂ (fun raw vs => ∃ f, Filter.ofText raw = .ok f ∧ f.Binds vs) q.filters bound ∧
        fs.flatMap Fragment.values = bound.flatten := by
  cases h with
  | absent hnone =>
    rw [hnone]
    exact ⟨[], .nil, rfl⟩
  | @given filters cs c f hfilters hcs hc hf =>
    have hwell := Filter.wellFormed_together (Filter.allWellFormed_of_forall₂ hcs) hc
    refine ⟨cs.map Condition.leafValues, Filter.binds_of_conditions hfilters hcs, ?_⟩
    rw [List.flatMap_singleton, Condition.values_compile hwell hf, Filter.leafValues_together hc,
      List.flatMap_def]

theorem IdSupplies.values {q : Query} {fs : List Fragment} (h : q.IdSupplies fs) :
    fs.flatMap Fragment.values = q.id.toList.map .text := by
  cases h with
  | absent hnone => rw [hnone]; rfl
  | given hid _ hvalues => rw [hid, List.flatMap_singleton, hvalues]; rfl

theorem texts_clauseOf (conditions : List Fragment) :
    (clauseOf conditions).map Fragment.text = whereTexts (conditions.map Fragment.text) := by
  rw [clauseOf, whereTexts, List.isEmpty_map]
  split
  · rfl
  · rw [List.map_singleton, Clause.where, Fragment.text_append, text_conjunction, List.map_map]
    rfl

theorem values_clauseOf (conditions : List Fragment) :
    (clauseOf conditions).flatMap Fragment.values = conditions.flatMap Fragment.values := by
  cases conditions with
  | nil => rfl
  | cons f fs =>
    show [Clause.where (conjunction (f :: fs))].flatMap Fragment.values = _
    rw [List.flatMap_singleton, Clause.where, Fragment.values_append, values_conjunction]
    rfl

theorem texts_orderClause {q : Query} {fs : List Fragment} (h : q.orderClause = .ok fs) :
    fs.map Fragment.text = q.orderTexts ∧ fs.flatMap Fragment.values = [] := by
  unfold orderClause at h
  unfold orderTexts
  cases horder : nonEmpty? q.order with
  | none =>
    rw [horder] at h
    cases h
    exact ⟨rfl, rfl⟩
  | some path =>
    rw [horder] at h
    obtain ⟨key, hkey, h⟩ := bind_eq_ok_iff.1 h
    obtain ⟨f, hf, h⟩ := bind_eq_ok_iff.1 h
    cases h
    rw [mapError_eq_ok_iff, direction_eq] at hkey
    obtain ⟨_, hcheck, hkey⟩ := bind_eq_ok_iff.1 hkey
    cases hkey
    obtain ⟨g, hg, htext, hvalues⟩ := ordering_eq_ok hcheck q.descending
    obtain rfl : g = f := Except.ok.inj (hg.symm.trans (mapError_eq_ok_iff.1 hf))
    simp [htext, hvalues]

theorem texts_limitClause (q : Query) :
    q.limitClause.map Fragment.text = q.limitTexts ∧
      q.limitClause.flatMap Fragment.values = q.limit.toList.map .int := by
  unfold limitClause limitTexts
  cases q.limit with
  | none => exact ⟨rfl, rfl⟩
  | some n =>
    obtain ⟨htext, hvalues⟩ := text_limiting n
    simp [htext, hvalues]

/-! ### The whole query -/

/-- **Options are assembled without loss.** The fragments of a query are one clause that selects by
the conditions built from the template, the filters and the id, one that sorts and one that limits,
each if there is something for it; they bind the arguments, the values of the filters in order, the
id and the limit. -/
theorem fragments_assembled {q : Query} (hq : q.SingleDollars) {fs : List Fragment}
    (h : q.fragments = .ok fs) :
    ∃ conditions decoded bound, q.Builds conditions ∧
      List.Forall₂ (fun a v => Json.read a = .ok v) q.arguments decoded ∧
      List.Forall₂ (fun raw vs => ∃ f, Filter.ofText raw = .ok f ∧ f.Binds vs) q.filters bound ∧
      fs.map Fragment.text =
        whereTexts (conditions.map Fragment.text) ++ q.orderTexts ++ q.limitTexts ∧
      fs.flatMap Fragment.values =
        decoded ++ bound.flatten ++ q.id.toList.map .text ++ q.limit.toList.map .int := by
  obtain ⟨byTemplate, byFilters, byId, order, ht, hf, hi, ho, rfl⟩ := fragments_eq_ok_iff.1 h
  obtain ⟨htemplate, hdecoded⟩ := templateBuilds_of_compiled ht
  obtain ⟨hfilters, hfiltersDotted⟩ := filtersSupply_of_compiled hf
  obtain ⟨hid, hidDotted⟩ := idSupplies_of_compiled hi
  obtain ⟨bound, hbinds, hbound⟩ := hfilters.binds
  obtain ⟨horderTexts, horderValues⟩ := texts_orderClause ho
  obtain ⟨hlimitTexts, hlimitValues⟩ := texts_limitClause q
  -- The clause expands the template once more, which changes nothing.
  have hclause : whereClause (byTemplate ++ byFilters ++ byId) =
      clauseOf (byTemplate ++ byFilters ++ byId) := by
    have hstays := htemplate.map_expanded hq
    obtain ⟨drafts, hdrafts, rfl, -⟩ := templateSupplies_of_compiled ht
    have hdotted := List.forall_mem_append.2 ⟨hfiltersDotted, hidDotted⟩
    rw [List.append_assoc, whereClause_eq drafts hdrafts hdotted, hstays]
  refine ⟨byTemplate ++ byFilters ++ byId, _, bound,
    ⟨_, _, _, htemplate, hfilters, hid, rfl⟩, hdecoded, hbinds, ?_, ?_⟩
  · rw [List.map_append, List.map_append, hclause, texts_clauseOf, horderTexts, hlimitTexts]
  · rw [List.flatMap_append, List.flatMap_append, hclause, values_clauseOf, horderValues,
      hlimitValues, List.append_nil, List.flatMap_append, List.flatMap_append, hbound, hid.values]

/-- All options at once: a template with a literal in it, a membership, a test for null, an empty
id, and an order with a dollar sign. -/
theorem fragments_assembled_all :
    let q : Query :=
      { template := some "$note <> 'a $b' and $age > ?".toList, arguments := ["3".toList],
        filters := ["$tag in '[1, null]'".toList, "name not_null".toList], id := some [],
        order := some "$name".toList, descending := true, limit := some 5 }
    q.SingleDollars ∧ ∃ fs conditions, ∃ decoded : List Json, ∃ bound : List (List Json),
      q.fragments = .ok fs ∧ q.Builds conditions ∧
      whereTexts (conditions.map Fragment.text) ++ q.orderTexts ++ q.limitTexts =
        ["where (data->>'$.note' <> 'a $b' and data->>'$.age' > ?) AND ".toList ++
            "((data->>'$.tag' IN (?, ?) AND data->>'$.name' IS NOT NULL)) AND ".toList ++
            "(data->>'$.id' = ?)".toList,
          "order by data->>'$.name' desc".toList, "limit ?".toList] ∧
      decoded ++ bound.flatten ++ [.text []] ++ [.int 5] =
        [.int 3, .int 1, .null, .text [], .int 5] := by
  intro q
  have hq : q.SingleDollars := by
    intro template htemplate
    cases htemplate
    decide +kernel
  have hok : q.fragments.isOk = true := by decide +kernel
  have htexts : (q.fragments.toOption.getD []).map Fragment.text =
      ["where (data->>'$.note' <> 'a $b' and data->>'$.age' > ?) AND ".toList ++
          "((data->>'$.tag' IN (?, ?) AND data->>'$.name' IS NOT NULL)) AND ".toList ++
          "(data->>'$.id' = ?)".toList,
        "order by data->>'$.name' desc".toList, "limit ?".toList] := by
    decide +kernel
  have hvalues : (q.fragments.toOption.getD []).flatMap Fragment.values =
      [.int 3, .int 1, .null, .text [], .int 5] := by
    decide +kernel
  cases hfs : q.fragments with
  | error e => simp [hfs, Except.isOk, Except.toBool] at hok
  | ok fs =>
    rw [hfs] at htexts hvalues
    obtain ⟨conditions, decoded, bound, hbuilds, -, -, htext, hvalue⟩ := fragments_assembled hq hfs
    exact ⟨hq, fs, conditions, decoded, bound, rfl, hbuilds, htext.symm.trans htexts,
      hvalue.symm.trans hvalues⟩

end Query

end DocTable.Console
