import DocTable.Console.Run
import DocTable.Proofs.Condition.Dotted
import DocTable.Proofs.Console.Query
import DocTable.Proofs.Statement.Operations
/-!
# DocTable.Proofs.Console.Selection

The clause that the options of a query make.

A query supplies at most three conditions: that of its template, if it is not empty, that of all its
filters together, and that of its id (`Supplies`). They come into the clause one by one, each
between its own brackets (`fragments_eq_ok`). The template stands in it as it is when it is expanded
once more; the others come from compiled conditions, which stay as they are.
-/

namespace DocTable.Console

open Sql
open Sql.Shorthand (Dotted)

namespace Query

/-! ### The conditions that are supplied -/

/-- The condition of the template, if it is not empty. -/
inductive TemplateSupplies (q : Query) : List Fragment → Prop
  | absent : nonEmpty? q.template = none → TemplateSupplies q []
  | given {template : Text} {values : List Json} {f : Fragment} :
    nonEmpty? q.template = some template →
    List.Forall₂ (fun a v => Json.read a = .ok v) q.arguments values →
    Fragment.sql template values = .ok f → TemplateSupplies q [f.expanded]

/-- The condition of all filters together, if there are any. -/
inductive FiltersSupply (q : Query) : List Fragment → Prop
  | absent : q.filters = [] → FiltersSupply q []
  | given {filters : List Filter} {cs : List Condition} {c : Condition} {f : Fragment} :
    List.Forall₂ (fun raw f => Filter.ofText raw = .ok f) q.filters filters →
    List.Forall₂ (fun f c => Filter.condition f = .ok c) filters cs →
    Filter.together cs = some c → c.compile = .ok f → FiltersSupply q [f]

/-- The condition of the id, if there is one. -/
inductive IdSupplies (q : Query) : List Fragment → Prop
  | absent : q.id = none → IdSupplies q []
  | given {id : Text} {f : Fragment} : q.id = some id →
    f.text = "data->>'$.id' = ?".toList → f.values = [.text id] → IdSupplies q [f]

/-- The conditions that a query supplies, in the order in which they stand in its clause. -/
def Supplies (q : Query) (conditions : List Fragment) : Prop :=
  ∃ byTemplate byFilters byId, q.TemplateSupplies byTemplate ∧ q.FiltersSupply byFilters ∧
    q.IdSupplies byId ∧ conditions = byTemplate ++ byFilters ++ byId

/-- No condition is supplied: an empty template counts as none, an empty id does not. -/
structure IsBare (q : Query) : Prop where
  template : nonEmpty? q.template = none
  filters : q.filters = []
  id : q.id = none

/-! ### What the options are compiled to -/

theorem filtersSupply_of_compiled {q : Query} {fs : List Fragment}
    (h : q.filterCondition = .ok fs) : q.FiltersSupply fs ∧ ∀ f ∈ fs, Dotted f.text := by
  obtain ⟨filters, cs, hfilters, hcs, hcompiled⟩ := filterCondition_eq_ok_iff.1 h
  cases hc : Filter.together cs with
  | none =>
    rw [hc] at hcompiled
    cases hcompiled
    rw [Filter.together_eq_none_iff] at hc
    subst hc
    cases hcs
    refine ⟨.absent ?_, nofun⟩
    exact List.forall₂_nil_right_iff.1 hfilters
  | some c =>
    rw [hc] at hcompiled
    cases hcompiled with
    | present hf =>
      refine ⟨.given hfilters hcs hc hf, List.forall_mem_singleton.2 ?_⟩
      have hwell := Filter.wellFormed_together (Filter.allWellFormed_of_forall₂ hcs) hc
      exact Condition.dotted_compile hwell hf

theorem idSupplies_of_compiled {q : Query} {fs : List Fragment} (h : q.idCondition = .ok fs) :
    q.IdSupplies fs ∧ ∀ f ∈ fs, Dotted f.text := by
  rcases idCondition_eq_ok_iff.1 h with ⟨hid, rfl⟩ | ⟨id, f, hid, hf, rfl⟩
  · exact ⟨.absent hid, nofun⟩
  · have hexpand : expand "$id = ".toList = "data->>'$.id' = ".toList := by
      decide +kernel
    have hbefore : holeMark ∉ "$id = ".toList := by decide
    obtain ⟨g, hg, hfilled⟩ := Table.sql_hole (.text id) hbefore (List.not_mem_nil (a := holeMark))
    obtain rfl : g = f := Except.ok.inj (hg.symm.trans hf)
    rw [hexpand, Shorthand.expand_eq_self List.not_mem_nil] at hfilled
    have htext : g.text = "data->>'$.id' = ?".toList := by
      rw [Fragment.text_eq_marked, hfilled, Fragment.marked_append, Fragment.marked_verbatim]
      rfl
    have hvalues : g.values = [.text id] := by
      rw [Fragment.values_eq_filterMap, hfilled]
      rfl
    refine ⟨.given hid htext hvalues, List.forall_mem_singleton.2 ?_⟩
    rw [htext]
    decide

/-- The template is compiled once before it comes into the clause, and once more there. -/
theorem templateSupplies_of_compiled {q : Query} {fs : List Fragment}
    (h : q.templateCondition = .ok fs) :
    ∃ drafts : List Fragment, drafts.length ≤ 1 ∧ fs = drafts.map Fragment.expanded ∧
      q.TemplateSupplies (fs.map Fragment.expanded) := by
  rcases templateCondition_eq_ok_iff.1 h with ⟨hnone, -, rfl⟩ | ⟨t, values, f, ht, hvalues, hf, rfl⟩
  · exact ⟨[], Nat.zero_le 1, rfl, .absent hnone⟩
  · obtain ⟨draft, -, hdraft⟩ := map_eq_ok_iff.1 hf
    exact ⟨[draft], Nat.le_refl 1, by rw [← hdraft]; rfl, .given ht hvalues hf⟩

/-! ### The clause -/

theorem closing_clean : '?' ∉ ")".toList := by
  decide

/-- What comes behind the first of several conditions that stand in a clause. -/
def behindFirst : List Fragment → Fragment
  | [] => Condition.keyword ")" closing_clean
  | c :: cs =>
    Condition.keyword ")" closing_clean ++ (Condition.conjunctionMark ++ conjunction (c :: cs))

theorem conjunction_cons (f : Fragment) (cs : List Fragment) :
    conjunction (f :: cs) = Condition.keyword "(" (by decide) ++ (f ++ behindFirst cs) := by
  cases cs with
  | nil => exact Fragment.append_assoc ..
  | cons c cs =>
    show Condition.bracketed f ++ Condition.conjunctionMark ++ conjunction (c :: cs) = _
    simp only [Condition.bracketed, behindFirst, Fragment.append_assoc]

/-- A conjunction has its conditions between brackets, with `AND` between them. -/
theorem text_conjunction (cs : List Fragment) :
    (conjunction cs).text = Text.join " AND ".toList (cs.map fun f => '(' :: f.text ++ [')']) := by
  rw [conjunction, Fragment.text_join, List.map_map]
  have hbracketed : ∀ f ∈ cs, (Fragment.text ∘ Condition.bracketed) f = '(' :: f.text ++ [')'] := by
    intro f _
    simp [Condition.bracketed, Condition.keyword]
  rw [List.map_congr_left hbracketed]
  rfl

theorem values_conjunction (cs : List Fragment) :
    (conjunction cs).values = cs.flatMap Fragment.values := by
  rw [conjunction, Fragment.values_join rfl, List.flatMap_map]
  refine List.flatMap_congr fun f _ => ?_
  simp [Condition.bracketed, Condition.keyword]

theorem dotted_behindFirst {cs : List Fragment} (h : ∀ f ∈ cs, Dotted f.text) :
    Dotted (behindFirst cs).text := by
  induction cs with
  | nil => exact show Dotted [')'] by decide
  | cons c cs ih =>
    rw [List.forall_mem_cons] at h
    rw [behindFirst, conjunction_cons]
    simp only [Fragment.text_append, Condition.conjunctionMark, Condition.keyword,
      Fragment.text_literal]
    have hbehind := h.1.append (ih h.2)
    exact Dotted.append (by decide) (Dotted.append (by decide) (Dotted.append (by decide) hbehind))

theorem dotted_conjunction {cs : List Fragment} (h : ∀ f ∈ cs, Dotted f.text) :
    Dotted (conjunction cs).text := by
  cases cs with
  | nil => trivial
  | cons c cs =>
    rw [List.forall_mem_cons] at h
    rw [conjunction_cons, Fragment.text_append, Fragment.text_append]
    exact Dotted.append (show Dotted ['('] by decide) (h.1.append (dotted_behindFirst h.2))

/-- A bracket begins no path. -/
theorem startsPath_behindFirst (cs : List Fragment) :
    Shorthand.startsPath (behindFirst cs).head = false := by
  cases cs with
  | nil => rfl
  | cons c cs => rfl

/-- A fragment that has been expanded once is expanded once more in the clause, on its own. -/
theorem selecting_expanded (f : Fragment) {cs : List Fragment} (h : ∀ f ∈ cs, Dotted f.text) :
    selecting (conjunction (f.expanded :: cs)) =
      Clause.where (conjunction (f.expanded.expanded :: cs)) := by
  have hwhere : (Condition.keyword "where " (by decide)).Closed :=
    Fragment.closed_keyword _ (by decide)
  have hopen : (Condition.keyword "(" (by decide)).Closed := Fragment.closed_keyword _ (by decide)
  rw [selecting, build, Clause.where, Clause.where, conjunction_cons, conjunction_cons,
    Fragment.expanded_append hwhere, Fragment.expanded_append hopen,
    Fragment.expanded_keyword _ (by decide), Fragment.expanded_keyword _ (by decide),
    Fragment.expanded_expanded_append f (dotted_behindFirst h) (startsPath_behindFirst cs)]

/-- The clause of what a query supplies: nothing if that is nothing. -/
def clauseOf (conditions : List Fragment) : List Fragment :=
  if conditions.isEmpty then [] else [Clause.where (conjunction conditions)]

theorem whereClause_eq (drafts : List Fragment) (hdrafts : drafts.length ≤ 1)
    {cs : List Fragment} (h : ∀ f ∈ cs, Dotted f.text) :
    whereClause (drafts.map Fragment.expanded ++ cs) =
      clauseOf ((drafts.map Fragment.expanded).map Fragment.expanded ++ cs) := by
  match drafts, hdrafts with
  | [], _ =>
    show whereClause cs = clauseOf cs
    rw [whereClause, clauseOf, selecting_eq_where (dotted_conjunction h)]
  | [f], _ =>
    show [selecting (conjunction (f.expanded :: cs))] = _
    rw [selecting_expanded f h]
    rfl

/-- A query without an order and a limit makes one clause of what it supplies. -/
theorem fragments_eq_ok {q : Query} {fs : List Fragment} (h : q.fragments = .ok fs)
    (horder : q.order = none) (hlimit : q.limit = none) :
    ∃ conditions, q.Supplies conditions ∧ fs = clauseOf conditions := by
  obtain ⟨byTemplate, byFilters, byId, order, ht, hf, hi, ho, rfl⟩ := fragments_eq_ok_iff.1 h
  obtain ⟨drafts, hdrafts, rfl, hsupplied⟩ := templateSupplies_of_compiled ht
  obtain ⟨hfilters, hfiltersDotted⟩ := filtersSupply_of_compiled hf
  obtain ⟨hid, hidDotted⟩ := idSupplies_of_compiled hi
  have hnoOrder : order = [] := by
    rw [orderClause, horder] at ho
    exact (Except.ok.inj ho).symm
  have hnoLimit : q.limitClause = [] := by
    rw [limitClause, hlimit]
  refine ⟨_, ⟨_, byFilters, byId, hsupplied, hfilters, hid, rfl⟩, ?_⟩
  rw [hnoOrder, hnoLimit, List.append_nil, List.append_nil, List.append_assoc, List.append_assoc]
  exact whereClause_eq drafts hdrafts (List.forall_mem_append.2 ⟨hfiltersDotted, hidDotted⟩)

/-! ### Selections -/

theorem TemplateSupplies.eq_nil {q : Query} {conditions : List Fragment}
    (h : q.TemplateSupplies conditions) (hq : nonEmpty? q.template = none) : conditions = [] := by
  cases h with
  | absent => rfl
  | given hgiven => cases hq.symm.trans hgiven

theorem FiltersSupply.eq_nil {q : Query} {conditions : List Fragment}
    (h : q.FiltersSupply conditions) (hq : q.filters = []) : conditions = [] := by
  cases h with
  | absent => rfl
  | given hfilters hcs hc =>
    rw [hq] at hfilters
    cases hfilters
    cases hcs
    cases hc

theorem IdSupplies.eq_nil {q : Query} {conditions : List Fragment}
    (h : q.IdSupplies conditions) (hq : q.id = none) : conditions = [] := by
  cases h with
  | absent => rfl
  | given hgiven => cases hq.symm.trans hgiven

theorem supplies_of_bare {q : Query} (hq : q.IsBare) {conditions : List Fragment}
    (h : q.Supplies conditions) : conditions = [] := by
  obtain ⟨byTemplate, byFilters, byId, ht, hf, hi, rfl⟩ := h
  rw [ht.eq_nil hq.template, hf.eq_nil hq.filters, hi.eq_nil hq.id]
  rfl

end Query

/-- A selection that may not be of all documents has a clause with a condition in it. -/
theorem selection_eq_ok {q : Query} {fs : List Fragment} (h : selection q false = .ok fs)
    (horder : q.order = none) (hlimit : q.limit = none) :
    ∃ conditions, q.Supplies conditions ∧ conditions ≠ [] ∧
      fs = [Clause.where (Query.conjunction conditions)] := by
  obtain ⟨gs, hgs, hcheck⟩ := bind_eq_ok_iff.1 h
  obtain ⟨conditions, hsupplies, rfl⟩ := Query.fragments_eq_ok hgs horder hlimit
  cases conditions with
  | nil => cases hcheck
  | cons c cs => exact ⟨_, hsupplies, by simp, (Except.ok.inj hcheck).symm⟩

/-- Where nothing is supplied the selection is refused. -/
theorem selection_bare {q : Query} (hq : q.IsBare) (horder : q.order = none)
    (hlimit : q.limit = none) : ∃ e, selection q false = .error (.input e) := by
  by_cases hargs : q.arguments.isEmpty = true
  · have htemplate : q.templateCondition = .ok [] := by
      rw [Query.templateCondition, hq.template]
      exact if_pos hargs
    have hfilters : q.filterCondition = .ok [] :=
      Query.filterCondition_eq_ok_iff.2 ⟨[], [], by rw [hq.filters]; exact .nil, .nil, .absent⟩
    have hid : q.idCondition = .ok [] := by rw [Query.idCondition, hq.id]
    have hclause : q.orderClause = .ok [] := by rw [Query.orderClause, horder]; rfl
    have hnone : q.fragments = .ok [] := by
      refine Query.fragments_eq_ok_iff.2 ⟨[], [], [], [], htemplate, hfilters, hid, hclause, ?_⟩
      rw [Query.limitClause, hlimit]
      rfl
    rw [selection, hnone]
    exact ⟨_, rfl⟩
  · -- Arguments without a template are complained about first.
    have htemplate : q.templateCondition = .error (.input .argsWithoutTemplate) := by
      rw [Query.templateCondition, hq.template]
      exact if_neg hargs
    rw [selection, Query.fragments, htemplate]
    exact ⟨_, rfl⟩

end DocTable.Console
