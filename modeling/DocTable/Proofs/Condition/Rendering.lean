import DocTable.Proofs.Condition.Dotted
import DocTable.Proofs.Condition.UniqueReading
/-!
# DocTable.Proofs.Condition.Rendering

The SQL of a condition, comparison by comparison.

`rendered` writes a condition in SQL, with the extraction of its path for the column of each
comparison and a mark for each value; `leafValues` has the values, from left to right. No shorthand
comes up in them. Compilation writes the shorthand, joins the texts of neighbours and expands what
has come of that, once for the condition and once more for the clause that selects by it. All this
comes to the same (`compile_eq_rendered`).
-/

namespace DocTable.Sql.Condition

open Fragment (marked marked_append marked_verbatim)

/-! ### Text and values -/

/-- What comes behind the column of a comparison. -/
def renderedTest (bound : Json) : Operator → Text
  | .equal => " = ?".toList
  | .notEqual => " != ?".toList
  | .greater => " > ?".toList
  | .greaterEqual => " >= ?".toList
  | .less => " < ?".toList
  | .lessEqual => " <= ?".toList
  | .like => " LIKE ?".toList
  | .oneOf =>
    " IN (".toList ++ Text.join ", ".toList ((bound.items?.getD []).map fun _ => ['?']) ++ [')']
  | .isNull => " IS NULL".toList
  | .isNotNull => " IS NOT NULL".toList
  | .unknown _ => []

/-- A comparison in SQL. Nothing is in an empty list. -/
def renderedComparison (path : Text) (op : Operator) (bound : Json) : Text :=
  if op = .oneOf ∧ bound = .array [] then ['0'] else extract path ++ renderedTest bound op

mutual

/-- A condition in SQL. -/
def rendered : Condition → Text
  | .comparison path op bound => renderedComparison path op bound
  | .logical .not (c :: _) => "NOT (".toList ++ rendered c ++ [')']
  | .logical .and cs => '(' :: Text.join " AND ".toList (renderedAll cs) ++ [')']
  | .logical .or cs => '(' :: Text.join " OR ".toList (renderedAll cs) ++ [')']
  | .logical _ _ | .value _ => []

/-- Conditions in SQL, from left to right. -/
def renderedAll : List Condition → List Text
  | [] => []
  | c :: cs => rendered c :: renderedAll cs

end

/-- The values of a comparison: none for a test for null, the items of a list, or the one value. -/
def comparedValues : Operator → Json → List Json
  | .isNull, _ | .isNotNull, _ => []
  | .oneOf, bound => bound.items?.getD []
  | _, bound => [bound]

mutual

/-- The values of the comparisons of a condition, from left to right. -/
def leafValues : Condition → List Json
  | .comparison _ op bound => comparedValues op bound
  | .logical _ cs => leafValuesAll cs
  | .value _ => []

/-- `leafValues` for several conditions. -/
def leafValuesAll : List Condition → List Json
  | [] => []
  | c :: cs => leafValues c ++ leafValuesAll cs

end

mutual

/-- All comparisons of a condition are about plain paths. -/
def HasPlainPaths : Condition → Prop
  | .comparison path _ _ => Path.IsPlain path
  | .logical _ cs => AllHavePlainPaths cs
  | .value _ => True

/-- `HasPlainPaths` for each of several conditions. -/
def AllHavePlainPaths : List Condition → Prop
  | [] => True
  | c :: cs => HasPlainPaths c ∧ AllHavePlainPaths cs

end

/-! ### Comparisons -/

/-- A wording comes to a text and values. -/
structure Renders (w : Filled) (t : Text) (vs : List Json) : Prop where
  text : marked w = t
  values : w.filterMap Sum.getRight? = vs

theorem renders_verbatim (t : Text) : Renders (verbatim t) t [] :=
  ⟨marked_verbatim t, Fragment.filterMap_verbatim t⟩

theorem renders_value (v : Json) : Renders [.inr v] ['?'] [v] :=
  ⟨rfl, rfl⟩

theorem Renders.append {w w' : Filled} {t t' : Text} {vs vs' : List Json} (h : Renders w t vs)
    (h' : Renders w' t' vs') : Renders (w ++ w') (t ++ t') (vs ++ vs') where
  text := by rw [marked_append, h.text, h'.text]
  values := by rw [List.filterMap_append, h.values, h'.values]

/-- Wordings that are joined by a mark. -/
theorem renders_intercalate (mark : Text) {α : Type} {w : α → Filled} {t : α → Text}
    {vs : α → List Json} {xs : List α} (h : ∀ x ∈ xs, Renders (w x) (t x) (vs x)) :
    Renders (List.intercalate (verbatim mark) (xs.map w)) (Text.join mark (xs.map t))
      (xs.flatMap vs) := by
  induction xs with
  | nil => exact ⟨rfl, rfl⟩
  | cons x xs ih =>
    rw [List.forall_mem_cons] at h
    cases xs with
    | nil => simpa [List.intercalate] using h.1
    | cons y ys =>
      have hjoined := (h.1.append (renders_verbatim mark)).append (ih h.2)
      rw [List.append_nil] at hjoined
      rw [List.map_cons, List.map_cons, List.map_cons, List.map_cons, Text.join_cons_cons,
        List.flatMap_cons]
      simpa [List.intercalate] using hjoined

theorem renders_holes (values : List Json) :
    Renders (holesWording values) (Text.join ", ".toList (values.map fun _ => ['?'])) values := by
  have hholes := renders_intercalate ", ".toList fun v (_ : v ∈ values) => renders_value v
  rw [List.flatMap_singleton'] at hholes
  exact hholes

theorem renders_bound {op : Operator} {bound : Json} (h : Fits op bound) :
    Renders (verbatim (' ' :: testWord op ++ [' ']) ++ boundWording op bound)
      (renderedTest bound op) (comparedValues op bound) := by
  cases op with
  | unknown name => exact h.elim
  | isNull | isNotNull => exact (renders_verbatim _).append (renders_verbatim _)
  | oneOf =>
    have hlist := (renders_verbatim ['(']).append (renders_holes (bound.items?.getD []))
    have hclosed := (renders_verbatim " IN ".toList).append (hlist.append (renders_verbatim [')']))
    rw [List.append_nil] at hclosed
    exact hclosed
  | _ => exact (renders_verbatim _).append (renders_value bound)

theorem renders_comparison {path : Text} {op : Operator} {bound : Json}
    (hpath : Path.IsPlain path) (hfits : Fits op bound) :
    Renders (comparisonWording path op bound) (renderedComparison path op bound)
      (comparedValues op bound) := by
  rw [comparisonWording, renderedComparison]
  split
  · next hidle =>
    obtain ⟨rfl, rfl⟩ := hidle
    exact renders_verbatim ['0']
  · have hcolumn := renders_verbatim (extract path)
    have hcomparison := hcolumn.append (renders_bound hfits)
    rw [columnText_plain hpath]
    simpa [verbatim_append] using hcomparison

/-! ### Conditions -/

theorem renderedAll_eq_map (cs : List Condition) : renderedAll cs = cs.map rendered := by
  induction cs with
  | nil => rfl
  | cons c cs ih => rw [renderedAll, ih, List.map_cons]

theorem leafValuesAll_eq_flatMap (cs : List Condition) :
    leafValuesAll cs = cs.flatMap leafValues := by
  induction cs with
  | nil => rfl
  | cons c cs ih => rw [leafValuesAll, ih, List.flatMap_cons]

theorem Renders.enclosed {w : Filled} {t : Text} {vs : List Json} (h : Renders w t vs)
    (front : Text) : Renders (verbatim front ++ w ++ verbatim [')']) (front ++ t ++ [')']) vs := by
  have hclosed := ((renders_verbatim front).append h).append (renders_verbatim [')'])
  rw [List.append_nil] at hclosed
  exact hclosed

/-- Operands between brackets, with a mark between neighbours. -/
theorem renders_operands (mark : Text) {c : Condition} {cs : List Condition}
    (h : ∀ d ∈ c :: cs, Renders (wording d) (rendered d) (leafValues d)) :
    Renders (verbatim ['('] ++ wording c ++ restWording (verbatim mark) cs ++ verbatim [')'])
      ('(' :: Text.join mark (renderedAll (c :: cs)) ++ [')']) (leafValuesAll (c :: cs)) := by
  have hoperands := (renders_intercalate mark h).enclosed ['(']
  rw [List.map_cons, intercalate_cons, ← restWording_eq, ← renderedAll_eq_map,
    ← leafValuesAll_eq_flatMap, ← List.append_assoc] at hoperands
  exact hoperands

-- The wording already says what the compiler does, so one recursion over the condition is compared
-- with another.
mutual

/-- The wording of a condition on plain paths is its SQL, with the values in their places. -/
theorem renders_wording {c : Condition} (h : WellFormed c) (hplain : HasPlainPaths c) :
    Renders (wording c) (rendered c) (leafValues c) := by
  match c, h with
  | .comparison path op bound, h => exact renders_comparison hplain h.2
  | .logical .not [c], h =>
    have hc : WellFormed c := h
    have hnot := (renders_wording hc hplain.1).enclosed "NOT (".toList
    rw [leafValues, leafValuesAll, leafValuesAll, List.append_nil]
    exact hnot
  | .logical .and (c :: d :: cs), h =>
    have hall : AllWellFormed (c :: d :: cs) := h
    exact renders_operands " AND ".toList (renders_wordings hall hplain)
  | .logical .or (c :: d :: cs), h =>
    have hall : AllWellFormed (c :: d :: cs) := h
    exact renders_operands " OR ".toList (renders_wordings hall hplain)

theorem renders_wordings {cs : List Condition} (h : AllWellFormed cs)
    (hplain : AllHavePlainPaths cs) :
    ∀ c ∈ cs, Renders (wording c) (rendered c) (leafValues c) := by
  match cs, h with
  | [], _ => exact nofun
  | c :: cs, h =>
    exact List.forall_mem_cons.2 ⟨renders_wording h.1 hplain.1, renders_wordings h.2 hplain.2⟩

end

/-! ### Values on all paths -/

theorem values_comparisonWording (path : Text) {op : Operator} {bound : Json} (h : Fits op bound) :
    (comparisonWording path op bound).filterMap Sum.getRight? = comparedValues op bound := by
  rw [comparisonWording]
  split
  · next hidle =>
    obtain ⟨rfl, rfl⟩ := hidle
    rfl
  · have hbound := ((renders_verbatim (columnText path)).append (renders_bound h)).values
    simpa [verbatim_append] using hbound

mutual

/-- The values of a wording are those of its comparisons, whatever their paths. -/
theorem values_wording {c : Condition} (h : WellFormed c) :
    (wording c).filterMap Sum.getRight? = leafValues c := by
  match c, h with
  | .comparison path op bound, h => exact values_comparisonWording path h.2
  | .logical .not [c], h =>
    have hc : WellFormed c := h
    simp [wording, leafValues, leafValuesAll, List.filterMap_append, values_wording hc]
  | .logical .and (c :: d :: cs), h | .logical .or (c :: d :: cs), h =>
    have hrest : AllWellFormed (d :: cs) := h.2
    rw [wording, leafValues, leafValuesAll]
    simp [List.filterMap_append, values_wording h.1, values_restWording hrest]

theorem values_restWording {mark : Text} {cs : List Condition} (h : AllWellFormed cs) :
    (restWording (verbatim mark) cs).filterMap Sum.getRight? = leafValuesAll cs := by
  match cs, h with
  | [], _ => rfl
  | c :: cs, h =>
    rw [restWording, leafValuesAll]
    simp [List.filterMap_append, values_wording h.1, values_restWording h.2]

end

/-- A compiled condition binds the values of its comparisons. -/
theorem values_compile {c : Condition} (h : WellFormed c) {f : Fragment} (hf : c.compile = .ok f) :
    f.values = leafValues c := by
  obtain ⟨g, hg, hfilled⟩ := compile_wellFormed h
  obtain rfl : g = f := Except.ok.inj (hg.symm.trans hf)
  rw [Fragment.values_eq_filterMap, hfilled, values_wording h]

/-! ### Compiled conditions -/

/-- A condition that callers can write on plain paths compiles, and to its SQL with the values of
its comparisons from left to right; the clause that selects by it, or by what it compiles to, is
that behind a keyword. -/
theorem compile_eq_rendered {c : Condition} (h : c.Expressible) (hplain : c.HasPlainPaths) :
    ∃ f, c.compile = .ok f ∧ f.text = rendered c ∧ f.values = leafValues c ∧
      selectingBy c = .ok (selecting f) ∧
      (selecting f).text = "where ".toList ++ rendered c ∧
      (selecting f).values = leafValues c := by
  obtain ⟨f, hf, hfilled⟩ := compile_wellFormed h.wellFormed
  have hrenders := renders_wording h.wellFormed hplain
  have htext : f.text = rendered c := by
    rw [Fragment.text_eq_marked, hfilled, hrenders.text]
  have hvalues : f.values = leafValues c := by
    rw [Fragment.values_eq_filterMap, hfilled, hrenders.values]
  have hclause : selecting f = Clause.where f :=
    selecting_eq_where (dotted_compile h.wellFormed hf)
  refine ⟨f, hf, htext, hvalues, ?_, ?_, ?_⟩
  · rw [selectingBy, hf]
    rfl
  · rw [hclause, Clause.where, Fragment.text_append, htext]
    rfl
  · rw [hclause, Clause.where, Fragment.values_append, hvalues]
    rfl

/-- A conjunction with a negated membership. -/
theorem compile_eq_rendered_nested :
    let planet : Condition := .comparison "home.planet".toList .equal (.text "Tatooine".toList)
    let ids : Condition := .comparison "id".toList .oneOf (.array [.int 1, .int 2])
    ∃ f, (Condition.logical .and [planet, .logical .not [ids]]).compile = .ok f ∧
      f.text = "(data->>'$.home.planet' = ? AND NOT (data->>'$.id' IN (?, ?)))".toList ∧
      f.values = [.text "Tatooine".toList, .int 1, .int 2] := by
  intro planet ids
  have hreached (path : Text) (h : Field.ofPath path = .ok ⟨path⟩) : (Field.mk path).Reached :=
    .ofPath h
  have hplanet : planet.Expressible :=
    .equal (v := .text "Tatooine".toList) (hreached "home.planet".toList rfl) rfl
  have hids : ids.Expressible :=
    .oneOf (v := .array [.int 1, .int 2]) (hreached "id".toList rfl) rfl
  have hnot : (Condition.logical .not [ids]).Expressible := .not hids rfl
  have hpaths : Path.IsPlain "home.planet".toList ∧ Path.IsPlain "id".toList := by decide
  have hplain : (Condition.logical .and [planet, .logical .not [ids]]).HasPlainPaths :=
    ⟨hpaths.1, ⟨hpaths.2, trivial⟩, trivial⟩
  obtain ⟨f, hf, htext, hvalues, -⟩ := compile_eq_rendered (.and hplanet hnot rfl) hplain
  exact ⟨f, hf, htext, hvalues⟩

end DocTable.Sql.Condition
