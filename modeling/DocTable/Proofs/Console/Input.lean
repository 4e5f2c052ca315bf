import DocTable.Proofs.Console.Commands
import DocTable.Proofs.Console.Options
import DocTable.Proofs.Console.Selection
import DocTable.Proofs.Table.AllOrNothing
/-!
# DocTable.Proofs.Console.Input

Input that has no meaning.

What can be wrong with the texts that a command is given is said here without the functions that
read them: `Query.Valid` for the options that select documents, `Command.BadInput` for all of it.
The checks of the console refuse exactly such input, and always as bad input (`Judges`).
-/

namespace DocTable

/-- Whether an error says that an input has no meaning. -/
def Error.IsBadInput (e : Error) : Prop :=
  e.isBadInput = true

theorem Error.IsOwn.isBadInput {e : Error} (h : e.IsOwn) : e.IsBadInput := by
  rcases h with h | rfl | rfl
  · unfold Error.IsComposition at h
    split at h
    · rfl
    · exact h.elim
  · rfl
  · rfl

/-- A text is JSON. -/
def Json.IsText (t : Text) : Prop :=
  ∃ v, Json.read t = .ok v

namespace Console

open Sql

theorem judges_readJson (t : Text) :
    Judges Error.IsBadInput (¬ Json.IsText t) (readJson t) := by
  have hread := Judges.of_forall (P := fun _ => True) (Json.read t) fun _ _ => trivial
  exact hread.mapError fun _ _ => rfl

/-- The path of a field: segments with dots between them. -/
def IsFieldPath (path : Text) : Prop :=
  ∀ segment ∈ Text.pieces '.' path, Path.isSegment segment = true

theorem check_eq_ok_iff_isFieldPath {path : Text} :
    Path.check path = .ok () ↔ IsFieldPath path := by
  rw [Path.check_eq_ok_iff]
  refine ⟨fun h => h.2, fun h => ⟨?_, h⟩⟩
  rintro rfl
  have hempty := h [] List.mem_cons_self
  cases hempty

theorem judges_check (path : Text) :
    Judges (fun _ => True) (¬ IsFieldPath path) (Path.check path) := by
  refine (Judges.of_forall (Path.check path) fun _ _ => trivial).congr (not_congr ?_)
  rw [← check_eq_ok_iff_isFieldPath]
  exact ⟨fun ⟨_, h⟩ => h, fun h => ⟨(), h⟩⟩

/-! ### Filters -/

namespace Filter

/-- The words that a filter is written with. A test for null may be without a value. -/
inductive Words : List Text → Filter → Prop
  | whole (path operator value : Text) : Words [path, operator, value] ⟨path, operator, value⟩
  | nullTest {path operator : Text} {op : Operator} : operator? operator = some op →
      op.isNullTest = true → Words [path, operator] ⟨path, operator, "null".toList⟩

/-- A value that an operator can be used with: JSON, and an array for a membership. A test for null
does not look at it. -/
def Takes (op : Operator) (value : Text) : Prop :=
  op.isNullTest = true ∨
    ∃ v, Json.read value = .ok v ∧ (op = .oneOf → ∃ items, v = .array items)

/-- A filter has an operator, the path of a field, and a value for them. -/
def Meaningful (f : Filter) : Prop :=
  ∃ op, operator? f.operator = some op ∧ IsFieldPath (Text.dropStart ['$'] f.path) ∧
    Takes op f.value

/-- A text is a filter. -/
def Valid (raw : Text) : Prop :=
  ∃ words f, Text.words raw = .ok words ∧ Words words f ∧ f.Meaningful

theorem judges_bound (f : Filter) (op : Operator) :
    Judges Error.IsBadInput (¬ Takes op f.value) (f.bound op) := by
  unfold bound
  split
  · next hop => exact .passes (not_not.2 (.inl hop))
  · next hop =>
    cases hread : Json.read f.value with
    | error e =>
      refine .fails ?_ rfl
      rintro (hnull | ⟨v, hv, -⟩)
      · exact hop hnull
      · cases hread.symm.trans hv
    | ok v =>
      by_cases hone : op = .oneOf
      · subst hone
        cases v with
        | array items => exact .passes (not_not.2 (.inr ⟨_, hread, fun _ => ⟨items, rfl⟩⟩))
        | null | bool | int | float | text | object =>
          refine .fails ?_ rfl
          rintro (hnull | ⟨v, hv, harray⟩)
          · exact hop hnull
          · obtain ⟨items, rfl⟩ := harray rfl
            cases hread.symm.trans hv
      · have htakes : Takes op f.value := .inr ⟨v, hread, fun h => absurd h hone⟩
        cases op with
        | oneOf => exact absurd rfl hone
        | _ => exact .passes (not_not.2 htakes)

theorem judges_field (path : Text) :
    Judges (fun _ => True) (¬ IsFieldPath path) (Field.ofPath path) :=
  (judges_check path).thenPasses fun _ _ => ⟨_, rfl⟩

theorem judges_condition (f : Filter) :
    Judges Error.IsBadInput (¬ f.Meaningful) f.condition := by
  unfold condition
  split
  · next hop =>
    refine .fails ?_ rfl
    rintro ⟨op, hop', -⟩
    cases hop.symm.trans hop'
  · next op hop =>
    have hfield := (judges_field (Text.dropStart ['$'] f.path)).mapError
      (Q := Error.IsBadInput) (g := fun e => .query (.path e)) fun _ _ => rfl
    refine (hfield.andThen fun _ _ => (judges_bound f op).thenPasses fun _ _ => ⟨_, rfl⟩).congr ?_
    simp only [Meaningful, hop, Option.some.injEq, exists_eq_left', not_and_or]

theorem not_valid_of_words {raw : Text} {words : List Text} (hwords : Text.words raw = .ok words)
    (h : ∀ f, ¬ Words words f) : ¬ Valid raw := by
  rintro ⟨words', f, hwords', hf, -⟩
  cases hwords.symm.trans hwords'
  exact h f hf

theorem valid_iff_of_words {raw : Text} {words : List Text} {f : Filter}
    (hwords : Text.words raw = .ok words) (hf : Words words f)
    (hunique : ∀ g, Words words g → g = f) : Valid raw ↔ f.Meaningful := by
  constructor
  · rintro ⟨words', g, hwords', hg, hmeaningful⟩
    cases hwords.symm.trans hwords'
    exact hunique g hg ▸ hmeaningful
  · exact fun hmeaningful => ⟨words, f, hwords, hf, hmeaningful⟩

theorem judges_valid (raw : Text) :
    Judges Error.IsBadInput (¬ Valid raw) (Filter.ofText raw >>= condition) := by
  cases hwords : Text.words raw with
  | error e =>
    rw [Filter.ofText, hwords]
    refine .fails ?_ rfl
    rintro ⟨words, f, hok, -⟩
    cases hwords.symm.trans hok
  | ok words =>
    match words with
    | [path, name, value] =>
      rw [Filter.ofText, hwords]
      refine (judges_condition ⟨path, name, value⟩).congr (not_congr ?_)
      exact (valid_iff_of_words hwords (.whole ..) fun g hg => by cases hg; rfl).symm
    | [path, name] =>
      have hform : Filter.ofText raw >>= condition =
          if (operator? name).any Operator.isNullTest then
            condition ⟨path, name, "null".toList⟩
          else .error (.input (.filterNeedsValue raw name)) := by
        rw [Filter.ofText, hwords]
        dsimp only [Except.mapError, bind, Except.bind]
        cases (operator? name).any Operator.isNullTest <;> rfl
      rw [hform]
      split
      · next hnull =>
        obtain ⟨op, hop, hnull⟩ : ∃ op, operator? name = some op ∧ op.isNullTest = true := by
          cases hop : operator? name with
          | none => rw [hop] at hnull; cases hnull
          | some op => rw [hop] at hnull; exact ⟨op, rfl, hnull⟩
        refine (judges_condition ⟨path, name, "null".toList⟩).congr (not_congr ?_)
        exact (valid_iff_of_words hwords (.nullTest hop hnull) fun g hg => by cases hg; rfl).symm
      · next hnull =>
        refine .fails (not_valid_of_words hwords fun f hf => hnull ?_) rfl
        cases hf with
        | nullTest hop hnull => rw [hop, Option.any_some, hnull]
    | [] | [_] | _ :: _ :: _ :: _ :: _ =>
      rw [Filter.ofText, hwords]
      exact .fails (not_valid_of_words hwords nofun) rfl

end Filter

/-! ### Queries -/

namespace Query

/-- A template has a value for each of its holes; without one there are no values. -/
def TemplateValid (q : Query) : Prop :=
  match nonEmpty? q.template with
  | none => q.arguments = []
  | some template => (∀ a ∈ q.arguments, Json.IsText a) ∧ template.count '?' = q.arguments.length

/-- The options that select documents have a meaning. -/
structure Valid (q : Query) : Prop where
  template : q.TemplateValid
  filters : ∀ raw ∈ q.filters, Filter.Valid raw
  order : ∀ path, nonEmpty? q.order = some path → IsFieldPath (Text.dropStart ['$'] path)

/-- The options select nothing, neither by a condition nor by their place. -/
structure IsVoid (q : Query) : Prop extends IsBare q where
  order : nonEmpty? q.order = none
  limit : q.limit = none

theorem judges_sql (template : Text) (values : List Json) :
    Judges (fun _ => True) (¬ template.count '?' = values.length)
      (Fragment.sql template values) := by
  refine (Judges.of_forall (Fragment.sql template values) fun _ _ => trivial).congr (not_congr ?_)
  rw [← Text.length_cut]
  exact ⟨fun ⟨_, hf⟩ => (Fragment.sql_eq_ok_iff.1 hf).1, Fragment.exists_sql⟩

theorem judges_templateCondition (q : Query) :
    Judges Error.IsBadInput (¬ q.TemplateValid) q.templateCondition := by
  unfold templateCondition TemplateValid
  cases nonEmpty? q.template with
  | none =>
    dsimp only
    split
    · next hnone => exact .passes (not_not.2 (List.isEmpty_iff.1 hnone))
    · next hsome => exact .fails (fun h => hsome (List.isEmpty_iff.2 h)) rfl
  | some template =>
    dsimp only
    have hvalues : Judges Error.IsBadInput (∃ a ∈ q.arguments, ¬ Json.IsText a)
        (q.arguments.mapM fun a => (Json.read a).mapError .reading) :=
      Judges.mapM fun a _ => judges_readJson a
    have hsql : ∀ values, (q.arguments.mapM fun a => (Json.read a).mapError Error.reading) =
        .ok values → Judges Error.IsBadInput (¬ template.count '?' = q.arguments.length)
          ((Fragment.sql template values).mapError fun e => Error.query (.composition e)) := by
      intro values hread
      rw [(mapM_eq_ok_iff.1 hread).length_eq]
      exact (judges_sql template values).mapError fun _ _ => rfl
    -- All values are read before holes are counted; that there are as many as texts is known then.
    refine (hvalues.andThen fun values hread => (hsql values hread).thenPasses fun _ _ =>
      ⟨_, rfl⟩).congr ?_
    simp only [not_and_or, not_forall, exists_prop]

theorem filterCondition_eq (q : Query) :
    q.filterCondition =
      (q.filters.mapM Filter.ofText >>= fun fs => fs.mapM Filter.condition) >>= fun cs =>
        match Filter.together cs with
        | none => .ok []
        | some c => do return [← c.compile.mapError .query] := by
  unfold filterCondition Filter.conditionOfAll
  cases q.filters.mapM Filter.ofText with
  | error e => rfl
  | ok fs =>
    show _ = fs.mapM Filter.condition >>= _
    simp only [bind, Except.bind]
    cases fs.mapM Filter.condition with
    | error e => rfl
    | ok cs =>
      rcases cs with _ | ⟨c, _ | ⟨c', cs⟩⟩
      · rfl
      · rfl
      · rfl

theorem judges_filterCondition (q : Query) :
    Judges Error.IsBadInput (∃ raw ∈ q.filters, ¬ Filter.Valid raw) q.filterCondition := by
  rw [filterCondition_eq]
  refine (Judges.mapM_mapM fun raw _ => Filter.judges_valid raw).thenPasses fun cs hcs => ?_
  obtain ⟨fs, -, hconditions⟩ := bind_eq_ok_iff.1 hcs
  have hwell := Filter.allWellFormed_of_forall₂ (mapM_eq_ok_iff.1 hconditions)
  cases htogether : Filter.together cs with
  | none => exact ⟨[], rfl⟩
  | some c =>
    obtain ⟨f, hf, -⟩ := Condition.compile_wellFormed (Filter.wellFormed_together hwell htogether)
    exact ⟨[f], by simp only [hf]; rfl⟩

theorem exists_idCondition (q : Query) : ∃ fs, q.idCondition = .ok fs := by
  unfold idCondition
  cases q.id with
  | none => exact ⟨[], rfl⟩
  | some id =>
    have hholes : (Text.cut '?' "$id = ?".toList).2.length = [Json.text id].length := rfl
    obtain ⟨f, hf⟩ := Fragment.exists_sql hholes
    exact ⟨[f], by simp only [hf]; rfl⟩

theorem judges_orderClause (q : Query) :
    Judges Error.IsBadInput
      (∃ path, nonEmpty? q.order = some path ∧ ¬ IsFieldPath (Text.dropStart ['$'] path))
      q.orderClause := by
  unfold orderClause
  cases nonEmpty? q.order with
  | none => exact .passes nofun
  | some path =>
    dsimp only
    rw [direction_eq]
    have hkey : Judges (fun _ => True) (¬ IsFieldPath (Text.dropStart ['$'] path))
        (Path.check (Text.dropStart ['$'] path) >>= fun _ =>
          .ok (⟨Text.dropStart ['$'] path, q.descending⟩ : OrderKey)) :=
      (judges_check _).thenPasses fun _ _ => ⟨_, rfl⟩
    have hinput := hkey.mapError (Q := Error.IsBadInput) (g := fun e => Error.query (.path e))
      fun _ _ => rfl
    refine (hinput.thenPasses fun key hok => ?_).congr (by simp)
    obtain ⟨_, hcheck, hok⟩ := bind_eq_ok_iff.1 (mapError_eq_ok_iff.1 hok)
    cases hok
    obtain ⟨f, hf, -⟩ := ordering_eq_ok hcheck q.descending
    exact ⟨[f], by simp only [hf]; rfl⟩

/-- The options that select documents are refused if they have no meaning. -/
theorem judges_fragments (q : Query) : Judges Error.IsBadInput (¬ q.Valid) q.fragments := by
  have hclauses : ∀ byTemplate byFilters, Judges Error.IsBadInput
      (∃ path, nonEmpty? q.order = some path ∧ ¬ IsFieldPath (Text.dropStart ['$'] path))
      (do
        let byId ← q.idCondition
        let order ← q.orderClause
        return whereClause (byTemplate ++ byFilters ++ byId) ++ order ++ q.limitClause) := by
    intro byTemplate byFilters
    -- An id is bound and never read, so there is nothing wrong with it.
    obtain ⟨byId, hid⟩ := exists_idCondition q
    rw [hid]
    exact q.judges_orderClause.thenPasses fun _ _ => ⟨_, rfl⟩
  refine (q.judges_templateCondition.andThen fun byTemplate _ =>
    q.judges_filterCondition.andThen fun byFilters _ => hclauses byTemplate byFilters).congr ?_
  constructor
  · rintro (h | ⟨raw, hraw, h⟩ | ⟨path, hpath, h⟩) hvalid
    · exact h hvalid.template
    · exact h (hvalid.filters raw hraw)
    · exact h (hvalid.order path hpath)
  · intro h
    by_contra hnone
    push Not at hnone
    exact h ⟨hnone.1, hnone.2.1, hnone.2.2⟩

/-! ### Void selections -/

theorem templateCondition_eq_nil_iff {q : Query} {fs : List Fragment}
    (h : q.templateCondition = .ok fs) : fs = [] ↔ nonEmpty? q.template = none := by
  rcases templateCondition_eq_ok_iff.1 h with ⟨hnone, -, rfl⟩ | ⟨_, _, f, hsome, -, -, rfl⟩
  · exact iff_of_true rfl hnone
  · rw [hsome]
    exact iff_of_false nofun nofun

theorem filterCondition_eq_nil_iff {q : Query} {fs : List Fragment}
    (h : q.filterCondition = .ok fs) : fs = [] ↔ q.filters = [] := by
  cases (filtersSupply_of_compiled h).1 with
  | absent hnone => exact iff_of_true rfl hnone
  | given hfilters hcs htogether =>
    refine iff_of_false nofun fun hnone => ?_
    rw [hnone] at hfilters
    cases hfilters
    cases hcs
    cases htogether

theorem idCondition_eq_nil_iff {q : Query} {fs : List Fragment} (h : q.idCondition = .ok fs) :
    fs = [] ↔ q.id = none := by
  cases (idSupplies_of_compiled h).1 with
  | absent hnone => exact iff_of_true rfl hnone
  | given hsome =>
    rw [hsome]
    exact iff_of_false nofun nofun

theorem orderClause_eq_nil_iff {q : Query} {fs : List Fragment} (h : q.orderClause = .ok fs) :
    fs = [] ↔ nonEmpty? q.order = none := by
  unfold orderClause at h
  split at h
  · next hnone =>
    cases h
    exact iff_of_true rfl hnone
  · next hsome =>
    rw [hsome]
    obtain ⟨key, -, h⟩ := bind_eq_ok_iff.1 h
    obtain ⟨f, -, h⟩ := bind_eq_ok_iff.1 h
    cases h
    exact iff_of_false nofun nofun

theorem fragments_eq_nil_iff {q : Query} {fs : List Fragment} (h : q.fragments = .ok fs) :
    fs = [] ↔ q.IsVoid := by
  obtain ⟨byTemplate, byFilters, byId, order, ht, hf, hi, ho, rfl⟩ := fragments_eq_ok_iff.1 h
  have hwhere : ∀ cs, whereClause cs = [] ↔ cs = [] := by
    intro cs
    cases cs with
    | nil => exact iff_of_true rfl rfl
    | cons c cs => exact iff_of_false nofun nofun
  have hlimit : q.limitClause = [] ↔ q.limit = none := by
    unfold limitClause
    cases q.limit with
    | none => exact iff_of_true rfl rfl
    | some n => exact iff_of_false nofun nofun
  rw [List.append_eq_nil_iff, List.append_eq_nil_iff, hwhere, List.append_eq_nil_iff,
    List.append_eq_nil_iff, templateCondition_eq_nil_iff ht, filterCondition_eq_nil_iff hf,
    idCondition_eq_nil_iff hi, orderClause_eq_nil_iff ho, hlimit]
  constructor
  · rintro ⟨⟨⟨⟨htemplate, hfilters⟩, hid⟩, horder⟩, hlimit⟩
    exact ⟨⟨htemplate, hfilters, hid⟩, horder, hlimit⟩
  · intro hvoid
    exact ⟨⟨⟨⟨hvoid.template, hvoid.filters⟩, hvoid.id⟩, hvoid.order⟩, hvoid.limit⟩

end Query

/-- A selection is refused if it has no meaning, and if it would be of all documents without having
been asked for that. -/
theorem judges_selection (q : Query) (all : Bool) :
    Judges Error.IsBadInput (¬ q.Valid ∨ (all = false ∧ q.IsVoid)) (selection q all) := by
  have hguard : ∀ fs, q.fragments = .ok fs → Judges Error.IsBadInput (all = false ∧ q.IsVoid)
      (if fs.isEmpty && !all then .error (.input .noSelection) else .ok fs) := by
    intro fs hfs
    rw [← Query.fragments_eq_nil_iff hfs]
    split
    · next hvoid =>
      rw [Bool.and_eq_true, Bool.not_eq_true', List.isEmpty_iff] at hvoid
      exact .fails ⟨hvoid.2, hvoid.1⟩ rfl
    · next hsome =>
      rw [Bool.and_eq_true, Bool.not_eq_true', List.isEmpty_iff] at hsome
      exact .passes fun h => hsome ⟨h.2, h.1⟩
  exact q.judges_fragments.andThen hguard

/-! ### Documents -/

/-- A value is an object. -/
def IsObject (v : Json) : Prop :=
  ∃ members, v = .object members

theorem judges_requireObject (what : String) (v : Json) :
    Judges Error.IsBadInput (¬ IsObject v) (requireObject what v) := by
  cases v with
  | object members => exact .passes (not_not.2 ⟨members, rfl⟩)
  | null | bool | int | float | text | array =>
    refine .fails ?_ rfl
    rintro ⟨members, h⟩
    cases h

theorem judges_document (what : String) (t : Text) :
    Judges Error.IsBadInput (¬ Json.IsText t ∨ ∃ v, Json.read t = .ok v ∧ ¬ IsObject v)
      (do requireObject what (← readJson t)) := by
  refine ((judges_readJson t).bind fun v _ => judges_requireObject what v).congr ?_
  simp only [readJson, mapError_eq_ok_iff]

/-! ### Commands -/

namespace Command

/-- The options by which a command selects documents. -/
def query? : Command → Option Query
  | .find _ q | .count _ q | .explain _ q | .delete _ q _ | .patch _ _ q _ _ | .replace _ _ q _ =>
    some q
  | .init .. | .info _ | .insert .. | .get .. | .createIndex .. | .listIndexes _ => none

/-- Whether a command is given documents. -/
def takesDocuments : Command → Bool
  | .insert .. | .patch .. | .replace .. => true
  | .init .. | .info _ | .get .. | .find .. | .count .. | .delete .. | .explain ..
  | .createIndex .. | .listIndexes _ => false

/-- The text of the document or documents that a command is given. A file that is named comes before
an operand. -/
inductive Given (files : Files) : Command → Text → Prop
  | patch {table document : Text} {q : Query} {all dryRun : Bool} :
    Given files (.patch table document q all dryRun) document
  | replace {table document : Text} {q : Query} {all : Bool} :
    Given files (.replace table document q all) document
  | operand {table document : Text} {file : Option Text} : Query.nonEmpty? file = none →
    Given files (.insert table (some document) file) document
  | file {table path t : Text} {document file : Option Text} {content : Content} :
    Query.nonEmpty? file = some path → files.read path = .ok content → content.text = .ok t →
    Given files (.insert table document file) t

/-- The documents in what a command is given. Only those to insert may be several. -/
def documents : Command → Json → List Json
  | .insert .., .array items => items
  | _, v => [v]

/-- Whether a command stores the documents that it is given. -/
def Stores : Command → Prop
  | .insert .. | .replace .. => True
  | .patch _ _ _ _ dryRun => dryRun = false
  | .init .. | .info _ | .get .. | .find .. | .count .. | .delete .. | .explain ..
  | .createIndex .. | .listIndexes _ => False

/-- What can be wrong with the input of a command. -/
inductive BadInput (files : Files) (c : Command) : Prop
  /-- There is no document to insert. -/
  | nothing {table : Text} {file : Option Text} : c = .insert table none file →
    Query.nonEmpty? file = none → BadInput files c
  /-- A file is no text. -/
  | undecodable {table path : Text} {document file : Option Text} {content : Content}
    {e : Bytes.DecodingError} : c = .insert table document file →
    Query.nonEmpty? file = some path → files.read path = .ok content → content.text = .error e →
    BadInput files c
  | notJson {t : Text} : c.Given files t → ¬ Json.IsText t → BadInput files c
  | notObject {t : Text} {v doc : Json} : c.Given files t → Json.read t = .ok v →
    doc ∈ c.documents v → ¬ IsObject doc → BadInput files c
  | notFinite {t : Text} {v doc : Json} : c.Stores → c.Given files t → Json.read t = .ok v →
    doc ∈ c.documents v → doc.HasNonFinite → BadInput files c
  | meaningless {q : Query} : c.query? = some q → ¬ q.Valid → BadInput files c
  /-- All documents would be changed without `--all`. -/
  | unselective {table : Text} {q : Query} : c.selective? = some (table, q) → q.IsVoid →
    BadInput files c

/-- The file with the documents to insert cannot be read. -/
def Unreadable (files : Files) (c : Command) : Prop :=
  ∃ table document file path e, c = .insert table document file ∧
    Query.nonEmpty? file = some path ∧ files.read path = .error e

theorem query?_of_selective? {c : Command} {table : Text} {q : Query}
    (h : c.selective? = some (table, q)) : c.query? = some q := by
  unfold selective? at h
  split at h
  all_goals cases h
  all_goals rfl

/-! #### By command -/

variable {files : Files} {c : Command}

/-- Without documents only the selection can be wrong. -/
theorem badInput_iff (hc : c.takesDocuments = false) :
    c.BadInput files ↔ (∃ q, c.query? = some q ∧ ¬ q.Valid) ∨
      ∃ table q, c.selective? = some (table, q) ∧ q.IsVoid := by
  have hgiven : ∀ t, ¬ c.Given files t := by
    intro t ht
    cases ht <;> cases hc
  constructor
  · intro h
    cases h with
    | nothing hinsert | undecodable hinsert =>
      subst hinsert
      cases hc
    | notJson ht | notObject ht | notFinite _ ht => exact absurd ht (hgiven _)
    | meaningless hq hvalid => exact .inl ⟨_, hq, hvalid⟩
    | unselective hq hvoid => exact .inr ⟨_, _, hq, hvoid⟩
  · rintro (⟨q, hq, hvalid⟩ | ⟨table, q, hq, hvoid⟩)
    · exact .meaningless hq hvalid
    · exact .unselective hq hvoid

theorem not_badInput (hc : c.takesDocuments = false) (hq : c.query? = none) :
    ¬ c.BadInput files := by
  rw [badInput_iff hc, hq]
  rintro (⟨q, hnone, -⟩ | ⟨table, q, hselective, -⟩)
  · cases hnone
  · rw [query?_of_selective? hselective] at hq
    cases hq

/-- Looking for documents is wrong only if the selection has no meaning. -/
theorem badInput_of_query {q : Query} (hc : c.takesDocuments = false) (hq : c.query? = some q)
    (hs : c.selective? = none) : c.BadInput files ↔ ¬ q.Valid := by
  rw [badInput_iff hc, hq, hs]
  simp

/-- Where there is a text, the documents in it can be wrong, too. -/
theorem badInput_given_iff {text : Text} (hgiven : ∀ t, c.Given files t ↔ t = text) :
    c.BadInput files ↔
      (¬ Json.IsText text ∨ ∃ v, Json.read text = .ok v ∧
        ((∃ doc ∈ c.documents v, ¬ IsObject doc) ∨
          (c.Stores ∧ ∃ doc ∈ c.documents v, doc.HasNonFinite))) ∨
      (∃ q, c.query? = some q ∧ ¬ q.Valid) ∨
      ∃ table q, c.selective? = some (table, q) ∧ q.IsVoid := by
  have htext : c.Given files text := (hgiven text).2 rfl
  constructor
  · intro h
    cases h with
    | nothing hc hfile =>
      subst hc
      cases htext with
      | file hfile' => cases hfile.symm.trans hfile'
    | undecodable hc hfile hread hdecode =>
      subst hc
      cases htext with
      | operand hfile' => cases hfile.symm.trans hfile'
      | file hfile' hread' hdecode' =>
        cases hfile.symm.trans hfile'
        cases hread.symm.trans hread'
        cases hdecode.symm.trans hdecode'
    | notJson ht hjson =>
      obtain rfl := (hgiven _).1 ht
      exact .inl (.inl hjson)
    | notObject ht hread hdoc hobject =>
      obtain rfl := (hgiven _).1 ht
      exact .inl (.inr ⟨_, hread, .inl ⟨_, hdoc, hobject⟩⟩)
    | notFinite hstores ht hread hdoc hbad =>
      obtain rfl := (hgiven _).1 ht
      exact .inl (.inr ⟨_, hread, .inr ⟨hstores, _, hdoc, hbad⟩⟩)
    | meaningless hq hvalid => exact .inr (.inl ⟨_, hq, hvalid⟩)
    | unselective hq hvoid => exact .inr (.inr ⟨_, _, hq, hvoid⟩)
  · rintro ((hjson | ⟨v, hread, ⟨doc, hdoc, hobject⟩ | ⟨hstores, doc, hdoc, hbad⟩⟩) |
      ⟨q, hq, hvalid⟩ | ⟨table, q, hq, hvoid⟩)
    · exact .notJson htext hjson
    · exact .notObject htext hread hdoc hobject
    · exact .notFinite hstores htext hread hdoc hbad
    · exact .meaningless hq hvalid
    · exact .unselective hq hvoid

/-- What can be wrong where one document goes with a selection. -/
theorem badInput_document_iff {table document : Text} {q : Query} {all : Bool}
    (hgiven : ∀ t, c.Given files t ↔ t = document) (hone : ∀ v, c.documents v = [v])
    (hq : c.query? = some q) (hs : c.selective? = if all then none else some (table, q)) :
    c.BadInput files ↔
      (¬ Json.IsText document ∨ ∃ v, Json.read document = .ok v ∧
        (¬ IsObject v ∨ (c.Stores ∧ v.HasNonFinite))) ∨
      ¬ q.Valid ∨ (all = false ∧ q.IsVoid) := by
  rw [badInput_given_iff hgiven, hq, hs]
  simp only [hone, List.mem_singleton, exists_eq_left]
  cases all <;> simp

/-- There is a text to insert, unless the file cannot be read or there is nothing or no text. -/
theorem payload_cases (files : Files) (table : Text) (document file : Option Text) :
    (Unreadable files (.insert table document file) ∧
      ∃ e, payload files document file = .error (.file e)) ∨
    (¬ Unreadable files (.insert table document file) ∧
      BadInput files (.insert table document file) ∧
      ∃ e, payload files document file = .error e ∧ e.IsBadInput) ∨
    (¬ Unreadable files (.insert table document file) ∧
      ∃ text, (∀ t, Given files (.insert table document file) t ↔ t = text) ∧
        payload files document file = readJson text) := by
  unfold payload
  cases hfile : Query.nonEmpty? file with
  | none =>
    have hreadable : ¬ Unreadable files (.insert table document file) := by
      rintro ⟨_, _, _, path, e, hc, hpath, -⟩
      cases hc
      cases hfile.symm.trans hpath
    cases document with
    | none => exact .inr (.inl ⟨hreadable, .nothing rfl hfile, _, rfl, rfl⟩)
    | some document =>
      refine .inr (.inr ⟨hreadable, document, fun t => ⟨fun h => ?_, ?_⟩, rfl⟩)
      · cases h with
        | operand => rfl
        | file hpath => cases hfile.symm.trans hpath
      · rintro rfl
        exact .operand hfile
  | some path =>
    dsimp only
    cases hread : files.read path with
    | error e => exact .inl ⟨⟨_, _, _, path, e, rfl, hfile, hread⟩, e, rfl⟩
    | ok content =>
      have hreadable : ¬ Unreadable files (.insert table document file) := by
        rintro ⟨_, _, _, path', e, hc, hpath, hfails⟩
        cases hc
        cases hfile.symm.trans hpath
        cases hread.symm.trans hfails
      cases hdecode : content.text with
      | error e =>
        refine .inr (.inl ⟨hreadable, .undecodable rfl hfile hread hdecode, .decoding e, ?_, rfl⟩)
        simp only [Except.mapError, bind, Except.bind, hdecode]
      | ok text =>
        refine .inr (.inr ⟨hreadable, text, fun t => ⟨fun h => ?_, ?_⟩, ?_⟩)
        · cases h with
          | operand hnone => cases hfile.symm.trans hnone
          | file hpath hread' hdecode' =>
            cases hfile.symm.trans hpath
            cases hread.symm.trans hread'
            exact Except.ok.inj (hdecode'.symm.trans hdecode)
        · rintro rfl
          exact .file hfile hread hdecode
        · simp only [Except.mapError, bind, Except.bind, hdecode]

end Command

end Console

end DocTable
