import DocTable.Console.Run
import DocTable.Proofs.Console.Lines
import DocTable.Proofs.Document.Shown
import DocTable.Proofs.Table.Exchanges
/-!
# DocTable.Proofs.Console.Commands

What the commands on a table and the engine say to each other.

`Invocation.Performs` says all that a command can do with its table: it checks its input, makes its
calls, and makes its lines from the rows (`Attempts`, `Asks`, `Dialogue`). The first word of a
statement tells what it does (`Call.verb`), so that which commands write can be read off.
-/

namespace DocTable

/-! ### Reading and writing -/

/-- The first word of a text, in small letters. -/
def Text.verb (t : Text) : Text :=
  Text.lower ((t.dropWhile Text.isBlank).takeWhile Text.isLetter)

/-- The first words of statements that write documents. -/
def writingVerbs : List Text :=
  ["insert".toList, "update".toList, "delete".toList]

/-- Whether a call runs a statement that writes documents. -/
def Call.Writes : Call → Prop
  | .run text _ | .runMany text _ => text.verb ∈ writingVerbs
  | .connect _ | .close => False

/-- Whether a call leaves the documents as they are. -/
def Call.Reads (c : Call) : Prop :=
  ¬ c.Writes

/-- Whether a call only asks about the database. -/
def Call.Queries (c : Call) : Prop :=
  c.IsStatement ∧ c.Reads

/-- A beginning with a whole word and more decides what the word is. -/
theorem Text.verb_append {head : Text}
    (h : (head.dropWhile Text.isBlank).dropWhile Text.isLetter ≠ []) (rest : Text) :
    Text.verb (head ++ rest) = Text.verb head := by
  have hword : head.dropWhile Text.isBlank ≠ [] := by
    intro hnil
    rw [hnil] at h
    exact h rfl
  have hshort : ((head.dropWhile Text.isBlank).takeWhile Text.isLetter).length ≠
      (head.dropWhile Text.isBlank).length := by
    intro hlength
    have hsplit := congrArg List.length
      (List.takeWhile_append_dropWhile (p := Text.isLetter) (l := head.dropWhile Text.isBlank))
    rw [List.length_append, hlength] at hsplit
    exact h (List.eq_nil_of_length_eq_zero (by omega))
  rw [verb, verb, List.dropWhile_append, if_neg (by simpa using hword), List.takeWhile_append,
    if_neg hshort]

/-- Beginnings of statements that read. -/
def IsReadingHead (head : Text) : Prop :=
  (head.dropWhile Text.isBlank).dropWhile Text.isLetter ≠ [] ∧ head.verb ∉ writingVerbs

instance (head : Text) : Decidable (IsReadingHead head) :=
  inferInstanceAs (Decidable (_ ∧ _))

theorem reads_of_head {head : Text} (h : IsReadingHead head) (rest : Text) (args : List Json) :
    (Call.run (head ++ rest) args).Reads := by
  show Text.verb (head ++ rest) ∉ writingVerbs
  rw [Text.verb_append h.1]
  exact h.2

namespace Table

open Session

theorem exists_text_composed (head name : Text) (fs : List Sql.Fragment) :
    ∃ rest, (composed head name fs).text = head ++ rest := by
  rw [composed, Sql.Statement.join_cons_cons, List.append_assoc]
  exact ⟨_, rfl⟩

theorem begins_composed (head name : Text) (fs : List Sql.Fragment) :
    head <+: (composed head name fs).text := by
  obtain ⟨rest, hrest⟩ := exists_text_composed head name fs
  exact ⟨rest, hrest.symm⟩

theorem reads_composed {head : Text} (h : IsReadingHead head) (name : Text)
    (fs : List Sql.Fragment) (args : List Json) :
    (Call.run (composed head name fs).text args).Reads := by
  obtain ⟨rest, hrest⟩ := exists_text_composed head name fs
  rw [hrest]
  exact reads_of_head h rest args

theorem queries_asking {head : Text} (h : IsReadingHead head) (t : Table)
    (fs : List Sql.Fragment) : (t.asking fs head).Queries :=
  ⟨trivial, reads_composed h t.name fs _⟩

theorem queries_createIndex (table expr : Text) (name : Option Text) (unique : Bool)
    (args : List Json) : (Call.run (Sql.createIndex table expr name unique) args).Queries := by
  refine ⟨trivial, ?_⟩
  unfold Sql.createIndex Sql.createNamedIndex
  simp only [List.append_assoc]
  exact reads_of_head (by decide) _ args

theorem queries_creation {name : Text} {storage : Sql.Storage} {c : Call}
    (h : c ∈ (creation name storage).map Demand.call) : c.Queries := by
  rcases List.mem_cons.1 h with rfl | h
  · refine ⟨trivial, ?_⟩
    show (Call.run (Sql.createTable name storage) []).Reads
    unfold Sql.createTable
    simp only [List.append_assoc]
    exact reads_of_head (by decide) _ []
  · rw [List.mem_singleton.1 h]
    exact queries_createIndex _ _ _ _ _

end Table

namespace Session

theorem queries_listing : (Call.run listing []).Queries :=
  ⟨trivial, reads_of_head (by decide) _ _⟩

theorem queries_indexListing (args : List Json) : (Call.run indexListing args).Queries :=
  ⟨trivial, reads_of_head (by decide) _ _⟩

theorem only_tables : Only Call.Queries tables :=
  follows_tables.only_of_asks queries_listing

theorem only_indexes (table : Text) : Only Call.Queries (indexes table) :=
  (follows_indexes table).only_of_asks (queries_indexListing _)

theorem reads_opening {path : Text} {config : Config} {setMode : Bool} {c : Call}
    (h : c ∈ (opening path config setMode).map Demand.call) : c.Reads := by
  rw [opening, List.map_cons, List.map_append, List.mem_cons, List.mem_append] at h
  rcases h with rfl | h | h
  · exact id
  · split at h
    · rw [List.mem_singleton.1 h]
      exact reads_of_head (by decide) _ []
    · cases h
  · rw [List.mem_singleton.1 h]
    exact reads_of_head (by decide) _ []

end Session

/-! ### Commands that read -/

namespace Console

open Session

namespace Command

variable (style : Style) (t : Table)

/-- What is stored and is read may be shown. -/
theorem isShowable_of_decodeRows {rows : List Row} {docs : List Json}
    (h : rows.mapM Table.decodeRow = .ok docs) : ∀ doc ∈ docs, doc.isShowable = true := by
  intro doc hdoc
  obtain ⟨row, -, hrow⟩ := exists_of_mem_results h hdoc
  unfold Table.decodeRow at hrow
  split at hrow
  · exact Json.isShowable_of_read (mapError_eq_ok_iff.1 hrow)
  all_goals cases hrow

theorem follows_runFind (q : Query) :
    Follows (runFind style q t) (Attempts q.fragments fun fs =>
      Asks (t.asking fs "select json(data) from".toList) fun rows => do
        return Output.shownLines style (← rows.mapM Table.decodeRow)) := by
  refine follows_attempts fun fs _ =>
    ((t.follows_all_fragments fs).asks_lift (Output.documentLines style)).mono fun r xs h => ?_
  exact h.congr fun rows => Output.bind_documentLines style id fun _ => isShowable_of_decodeRows

/-- The lines that tell how many documents there are. -/
def countLines (n : Int) : List Text :=
  match style with
  | .json => Output.members style [("table".toList, .text t.name), ("count".toList, .int n)]
  | .plain => [Decimal.ofInt n]

theorem follows_runCount (q : Query) :
    Follows (runCount style q t) (Attempts q.fragments fun fs =>
      Asks (t.asking fs "select count(*) from".toList) fun rows => do
        return countLines style t (← Table.countOf rows)) := by
  refine follows_attempts fun fs _ => (t.follows_count_fragments fs).asks_bind
    (g := fun n => .ok (countLines style t n)) fun n => ?_
  cases style with
  | json | plain => exact follows_pure ⟨rfl, rfl⟩

/-- The lines that tell how documents would be selected. -/
def planLines (plan : List Text) : List Text :=
  match style with
  | .json =>
    Output.members style [("table".toList, .text t.name), ("plan".toList, .array (plan.map .text))]
  | .plain => plan

theorem follows_runExplain (q : Query) :
    Follows (runExplain style q t) (Attempts q.fragments fun fs =>
      Asks (t.asking fs "explain query plan select json(data) from".toList) fun rows => do
        return planLines style t (← cellTexts 3 rows)) := by
  refine follows_attempts fun fs _ => (t.follows_explain_fragments fs).asks_bind
    (g := fun plan => .ok (planLines style t plan)) fun plan => ?_
  cases style with
  | json | plain => exact follows_pure ⟨rfl, rfl⟩

/-- The call that creates an index over an expression in the shorthand. -/
def indexing (expr : Text) (name : Option Text) (unique : Bool) : Call :=
  .run (Sql.createIndex t.name (Sql.expand expr) name unique) []

theorem follows_runCreateIndex (expr : Text) (name : Option Text) (unique : Bool) :
    Follows (runCreateIndex style expr name unique t) (Asks (indexing t expr name unique) fun _ =>
      .ok (Output.members style [("table".toList, .text t.name),
        ("sql".toList, .text (Sql.createIndex t.name (Sql.expand expr) name unique))])) :=
  (t.follows_createIndex expr name unique).asks_bind
    (g := fun sql => .ok (Output.members style [("table".toList, .text t.name),
      ("sql".toList, .text sql)])) fun _ => follows_pure ⟨rfl, rfl⟩

/-- The lines of a list of indexes. -/
def indexLines (found : List IndexInfo) : Except Error (List Text) :=
  if found.isEmpty && style ≠ .json then .ok ["No indexes on '".toList ++ t.name ++ ['\'']]
  else
    Output.complete (Output.table style ["name".toList, "unique".toList, "sql".toList]
      (found.map fun i => [.text i.name, .bool i.unique, i.sql]))

theorem follows_runListIndexes :
    Follows (runListIndexes style t) (Asks (.run indexListing [.text t.name]) fun rows => do
      indexLines style t (← rows.mapM indexOf)) := by
  refine (follows_indexes t.name).asks_bind (g := indexLines style t) fun found => ?_
  unfold indexLines
  dsimp only
  split
  · exact follows_pure ⟨rfl, rfl⟩
  · exact follows_lift ⟨rfl, rfl⟩

/-- The calls that create indexes. -/
def indexings (indexes uniqueIndexes : List Text) : List Demand :=
  (indexes.map fun expr => ⟨indexing t expr none false, fun _ => .ok ()⟩)
    ++ uniqueIndexes.map fun expr => ⟨indexing t expr none true, fun _ => .ok ()⟩

theorem follows_runInit (database : Text) (indexes uniqueIndexes : List Text) :
    Follows (runInit database style indexes uniqueIndexes t) fun r xs =>
      ∃ done lines, Dialogue (indexings t indexes uniqueIndexes) done xs ∧
        r = done.map fun _ => lines := by
  have hcreate := fun unique exprs => follows_mapM_asks
    (fun expr => t.follows_createIndex expr none unique) exprs
  refine (hcreate false indexes).bind (fun plain xs h => ?_) fun e xs h => ?_
  · obtain ⟨_ | _, hplain, h⟩ := h
    · cases h
    · refine (hcreate true uniqueIndexes).bind (fun unique ys h => ?_) fun e ys h => ?_
      · obtain ⟨_ | _, hunique, h⟩ := h
        · cases h
        · refine follows_pure ⟨.ok (), _, ?_, rfl⟩
          rw [List.append_nil]
          exact hplain.append_ok hunique
      · obtain ⟨_ | _, hunique, h⟩ := h
        · cases h
          exact ⟨_, [], hplain.append_ok hunique, rfl⟩
        · cases h
  · obtain ⟨_ | _, hplain, h⟩ := h
    · cases h
      exact ⟨_, [], hplain.append_error _, rfl⟩
    · cases h

/-- What becomes of a document that was looked for. -/
def foundLines (id : Text) : Except Error (Option Json) → Except Failure (List Text)
  | .error e => .error (.error .working e)
  | .ok none | .ok (some .null) => .error (.documentMissing id t.name)
  | .ok (some doc) => .ok (Output.shownLines style [doc])

/-- The exchanges that look for the document with an id. -/
def Gets (id : Text) (r : Except Failure (List Text)) (xs : List Exchange) : Prop :=
  ∃ f found, Table.withId id = .ok f ∧
    Asks (t.asking [f, Table.limitOne] "select json(data) from".toList)
      (fun rows => List.head? <$> rows.mapM Table.decodeRow) found xs ∧
    r = foundLines style t id found

theorem requireObject_eq_ok {what : String} {v d : Json} (h : requireObject what v = .ok d) :
    ∃ members, d = .object members := by
  cases v with
  | object members =>
    cases h
    exact ⟨members, rfl⟩
  | null | bool | int | float | text | array => cases h

theorem requireObject_eq_self {what : String} {v d : Json} (h : requireObject what v = .ok d) :
    d = v := by
  obtain ⟨members, rfl⟩ := requireObject_eq_ok h
  cases v with
  | object => cases h; rfl
  | null | bool | int | float | text | array => cases h

theorem isShowable_mergedDocs {patch : Json} (hpatch : patch.isShowable = true) {rows : List Row}
    {docs : List Json} (hdocs : rows.mapM Table.decodeRow = .ok docs) :
    ∀ doc ∈ docs.map fun doc => Document.mergePatch doc patch, doc.isShowable = true := by
  rw [List.forall_mem_map]
  exact fun doc hdoc =>
    Document.isShowable_mergePatch patch hpatch (isShowable_of_decodeRows hdocs doc hdoc)

/-- A patch that only shows what it would do checks its input like any other one. -/
theorem follows_dryRun (document : Text) (q : Query) (all : Bool) :
    Follows (runPatch style document q all true t)
      (Attempts (do requireObject "Patch" (← readJson document)) fun patch =>
        Attempts (selection q all) fun fs =>
          Asks (t.asking fs "select json(data) from".toList) fun rows => do
            return Output.shownLines style
              ((← rows.mapM Table.decodeRow).map fun doc => Document.mergePatch doc patch)) := by
  refine follows_attempts fun patch hpatch => follows_attempts fun fs _ => ?_
  obtain ⟨v, hread, hobject⟩ := bind_eq_ok_iff.1 hpatch
  obtain rfl := requireObject_eq_self hobject
  have hshown : patch.isShowable = true := Json.isShowable_of_read (mapError_eq_ok_iff.1 hread)
  refine ((t.follows_all_fragments fs).asks_lift fun docs => Output.documentLines style
    (docs.map fun doc => Document.mergePatch doc patch)).mono fun r xs h => h.congr fun rows => ?_
  exact Output.bind_documentLines style _ fun docs hdocs => isShowable_mergedDocs hshown hdocs

/-! ### Commands that write -/

/-- Counting what a call has changed adds nothing to it. -/
theorem follows_reportChanges {α : Type} (key : String) {change : SessionM Unit}
    {p : Except Error α} {c : α → Call}
    (h : Follows change (Attempts p fun a => Asks (c a) fun _ => .ok ())) :
    Follows (reportChanges style key t change) (Attempts p fun a => Tells (c a)) := by
  refine follows_changed fun before => ?_
  cases p with
  | error e =>
    refine h.bind (fun _ xs hr => ?_) fun e' xs hr => ?_
    · rcases hr with ⟨_, -, hr, -⟩ | ⟨_, hp, -⟩
      · cases hr
      · cases hp
    · rcases hr with ⟨_, hp, hr, rfl⟩ | ⟨_, hp, -⟩
      · cases hr
        exact .inl ⟨_, hp, rfl, rfl⟩
      · cases hp
  | ok a =>
    have hchange : Follows change (Tells (c a)) :=
      (h.of_attempts rfl).mono fun r xs hr => hr.tells
    refine (hchange.tells_bind fun _ => ?_).mono fun r xs hr => .inr ⟨a, rfl, hr⟩
    exact follows_changed fun after => follows_pure ⟨rfl, _, rfl⟩

theorem follows_runDelete (q : Query) (all : Bool) :
    Follows (runDelete style q all t) (Attempts (selection q all) fun fs =>
      Attempts (t.deletion (asArguments fs)) fun s => Tells (.run s.text s.args)) :=
  follows_attempts fun fs _ =>
    follows_reportChanges style t _ (t.follows_delete (asArguments fs))

theorem follows_runPatch (document : Text) (q : Query) (all : Bool) :
    Follows (runPatch style document q all false t)
      (Attempts (do requireObject "Patch" (← readJson document)) fun patch =>
        Attempts (selection q all) fun fs =>
          Attempts (t.patching patch (asArguments fs)) fun s => Tells (.run s.text s.args)) :=
  follows_attempts fun patch _ => follows_attempts fun fs _ =>
    follows_reportChanges style t _ (t.follows_patch (asArguments fs) patch)

theorem follows_runReplace (document : Text) (q : Query) (all : Bool) :
    Follows (runReplace style document q all t)
      (Attempts (do requireObject "Document" (← readJson document)) fun doc =>
        Attempts (selection q all) fun fs =>
          Attempts (t.replacing doc (asArguments fs)) fun s => Tells (.run s.text s.args)) :=
  follows_attempts fun doc _ => follows_attempts fun fs _ =>
    follows_reportChanges style t _ (t.follows_replace (asArguments fs) doc)

theorem mapM_requireObject_eq_ok {what : String} {items docs : List Json}
    (h : items.mapM (requireObject what) = .ok docs) :
    ∃ members : List Members, docs = members.map .object := by
  have hall := mapM_eq_ok_iff.1 h
  induction hall with
  | nil => exact ⟨[], rfl⟩
  | cons hd hrest ih =>
    obtain ⟨m, rfl⟩ := requireObject_eq_ok hd
    obtain ⟨ms, rfl⟩ := ih (mapM_eq_ok_iff.2 hrest)
    exact ⟨m :: ms, rfl⟩

/-- A document and how it is stored: under its id, or under a fresh one. -/
def Identified (members : Members) (doc : Json) : Prop :=
  ∃ fresh, doc = .object (Document.identify fresh members)

/-- The exchanges that insert what has been read. -/
def Inserts : Json → Except Error (List Text) → List Exchange → Prop
  | .array items => Attempts (items.mapM (requireObject "Each document")) fun docs r xs =>
    ∃ members docs', docs = members.map .object ∧ List.Forall₂ Identified members docs' ∧
      Attempts (docs'.mapM Table.insertionRow) (fun rows =>
        Asks (.runMany (Sql.insertInto t.name t.storage) rows)
          fun _ => .ok (Output.shownLines style docs')) r xs
  | v => Attempts (requireObject "Document" v) fun doc r xs =>
    ∃ members doc', doc = .object members ∧ Identified members doc' ∧
      Attempts (Table.encode doc') (fun text =>
        Asks (.run (Sql.insertInto t.name t.storage) [.text text])
          fun _ => .ok (Output.shownLines style [doc'])) r xs

/-- Documents that a call has stored are printed to their end. -/
theorem attempts_shown {α γ : Type} {p : Except Error γ} {c : γ → Call} {a : α}
    {r : Except Error α} {xs : List Exchange}
    (h : Attempts p (fun b => Asks (c b) fun _ => .ok a) r xs) (docs : α → List Json)
    (hdocs : ∀ b, p = .ok b → ∀ doc ∈ docs a, doc.isShowable = true) :
    Attempts p (fun b => Asks (c b) fun _ => .ok (Output.shownLines style (docs a)))
      (r >>= fun a => Output.documentLines style (docs a)) xs := by
  refine (h.asks_bind fun a => Output.documentLines style (docs a)).mono fun b hb hasks => ?_
  exact hasks.congr fun _ => Output.documentLines_eq_ok style (hdocs b hb)

theorem isShowable_of_encode {doc : Json} {text : Text} (h : Table.encode doc = .ok text) :
    doc.isShowable = true :=
  Document.isShowable_of_encode (mapError_eq_ok_iff.1 h)

theorem isShowable_of_insertionRows {docs : List Json} {rows : List (List Json)}
    (h : docs.mapM Table.insertionRow = .ok rows) : ∀ doc ∈ docs, doc.isShowable = true := by
  intro doc hdoc
  obtain ⟨row, -, hrow⟩ := exists_result_of_mem h hdoc
  obtain ⟨text, htext, -⟩ := bind_eq_ok_iff.1 hrow
  exact isShowable_of_encode htext

theorem follows_insertMany {items docs : List Json}
    (h : items.mapM (requireObject "Each document") = .ok docs) :
    Follows (do lift (Output.documentLines style (← t.insertMany docs)) : SessionM (List Text))
      fun r xs => ∃ members docs', docs = members.map .object ∧
        List.Forall₂ Identified members docs' ∧
        Attempts (docs'.mapM Table.insertionRow) (fun rows =>
          Asks (.runMany (Sql.insertInto t.name t.storage) rows)
            fun _ => .ok (Output.shownLines style docs')) r xs := by
  obtain ⟨members, rfl⟩ := mapM_requireObject_eq_ok h
  refine (t.follows_insertMany members).bind (fun stored xs h => follows_lift ?_) fun e xs h => ?_
  · obtain ⟨docs', hdocs, h⟩ := h
    rw [List.append_nil]
    exact ⟨members, docs', rfl, hdocs,
      attempts_shown style h id fun _ => isShowable_of_insertionRows⟩
  · obtain ⟨docs', hdocs, h⟩ := h
    exact ⟨members, docs', rfl, hdocs,
      attempts_shown style h id fun _ => isShowable_of_insertionRows⟩

theorem follows_insert {v doc : Json} (h : requireObject "Document" v = .ok doc) :
    Follows (do lift (Output.documentLines style [← t.insert doc]) : SessionM (List Text))
      fun r xs => ∃ members doc', doc = .object members ∧ Identified members doc' ∧
        Attempts (Table.encode doc') (fun text =>
          Asks (.run (Sql.insertInto t.name t.storage) [.text text])
            fun _ => .ok (Output.shownLines style [doc'])) r xs := by
  obtain ⟨members, rfl⟩ := requireObject_eq_ok h
  refine (t.follows_insert members).bind (fun stored xs h => follows_lift ?_) fun e xs h => ?_
  · obtain ⟨fresh, h⟩ := h
    rw [List.append_nil]
    exact ⟨members, _, rfl, ⟨fresh, rfl⟩, attempts_shown style h ([·]) fun _ hencode =>
      List.forall_mem_singleton.2 (isShowable_of_encode hencode)⟩
  · obtain ⟨fresh, h⟩ := h
    exact ⟨members, _, rfl, ⟨fresh, rfl⟩, attempts_shown style h ([·]) fun _ hencode =>
      List.forall_mem_singleton.2 (isShowable_of_encode hencode)⟩

theorem follows_runInsert (files : Files) (document file : Option Text) :
    Follows (runInsert files style document file t)
      (Attempts (payload files document file) (Inserts style t)) := by
  refine follows_attempts fun v _ => ?_
  cases v with
  | array items => exact follows_attempts fun docs hdocs => follows_insertMany style t hdocs
  | object | null | bool | int | float | text =>
    exact follows_attempts fun doc hdoc => follows_insert style t hdoc

end Command

/-! ### Any command on a table -/

namespace Command

/-- A step of a command that works on its table. -/
def Working (P : Except Error (List Text) → List Exchange → Prop)
    (r : Except Failure (List Text)) (xs : List Exchange) : Prop :=
  ∃ done, P done xs ∧ r = done.mapError (.error .working)

/-- What a command does with its table. -/
def Performs (files : Files) (style : Style) (t : Table) :
    Command → Except Failure (List Text) → List Exchange → Prop
  | .info _ => fun _ _ => False
  | .init _ indexes uniqueIndexes => Working fun r xs =>
    ∃ done lines, Dialogue (indexings t indexes uniqueIndexes) done xs ∧
      r = done.map fun _ => lines
  | .insert _ document file =>
    Working (Attempts (payload files document file) (Inserts style t))
  | .get _ id => Gets style t id
  | .find _ q => Working (Attempts q.fragments fun fs =>
      Asks (t.asking fs "select json(data) from".toList) fun rows => do
        return Output.shownLines style (← rows.mapM Table.decodeRow))
  | .count _ q => Working (Attempts q.fragments fun fs =>
      Asks (t.asking fs "select count(*) from".toList) fun rows => do
        return countLines style t (← Table.countOf rows))
  | .explain _ q => Working (Attempts q.fragments fun fs =>
      Asks (t.asking fs "explain query plan select json(data) from".toList) fun rows => do
        return planLines style t (← cellTexts 3 rows))
  | .delete _ q all => Working (Attempts (selection q all) fun fs =>
      Attempts (t.deletion (asArguments fs)) fun s => Tells (.run s.text s.args))
  | .patch _ document q all false =>
    Working (Attempts (do requireObject "Patch" (← readJson document)) fun patch =>
      Attempts (selection q all) fun fs =>
        Attempts (t.patching patch (asArguments fs)) fun s => Tells (.run s.text s.args))
  | .patch _ document q all true =>
    Working (Attempts (do requireObject "Patch" (← readJson document)) fun patch =>
      Attempts (selection q all) fun fs =>
        Asks (t.asking fs "select json(data) from".toList) fun rows => do
          return Output.shownLines style
            ((← rows.mapM Table.decodeRow).map fun doc => Document.mergePatch doc patch))
  | .replace _ document q all =>
    Working (Attempts (do requireObject "Document" (← readJson document)) fun doc =>
      Attempts (selection q all) fun fs =>
        Attempts (t.replacing doc (asArguments fs)) fun s => Tells (.run s.text s.args))
  | .createIndex _ expr name unique => Working (Asks (indexing t expr name unique) fun _ =>
      .ok (Output.members style [("table".toList, .text t.name),
        ("sql".toList, .text (Sql.createIndex t.name (Sql.expand expr) name unique))]))
  | .listIndexes _ => Working (Asks (.run indexListing [.text t.name]) fun rows => do
      indexLines style t (← rows.mapM indexOf))

end Command

end Console

end DocTable
