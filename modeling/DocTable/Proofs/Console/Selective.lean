import DocTable.Engine.Rules
import DocTable.Proofs.Console.Footprint
import DocTable.Proofs.Console.Options
import DocTable.Proofs.Console.Selection
/-!
# DocTable.Proofs.Console.Selective

Changing documents without `--all`.

The guard of such a command looks at its fragments, before anything is run. So a statement that
changes documents has a clause with a condition in it (`Command.writes_selected`), and where no
condition is supplied the command is refused. Such a refusal is bad usage, and nothing but the
engine or the configuration can keep a run from getting there (`Invocation.Runs.ending_iff`).
-/

namespace DocTable.Console

open Session Sql

/-! ### Statements that change documents -/

/-- What a command that changes documents runs, up to the clause that selects them. -/
inductive Command.Changes : Command → Statement → Prop
  | delete {table : Text} {q : Query} {all : Bool} :
    Changes (.delete table q all) ⟨"delete from ".toList ++ table, []⟩
  | patch {table document : Text} {q : Query} {all : Bool} {members : Members} (storage : Storage) :
    readJson document = .ok (.object members) →
    Changes (.patch table document q all false)
      ⟨"update ".toList ++ table ++ " set data = ".toList ++ storage.patchFunction
        ++ "(data, ?)".toList, [.text (Json.object members).compact]⟩
  | replace {table document : Text} {q : Query} {all : Bool} {members : Members}
    (storage : Storage) : readJson document = .ok (.object members) →
    Changes (.replace table document q all)
      ⟨"update ".toList ++ table ++ " set data = ".toList ++ storage.encodeFunction
        ++ "(?)".toList, [.text (Json.object members).compact]⟩

/-- The call that makes a change where all of some conditions hold. -/
def selected (change : Statement) (conditions : List Fragment) : Call :=
  .run
    (change.text ++ " where ".toList
      ++ Text.join " AND ".toList (conditions.map fun f => '(' :: f.text ++ [')']))
    (change.args ++ conditions.flatMap Fragment.values)

theorem clause_text (conditions : List Fragment) :
    (Clause.where (Query.conjunction conditions)).text = "where ".toList ++
      Text.join " AND ".toList (conditions.map fun f => '(' :: f.text ++ [')']) := by
  rw [Clause.where, Fragment.text_append, Query.text_conjunction]
  rfl

theorem clause_values (conditions : List Fragment) :
    (Clause.where (Query.conjunction conditions)).values = conditions.flatMap Fragment.values := by
  rw [Clause.where, Fragment.values_append, Query.values_conjunction]
  rfl

theorem deletion_selected (table : Text) (conditions : List Fragment) :
    let s := Table.composed "delete from".toList table [Clause.where (Query.conjunction conditions)]
    Call.run s.text s.args = selected ⟨"delete from ".toList ++ table, []⟩ conditions := by
  intro s
  rw [Table.text_composed, Table.args_composed, selected, List.flatMap_singleton,
    List.flatMap_singleton, clause_text, clause_values]
  simp

theorem update_selected (table : Text) {assignment : Fragment} {call : Text} {v : Json}
    (hfilled : assignment.filled =
      verbatim ("set data = ".toList ++ call) ++ .inr v :: verbatim [')'])
    (conditions : List Fragment) :
    let s := Table.composed "update".toList table
      [assignment, Clause.where (Query.conjunction conditions)]
    Call.run s.text s.args = selected
      ⟨"update ".toList ++ table ++ " set data = ".toList ++ call ++ "?)".toList, [v]⟩
      conditions := by
  intro s
  simp only [s, Table.text_composed, Table.args_composed, selected, List.flatMap_cons,
    List.flatMap_nil, clause_text, clause_values, Table.text_assignment hfilled, Table.values_assignment hfilled]
  simp

/-! ### What is written -/

/-- A document that is written in an update can be encoded. -/
theorem isSome_encode? {t : Table} {expression : Text} {doc : Json} {args : List Argument}
    {s : Statement} (h : t.update expression doc args = .ok s) :
    (Document.encode? doc).isSome = true := by
  obtain ⟨text, htext, -⟩ := bind_eq_ok_iff.1 h
  have hencode : Document.encode doc = .ok text := mapError_eq_ok_iff.1 htext
  rw [Document.encode?, hencode]
  rfl

theorem updating_selected {t : Table} {call : Text} (hcall : holeMark ∉ call ∧ '$' ∉ call)
    {doc : Json} {conditions : List Fragment} {s : Statement}
    (h : t.update (call ++ "?)".toList) doc
      (asArguments [Clause.where (Query.conjunction conditions)]) = .ok s) :
    Call.run s.text s.args = selected
      ⟨"update ".toList ++ t.name ++ " set data = ".toList ++ call ++ "?)".toList,
        [.text doc.compact]⟩ conditions := by
  obtain ⟨assignment, hupdate, hfilled⟩ := Table.update_fragments t
    [Clause.where (Query.conjunction conditions)] (isSome_encode? h) hcall.1 hcall.2
  obtain rfl := Except.ok.inj (hupdate.symm.trans h)
  exact update_selected t.name hfilled conditions

/-- What a patch writes. -/
theorem patching_selected {t : Table} {doc : Json} {conditions : List Fragment} {s : Statement}
    (h : t.patching doc (asArguments [Clause.where (Query.conjunction conditions)]) = .ok s) :
    Call.run s.text s.args = selected
      ⟨"update ".toList ++ t.name ++ " set data = ".toList ++ t.storage.patchFunction
        ++ "(data, ?)".toList, [.text doc.compact]⟩ conditions := by
  have hcall : t.storage.patchFunction ++ "(data, ".toList ++ "?)".toList =
      t.storage.patchFunction ++ "(data, ?)".toList := List.append_assoc ..
  rw [Table.patching, ← hcall] at h
  rw [updating_selected (Table.patchCall_clean t.storage) h]
  simp

/-- What a replacement writes. -/
theorem replacing_selected {t : Table} {doc : Json} {conditions : List Fragment} {s : Statement}
    (h : t.replacing doc (asArguments [Clause.where (Query.conjunction conditions)]) = .ok s) :
    Call.run s.text s.args = selected
      ⟨"update ".toList ++ t.name ++ " set data = ".toList ++ t.storage.encodeFunction
        ++ "(?)".toList, [.text doc.compact]⟩ conditions := by
  have hcall : t.storage.encodeFunction ++ ['('] ++ "?)".toList =
      t.storage.encodeFunction ++ "(?)".toList := List.append_assoc ..
  rw [Table.replacing, ← hcall] at h
  rw [updating_selected (Table.encodeCall_clean t.storage) h]
  simp

/-- The document that a command has been given. -/
theorem readJson_of_object {what : String} {document : Text} {doc : Json}
    (h : (do requireObject what (← readJson document)) = .ok doc) :
    ∃ members, doc = .object members ∧ readJson document = .ok (.object members) := by
  obtain ⟨v, hread, hobject⟩ := bind_eq_ok_iff.1 h
  cases v with
  | object members =>
    cases hobject
    exact ⟨members, rfl, hread⟩
  | null | bool | int | float | text | array => cases hobject

namespace Command

/-- A document that is not one is bad usage. -/
theorem exitCode?_document {what : String} {document : Text} {e : Error}
    (h : (do requireObject what (← readJson document)) = .error e) :
    (Failure.error .working e).exitCode? = some Failure.badUsage := by
  cases hread : readJson document with
  | error e' =>
    rw [hread] at h
    cases h
    unfold readJson at hread
    cases hjson : Json.read document with
    | ok v => rw [hjson] at hread; cases hread
    | error cause => rw [hjson] at hread; cases hread; rfl
  | ok v =>
    rw [hread] at h
    cases v with
    | object members => cases h
    | null | bool | int | float | text | array => cases h; rfl

variable {files : Files} {style : Style} {c : Command} {t : Table} {q : Query}
  {r : Except Failure (List Text)} {xs : List Exchange}

/-- A command that is given a document goes on with it, unless it is none. -/
theorem attempts_document {what : String} {document : Text} {done : Except Error (List Text)}
    {R : Json → Except Error (List Text) → List Exchange → Prop}
    (h : Attempts (do requireObject what (← readJson document)) R done xs) :
    (∃ e, done = .error e ∧ xs = [] ∧
      (Failure.error .working e).exitCode? = some Failure.badUsage) ∨
    ∃ members, readJson document = .ok (.object members) ∧ R (.object members) done xs := by
  rcases h with ⟨e, he, rfl, rfl⟩ | ⟨doc, hdoc, hdone⟩
  · exact .inl ⟨e, rfl, rfl, exitCode?_document he⟩
  · obtain ⟨members, rfl, hread⟩ := readJson_of_object hdoc
    exact .inr ⟨members, hread, hdone⟩

/-- What a command that may not touch all documents does: it checks its document, then its
selection, and what it writes is a change of what the selection says. -/
theorem performs_selective (h : c.Performs files style t r xs)
    (hq : c.selective? = some (t.name, q)) :
    ∃ done, r = done.mapError (.error .working) ∧
      ((∃ e, done = .error e ∧ xs = [] ∧
          (Failure.error .working e).exitCode? = some Failure.badUsage) ∨
        Attempts (selection q false) (fun fs _ xs => ∀ x ∈ xs, x.1.Writes →
          ∃ change, c.Changes change ∧ ∀ conditions,
            fs = [Clause.where (Query.conjunction conditions)] →
            x.1 = selected change conditions) done xs) := by
  cases c with
  | delete table q' all =>
    cases all <;> cases hq
    obtain ⟨done, hdone, rfl⟩ := h
    refine ⟨done, rfl, .inr (hdone.mono fun fs _ hdelete x hx _ => ⟨_, .delete, ?_⟩)⟩
    rintro conditions rfl
    obtain ⟨s, hs, htells⟩ := hdelete.of_mem hx
    rw [asArguments, Table.deletion_fragments] at hs
    cases hs
    rw [htells.eq_of_mem hx, deletion_selected]
  | patch table document q' all dryRun =>
    cases all <;> cases hq
    cases dryRun with
    | true =>
      obtain ⟨done, hdone, rfl⟩ := h
      refine ⟨done, rfl, (attempts_document hdone).imp_right ?_⟩
      rintro ⟨members, -, hselect⟩
      -- Nothing is written.
      refine hselect.mono fun fs _ hasks x hx hwrites => absurd hwrites ?_
      exact (hasks.only (Table.queries_asking (by decide) t fs) x hx).2
    | false =>
      obtain ⟨done, hdone, rfl⟩ := h
      refine ⟨done, rfl, (attempts_document hdone).imp_right ?_⟩
      rintro ⟨members, hread, hselect⟩
      refine hselect.mono fun fs _ hpatch x hx _ => ⟨_, .patch t.storage hread, ?_⟩
      rintro conditions rfl
      obtain ⟨s, hs, htells⟩ := hpatch.of_mem hx
      rw [htells.eq_of_mem hx, patching_selected hs]
  | replace table document q' all =>
    cases all <;> cases hq
    obtain ⟨done, hdone, rfl⟩ := h
    refine ⟨done, rfl, (attempts_document hdone).imp_right ?_⟩
    rintro ⟨members, hread, hselect⟩
    refine hselect.mono fun fs _ hreplace x hx _ => ⟨_, .replace t.storage hread, ?_⟩
    rintro conditions rfl
    obtain ⟨s, hs, htells⟩ := hreplace.of_mem hx
    rw [htells.eq_of_mem hx, replacing_selected hs]
  | init | info | insert | get | find | count | explain | createIndex | listIndexes => cases hq

/-- Whatever such a command writes has a clause with a condition in it. -/
theorem writes_selected (h : c.Performs files style t r xs) (hq : c.selective? = some (t.name, q))
    (hclip : Unclipped q) {x : Exchange} (hx : x ∈ xs) (hwrites : x.1.Writes) :
    ∃ change conditions, c.Changes change ∧ q.Supplies conditions ∧ conditions ≠ [] ∧
      x.1 = selected change conditions := by
  obtain ⟨done, -, ⟨e, -, rfl, -⟩ | hselect⟩ := performs_selective h hq
  · cases hx
  · obtain ⟨fs, hfs, hwritten⟩ := hselect.of_mem hx
    obtain ⟨conditions, hsupplies, hne, rfl⟩ := selection_eq_ok hfs hclip.1 hclip.2
    obtain ⟨change, hchange, hselected⟩ := hwritten x hx hwrites
    exact ⟨change, conditions, hchange, hsupplies, hne, hselected conditions rfl⟩

/-- Failing on purpose, because of what was asked for. -/
def Refused (r : Except Failure (List Text)) : Prop :=
  ∃ e, r = .error e ∧ e.exitCode? = some Failure.badUsage

/-- Where no condition is supplied, such a command is refused. -/
theorem refused_performs (h : c.Performs files style t r xs) (hq : c.selective? = some (t.name, q))
    (hclip : Unclipped q) (hbare : q.IsBare) : Refused r := by
  obtain ⟨done, rfl, ⟨e, rfl, -, hcode⟩ | hselect⟩ := performs_selective h hq
  · exact ⟨_, rfl, hcode⟩
  · obtain ⟨cause, hcause⟩ := selection_bare hbare hclip.1 hclip.2
    rcases hselect with ⟨e, he, rfl, -⟩ | ⟨fs, hfs, -⟩
    · cases hcause.symm.trans he
      exact ⟨_, rfl, rfl⟩
    · cases hcause.symm.trans hfs

theorem table?_of_selective? {table : Text} (hq : c.selective? = some (table, q)) :
    c.table? = some (table, true) := by
  cases c with
  | delete table q all | replace table document q all => cases all <;> cases hq; rfl
  | patch table document q all dryRun => cases all <;> cases hq; rfl
  | init | info | insert | get | find | count | explain | createIndex | listIndexes => cases hq

end Command

/-! ### Runs without a selection -/

/-- An engine that has a table and raises nothing. It answers the statement that sets a journal mode
with a row, and lists the table among its own. -/
structure Serves (engine : Engine) (table : Text) : Prop where
  answers : ∀ history c, ∃ rows changes, engine history c = .rows rows changes
  journal : ∀ history mode rows changes,
    engine history (.run ("PRAGMA journal_mode=".toList ++ mode) []) = .rows rows changes →
    ∃ kept, firstCellOf rows = .ok kept
  lists : ∀ history rows changes, engine history (.run listing []) = .rows rows changes →
    ∃ names, cellTexts 0 rows = .ok names ∧ table ∈ names

/-- There is a database to work on. -/
def Invocation.DatabaseExists (i : Invocation) (s : Surroundings) : Prop :=
  i.database = inMemory ∨ s.files.has i.database = true

/-- Reading the configuration fails with nothing but an error of the configuration, and the time to
wait for locks that is read can be written. -/
structure Invocation.Configures (i : Invocation) (s : Surroundings) : Prop where
  fails : ∀ e, i.config s = .error e → ∃ cause, e = .config cause
  ready : ∀ config, i.config s = .ok config → Decimal.isShowable config.busyTimeout = true

/-- The replies come from an engine. -/
def From (engine : Engine) (xs : List Exchange) : Prop :=
  ∀ x ∈ xs, ∃ history, x.2 = engine history x.1

theorem from_append {engine : Engine} {xs ys : List Exchange} :
    From engine (xs ++ ys) ↔ From engine xs ∧ From engine ys :=
  List.forall_mem_append

section

variable {engine : Engine} {table : Text} (hserves : Serves engine table) {xs : List Exchange}

include hserves

theorem asks_ok {α : Type} {c : Call} {k : List Row → Except Error α} {r : Except Error α}
    (h : Asks c k r xs) (hxs : From engine xs) :
    ∃ history rows changes, engine history c = .rows rows changes ∧ r = k rows := by
  rcases h with ⟨rows, changes, rfl, hr⟩ | ⟨e, rfl, -⟩
  · obtain ⟨history, hreply⟩ := hxs _ List.mem_cons_self
    exact ⟨history, rows, changes, hreply.symm, hr⟩
  · obtain ⟨history, hreply⟩ := hxs _ List.mem_cons_self
    obtain ⟨rows, changes, hrows⟩ := hserves.answers history c
    cases hreply.trans hrows

/-- A dialogue in which every answer is accepted comes to its end. -/
theorem dialogue_ok {ds : List Demand} {r : Except Error Unit} (h : Dialogue ds r xs)
    (hxs : From engine xs) (haccepts : ∀ d ∈ ds, ∀ history rows changes,
      engine history d.call = .rows rows changes → d.accepts rows = .ok ()) : r = .ok () := by
  induction h with
  | done => rfl
  | step rows changes hrows hrest ih =>
    rw [List.forall_mem_cons] at haccepts
    exact ih (fun x hx => hxs x (List.mem_cons_of_mem _ hx)) haccepts.2
  | refused rows changes hrows =>
    obtain ⟨history, hreply⟩ := hxs _ List.mem_cons_self
    cases hrows.symm.trans (haccepts _ List.mem_cons_self history rows changes hreply.symm)
  | failed e =>
    obtain ⟨history, hreply⟩ := hxs _ List.mem_cons_self
    obtain ⟨rows, changes, hrows⟩ := hserves.answers history _
    cases hreply.trans hrows

/-- An engine that raises nothing opens a database with any configuration that is ready. -/
theorem opening_ok {path : Text} {config : Config} {setMode : Bool} {r : Except Error Unit}
    (h : Dialogue (opening path config setMode) r xs) (hxs : From engine xs)
    (hready : Decimal.isShowable config.busyTimeout = true) : r = .ok () := by
  refine dialogue_ok hserves h hxs fun d hd history rows changes hrows => ?_
  refine accepts_opening_of_ready hd hready fun hcall => ?_
  rw [hcall] at hrows
  exact hserves.journal history _ rows changes hrows

theorem requires_ok {r : Except Failure Unit} (h : Invocation.Requires table r xs)
    (hxs : From engine xs) : r = .ok () := by
  have hlists : ∀ r, Asks (.run listing []) (cellTexts 0) r xs →
      ∃ names, r = .ok names ∧ table ∈ names := by
    intro r hasks
    obtain ⟨history, rows, changes, hrows, rfl⟩ := asks_ok hserves hasks hxs
    exact hserves.lists history rows changes hrows
  cases h with
  | failed hasks =>
    obtain ⟨names, hnames, -⟩ := hlists _ hasks
    cases hnames
  | absent hasks hnone =>
    obtain ⟨names, hnames, hmem⟩ := hlists _ hasks
    cases hnames
    exact absurd hmem hnone
  | listed => rfl

/-- A table is provided unless its storage form is not to be had. -/
theorem provides_eq {v : Version} {config : Config} {r : Except Error Table}
    (h : Table.Provides v table config r xs) (hxs : From engine xs) :
    (∃ t, r = .ok t) ∨ ∃ e, r = .error (.config e) := by
  rcases h with ⟨e, -, rfl, -⟩ | ⟨storage, done, -, hd, rfl⟩
  · exact .inr ⟨e, rfl⟩
  · have hdone : done = .ok () := by
      refine dialogue_ok hserves hd hxs fun d hd history rows changes _ => ?_
      simp only [Table.creation, List.mem_cons, List.not_mem_nil, or_false] at hd
      rcases hd with rfl | rfl <;> rfl
    subst hdone
    exact .inl ⟨_, rfl⟩

end

namespace Invocation

variable {i : Invocation} {s : Surroundings} {v : Version} {table : Text} {q : Query}
  {r : Except Failure (List Text)} {xs : List Exchange}

/-- Whatever a run writes has a clause with a condition in it. -/
theorem Runs.writes_selected (h : i.Runs s v r xs) (hq : i.command.selective? = some (table, q))
    (hclip : Command.Unclipped q) {x : Exchange} (hx : x ∈ xs) (hwrites : x.1.Writes) :
    ∃ change conditions, i.command.Changes change ∧ q.Supplies conditions ∧ conditions ≠ [] ∧
      x.1 = selected change conditions := by
  obtain ⟨front, back, closing, rfl, hfront, hback, hclosing⟩ := h.split
  rcases List.mem_append.1 hx with hx | hx
  · rcases List.mem_append.1 hx with hx | hx
    · exact absurd hwrites (hfront x hx)
    · rcases hback with rfl | ⟨t, _, htable, hperforms⟩
      · cases hx
      · cases htable.symm.trans (Command.table?_of_selective? hq)
        exact Command.writes_selected hperforms hq hclip hx hwrites
  · rw [hclosing x hx] at hwrites
    exact hwrites.elim

/-- Once the database is open, a run without a selection is refused. -/
theorem Works.refused {engine : Engine} (hserves : Serves engine table) {config : Config}
    (h : Works v true table (fun t => i.command.Performs s.files i.style t) config r xs)
    (hxs : From engine xs) (hq : i.command.selective? = some (table, q))
    (hclip : Command.Unclipped q) (hbare : q.IsBare) : Command.Refused r := by
  cases h with
  | unlisted hlook =>
    have hrequires : Requires table _ xs := hlook
    cases requires_ok hserves hrequires hxs
  | unprovided hlook hp =>
    -- The storage form is set by the configuration, so what is wrong with it is bad usage too.
    rcases provides_eq hserves hp (from_append.1 hxs).2 with ⟨t, ht⟩ | ⟨e, he⟩
    · cases ht
    · cases he
      exact ⟨_, rfl, rfl⟩
  | body hlook hp hperforms =>
    obtain rfl := Provides.name hp
    exact Command.refused_performs hperforms hq hclip hbare

end Invocation

theorem ending_of_refused {r : Except Failure (List Text)} (h : Command.Refused r) :
    Ending.ofResult r = .exit 2 := by
  obtain ⟨e, rfl, hcode⟩ := h
  rw [Ending.ofResult, hcode]
  rfl

/-- Of the failures before the database is open, those of the configuration are bad usage. -/
theorem ending_opening_iff (e : Error) :
    Ending.ofResult (.error (.error .opening e)) = .exit 2 ↔ ∃ cause, e = .config cause := by
  constructor
  · intro h
    cases e with
    | config cause => exact ⟨cause, rfl⟩
    | _ => cases h
  · rintro ⟨cause, rfl⟩
    rfl

/-- A run without a selection ends as bad usage unless it is stopped before by its configuration. -/
theorem Invocation.Runs.ending_iff {i : Invocation} {s : Surroundings} {v : Version} {table : Text}
    {q : Query} {r : Except Failure (List Text)} {xs : List Exchange} {engine : Engine}
    (hserves : Serves engine table) (h : i.Runs s v r xs) (hxs : From engine xs)
    (hdatabase : i.DatabaseExists s) (hq : i.command.selective? = some (table, q))
    (hclip : Command.Unclipped q) (hbare : q.IsBare) :
    Ending.ofResult r = .exit 2 ↔ i.Configures s := by
  have htable := Command.table?_of_selective? hq
  have hmust : i.mustExist = true := by rw [mustExist, htable]
  have hsets : i.setsMode = true := by rw [setsMode, htable]; rfl
  rw [Runs, hmust, hsets] at h
  cases h with
  | unopened hopen =>
    cases hopen with
    | missing _ hname hfile =>
      rcases hdatabase with hmemory | hhas
      · exact absurd hmemory hname
      · rw [hhas] at hfile
        cases hfile
    | @unset e hunset =>
      rw [ending_opening_iff]
      constructor
      · intro hcause
        refine ⟨fun e' he' => ?_, fun config hconfig => ?_⟩
        · cases hunset.symm.trans he'
          exact hcause
        · cases hunset.symm.trans hconfig
      · exact fun hconfigures => hconfigures.fails e hunset
    | @failed config e _ hset hd =>
      rw [ending_opening_iff]
      refine iff_of_false ?_ fun hconfigures => ?_
      · rintro ⟨cause, he⟩
        exact opening_ne_config hd cause he
      · cases opening_ok hserves hd hxs (hconfigures.ready config hset)
  | opened hopen hwork =>
    cases hopen with
    | opened hset hd =>
      rw [Does, htable] at hwork
      rw [from_append, from_append] at hxs
      have hrefused := Works.refused hserves hwork hxs.1.2 hq hclip hbare
      refine iff_of_true (ending_of_refused hrefused) ⟨fun e he => ?_, fun config hconfig => ?_⟩
      · cases hset.symm.trans he
      · cases hset.symm.trans hconfig
        exact ready_of_opening hd

/-- **Changing documents needs a selection.** Whatever is asked of a command that deletes, patches
or replaces documents without `--all`, for which there is neither an order nor a limit, and whatever
the engine does: every statement that writes is the change with a clause behind it, in which each
condition that is supplied stands between brackets, and there is at least one. If none is supplied
nothing is written; and if then the database and the table exist and the engine raises nothing, the
run ends with exit code 2, unless it is stopped before: by a failure to read the configuration that
is no configuration error, or by a time to wait for locks that has too many digits to be written. -/
theorem selection_required {i : Invocation} {table : Text} {q : Query}
    (hq : i.command.selective? = some (table, q)) (hclip : Command.Unclipped q) (s : Surroundings)
    (engine : Engine) (version : Version) (ids : Nat → Text) :
    let outcome := (Request.run i).perform s (Session.start engine version ids)
    (∀ c ∈ outcome.session.calls, c.Writes → ∃ change conditions, i.command.Changes change ∧
      q.Supplies conditions ∧ conditions ≠ [] ∧ c = selected change conditions) ∧
    (q.IsBare → ∀ c ∈ outcome.session.calls, c.Reads) ∧
    (q.IsBare → i.DatabaseExists s → Serves engine table →
      (outcome.ending = .exit 2 ↔ i.Configures s)) := by
  intro outcome
  obtain ⟨r, hruns, hending, -⟩ := exists_runs i s engine version ids
  have hwritten : ∀ c ∈ outcome.session.calls, c.Writes → ∃ change conditions,
      i.command.Changes change ∧ q.Supplies conditions ∧ conditions ≠ [] ∧
        c = selected change conditions := by
    intro c hc hwrites
    obtain ⟨x, hx, rfl⟩ := mem_exchanges_of_mem hc
    exact hruns.writes_selected hq hclip hx hwrites
  refine ⟨hwritten, fun hbare c hc hwrites => ?_, fun hbare hdatabase hserves => ?_⟩
  · obtain ⟨_, conditions, -, hsupplies, hne, -⟩ := hwritten c hc hwrites
    exact hne (Query.supplies_of_bare hbare hsupplies)
  · have hfrom : From engine (exchanges engine [] outcome.session.calls) :=
      fun x hx => exists_of_mem_exchanges hx
    have hend : outcome.ending = .ofResult r := hending
    rw [hend]
    exact hruns.ending_iff hserves hfrom hdatabase hq hclip hbare

/-- The engine of a database that holds one table. -/
def oneTable (table : Text) : Engine :=
  Rules.engine
    [⟨"SELECT name FROM sqlite_master WHERE type = 'table'".toList, .rows [[.text table]] 0⟩]

theorem serves_oneTable (table : Text) : Serves (oneTable table) table where
  answers history c := by
    show ∃ rows changes, Rules.reply _ c = .rows rows changes
    rcases Rules.reply_cases _ c with ⟨rule, hrule, -, hreply⟩ | hreply
    · rw [hreply, List.mem_singleton.1 hrule]
      exact ⟨_, _, rfl⟩
    · rw [hreply]
      exact Rules.exists_fallback _
  journal history mode rows changes h := by
    have hreply : oneTable table history (.run ("PRAGMA journal_mode=".toList ++ mode) []) =
        .rows [[.text mode]] 0 := rfl
    cases hreply.symm.trans h
    exact ⟨_, rfl⟩
  lists history rows changes h := by
    have hreply : oneTable table history (.run listing []) = .rows [[.text table]] 0 := rfl
    cases hreply.symm.trans h
    exact ⟨[table], rfl, List.mem_singleton.2 rfl⟩

/-- The exit code of a program that ends with one. -/
def Ending.code? : Ending → Option Nat
  | .exit code => some code
  | .crash _ => none

/-- An empty template is no selection, so the deletion is refused. An empty id is one, so the
documents with that id are deleted. -/
theorem selection_required_empty :
    let s : Surroundings := ⟨[("d.db".toList, [])], []⟩
    let words (option : String) : List Text :=
      ["--db".toList, "d.db".toList, "delete".toList, "t".toList, option.toList, []]
    let outcome (i : Invocation) :=
      (Request.run i).perform s (Session.start (oneTable "t".toList) [3, 45, 1] fun _ => [])
    (∃ i, Request.ofWords s.environment (words "--where") = some (.run i) ∧
      (∀ c ∈ (outcome i).session.calls, c.Reads) ∧ (outcome i).ending = .exit 2) ∧
    ∃ i, Request.ofWords s.environment (words "--id") = some (.run i) ∧
      ∃ condition,
        selected ⟨"delete from t".toList, []⟩ [condition] ∈ (outcome i).session.calls := by
  intro s words outcome
  let run (q : Query) : Invocation :=
    ⟨"d.db".toList, none, .plain, false, .delete "t".toList q false⟩
  let bare : Query := ⟨some [], [], [], none, none, false, none⟩
  let byId : Query := ⟨none, [], [], some [], none, false, none⟩
  constructor
  · have hwords : Request.ofWords s.environment (words "--where") = some (.run (run bare)) := rfl
    obtain ⟨-, hreads, hending⟩ := selection_required (i := run bare) rfl
      (unclipped_of_ofWords hwords rfl) s (oneTable "t".toList) [3, 45, 1] fun _ => []
    have hbare : bare.IsBare := ⟨rfl, rfl, rfl⟩
    have hconfig : (run bare).config s = .ok Config.default := rfl
    refine ⟨run bare, hwords, hreads hbare, ?_⟩
    refine (hending hbare (.inr (by decide)) (serves_oneTable _)).2
      ⟨fun e he => ?_, fun config hset => ?_⟩
    · cases hconfig.symm.trans he
    · cases hconfig.symm.trans hset
      decide +kernel
  · have hwords : Request.ofWords s.environment (words "--id") = some (.run (run byId)) := rfl
    obtain ⟨hwritten, -, -⟩ := selection_required (i := run byId) rfl
      (unclipped_of_ofWords hwords rfl) s (oneTable "t".toList) [3, 45, 1] fun _ => []
    have hmem : Call.run "delete from t where (data->>'$.id' = ?)".toList [.text []] ∈
        (outcome (run byId)).session.calls := by
      decide +kernel
    have hwrites : (Call.run "delete from t where (data->>'$.id' = ?)".toList
        [.text []]).Writes := by
      show Text.verb _ ∈ writingVerbs
      decide
    obtain ⟨change, conditions, hchange, hsupplies, -, hcall⟩ := hwritten _ hmem hwrites
    obtain ⟨_, _, _, htemplate, hfilters, hid, rfl⟩ := hsupplies
    cases hchange
    rw [htemplate.eq_nil rfl, hfilters.eq_nil rfl] at hcall
    cases hid with
    | absent hnone => cases hnone
    | given => exact ⟨run byId, hwords, _, hcall ▸ hmem⟩

/-- Keys of a configuration file that have no common order crash the run before it is refused. -/
theorem selection_required_unordered_keys :
    let s : Surroundings :=
      ⟨[("d.db".toList, []), ("c.yml".toList, "0: x\nnull: y\n".toList)], []⟩
    let engine := oneTable "t".toList
    ∃ i q, Request.ofWords s.environment
        ["--db".toList, "d.db".toList, "--config".toList, "c.yml".toList, "delete".toList,
          "t".toList] = some (.run i) ∧
      i.command.selective? = some ("t".toList, q) ∧ q.IsBare ∧ i.DatabaseExists s ∧
      Serves engine "t".toList ∧
      ∀ code, ((Request.run i).perform s (Session.start engine [3, 45, 1] fun _ => [])).ending ≠
        .exit code := by
  intro s engine
  let q : Query := ⟨none, [], [], none, none, false, none⟩
  let i : Invocation :=
    ⟨"d.db".toList, some "c.yml".toList, .plain, false, .delete "t".toList q false⟩
  have hcrash : ((Request.run i).perform s
      (Session.start engine [3, 45, 1] fun _ => [])).ending.code? = none := by
    decide +kernel
  refine ⟨i, q, rfl, rfl, ⟨rfl, rfl, rfl⟩, .inr (by decide), serves_oneTable _, ?_⟩
  intro code hcode
  rw [hcode] at hcrash
  cases hcrash

end DocTable.Console
