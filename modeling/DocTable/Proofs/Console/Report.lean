import DocTable.Proofs.Console.Closing
/-!
# DocTable.Proofs.Console.Report

Reports with numbers for each table.

A report lists the tables, counts the documents of each with one statement, and then looks up the
indexes of each with one statement (`Surveys`). The counting statements name their tables by
identifiers between double quotes. How such an identifier is read is said by `Sql.unquote?`, and it
is read as the name that was put between the quotes if and only if the name holds no double quote
(`unquote?_enclosed_iff`). `report_counts_tables` puts all of this together.
-/

namespace DocTable

namespace Sql

/-! ### Identifiers -/

/-- A text between double quotes. -/
def enclosed (t : Text) : Text :=
  '"' :: t ++ ['"']

/-- The name in an identifier, from behind its opening quote on. A doubled quote is a quote of the
name; any other quote closes the identifier, and nothing may stand behind it. -/
def nameToQuote? : Text → Option Text
  | [] => none
  | ['"'] => some []
  | '"' :: '"' :: rest => (nameToQuote? rest).map ('"' :: ·)
  | c :: rest => if c = '"' then none else (nameToQuote? rest).map (c :: ·)

/-- The name that an identifier between double quotes stands for. -/
def unquote? : Text → Option Text
  | '"' :: rest => nameToQuote? rest
  | _ => none

theorem nameToQuote?_append {name : Text} (h : '"' ∉ name) :
    nameToQuote? (name ++ ['"']) = some name := by
  induction name with
  | nil => rfl
  | cons c name ih =>
    rw [List.mem_cons, not_or] at h
    have hc : c ≠ '"' := Ne.symm h.1
    rw [List.cons_append, nameToQuote?, if_neg hc, ih h.2]
    · rfl
    · exact fun hquote => absurd hquote hc
    · exact fun _ hquote => absurd hquote hc

/-- All quotes but the closing one come in pairs. -/
theorem count_of_nameToQuote? {t name : Text} (h : nameToQuote? t = some name) :
    t.count '"' = 2 * name.count '"' + 1 := by
  induction t using nameToQuote?.induct generalizing name with
  | case1 => cases h
  | case2 =>
    cases h
    rfl
  | case3 rest ih =>
    obtain ⟨inner, hinner, rfl⟩ := Option.map_eq_some_iff.1 h
    have hcount := ih hinner
    rw [List.count_cons_self, List.count_cons_self, List.count_cons_self]
    omega
  | case4 rest hlast hpair =>
    rw [nameToQuote?, if_pos rfl] at h
    · cases h
    · exact hlast
    · exact hpair
  | case5 c rest hlast hpair hc ih =>
    rw [nameToQuote?, if_neg hc] at h
    · obtain ⟨inner, hinner, rfl⟩ := Option.map_eq_some_iff.1 h
      rw [List.count_cons_of_ne hc, List.count_cons_of_ne hc, ih hinner]
    · exact hlast
    · exact hpair

/-- A name between double quotes is read as itself if and only if it holds none. -/
theorem unquote?_enclosed_iff {name : Text} :
    unquote? (enclosed name) = some name ↔ '"' ∉ name := by
  constructor
  · intro h
    have hcount : (name ++ ['"']).count '"' = 2 * name.count '"' + 1 := count_of_nameToQuote? h
    rw [List.count_append, List.count_singleton_self] at hcount
    exact List.count_eq_zero.1 (by omega)
  · exact nameToQuote?_append

end Sql

namespace Session

/-! ### Values from an engine -/

variable {α β γ : Type}

/-- An engine answers calls, made one after another, with rows from which values are read. -/
def Yields (engine : Engine) (history : List Call) (k : List Row → Except Error α)
    (calls : List Call) (values : List α) : Prop :=
  List.Forall₂ (fun x a => ∃ rows changes, x.2 = .rows rows changes ∧ k rows = .ok a)
    (exchanges engine history calls) values

/-- Where the engine yields values, they are collected, with all of the calls. -/
theorem Collects.of_yields {engine : Engine} {history made : List Call} {c : γ → Call}
    {k : List Row → Except Error α} {gs : List γ} {r : Except Error (List α)} {values : List α}
    (h : Collects c (fun _ => k) gs r (exchanges engine history made))
    (hyields : Yields engine history k (gs.map c) values) :
    r = .ok values ∧ made = gs.map c := by
  rw [← map_fst_exchanges engine history made]
  generalize hxs : exchanges engine history made = xs at h
  induction h generalizing history made values with
  | done =>
    cases hyields
    exact ⟨rfl, rfl⟩
  | next rows changes ha _ ih =>
    obtain ⟨hreply, hothers⟩ := exchanges_eq_cons hxs
    cases hyields with
    | cons hfirst hyields =>
      obtain ⟨rows', changes', hreply', ha'⟩ := hfirst
      cases hreply.trans hreply'
      cases ha.symm.trans ha'
      obtain ⟨rfl, hcalls⟩ := ih hyields hothers
      exact ⟨rfl, congrArg _ hcalls⟩
  | refused rows changes he =>
    obtain ⟨hreply, -⟩ := exchanges_eq_cons hxs
    cases hyields with
    | cons hfirst _ =>
      obtain ⟨rows', changes', hreply', ha⟩ := hfirst
      cases hreply.trans hreply'
      cases he.symm.trans ha
  | failed e =>
    obtain ⟨hreply, -⟩ := exchanges_eq_cons hxs
    cases hyields with
    | cons hfirst _ =>
      obtain ⟨rows, changes, hreply', -⟩ := hfirst
      cases hreply.trans hreply'

end Session

namespace Console

open Session

/-- What a report says of a table. -/
def Output.Reports (style : Style) (table : Text) (documents indexes : Int) (lines : List Text) :
    Prop :=
  match style with
  | .json => ∃ members counted found : Members, lines = [(Json.object members).write .indented] ∧
      Members.get? "document_counts".toList members = some (.object counted) ∧
      Members.get? table counted = some (.int documents) ∧
      Members.get? "index_counts".toList members = some (.object found) ∧
      Members.get? table found = some (.int indexes)
  | .plain => "  ".toList ++ table ++ ": ".toList ++ Decimal.ofInt documents
      ++ " documents, ".toList ++ Decimal.ofInt indexes ++ " indexes".toList ∈ lines

namespace Invocation

open Output

/-! ### Numbers for each table -/

/-- The call that counts the documents of a table. -/
def counting (table : Text) : Call :=
  .run ("SELECT count(*) FROM ".toList ++ Sql.enclosed table) []

/-- The call that looks up the indexes on a table. -/
def searching (table : Text) : Call :=
  .run indexListing [.text table]

theorem follows_documentCount (table : Text) :
    Follows (documentCount table) (Asks (counting table) Table.countOf) :=
  (follows_run _ _).asks_bind Table.follows_countOf

/-- Numbers by table. -/
def tally {α : Type} (number : α → Int) (tables : List Text) (values : List α) : Members :=
  Members.ofPairs (tables.zip (values.map fun a => .int (number a)))

theorem mapM_zip {m : Type → Type} [Monad m] [LawfulMonad m] {α β γ : Type} (f : γ → m α)
    (g : α → β) (cs : List γ) :
    cs.mapM (fun c => f c >>= fun a => pure (c, g a)) =
      (fun as => cs.zip (as.map g)) <$> cs.mapM f := by
  induction cs with
  | nil => simp
  | cons c cs ih =>
    rw [List.mapM_cons, List.mapM_cons, ih]
    simp

theorem perTable_eq {α : Type} (f : Text → SessionM α) (number : α → Int) (tables : List Text) :
    perTable tables (fun t => number <$> f t) = tally number tables <$> tables.mapM f := by
  have hzip := mapM_zip f (fun a => Json.int (number a)) tables
  simp only [perTable, tally, map_eq_pure_bind, bind_assoc, pure_bind] at hzip ⊢
  rw [hzip]
  simp

/-- Each table has the number of its value; where a table is listed twice, that of the last one. -/
theorem get?_tally {α : Type} (number : α → Int) {tables : List Text} {values : List α} {k : Nat}
    {table : Text} {a : α} (htable : tables[k]? = some table) (ha : values[k]? = some a)
    (hlast : table ∉ tables.drop (k + 1)) :
    Members.get? table (tally number tables values) = some (.int (number a)) := by
  refine Members.get?_ofPairs (k := k) ?_ fun hmem => hlast ?_
  · rw [List.getElem?_zip_eq_some, List.getElem?_map, ha]
    exact ⟨htable, rfl⟩
  · obtain ⟨m, hm, rfl⟩ := List.mem_map.1 hmem
    rw [List.zip_eq_zipWith, List.drop_zipWith, ← List.zip_eq_zipWith] at hm
    exact (List.of_mem_zip hm).1

theorem tableLine_eq {table : Text} {documents indexes : Members} {n m : Int}
    (hn : Members.get? table documents = some (.int n))
    (hm : Members.get? table indexes = some (.int m)) :
    tableLine documents indexes table =
      "  ".toList ++ table ++ ": ".toList ++ Decimal.ofInt n ++ " documents, ".toList
        ++ Decimal.ofInt m ++ " indexes".toList := by
  unfold tableLine
  simp only [hn, hm, Option.getD_some, List.append_assoc, List.cons_append]
  rfl

/-- What a report with numbers does after it has listed the tables. -/
inductive Surveys (i : Invocation) (tables : List Text) :
    Except Error (List Text) → List Exchange → Prop
  | uncounted {e : Error} {xs : List Exchange} :
      Collects counting (fun _ => Table.countOf) tables (.error e) xs →
      Surveys i tables (.error e) xs
  | unsearched {numbers : List Int} {e : Error} {xs ys : List Exchange} :
      Collects counting (fun _ => Table.countOf) tables (.ok numbers) xs →
      Collects searching (fun _ rows => rows.mapM indexOf) tables (.error e) ys →
      Surveys i tables (.error e) (xs ++ ys)
  | told {numbers : List Int} {found : List (List IndexInfo)} {lines : List Text}
      {xs ys : List Exchange} :
      Collects counting (fun _ => Table.countOf) tables (.ok numbers) xs →
      Collects searching (fun _ rows => rows.mapM indexOf) tables (.ok found) ys →
      (∀ table ∈ tables, ∀ n m : Int,
        Members.get? table (tally id tables numbers) = some (.int n) →
        Members.get? table (tally (fun indexes => indexes.length) tables found) = some (.int m) →
        Reports i.style table n m lines) →
      Surveys i tables (.ok lines) (xs ++ ys)

/-- What a report with numbers does. -/
inductive Inspects (i : Invocation) : Except Error (List Text) → List Exchange → Prop
  | unlisted {e : Error} {xs : List Exchange} :
      Asks (.run listing []) (cellTexts 0) (.error e) xs → Inspects i (.error e) xs
  | listed {tables : List Text} {r : Except Error (List Text)} {xs ys : List Exchange} :
      Asks (.run listing []) (cellTexts 0) (.ok tables) xs → Surveys i tables r ys →
      Inspects i r (xs ++ ys)

/-- Numbers for each table are collected, and then other things are done. -/
theorem follows_perTable {α β : Type} {count : Text → SessionM Int} {number : α → Int}
    {f : Text → SessionM α} (hcount : count = fun t => number <$> f t) {c : Text → Call}
    {k : List Row → Except Error α} (hf : ∀ t, Follows (f t) (Asks (c t) k)) (tables : List Text)
    {g : Members → SessionM β} {R : Except Error β → List Exchange → Prop}
    (hg : ∀ as xs, Collects c (fun _ => k) tables (.ok as) xs →
      Follows (g (tally number tables as)) fun r ys => R r (xs ++ ys))
    (hfail : ∀ e xs, Collects c (fun _ => k) tables (.error e) xs → R (.error e) xs) :
    Follows (perTable tables count >>= g) R := by
  rw [hcount, perTable_eq, bind_map_left]
  exact (follows_collects hf tables).bind hg hfail

theorem follows_report (i : Invocation) (s : Surroundings) :
    Follows (i.report s true) (Inspects i) := by
  have hcounts : documentCount = fun t => id <$> documentCount t := by simp
  have hsearches : (fun t => do return (← indexes t).length : Text → SessionM Int) =
      fun t => (fun found => (found.length : Int)) <$> indexes t := by
    simp only [map_eq_pure_bind]
  unfold report
  refine follows_get fun session => ?_
  refine follows_tables.bind (fun tables xs hlisted => ?_) fun e xs h => .unlisted h
  refine Follows.mono (P := Surveys i tables) ?_ fun r ys h => .listed hlisted h
  refine follows_perTable hcounts follows_documentCount tables (fun numbers xs hnumbers => ?_)
    fun e xs h => .uncounted h
  refine follows_perTable hsearches follows_indexes tables (fun found ys hfound => ?_)
    fun e ys h => .unsearched hnumbers h
  cases hstyle : i.style with
  | json =>
    refine follows_pure ?_
    rw [List.append_nil]
    refine .told hnumbers hfound fun table _ n m hn hm => ?_
    rw [hstyle]
    -- The counts come behind the size of the file, if that is known.
    cases s.files.find? i.database with
    | none => exact ⟨_, _, _, rfl, rfl, hn, rfl, hm⟩
    | some content => exact ⟨_, _, _, rfl, rfl, hn, rfl, hm⟩
  | plain =>
    refine follows_pure ?_
    rw [List.append_nil]
    refine .told hnumbers hfound fun table htable n m hn hm => ?_
    rw [hstyle]
    exact List.mem_append_right _ (List.mem_map.2 ⟨table, htable, tableLine_eq hn hm⟩)

/-! ### Reading the report off the engine -/

namespace Surveys

variable {i : Invocation} {tables : List Text} {r : Except Error (List Text)} {xs : List Exchange}

theorem calls_prefix (h : Surveys i tables r xs) :
    xs.map Prod.fst <+: tables.map counting ++ tables.map searching := by
  cases h with
  | uncounted hcounts => exact hcounts.calls_prefix.trans (List.prefix_append _ _)
  | unsearched hcounts hsearches =>
    rw [List.map_append, hcounts.calls_of_ok]
    exact (List.prefix_append_right_inj _).2 hsearches.calls_prefix
  | told hcounts hsearches _ =>
    rw [List.map_append, hcounts.calls_of_ok]
    exact (List.prefix_append_right_inj _).2 hsearches.calls_prefix

/-- If the engine yields all numbers, the report tells them. -/
theorem of_yields {engine : Engine} {history made : List Call} {numbers : List Int}
    {found : List (List IndexInfo)} (h : Surveys i tables r (exchanges engine history made))
    (hnumbers : Yields engine history Table.countOf (tables.map counting) numbers)
    (hfound : Yields engine (history ++ tables.map counting) (fun rows => rows.mapM indexOf)
      (tables.map searching) found) :
    made = tables.map counting ++ tables.map searching ∧ ∃ lines, r = .ok lines ∧
      ∀ (k : Nat) (table : Text) (n : Int) (indexes : List IndexInfo),
        tables[k]? = some table → table ∉ tables.drop (k + 1) → numbers[k]? = some n →
        found[k]? = some indexes → Reports i.style table n indexes.length lines := by
  have hmade := map_fst_exchanges engine history made
  generalize hxs : exchanges engine history made = xs at h hmade
  cases h with
  | uncounted hcounts =>
    rw [← hxs] at hcounts
    cases (hcounts.of_yields hnumbers).1
  | unsearched hcounts hsearches =>
    have hcalls := hcounts.calls_of_ok
    rw [← exchanges_of_append hxs, hcalls] at hsearches
    cases (hsearches.of_yields hfound).1
  | @told numbers' found' lines xs ys hcounts hsearches htold =>
    have hcalls := hcounts.calls_of_ok
    rw [← exchanges_eq_append hxs] at hcounts
    cases (hcounts.of_yields hnumbers).1
    rw [List.map_append, hcalls, hsearches.calls_of_ok] at hmade
    rw [← exchanges_of_append hxs, hcalls] at hsearches
    cases (hsearches.of_yields hfound).1
    refine ⟨hmade.symm, lines, rfl, fun k table n indexes htable hlast hn hindexes => ?_⟩
    exact htold table (List.mem_of_getElem? htable) n indexes.length
      (get?_tally id htable hn hlast) (get?_tally _ htable hindexes hlast)

end Surveys

/-! ### Whole runs -/

theorem followsAt_survey {v : Version} (i : Invocation) (s : Surroundings)
    (hi : i.command = .info true) :
    FollowsAt v (i.run s) (Course i s true false fun _ r xs =>
      ∃ done, Inspects i done xs ∧ r = done.mapError (.error .inspecting)) := by
  obtain ⟨database, configFile, style, verbose, command⟩ := i
  cases hi
  exact followsAt_course _ s true fun config =>
    followsAt_during (((follows_report _ s).at v).mono fun r xs h => ⟨r, h, rfl⟩)

/-- The calls that open a database to look at it, and list its tables. -/
def lookingCalls (i : Invocation) (config : Config) : List Call :=
  (opening i.database config false).map Demand.call ++ [.run listing []]

/-- The database is opened, and then the engine lists tables. -/
structure Presents (i : Invocation) (config : Config) (engine : Engine) (tables : List Text) :
    Prop where
  opens : Accepts engine [] (opening i.database config false)
  lists : ∃ rows changes, cellTexts 0 rows = .ok tables ∧
    engine ((opening i.database config false).map Demand.call) (.run listing []) =
      .rows rows changes

/-- After these calls, the report goes on with the tables that are listed. -/
theorem exists_surveys {i : Invocation} {s : Surroundings} {config : Config} {engine : Engine}
    {tables : List Text} {calls : List Call} {r : Except Failure (List Text)}
    (hthere : ¬ i.Lacks s true) (hconfig : i.config s = .ok config)
    (hpresents : i.Presents config engine tables)
    (h : Course i s true false (fun _ r xs => ∃ done, Inspects i done xs ∧
      r = done.mapError (.error .inspecting)) r (exchanges engine [] calls)) :
    ∃ made done, calls = i.lookingCalls config ++ made ++ [.close] ∧
      Surveys i tables done (exchanges engine (i.lookingCalls config) made) ∧
      r = done.mapError (.error .inspecting) := by
  have hcalls := map_fst_exchanges engine [] calls
  generalize hxs : exchanges engine [] calls = xs at h hcalls
  cases h with
  | unopened hopen =>
    cases hopen with
    | missing hmust hname hfile => exact absurd ⟨hmust, hname, hfile⟩ hthere
    | unset hunset => cases hconfig.symm.trans hunset
    | failed hset hd =>
      cases hconfig.symm.trans hset
      rw [← hxs] at hd
      cases hd.accepts_iff.2 hpresents.opens
  | @opened _ _ front body reply hopen hwork =>
    cases hopen with
    | opened hset hd =>
      cases hconfig.symm.trans hset
      obtain ⟨done, hinspects, rfl⟩ := hwork
      have hopening := hd.calls_of_ok
      have hbody : exchanges engine ((opening i.database config false).map Demand.call)
          (body.map Prod.fst) = body := by
        rw [List.append_assoc] at hxs
        rw [← hopening]
        exact exchanges_eq_append (exchanges_of_append hxs)
      rw [List.map_append, List.map_append, hopening] at hcalls
      obtain ⟨rows, changes, htables, hreply⟩ := hpresents.lists
      cases hinspects with
      | unlisted hasks =>
        rw [← hbody] at hasks
        cases (hasks.of_reply hreply).2.trans htables
      | @listed _ _ listed rest hasks hsurveys =>
        have hlisted := exchanges_eq_append hbody
        have hrest := exchanges_of_append hbody
        rw [← hlisted] at hasks
        obtain ⟨hcall, heq⟩ := hasks.of_reply hreply
        cases heq.trans htables
        rw [hcall] at hrest
        refine ⟨rest.map Prod.fst, done, ?_, ?_, rfl⟩
        · rw [← hcalls, List.map_append, hcall, lookingCalls]
          simp
        · rw [lookingCalls, hrest]
          exact hsurveys

end Invocation

open Invocation

/-- **Reports address tables.** A report with numbers opens the database and lists its tables.
Whatever these are called, it goes on with one counting statement for each of them, in order, and
then looks up the indexes of each. The table of a counting statement is written as one identifier,
and that is read as the name of the table exactly if the name holds no double quote. If the engine
yields all numbers, no statement is left out, and the report tells for each table the number that
its counting statement came to and the number of its indexes. -/
theorem report_counts_tables {i : Invocation} {s : Surroundings} {config : Config}
    {engine : Engine} {tables : List Text} (hi : i.command = .info true)
    (hthere : ¬ i.Lacks s true) (hconfig : i.config s = .ok config)
    (hpresents : i.Presents config engine tables) (version : Version) (ids : Nat → Text) :
    let outcome := (Request.run i).perform s (Session.start engine version ids)
    let before := i.lookingCalls config
    let counts := tables.map fun table =>
      Call.run ("SELECT count(*) FROM ".toList ++ Sql.enclosed table) []
    let searches := tables.map fun table => Call.run indexListing [.text table]
    (∀ table ∈ tables, Sql.unquote? (Sql.enclosed table) = some table ↔ '"' ∉ table) ∧
    (∃ made, made <+: counts ++ searches ∧
      outcome.session.calls = before ++ made ++ [.close]) ∧
    ∀ (numbers : List Int) (found : List (List IndexInfo)),
      Yields engine before Table.countOf counts numbers →
      Yields engine (before ++ counts) (fun rows => rows.mapM indexOf) searches found →
      outcome.session.calls = before ++ (counts ++ searches) ++ [.close] ∧
      outcome.ending = .exit 0 ∧
      ∀ (k : Nat) (table : Text) (n : Int) (indexes : List IndexInfo),
        tables[k]? = some table → table ∉ tables.drop (k + 1) → numbers[k]? = some n →
        found[k]? = some indexes →
        Output.Reports i.style table n indexes.length outcome.output := by
  intro outcome before counts searches
  obtain ⟨r, hcourse, hending, houtput⟩ :=
    exists_of_followsAt (followsAt_survey (v := version) i s hi) engine ids
  obtain ⟨made, done, hcalls, hsurveys, rfl⟩ :=
    exists_surveys hthere hconfig hpresents hcourse
  refine ⟨fun table _ => Sql.unquote?_enclosed_iff, ⟨made, ?_, hcalls⟩, ?_⟩
  · have hprefix := hsurveys.calls_prefix
    rw [map_fst_exchanges] at hprefix
    exact hprefix
  · intro numbers found hnumbers hfound
    obtain ⟨rfl, lines, rfl, hreports⟩ := hsurveys.of_yields hnumbers hfound
    refine ⟨hcalls, hending, fun k table n indexes htable hlast hn hindexes => ?_⟩
    rw [houtput]
    exact hreports k table n indexes htable hlast hn hindexes

/-- Two tables, one of them with a blank in its name, and an index on each. -/
theorem report_counts_tables_blank :
    let s : Surroundings := ⟨[("d.db".toList, [])], []⟩
    let i : Invocation := ⟨"d.db".toList, none, .plain, false, .info true⟩
    let engine : Engine := Rules.engine
      [ ⟨"SELECT name FROM".toList, .rows [[.text "jedi".toList], [.text "my notes".toList]] 0⟩,
        ⟨"SELECT count(*) FROM \"jedi\"".toList, .rows [[.int 5]] 0⟩,
        ⟨"SELECT count(*) FROM \"my notes\"".toList, .rows [[.int 2]] 0⟩,
        ⟨"SELECT name, sql".toList, .rows [[.text "by_id".toList, .null]] 0⟩ ]
    let tables : List Text := ["jedi".toList, "my notes".toList]
    let outcome := (Request.run i).perform s (Session.start engine [3, 45, 1] fun _ => [])
    i.Presents Config.default engine tables ∧
      (∀ table ∈ tables, Sql.unquote? (Sql.enclosed table) = some table) ∧
      outcome.ending = .exit 0 ∧ Output.Reports .plain "jedi".toList 5 1 outcome.output ∧
      Output.Reports .plain "my notes".toList 2 1 outcome.output := by
  intro s i engine tables outcome
  have hthere : ¬ i.Lacks s true := fun h => absurd h.2.2 (by decide)
  have hpresents : i.Presents Config.default engine tables :=
    ⟨⟨⟨_, _, rfl, rfl⟩, ⟨_, _, rfl, rfl⟩, trivial⟩, ⟨_, _, rfl, rfl⟩⟩
  obtain ⟨hread, -, hreports⟩ :=
    report_counts_tables rfl hthere rfl hpresents [3, 45, 1] fun _ => []
  obtain ⟨-, hending, hreports⟩ := hreports [5, 2] [[⟨"by_id".toList, false, .null⟩],
      [⟨"by_id".toList, false, .null⟩]]
    (.cons ⟨_, _, rfl, rfl⟩ (.cons ⟨_, _, rfl, rfl⟩ .nil))
    (.cons ⟨_, _, rfl, rfl⟩ (.cons ⟨_, _, rfl, rfl⟩ .nil))
  refine ⟨hpresents, fun table htable => (hread table htable).2 ?_, hending, ?_, ?_⟩
  · revert table
    decide
  · exact hreports 0 _ _ _ rfl (by decide) rfl rfl
  · exact hreports 1 _ _ _ rfl (by decide) rfl rfl

/-- A table whose name holds a double quote is not addressed by any counting statement, although
there is an identifier for it. -/
theorem report_misses_quote :
    let s : Surroundings := ⟨[("d.db".toList, [])], []⟩
    let i : Invocation := ⟨"d.db".toList, none, .plain, false, .info true⟩
    let engine : Engine := Rules.engine
      [⟨"SELECT name FROM".toList, .rows [[.text "a\"b".toList]] 0⟩]
    let outcome := (Request.run i).perform s (Session.start engine [3, 45, 1] fun _ => [])
    i.Presents Config.default engine ["a\"b".toList] ∧
      Sql.unquote? "\"a\"\"b\"".toList = some "a\"b".toList ∧
      ∀ identifier, Sql.unquote? identifier = some "a\"b".toList →
        .run ("SELECT count(*) FROM ".toList ++ identifier) [] ∉ outcome.session.calls := by
  intro s i engine outcome
  refine ⟨⟨⟨⟨_, _, rfl, rfl⟩, ⟨_, _, rfl, rfl⟩, trivial⟩, ⟨_, _, rfl, rfl⟩⟩, rfl, ?_⟩
  intro identifier hread hmem
  -- What stands behind the beginning of a counting statement, in all statements that have it.
  let behind : Call → Option Text := fun
    | .run text _ => Text.afterStart? "SELECT count(*) FROM ".toList text
    | _ => none
  have hcounted : outcome.session.calls.filterMap behind = ["\"a\"b\"".toList] := by
    decide +kernel
  have hbehind : behind (.run ("SELECT count(*) FROM ".toList ++ identifier) []) =
      some identifier := Text.afterStart?_append _ _
  have hidentifier := List.mem_filterMap.2 ⟨_, hmem, hbehind⟩
  rw [hcounted, List.mem_singleton] at hidentifier
  rw [hidentifier] at hread
  exact absurd hread (by decide)

end Console

end DocTable
