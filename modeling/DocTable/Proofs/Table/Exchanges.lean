import DocTable.Proofs.Result
import DocTable.Proofs.Session.Record
import DocTable.Proofs.Statement.Operations
/-!
# DocTable.Proofs.Table.Exchanges

What table operations and the engine say to each other.

Every operation checks its arguments, then runs one statement and reads the rows of the reply
(`Attempts`, `Asks`). Opening a database, listing its tables and creating a table are short
dialogues.
-/

namespace DocTable

namespace Session

variable {α β : Type}

theorem mapM_lift (g : α → Except Error β) (as : List α) :
    as.mapM (fun a => lift (g a)) = lift (as.mapM g) := by
  induction as with
  | nil => rfl
  | cons a as ih =>
    rw [List.mapM_cons, List.mapM_cons, ih]
    cases g a with
    | error e => rfl
    | ok b =>
      cases as.mapM g with
      | error e => rfl
      | ok bs => rfl

/-! ### Cells -/

/-- The cell of a row at a position, if there is one. -/
def cellOf (row : Row) (position : Nat) : Except Error Json :=
  match row[position]? with
  | some v => .ok v
  | none => .error (.row .noCell)

theorem cell_eq_lift (row : Row) (position : Nat) :
    cell row position = lift (cellOf row position) := by
  unfold cell cellOf
  cases row[position]? with
  | none => rfl
  | some v => rfl

/-- The first cell of the first row, if there is one. -/
def firstCellOf (rows : List Row) : Except Error Json :=
  match rows with
  | [] => .error (.row .noRow)
  | [] :: _ => .error (.row .noCell)
  | (cell :: _) :: _ => .ok cell

theorem firstCell_eq_lift (rows : List Row) : firstCell rows = lift (firstCellOf rows) := by
  match rows with
  | [] | [] :: _ | (_ :: _) :: _ => rfl

/-- The texts of the cells at a position. -/
def cellTexts (position : Nat) (rows : List Row) : Except Error (List Text) :=
  rows.mapM fun row => Json.plain <$> cellOf row position

theorem mapM_cell_eq_lift (position : Nat) (rows : List Row) :
    (rows.mapM fun row => Json.plain <$> cell row position) = lift (cellTexts position rows) := by
  have hrow : ∀ row : Row, (Json.plain <$> cell row position : SessionM Text) =
      lift (Json.plain <$> cellOf row position) := by
    intro row
    rw [cell_eq_lift]
    cases cellOf row position with
    | error e => rfl
    | ok v => rfl
  simp only [hrow, mapM_lift, cellTexts]

/-! ### Questions about a database -/

theorem follows_run (text : Text) (args : List Json) :
    Follows (run text args) (Asks (.run text args) .ok) :=
  follows_call _

/-- The statement that lists the tables of a database. -/
def listing : Text :=
  "SELECT name FROM sqlite_master WHERE type = 'table' AND name NOT LIKE 'sqlite_%' ".toList
    ++ "ORDER BY name".toList

theorem follows_tables : Follows tables (Asks (.run listing []) (cellTexts 0)) := by
  unfold tables
  simp only [mapM_cell_eq_lift]
  exact (follows_run _ _).asks_lift (cellTexts 0)

/-- The statement that lists the indexes on a table. -/
def indexListing : Text :=
  "SELECT name, sql FROM sqlite_master WHERE type = 'index' AND tbl_name = ? ".toList
    ++ "ORDER BY name".toList

/-- Whether a statement makes a unique index, if it is one. -/
def uniqueOf (sql : Json) : Except Error Bool :=
  if !sql.given then .ok false
  else
    match sql with
    | .text t => .ok ("create unique".toList.isPrefixOf (Text.lower t))
    | v => .error (.noMember v.kind "lower".toList)

/-- The index that a row tells of, if it has the cells. -/
def indexOf : Row → Except Error IndexInfo
  | [name, sql] => (⟨name.plain, ·, sql⟩) <$> uniqueOf sql
  | row => .error (.row (if row.length < 2 then .tooFewCells 2 row.length else .tooManyCells 2))

theorem isUniqueIndex_eq_lift (sql : Json) : isUniqueIndex sql = lift (uniqueOf sql) := by
  unfold isUniqueIndex uniqueOf
  cases sql.given with
  | false => rfl
  | true => cases sql <;> rfl

theorem indexOfRow_eq_lift (row : Row) : indexOfRow row = lift (indexOf row) := by
  match row with
  | [name, sql] =>
    rw [indexOfRow, indexOf, isUniqueIndex_eq_lift]
    cases uniqueOf sql with
    | error e => rfl
    | ok unique => rfl
  | [] | [_] | _ :: _ :: _ :: _ => rfl

theorem follows_indexes (table : Text) :
    Follows (indexes table) (Asks (.run indexListing [.text table]) fun rows =>
      rows.mapM indexOf) := by
  have hrow : indexOfRow = fun row => lift (indexOf row) := funext indexOfRow_eq_lift
  unfold indexes
  simp only [hrow, mapM_lift]
  exact (follows_run _ _).asks_lift fun rows => rows.mapM indexOf

theorem follows_queryPlan (text : Text) (args : List Json) :
    Follows (queryPlan text args)
      (Asks (.run ("explain query plan ".toList ++ text) args) (cellTexts 3)) := by
  unfold queryPlan
  simp only [mapM_cell_eq_lift]
  exact (follows_run _ _).asks_lift (cellTexts 3)

/-! ### Opening a database -/

/-- The calls that open a database. Before the last of them, the time to wait for locks has to be
written. -/
def opening (path : Text) (config : Config) (setMode : Bool) : List Demand :=
  let setsMode := setMode && path ≠ ":memory:".toList
  let ready : Except Error Unit := discard (busyTimeout config.busyTimeout)
  ⟨.connect path, fun _ => if setsMode then .ok () else ready⟩ ::
    ((if setsMode then
        [⟨.run ("PRAGMA journal_mode=".toList ++ config.journalMode) [],
          fun rows => do
            discard (firstCellOf rows)
            ready⟩]
      else []) ++
      [⟨.run ("PRAGMA busy_timeout=".toList ++ Decimal.ofNat config.busyTimeout) [],
        fun _ => .ok ()⟩])

theorem follows_setJournalMode (mode : Text) :
    Follows (setJournalMode mode) (Asks (.run ("PRAGMA journal_mode=".toList ++ mode) [])
      fun rows => discard (firstCellOf rows)) := by
  unfold setJournalMode
  simp only [firstCell_eq_lift]
  refine (follows_run _ _).asks_bind (g := fun rows => discard (firstCellOf rows)) fun rows => ?_
  cases firstCellOf rows with
  | error e => exact follows_lift ⟨rfl, rfl⟩
  | ok kept =>
    rw [lift_ok_bind]
    split
    · exact follows_logEntry ⟨rfl, rfl⟩ _ _ _
    · exact follows_pure ⟨rfl, rfl⟩

theorem busyTimeout_eq_ok_iff {milliseconds : Nat} {statement : Text} :
    busyTimeout milliseconds = .ok statement ↔
      Decimal.isShowable milliseconds = true ∧
        "PRAGMA busy_timeout=".toList ++ Decimal.ofNat milliseconds = statement := by
  unfold busyTimeout
  cases Decimal.isShowable milliseconds with
  | true => simp
  | false => simp

theorem follows_busyTimeout {config : Config} {statement : Text}
    (h : busyTimeout config.busyTimeout = .ok statement) (message : Text) :
    Follows (do
        discard (run statement [])
        logEntry .debug .engine message)
      (Dialogue [⟨.run ("PRAGMA busy_timeout=".toList ++ Decimal.ofNat config.busyTimeout) [],
        fun _ => .ok ()⟩]) := by
  obtain ⟨-, rfl⟩ := busyTimeout_eq_ok_iff.1 h
  exact (follows_run _ _).asks_discard.dialogue_cons fun _ _ _ => follows_logEntry .done _ _ _

theorem follows_connect (path : Text) (config : Config) (setMode : Bool) :
    Follows (connect path config setMode) (Dialogue (opening path config setMode)) := by
  unfold connect
  refine follows_get fun s => ?_
  dsimp only
  -- What comes after the warning about an old engine does not depend on the warning.
  have hopen : ∀ message : Text, Follows (do
      discard (call (.connect path))
      if setMode && path ≠ ":memory:".toList then setJournalMode config.journalMode
      discard (run (← lift (busyTimeout config.busyTimeout)) [])
      logEntry .debug .engine message) (Dialogue (opening path config setMode)) := by
    intro message
    have hconnect := (follows_call (.connect path)).asks_discard
    have htimeout := fun statement (h : busyTimeout config.busyTimeout = .ok statement) =>
      follows_busyTimeout h message
    unfold opening
    dsimp only
    split
    · refine hconnect.dialogue_cons fun _ _ _ => ?_
      exact (follows_setJournalMode config.journalMode).dialogue_checked htimeout
    · exact hconnect.dialogue_checked htimeout
  split
  · exact (hopen _).logged _ _ _
  · exact hopen _

section

variable {path : Text} {config : Config} {setMode : Bool}

/-- What an opening demands of rows: the journal mode has to be answered. Then only a time to wait
that cannot be written stops it. -/
theorem accepts_opening {d : Demand} (hd : d ∈ opening path config setMode) {rows : List Row}
    (hjournal : d.call = .run ("PRAGMA journal_mode=".toList ++ config.journalMode) [] →
      ∃ kept, firstCellOf rows = .ok kept) :
    d.accepts rows = .ok () ∨
      Decimal.isShowable config.busyTimeout = false ∧ d.accepts rows = .error .notShowable := by
  have hready : (discard (busyTimeout config.busyTimeout) : Except Error Unit) = .ok () ∨
      Decimal.isShowable config.busyTimeout = false ∧
        (discard (busyTimeout config.busyTimeout) : Except Error Unit) = .error .notShowable := by
    unfold busyTimeout
    cases Decimal.isShowable config.busyTimeout with
    | true => exact .inl rfl
    | false => exact .inr ⟨rfl, rfl⟩
  unfold opening at hd
  dsimp only at hd
  rw [List.mem_cons, List.mem_append] at hd
  rcases hd with rfl | hd | hd
  · dsimp only
    split
    · exact .inl rfl
    · exact hready
  · split at hd
    · obtain rfl := List.mem_singleton.1 hd
      obtain ⟨kept, hkept⟩ := hjournal rfl
      dsimp only
      rw [hkept]
      exact hready
    · cases hd
  · obtain rfl := List.mem_singleton.1 hd
    exact .inl rfl

theorem accepts_opening_of_ready {d : Demand} (hd : d ∈ opening path config setMode)
    {rows : List Row} (hready : Decimal.isShowable config.busyTimeout = true)
    (hjournal : d.call = .run ("PRAGMA journal_mode=".toList ++ config.journalMode) [] →
      ∃ kept, firstCellOf rows = .ok kept) : d.accepts rows = .ok () := by
  refine (accepts_opening hd hjournal).resolve_right fun h => ?_
  rw [hready] at h
  cases h.1

/-- A database is opened only if the time to wait can be written. -/
theorem ready_of_opening {xs : List Exchange}
    (h : Dialogue (opening path config setMode) (.ok ()) xs) :
    Decimal.isShowable config.busyTimeout = true := by
  have haccepted := h.accepted_of_ok
  have hready : discard (busyTimeout config.busyTimeout) = (.ok () : Except Error Unit) := by
    unfold opening at haccepted
    dsimp only at haccepted
    rw [List.forall_mem_cons, List.forall_mem_append] at haccepted
    obtain ⟨⟨_, hconnect⟩, hjournal, -⟩ := haccepted
    split at hconnect
    · next hsets =>
      rw [if_pos hsets, List.forall_mem_singleton] at hjournal
      obtain ⟨rows, hrows⟩ := hjournal
      obtain ⟨-, -, hready⟩ := bind_eq_ok_iff.1 hrows
      exact hready
    · exact hconnect
  obtain ⟨statement, hstatement, -⟩ := bind_eq_ok_iff.1 hready
  exact (busyTimeout_eq_ok_iff.1 hstatement).1

/-- What ends an opening early is no error of the configuration. -/
theorem opening_ne_config {e : Error} {xs : List Exchange}
    (h : Dialogue (opening path config setMode) (.error e) xs) (cause : ConfigError) :
    e ≠ .config cause := by
  have hready : ∀ {e}, discard (busyTimeout config.busyTimeout) = (.error e : Except Error Unit) →
      e ≠ .config cause := by
    intro e he
    unfold busyTimeout at he
    split at he
    · cases he
    · cases he
      nofun
  rcases h.cause_of_error with ⟨_, rfl⟩ | ⟨d, hd, rows, he⟩
  · nofun
  unfold opening at hd
  dsimp only at hd
  rw [List.mem_cons, List.mem_append] at hd
  rcases hd with rfl | hd | hd
  · dsimp only at he
    split at he
    · cases he
    · exact hready he
  · split at hd
    · obtain rfl := List.mem_singleton.1 hd
      rcases bind_eq_error_iff.1 he with hcell | ⟨_, -, he⟩
      · match rows with
        | [] | [] :: _ =>
          cases hcell
          nofun
        | (_ :: _) :: _ => cases hcell
      · exact hready he
    · cases hd
  · obtain rfl := List.mem_singleton.1 hd
    cases he

end

end Session

namespace Table

open Session Sql

/-! ### Tables -/

/-- The calls that create a table, unless there is one. -/
def creation (name : Text) (storage : Storage) : List Demand :=
  [ ⟨.run (createTable name storage) [], fun _ => .ok ()⟩,
    ⟨.run (Sql.createIndex name (expand "$id".toList) none true) [], fun _ => .ok ()⟩ ]

/-- The exchanges that provide a table: none if the storage form is not to be had. -/
def Provides (v : Version) (name : Text) (config : Config) (r : Except Error Table)
    (xs : List Exchange) : Prop :=
  (∃ e, resolveStorage config v = .error e ∧ r = .error (.config e) ∧ xs = []) ∨
    ∃ storage done, resolveStorage config v = .ok storage ∧
      Dialogue (creation name storage) done xs ∧ r = done.map fun _ => ⟨name, storage⟩

theorem followsAt_provision (v : Version) (name : Text) (config : Config) :
    FollowsAt v (provision name config) (Provides v name config) := by
  unfold provision
  refine followsAt_get fun s hs => Follows.at ?_ v
  rw [hs]
  cases hstorage : resolveStorage config v with
  | error e =>
    exact follows_lift (r := .error (.config e)) (.inl ⟨e, hstorage, rfl, rfl⟩)
  | ok storage =>
    have hcreate : ∀ message : Text, Follows (do
        discard (run (createTable name storage) [])
        discard (run (Sql.createIndex name (expand "$id".toList) none true) [])
        logEntry .debug .table message) (Dialogue (creation name storage)) := by
      intro message
      refine (follows_run _ _).asks_discard.dialogue_cons fun _ _ _ => ?_
      exact (follows_run _ _).asks_discard.dialogue_cons fun _ _ _ => follows_logEntry .done _ _ _
    have hthen := fun message => (hcreate message).bind
      (f := fun _ => pure (⟨name, storage⟩ : Table)) (R := Provides v name config)
      (fun _ xs h => follows_pure ?_) fun e xs h => ?_
    · simp only [bind_assoc] at hthen
      exact hthen _
    · rw [List.append_nil]
      exact .inr ⟨storage, _, hstorage, h, rfl⟩
    · exact .inr ⟨storage, _, hstorage, h, rfl⟩

/-! ### Reading -/

theorem follows_execute (s : Statement) : Follows (execute s) (Asks (.run s.text s.args) .ok) :=
  (follows_run _ _).logged _ _ _

variable (t : Table) (args : List Argument)

theorem follows_all :
    Follows (t.all args) (Attempts (t.selection args) fun s =>
      Asks (.run s.text s.args) fun rows => rows.mapM decodeRow) :=
  follows_attempts fun s _ => (follows_execute s).asks_lift fun rows => rows.mapM decodeRow

theorem follows_get? :
    Follows (t.get? args) (Attempts (t.selection (args ++ [.fragment limitOne])) fun s =>
      Asks (.run s.text s.args) fun rows => List.head? <$> rows.mapM decodeRow) := by
  have hall := follows_all t (args ++ [.fragment limitOne])
  refine hall.attempts_asks_bind fun docs => follows_pure ⟨rfl, rfl⟩

theorem follows_getById? (id : Text) :
    Follows (t.getById? id) (Attempts (withId id) fun f =>
      Attempts (t.selection [.fragment f, .fragment limitOne]) fun s =>
        Asks (.run s.text s.args) fun rows => List.head? <$> rows.mapM decodeRow) :=
  follows_attempts fun f _ => follows_get? t [.fragment f]

/-- The first documents are asked for with one statement, unless none are wanted. -/
theorem follows_first {count : Nat} (hcount : count ≠ 0) :
    Follows (t.first count args) (Attempts (t.selection args) fun s =>
      Asks (.run s.text s.args) fun rows => do
        let docs ← (rows.take count).mapM decodeRow
        return (docs, decide (rows.length < count))) := by
  rw [first, if_neg hcount]
  refine follows_attempts fun s _ => (follows_execute s).asks_bind
    (g := fun rows => do
      let docs ← (rows.take count).mapM decodeRow
      return (docs, decide (rows.length < count))) fun rows => ?_
  cases (rows.take count).mapM decodeRow with
  | error e => exact follows_lift ⟨rfl, rfl⟩
  | ok docs => exact follows_pure ⟨rfl, rfl⟩

/-- The number in the first cell. -/
def countOf (rows : List Row) : Except Error Int := do
  (Integer.ofJson (← firstCellOf rows)).mapError fun e => .query (.integer e)

/-- Reading the number needs no engine. -/
theorem follows_countOf (rows : List Row) :
    Follows (do
        let cell ← firstCell rows
        lift ((Integer.ofJson cell).mapError fun e => .query (.integer e)))
      fun r xs => r = countOf rows ∧ xs = [] := by
  rw [firstCell_eq_lift]
  unfold countOf
  cases firstCellOf rows with
  | error e => exact follows_lift ⟨rfl, rfl⟩
  | ok cell => exact follows_lift ⟨rfl, rfl⟩

theorem follows_count :
    Follows (t.count args) (Attempts (t.counting args) fun s =>
      Asks (.run s.text s.args) countOf) :=
  follows_attempts fun s _ => (follows_execute s).asks_bind follows_countOf

theorem follows_explain :
    Follows (t.explain args) (Attempts (t.selection args) fun s =>
      Asks (.run ("explain query plan ".toList ++ s.text) s.args) (cellTexts 3)) :=
  follows_attempts fun s _ => follows_queryPlan s.text s.args

section

variable (fs : List Fragment)

/-- The call that runs the statement of a head, a table and fragments. -/
def asking (head : Text) : Call :=
  .run (composed head t.name fs).text (composed head t.name fs).args

theorem follows_all_fragments :
    Follows (t.all (fs.map .fragment)) (Asks (t.asking fs "select json(data) from".toList)
      fun rows => rows.mapM decodeRow) :=
  (follows_all t _).of_attempts (selection_fragments t fs)

theorem follows_get?_fragments :
    Follows (t.get? (fs.map .fragment))
      (Asks (t.asking (fs ++ [limitOne]) "select json(data) from".toList)
        fun rows => List.head? <$> rows.mapM decodeRow) := by
  have hargs : fs.map Argument.fragment ++ [.fragment limitOne] =
      (fs ++ [limitOne]).map Argument.fragment := by simp
  have hget := follows_get? t (fs.map .fragment)
  rw [hargs] at hget
  exact hget.of_attempts (selection_fragments t (fs ++ [limitOne]))

theorem follows_count_fragments :
    Follows (t.count (fs.map .fragment)) (Asks (t.asking fs "select count(*) from".toList)
      countOf) :=
  (follows_count t _).of_attempts (counting_fragments t fs)

theorem follows_explain_fragments :
    Follows (t.explain (fs.map .fragment))
      (Asks (t.asking fs "explain query plan select json(data) from".toList) (cellTexts 3)) := by
  have hplan := (follows_explain t _).of_attempts (selection_fragments t fs)
  have hhead := composed_append "explain query plan ".toList "select json(data) from".toList
    t.name fs
  have hcall : t.asking fs "explain query plan select json(data) from".toList =
      .run ("explain query plan ".toList
          ++ (composed "select json(data) from".toList t.name fs).text)
        (composed "select json(data) from".toList t.name fs).args := by
    rw [asking]
    exact congrArg (fun s : Statement => Call.run s.text s.args) hhead
  rw [hcall]
  exact hplan

end

theorem follows_createIndex (expr : Text) (name : Option Text) (unique : Bool) :
    Follows (t.createIndex expr name unique)
      (Asks (.run (Sql.createIndex t.name (expand expr) name unique) [])
        fun _ => .ok (Sql.createIndex t.name (expand expr) name unique)) := by
  have hrun := (follows_run (Sql.createIndex t.name (expand expr) name unique) []).asks_discard
  exact (hrun.asks_bind fun _ => follows_pure ⟨rfl, rfl⟩).logged _ _ _

/-! ### Writing -/

theorem follows_delete :
    Follows (t.delete args) (Attempts (t.deletion args) fun s =>
      Asks (.run s.text s.args) fun _ => .ok ()) :=
  follows_attempts fun s _ => (follows_execute s).asks_discard

theorem follows_patch (doc : Json) :
    Follows (t.patch doc args) (Attempts (t.patching doc args) fun s =>
      Asks (.run s.text s.args) fun _ => .ok ()) :=
  follows_attempts fun s _ => (follows_execute s).asks_discard

theorem follows_replace (doc : Json) :
    Follows (t.replace doc args) (Attempts (t.replacing doc args) fun s =>
      Asks (.run s.text s.args) fun _ => .ok ()) :=
  follows_attempts fun s _ => (follows_execute s).asks_discard

/-- The document with an id is found out without the engine. -/
theorem follows_identified (members : Members) :
    Follows (identified (.object members)) fun r xs =>
      xs = [] ∧ ∃ fresh, r = .ok (.object (Document.identify fresh members)) := by
  refine follows_silent fun s => ?_
  by_cases hid : Document.hasId members = true
  · have hsame : members = Document.identify [] members := (if_pos hid).symm
    rw [identified, if_pos hid]
    exact ⟨⟨rfl, rfl, (List.append_nil _).symm⟩, rfl, [], by rw [← hsame]; rfl⟩
  · rw [identified, if_neg hid]
    exact ⟨⟨rfl, rfl, (List.append_nil _).symm⟩, rfl, s.ids s.drawn, rfl⟩

theorem follows_insert (members : Members) :
    Follows (t.insert (.object members)) fun r xs =>
      ∃ fresh, Attempts (encode (.object (Document.identify fresh members))) (fun text =>
        Asks (.run (insertInto t.name t.storage) [.text text])
          fun _ => .ok (.object (Document.identify fresh members))) r xs := by
  refine (follows_identified members).bind (fun doc xs h => ?_) fun e xs h => ?_
  · obtain ⟨rfl, fresh, hdoc⟩ := h
    cases hdoc
    refine Follows.logged ?_ _ _ _
    refine (follows_attempts fun text _ => ?_).mono fun r xs h => ⟨fresh, h⟩
    exact (follows_run _ _).asks_discard.asks_bind fun _ => follows_pure ⟨rfl, rfl⟩
  · obtain ⟨-, _, h⟩ := h
    cases h

/-- The arguments for a document that is inserted with others. -/
def insertionRow (doc : Json) : Except Error (List Json) := do
  return [.text (← encode doc)]

theorem follows_identifiedAll (docs : List Members) :
    Follows ((docs.map Json.object).mapM identified) fun r xs =>
      xs = [] ∧ ∃ docs', r = .ok docs' ∧ List.Forall₂
        (fun d d' => ∃ fresh, d' = Json.object (Document.identify fresh d)) docs docs' := by
  induction docs with
  | nil => exact follows_pure ⟨rfl, [], rfl, .nil⟩
  | cons d docs ih =>
    rw [List.map_cons, List.mapM_cons]
    refine (follows_identified d).bind (fun doc xs h => ?_) fun e xs h => ?_
    · obtain ⟨rfl, fresh, hdoc⟩ := h
      cases hdoc
      refine ih.bind (fun docs' xs h => ?_) fun e xs h => ?_
      · obtain ⟨rfl, docs', hdocs, hall⟩ := h
        cases hdocs
        exact follows_pure ⟨rfl, _, rfl, .cons ⟨fresh, rfl⟩ hall⟩
      · obtain ⟨-, _, h, -⟩ := h
        cases h
    · obtain ⟨-, _, h⟩ := h
      cases h

theorem follows_insertMany (docs : List Members) :
    Follows (t.insertMany (docs.map .object)) fun r xs =>
      ∃ docs', List.Forall₂
          (fun d d' => ∃ fresh, d' = Json.object (Document.identify fresh d)) docs docs' ∧
        Attempts (docs'.mapM insertionRow) (fun rows =>
          Asks (.runMany (insertInto t.name t.storage) rows) fun _ => .ok docs') r xs := by
  refine (follows_identifiedAll docs).bind (fun docs' xs h => ?_) fun e xs h => ?_
  · obtain ⟨rfl, docs', hdocs, hall⟩ := h
    cases hdocs
    refine Follows.logged ?_ _ _ _
    refine (follows_attempts fun rows _ => ?_).mono fun r xs h => ⟨docs', hall, h⟩
    exact (follows_call _).asks_discard.asks_bind fun _ => follows_pure ⟨rfl, rfl⟩
  · obtain ⟨-, _, h, -⟩ := h
    cases h

end Table

end DocTable
