import DocTable.Proofs.Console.Commands
/-!
# DocTable.Proofs.Console.Course

The course of a command, from opening the database to closing it.

`Course` says once what the frame around all commands can do: it fails before the database is open,
or it opens it, does what is to be done, and closes it. In between, a command on a table may look
the table up, creates it unless it exists, and does what it is asked for (`Works`). Everything about
whole commands is read off this.
-/

namespace DocTable.Console

open Session

variable {v : Version}

/-- A failure is told together with the phase in which it happened. -/
theorem followsAt_during {α : Type} {phase : Phase} {m : SessionM α}
    {Q : Except Failure α → List Exchange → Prop}
    (h : FollowsAt v m fun r xs => Q (r.mapError (.error phase)) xs) :
    FollowsAt v (during phase m) Q := by
  intro s hs
  obtain ⟨made, hext, hQ⟩ := h s hs
  have hrun : (during phase m).run.run s =
      ((m.run.run s).1.mapError (.error phase), (m.run.run s).2) := rfl
  rw [hrun]
  exact ⟨made, hext, hQ⟩

/-- A step in a phase, and then others. -/
theorem followsAt_during_bind {α β : Type} {phase : Phase} {m : SessionM α} {f : α → ConsoleM β}
    {P : Except Error α → List Exchange → Prop} {R : Except Failure β → List Exchange → Prop}
    (hm : FollowsAt v m P)
    (hf : ∀ a xs, P (.ok a) xs → FollowsAt v (f a) fun r ys => R r (xs ++ ys))
    (hfail : ∀ e xs, P (.error e) xs → R (.error (.error phase e)) xs) :
    FollowsAt v (during phase m >>= f) R := by
  have hphase : FollowsAt v (during phase m) fun r xs =>
      ∃ done, P done xs ∧ r = done.mapError (.error phase) :=
    followsAt_during (hm.mono fun r xs h => ⟨r, h, rfl⟩)
  refine hphase.bind (fun a xs hr => ?_) fun e xs hr => ?_
  · obtain ⟨done, hdone, hr⟩ := hr
    cases mapError_eq_ok_iff.1 hr.symm
    exact hf a xs hdone
  · obtain ⟨done, hdone, hr⟩ := hr
    cases done with
    | ok _ => cases hr
    | error e' =>
      cases hr
      exact hfail e' xs hdone

namespace Invocation

variable (i : Invocation) (s : Surroundings)

/-! ### Opening -/

/-- The database has to exist, and there is none. -/
def Lacks (mustExist : Bool) : Prop :=
  mustExist = true ∧ i.database ≠ inMemory ∧ s.files.has i.database = false

/-- The exchanges that open the database. -/
inductive Opens (mustExist setMode : Bool) : Except Failure Config → List Exchange → Prop
  | missing : mustExist = true → i.database ≠ inMemory → s.files.has i.database = false →
      Opens mustExist setMode (.error (.databaseMissing i.database)) []
  | unset {e : Error} : i.config s = .error e → ¬ i.Lacks s mustExist →
      Opens mustExist setMode (.error (.error .opening e)) []
  | failed {config : Config} {e : Error} {xs : List Exchange} : i.config s = .ok config →
      Dialogue (opening i.database config setMode) (.error e) xs → ¬ i.Lacks s mustExist →
      Opens mustExist setMode (.error (.error .opening e)) xs
  | opened {config : Config} {xs : List Exchange} : i.config s = .ok config →
      Dialogue (opening i.database config setMode) (.ok ()) xs → ¬ i.Lacks s mustExist →
      Opens mustExist setMode (.ok config) xs

theorem followsAt_openDatabase (mustExist setMode : Bool) :
    FollowsAt v (i.openDatabase s mustExist setMode) (Opens i s mustExist setMode) := by
  unfold openDatabase
  dsimp only
  split
  · next hmissing =>
    rw [Bool.and_eq_true, Bool.and_eq_true] at hmissing
    refine (follows_throw (.missing hmissing.1.1 ?_ ?_)).at v
    · simpa using hmissing.1.2
    · simpa using hmissing.2
  · next hthere =>
    have hlacks : ¬ i.Lacks s mustExist := by
      rintro ⟨hmust, hname, hfile⟩
      exact hthere (by simp [hmust, hname, hfile])
    refine followsAt_during_bind (P := fun r xs => r = i.config s ∧ xs = []) ?_
      (fun config xs hr => ?_) fun e xs hr => ?_
    · exact (follows_lift ⟨rfl, rfl⟩).at v
    · obtain ⟨hconfig, rfl⟩ := hr
      refine followsAt_during_bind ((follows_connect i.database config setMode).at v)
        (fun _ xs hdone => ?_) fun e xs hfail => .failed hconfig.symm hfail hlacks
      refine (follows_pure ?_).at v
      rw [List.nil_append, List.append_nil]
      exact .opened hconfig.symm hdone hlacks
    · obtain ⟨hconfig, rfl⟩ := hr
      exact .unset hconfig.symm hlacks

variable {i s} in
theorem Opens.reads {mustExist setMode : Bool} {r : Except Failure Config} {xs : List Exchange}
    (h : Opens i s mustExist setMode r xs) : ∀ x ∈ xs, x.1.Reads := by
  cases h with
  | missing | unset => nofun
  | failed _ hd | opened _ hd => exact fun x hx => reads_opening (hd.mem_calls hx)

/-! ### Working on a table -/

/-- The exchanges that look a table up. -/
inductive Requires (name : Text) : Except Failure Unit → List Exchange → Prop
  | failed {e : Error} {xs : List Exchange} : Asks (.run listing []) (cellTexts 0) (.error e) xs →
      Requires name (.error (.error .working e)) xs
  | absent {names : List Text} {xs : List Exchange} :
      Asks (.run listing []) (cellTexts 0) (.ok names) xs → name ∉ names →
      Requires name (.error (.tableMissing name)) xs
  | listed {names : List Text} {xs : List Exchange} :
      Asks (.run listing []) (cellTexts 0) (.ok names) xs → name ∈ names →
      Requires name (.ok ()) xs

theorem followsAt_requireTable (name : Text) :
    FollowsAt v (requireTable name) (Requires name) := by
  unfold requireTable
  refine followsAt_during_bind (follows_tables.at v) (fun names xs hnames => ?_)
    fun e xs hfail => .failed hfail
  split
  · next hnone =>
    refine (follows_throw ?_).at v
    rw [List.append_nil]
    exact .absent hnames (by simpa using hnone)
  · next hsome =>
    refine (follows_pure ?_).at v
    rw [List.append_nil]
    exact .listed hnames (by simpa using hsome)

theorem Requires.asked {name : Text} {r : Except Failure Unit} {xs : List Exchange}
    (h : Requires name r xs) : ∃ reply, (Call.run listing [], reply) ∈ xs := by
  cases h with
  | failed hasks | absent hasks | listed hasks => exact hasks.mem

variable (mustExist : Bool) (name : Text) (config : Config)

/-- What comes before a table is provided: it is looked up if it has to exist. -/
def LooksUp (r : Except Failure Unit) (xs : List Exchange) : Prop :=
  if mustExist then Requires name r xs else r = .ok () ∧ xs = []

/-- The exchanges of a command between opening and closing the database; `B` relates the result
and the exchanges of what the command itself does. -/
inductive Works (v : Version) (mustExist : Bool) (name : Text)
    (B : Table → Except Failure (List Text) → List Exchange → Prop) (config : Config) :
    Except Failure (List Text) → List Exchange → Prop
  | unlisted {e : Failure} {xs : List Exchange} : LooksUp mustExist name (.error e) xs →
      Works v mustExist name B config (.error e) xs
  | unprovided {e : Error} {xs ys : List Exchange} : LooksUp mustExist name (.ok ()) xs →
      Table.Provides v name config (.error e) ys →
      Works v mustExist name B config (.error (.error .working e)) (xs ++ ys)
  | body {t : Table} {r : Except Failure (List Text)} {xs ys zs : List Exchange} :
      LooksUp mustExist name (.ok ()) xs → Table.Provides v name config (.ok t) ys → B t r zs →
      Works v mustExist name B config r (xs ++ ys ++ zs)

/-- The course of a command; `W` relates the result and the exchanges of what is done with the open
database. -/
inductive Course (mustExist setMode : Bool)
    (W : Config → Except Failure (List Text) → List Exchange → Prop) :
    Except Failure (List Text) → List Exchange → Prop
  | unopened {e : Failure} {xs : List Exchange} : Opens i s mustExist setMode (.error e) xs →
      Course mustExist setMode W (.error e) xs
  | opened {config : Config} {r : Except Failure (List Text)} {xs ys : List Exchange}
      {reply : Reply} : Opens i s mustExist setMode (.ok config) xs → W config r ys →
      Course mustExist setMode W r (xs ++ ys ++ [(.close, reply)])

/-- A table that has to exist is looked for in the listing, whatever comes of it. -/
theorem Works.asked {name : Text} {B : Table → Except Failure (List Text) → List Exchange → Prop}
    {config : Config} {r : Except Failure (List Text)} {xs : List Exchange}
    (h : Works v true name B config r xs) : ∃ reply, (Call.run listing [], reply) ∈ xs := by
  have hasked : ∀ {r ys}, LooksUp true name r ys → ys ⊆ xs →
      ∃ reply, (Call.run listing [], reply) ∈ xs := by
    intro r ys hlook hsub
    obtain ⟨reply, hmem⟩ := Requires.asked hlook
    exact ⟨reply, hsub hmem⟩
  cases h with
  | unlisted hlook => exact hasked hlook fun _ => id
  | unprovided hlook => exact hasked hlook (List.subset_append_left ..)
  | body hlook =>
    rw [List.append_assoc] at hasked ⊢
    exact hasked hlook (List.subset_append_left ..)

variable {B : Table → Except Failure (List Text) → List Exchange → Prop}
  {body : Table → ConsoleM (List Text)}
  {W : Config → Except Failure (List Text) → List Exchange → Prop}
  {work : Config → ConsoleM (List Text)}

/-- The database is closed if it has been opened. -/
theorem followsAt_course {setMode : Bool} (hwork : ∀ config, FollowsAt v (work config) (W config)) :
    FollowsAt v (i.openDatabase s mustExist setMode >>= fun config => closing (work config))
      (Course i s mustExist setMode W) := by
  refine (followsAt_openDatabase i s mustExist setMode).bind (fun config xs hopen => ?_)
    fun e xs h => .unopened h
  refine followsAt_closing ((hwork config).mono fun r ys hwork reply => ?_)
  rw [← List.append_assoc]
  exact .opened hopen hwork

theorem followsAt_lookUp :
    FollowsAt v (if mustExist then requireTable name else pure ()) (LooksUp mustExist name) := by
  cases mustExist with
  | true => exact followsAt_requireTable name
  | false => exact (follows_pure ⟨rfl, rfl⟩).at v

theorem followsAt_work (hbody : ∀ t, FollowsAt v (body t) (B t)) :
    FollowsAt v (do
        if mustExist then requireTable name
        body (← during .working (Table.provision name config)))
      (Works v mustExist name B config) := by
  have hprovide : ∀ xs, LooksUp mustExist name (.ok ()) xs →
      FollowsAt v (during .working (Table.provision name config) >>= body) fun r ys =>
        Works v mustExist name B config r (xs ++ ys) := by
    intro xs hlook
    refine followsAt_during_bind (Table.followsAt_provision v name config) (fun t ys hp => ?_)
      fun e ys hp => .unprovided hlook hp
    refine (hbody t).mono fun r zs hr => ?_
    rw [← List.append_assoc]
    exact .body hlook hp hr
  have hwork := (followsAt_lookUp (v := v) mustExist name).bind (fun _ => hprovide)
    fun e xs h => .unlisted h
  cases mustExist with
  | true | false => exact hwork

/-- What the frame around a command on a table does. -/
theorem followsAt_withTable (hbody : ∀ t, FollowsAt v (body t) (B t)) :
    FollowsAt v (i.withTable s mustExist name body)
      (Course i s mustExist true (Works v mustExist name B)) :=
  followsAt_course i s mustExist fun config => followsAt_work mustExist name config hbody

/-! ### Reports -/

theorem only_report (stats : Bool) : Only Call.Queries (i.report s stats) := by
  have hcount : ∀ table, Only Call.Queries (documentCount table) := by
    intro table
    unfold documentCount
    rw [List.append_assoc]
    refine ((follows_run _ _).only_of_asks ⟨trivial, reads_of_head (by decide) _ _⟩).bind
      fun rows => ?_
    rw [firstCell_eq_lift]
    exact (only_lift _).bind fun _ => only_lift _
  have hper : ∀ (names : List Text) (count : Text → SessionM Int),
      (∀ t, Only Call.Queries (count t)) → Only Call.Queries (perTable names count) := by
    intro names count h
    exact (only_mapM (fun t => (h t).bind fun _ => only_pure _) names).bind fun _ => only_pure _
  unfold report
  refine follows_get fun session => ?_
  refine only_tables.bind fun names => ?_
  have hindexes : ∀ t, Only Call.Queries (do return (← indexes t).length : SessionM Int) :=
    fun t => (only_indexes t).bind fun _ => only_pure _
  -- With or without numbers for each table, the lines are put together from what was read.
  cases stats with
  | true =>
    refine (hper names _ hcount).bind fun documents =>
      (hper names _ hindexes).bind fun indexes => ?_
    cases i.style with
    | json | plain => exact only_pure _
  | false =>
    refine (only_pure _).bind fun documents => (only_pure _).bind fun indexes => ?_
    cases i.style with
    | json | plain => exact only_pure _

end Invocation

/-! ### Whole commands -/

namespace Command

/-- The table that a command works on, and whether it has to exist. -/
def table? : Command → Option (Text × Bool)
  | .info _ => none
  | .init table _ _ | .insert table _ _ => some (table, false)
  | .get table _ | .find table _ | .count table _ | .explain table _ | .delete table _ _
  | .patch table _ _ _ _ | .replace table _ _ _ | .createIndex table _ _ _ | .listIndexes table =>
    some (table, true)

theorem followsAt_working {m : SessionM (List Text)}
    {P : Except Error (List Text) → List Exchange → Prop} (h : Follows m P) :
    FollowsAt v (during .working m) (Working P) :=
  followsAt_during ((h.at v).mono fun r _ hr => ⟨r, hr, rfl⟩)

theorem followsAt_runGet (style : Style) (id : Text) (t : Table) :
    FollowsAt v (runGet style id t) (Gets style t id) := by
  obtain ⟨f, hf, -⟩ := Table.withId_eq id
  have hget : Follows (t.getById? id) (Asks (t.asking [f, Table.limitOne]
      "select json(data) from".toList) fun rows => List.head? <$> rows.mapM Table.decodeRow) := by
    unfold Table.getById?
    rw [hf]
    exact t.follows_get?_fragments [f]
  refine followsAt_during_bind (hget.at v) (fun found xs h => ?_) fun e xs h => ⟨f, _, hf, h, rfl⟩
  split
  · refine (follows_throw ?_).at v
    rw [List.append_nil]
    exact ⟨f, _, hf, h, rfl⟩
  · refine (follows_throw ?_).at v
    rw [List.append_nil]
    exact ⟨f, _, hf, h, rfl⟩
  · next doc hnull =>
    have hshown : doc.isShowable = true := by
      obtain ⟨rows, hrows⟩ := h.exists_rows
      obtain ⟨docs, hdocs, hfirst⟩ := map_eq_ok_iff.1 hrows
      exact isShowable_of_decodeRows hdocs doc (List.mem_of_head? hfirst)
    refine followsAt_during ((follows_lift ?_).at v)
    rw [List.append_nil, Output.documentLines_eq_ok style (List.forall_mem_singleton.2 hshown)]
    refine ⟨f, _, hf, h, ?_⟩
    cases doc with
    | null => exact absurd rfl hnull
    | _ => rfl

end Command

namespace Invocation

/-- What an invocation does with the open database: it looks around, or it works on a table. -/
def Does (i : Invocation) (s : Surroundings) (v : Version) (config : Config)
    (r : Except Failure (List Text)) (xs : List Exchange) : Prop :=
  match i.command.table? with
  | none => ∀ x ∈ xs, x.1.Queries
  | some (name, mustExist) =>
    Works v mustExist name (fun t => i.command.Performs s.files i.style t) config r xs

/-- Whether the database has to exist. -/
def mustExist (i : Invocation) : Bool :=
  match i.command.table? with
  | none => true
  | some (_, mustExist) => mustExist

/-- Whether the journal mode is set when the database is opened. -/
def setsMode (i : Invocation) : Bool :=
  i.command.table?.isSome

/-- The course of any command. -/
def Runs (i : Invocation) (s : Surroundings) (v : Version) :
    Except Failure (List Text) → List Exchange → Prop :=
  Course i s i.mustExist i.setsMode (i.Does s v)

theorem followsAt_run (i : Invocation) (s : Surroundings) : FollowsAt v (i.run s) (Runs i s v) := by
  obtain ⟨database, configFile, style, verbose, command⟩ := i
  cases command with
  | info stats =>
    have hreport : Only Call.Queries (report _ s stats) :=
      only_report ⟨database, configFile, style, verbose, .info stats⟩ s stats
    exact followsAt_course _ s true fun config => followsAt_during (hreport.at v)
  | init table indexes uniqueIndexes =>
    exact followsAt_withTable _ s _ _ fun t =>
      Command.followsAt_working (Command.follows_runInit style t database indexes uniqueIndexes)
  | insert table document file =>
    exact followsAt_withTable _ s _ _ fun t =>
      Command.followsAt_working (Command.follows_runInsert style t s.files document file)
  | get table id =>
    exact followsAt_withTable _ s _ _ fun t => Command.followsAt_runGet style id t
  | find table q =>
    exact followsAt_withTable _ s _ _ fun t =>
      Command.followsAt_working (Command.follows_runFind style t q)
  | count table q =>
    exact followsAt_withTable _ s _ _ fun t =>
      Command.followsAt_working (Command.follows_runCount style t q)
  | delete table q all =>
    exact followsAt_withTable _ s _ _ fun t =>
      Command.followsAt_working (Command.follows_runDelete style t q all)
  | patch table document q all dryRun =>
    cases dryRun with
    | true =>
      exact followsAt_withTable _ s _ _ fun t =>
        Command.followsAt_working (Command.follows_dryRun style t document q all)
    | false =>
      exact followsAt_withTable _ s _ _ fun t =>
        Command.followsAt_working (Command.follows_runPatch style t document q all)
  | replace table document q all =>
    exact followsAt_withTable _ s _ _ fun t =>
      Command.followsAt_working (Command.follows_runReplace style t document q all)
  | explain table q =>
    exact followsAt_withTable _ s _ _ fun t =>
      Command.followsAt_working (Command.follows_runExplain style t q)
  | createIndex table expr name unique =>
    exact followsAt_withTable _ s _ _ fun t =>
      Command.followsAt_working (Command.follows_runCreateIndex style t expr name unique)
  | listIndexes table =>
    exact followsAt_withTable _ s _ _ fun t =>
      Command.followsAt_working (Command.follows_runListIndexes style t)

end Invocation

/-- How the program ends after a run. -/
def Ending.ofResult : Except Failure (List Text) → Ending
  | .ok _ => .exit 0
  | .error e =>
    match e.exitCode? with
    | some code => .exit code
    | none => .crash e

/-- What the program prints after a run: nothing unless it succeeds. -/
def outputOf : Except Failure (List Text) → List Text
  | .ok lines => lines
  | .error _ => []

theorem perform_eq (i : Invocation) (s : Surroundings) (session : Session) :
    let outcome := (Request.run i).perform s session
    let result := (i.run s).run.run session
    outcome.session = result.2 ∧ outcome.ending = .ofResult result.1 ∧
      outcome.output = outputOf result.1 := by
  dsimp only
  unfold Request.perform
  dsimp only
  rcases (i.run s).run.run session with ⟨e | lines, session'⟩
  · unfold Ending.ofResult
    dsimp only
    cases e.exitCode? with
    | none => exact ⟨rfl, rfl, rfl⟩
    | some code => exact ⟨rfl, rfl, rfl⟩
  · exact ⟨rfl, rfl, rfl⟩

/-- Every run of the program has the exchanges of its command, with the replies of the engine, and
ends and prints as these say. -/
theorem exists_of_followsAt {i : Invocation} {s : Surroundings} {version : Version}
    {Q : Except Failure (List Text) → List Exchange → Prop} (h : FollowsAt version (i.run s) Q)
    (engine : Engine) (ids : Nat → Text) :
    let outcome := (Request.run i).perform s (Session.start engine version ids)
    ∃ r, Q r (exchanges engine [] outcome.session.calls) ∧
      outcome.ending = .ofResult r ∧ outcome.output = outputOf r := by
  intro outcome
  obtain ⟨hsession, hending, houtput⟩ := perform_eq i s (Session.start engine version ids)
  obtain ⟨made, hext, hQ⟩ := h (Session.start engine version ids) rfl
  have hcalls : outcome.session.calls = made := by
    rw [hsession, hext.calls]
    rfl
  rw [hcalls]
  exact ⟨_, hQ, hending, houtput⟩

/-- Every run of the program is the course of its command. -/
theorem exists_runs (i : Invocation) (s : Surroundings) (engine : Engine) (version : Version)
    (ids : Nat → Text) :
    let outcome := (Request.run i).perform s (Session.start engine version ids)
    ∃ r, i.Runs s version r (exchanges engine [] outcome.session.calls) ∧
      outcome.ending = .ofResult r ∧ outcome.output = outputOf r :=
  exists_of_followsAt (i.followsAt_run s) engine ids

end DocTable.Console
