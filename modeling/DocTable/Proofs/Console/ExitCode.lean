import DocTable.Proofs.Console.Checking
import DocTable.Proofs.Console.Selective
/-!
# DocTable.Proofs.Console.ExitCode

The exit code of a command on a table.

`FirstEvent` reads a list of events, each with its exit code, in the order in which a run comes to
them: the first one that occurs decides. Each part of a run either goes on, or ends it with the code
of its own event (`Command.performs_decided`, `LooksUp.decided`, `Works.decided`), and so does the
run (`Runs.decided`).
-/

namespace DocTable

/-- The first event of a list that occurs has an exit code; it is 0 if none does. -/
inductive FirstEvent : List (Prop × Nat) → Nat → Prop
  | none : FirstEvent [] 0
  | here {p : Prop} {code : Nat} {events : List (Prop × Nat)} : p →
      FirstEvent ((p, code) :: events) code
  | later {p : Prop} {code n : Nat} {events : List (Prop × Nat)} : ¬ p → FirstEvent events n →
      FirstEvent ((p, code) :: events) n

theorem FirstEvent.unique {events : List (Prop × Nat)} {m n : Nat} (hm : FirstEvent events m)
    (hn : FirstEvent events n) : m = n := by
  induction hm with
  | none =>
    cases hn
    rfl
  | here hp =>
    cases hn with
    | here => rfl
    | later hnone => exact absurd hp hnone
  | later hnone _ ih =>
    cases hn with
    | here hp => exact absurd hp hnone
    | later _ hrest => exact ih hrest

/-- Whether a call selects documents. -/
def Call.Selects : Call → Prop
  | .run text _ => "select json(data) from".toList <+: text
  | .connect _ | .runMany .. | .close => False

namespace Console

open Session Sql

namespace Command

/-! ### Documents that are not found -/

variable {files : Files} {style : Style} {t : Table} {r : Except Failure (List Text)}
  {xs : List Exchange}

/-- Rows begin with no document. A stored `null` counts as none. -/
def NoDocument (rows : List Row) : Prop :=
  rows = [] ∨ ∃ t rest, rows = [.text t] :: rest ∧ Json.read t = .ok .null

/-- The engine answers a selection with no document. -/
def FindsNothing (xs : List Exchange) : Prop :=
  ∃ x ∈ xs, x.1.Selects ∧ ∃ rows changes, x.2 = .rows rows changes ∧ NoDocument rows

theorem findsNothing_append {xs ys : List Exchange} :
    FindsNothing (xs ++ ys) ↔ FindsNothing xs ∨ FindsNothing ys := by
  simp only [FindsNothing, List.mem_append, or_and_right, exists_or]

theorem not_findsNothing {xs : List Exchange} (h : ∀ x ∈ xs, ¬ x.1.Selects) : ¬ FindsNothing xs :=
  fun ⟨x, hx, hselects, _⟩ => h x hx hselects

/-- A document is looked for, and not found. -/
def GetsNothing (c : Command) (xs : List Exchange) : Prop :=
  (∃ table id, c = .get table id) ∧ FindsNothing xs

/-- What can end a command while it works on its table, each with its exit code. -/
def events (c : Command) (files : Files) (xs : List Exchange) : List (Prop × Nat) :=
  [(Raised xs, 3), (c.Unreadable files, 1), (c.BadInput files, 2), (c.GetsNothing xs, 4)]

/-- Exchanges without a failure and without a selection do not decide anything. -/
structure Quiet (xs : List Exchange) : Prop where
  calm : ¬ Raised xs
  unselective : ∀ x ∈ xs, ¬ x.1.Selects

namespace Quiet

variable {c : Command} {xs ys : List Exchange}

theorem append (hxs : Quiet xs) (hys : Quiet ys) : Quiet (xs ++ ys) where
  calm h := (raised_append.1 h).elim hxs.calm hys.calm
  unselective := List.forall_mem_append.2 ⟨hxs.unselective, hys.unselective⟩

theorem close (reply : Reply) : Quiet [(.close, reply)] where
  calm := not_raised_close reply
  unselective := List.forall_mem_singleton.2 id

theorem raised_append_left (hxs : Quiet xs) : Raised (xs ++ ys) ↔ Raised ys := by
  rw [raised_append, or_iff_right hxs.calm]

theorem raised_append_right (hxs : Quiet xs) : Raised (ys ++ xs) ↔ Raised ys := by
  rw [raised_append, or_iff_left hxs.calm]

theorem getsNothing_append_left (hxs : Quiet xs) :
    c.GetsNothing (xs ++ ys) ↔ c.GetsNothing ys := by
  unfold GetsNothing
  rw [findsNothing_append, or_iff_right (not_findsNothing hxs.unselective)]

theorem getsNothing_append_right (hxs : Quiet xs) :
    c.GetsNothing (ys ++ xs) ↔ c.GetsNothing ys := by
  unfold GetsNothing
  rw [findsNothing_append, or_iff_left (not_findsNothing hxs.unselective)]

end Quiet

theorem noDocument_iff {rows : List Row} {docs : List Json}
    (h : rows.mapM Table.decodeRow = .ok docs) :
    NoDocument rows ↔ docs.head? = none ∨ docs.head? = some .null := by
  cases mapM_eq_ok_iff.1 h with
  | nil => exact iff_of_true (.inl rfl) (.inl rfl)
  | @cons row doc rows docs hrow _ =>
    constructor
    · rintro (hnone | ⟨t, rest, heq, hread⟩)
      · cases hnone
      · cases heq
        cases hread.symm.trans (mapError_eq_ok_iff.1 hrow)
        exact .inr rfl
    · rintro (hnone | hnull)
      · cases hnone
      · cases hnull
        unfold Table.decodeRow at hrow
        split at hrow
        · next t => exact .inr ⟨t, rows, rfl, mapError_eq_ok_iff.1 hrow⟩
        all_goals cases hrow

theorem gets_decided {table id : Text} (h : Gets style t id r xs) (hfit : AllFit xs) :
    ∃ code, Ending.ofResult r = .exit code ∧
      FirstEvent (events (.get table id) files xs) code := by
  obtain ⟨f, found, -, hasks, rfl⟩ := h
  have hread : ¬ Unreadable files (.get table id) := by
    rintro ⟨_, _, _, _, _, hc, -⟩
    cases hc
  have hbad : ¬ BadInput files (.get table id) := not_badInput rfl rfl
  have hselects := Table.begins_composed "select json(data) from".toList t.name [f, Table.limitOne]
  rcases hasks with ⟨rows, changes, rfl, rfl⟩ | ⟨e, rfl, rfl⟩
  · have hnone : ¬ Raised [(t.asking [f, Table.limitOne] "select json(data) from".toList,
        Reply.rows rows changes)] := not_raised_rows _ _ _
    have hnothing : GetsNothing (.get table id)
        [(t.asking [f, Table.limitOne] "select json(data) from".toList, .rows rows changes)] ↔
          NoDocument rows := by
      constructor
      · rintro ⟨-, x, hx, -, rows', changes', hreply, hnothing⟩
        rw [List.mem_singleton.1 hx] at hreply
        cases hreply
        exact hnothing
      · exact fun h => ⟨⟨table, id, rfl⟩, _, List.mem_cons_self, hselects, rows, changes, rfl, h⟩
    obtain ⟨docs, hdocs⟩ := (hfit _ _ _ _ List.mem_cons_self).decoded hselects
    have hfound : (List.head? <$> rows.mapM Table.decodeRow) = .ok docs.head? := by
      rw [hdocs]
      rfl
    dsimp only
    rw [hfound]
    -- From here on only the first document matters, and a `null` is as good as none.
    have hmissing := hnothing.trans (noDocument_iff hdocs)
    generalize docs.head? = first at hmissing
    by_cases hfirst : first = none ∨ first = some .null
    · refine ⟨4, ?_, .later hnone (.later hread (.later hbad (.here (hmissing.2 hfirst))))⟩
      rcases hfirst with rfl | rfl <;> rfl
    · refine ⟨0, ?_, .later hnone (.later hread (.later hbad
        (.later (hfirst ∘ hmissing.1) .none)))⟩
      match first, hfirst with
      | none, hfirst => exact absurd (.inl rfl) hfirst
      | some doc, hfirst =>
        cases doc with
        | null => exact absurd (.inr rfl) hfirst
        | _ => rfl
  · exact ⟨3, rfl, .here (raised_fail (by exact nofun) e)⟩

theorem ofResult_badInput {e : Error} (he : e.IsBadInput) :
    Ending.ofResult (.error (.error .working e)) = .exit 2 := by
  have hcode : (Failure.error .working e).exitCode? = some 2 := by
    have hbad : e.isBadInput = true := he
    cases e with
    | query | row => exact if_pos hbad
    | notShowable | reading | decoding | notFinite | invalid | input | words | cacheLimit => rfl
    | scalar | config | order | file | noMember | engine | tooManyColumns => cases hbad
  rw [Ending.ofResult, hcode]

/-- A file that cannot be read is trouble with files, whatever is in it. -/
theorem unreadable_decided {c : Command} (h : c.Performs files style t r xs)
    (hread : c.Unreadable files) : Ending.ofResult r = .exit 1 ∧ xs = [] := by
  have hinsert := hread
  obtain ⟨table, document, file, -, -, rfl, -⟩ := hinsert
  obtain ⟨done, hdone, rfl⟩ := h
  rcases payload_cases files table document file with
    ⟨-, e, hpayload⟩ | ⟨hreadable, -⟩ | ⟨hreadable, -⟩
  · rcases hdone with ⟨e', he', rfl, rfl⟩ | ⟨v, hv, -⟩
    · cases hpayload.symm.trans he'
      exact ⟨rfl, rfl⟩
    · cases hpayload.symm.trans hv
  · exact absurd hread hreadable
  · exact absurd hread hreadable

theorem performs_decided {c : Command} (h : c.Performs files style t r xs) (hfit : AllFit xs) :
    ∃ code, Ending.ofResult r = .exit code ∧ FirstEvent (c.events files xs) code := by
  -- Only `get` looks at what it has been given once more; any other command has succeeded by then.
  by_cases hget : ∃ table id, c = .get table id
  · obtain ⟨table, id, rfl⟩ := hget
    exact gets_decided h hfit
  have hnothing : ¬ c.GetsNothing xs := fun h => hget h.1
  by_cases hread : c.Unreadable files
  · obtain ⟨hcode, rfl⟩ := unreadable_decided h hread
    exact ⟨1, hcode, .later not_raised_nil (.here hread)⟩
  obtain ⟨done, rfl, hchecked⟩ :=
    performs_checked h hfit (fun table id hc => hget ⟨table, id, hc⟩) hread
  cases hchecked with
  | refused hbad he =>
    exact ⟨2, ofResult_badInput he, .later not_raised_nil (.later hread (.here hbad))⟩
  | settled hright hsettled =>
    cases hsettled with
    | served hnone =>
      exact ⟨0, rfl, .later hnone (.later hread (.later hright (.later hnothing .none)))⟩
    | raised hsome => exact ⟨3, rfl, .here hsome⟩

end Command

/-! ### The frame around a command -/

section

variable {path name : Text} {config : Config} {setMode : Bool} {storage : Storage}
  {r : Except Error Unit} {xs : List Exchange}

theorem opening_calls {d : Demand} (h : d ∈ opening path config setMode) :
    d.call = .connect path ∨ ∃ text, d.call = .run text [] ∧ "PRAGMA ".toList <+: text := by
  rw [opening, List.mem_cons, List.mem_append] at h
  rcases h with rfl | h | h
  · exact .inl rfl
  · split at h
    · rw [List.mem_singleton.1 h]
      exact .inr ⟨_, rfl, _, rfl⟩
    · cases h
  · rw [List.mem_singleton.1 h]
    exact .inr ⟨_, rfl, _, rfl⟩

theorem creation_calls {d : Demand} (h : d ∈ Table.creation name storage) :
    (∃ text, d.call = .run text [] ∧ "create ".toList <+: text) ∧
      ∀ rows, d.accepts rows = .ok () := by
  rcases List.mem_cons.1 h with rfl | h
  · refine ⟨⟨_, rfl, ?_⟩, fun _ => rfl⟩
    unfold createTable
    simp only [List.append_assoc]
    exact ⟨_, rfl⟩
  · rw [List.mem_singleton.1 h]
    refine ⟨⟨_, rfl, ?_⟩, fun _ => rfl⟩
    unfold Sql.createIndex createNamedIndex
    simp only [List.append_assoc]
    exact ⟨_, rfl⟩

/-- Opening a database is up to the engine, except for a time to wait that cannot be written. -/
theorem opening_settled_or (h : Dialogue (opening path config setMode) r xs) (hfit : AllFit xs) :
    Settled r xs ∨ ¬ Raised xs ∧ Decimal.isShowable config.busyTimeout = false ∧
      r = .error .notShowable := by
  have hcalls : ∀ d ∈ opening path config setMode, d.call ≠ .close := by
    intro d hd
    rcases opening_calls hd with hd | ⟨text, hd, -⟩
    all_goals
      rw [hd]
      nofun
  refine (h.settled_or (P := fun e => Decimal.isShowable config.busyTimeout = false ∧
    e = .notShowable) hcalls fun d hd rows changes hmem => ?_).imp_right ?_
  · refine (accepts_opening hd fun hcall => ?_).imp_right fun hstops =>
      ⟨_, ⟨hstops.1, rfl⟩, hstops.2⟩
    rw [hcall] at hmem
    exact (hfit _ _ _ _ hmem).firstCellOf ⟨_, rfl⟩
  · rintro ⟨hcalm, e, ⟨hlong, rfl⟩, hr⟩
    exact ⟨hcalm, hlong, hr⟩

theorem creation_settled (h : Dialogue (Table.creation name storage) r xs) : Settled r xs := by
  refine h.settled (fun d hd => ?_) fun d hd rows _ _ => (creation_calls hd).2 rows
  obtain ⟨⟨text, hcall, -⟩, -⟩ := creation_calls hd
  rw [hcall]
  nofun

/-- Opening a database is neither a selection nor a listing. -/
theorem not_selects_opening (h : Dialogue (opening path config setMode) r xs) :
    ∀ x ∈ xs, ¬ x.1.Selects ∧ x.1 ≠ .run listing [] := by
  intro x hx
  obtain ⟨d, hd, hcall⟩ := List.mem_map.1 (h.mem_calls hx)
  rw [← hcall]
  rcases opening_calls hd with hd | ⟨text, hd, htext⟩
  · rw [hd]
    exact ⟨id, nofun⟩
  · rw [hd]
    refine ⟨not_begins htext (by decide), fun hlisting => ?_⟩
    cases hlisting
    exact absurd htext (by decide)

theorem not_selects_creation (h : Dialogue (Table.creation name storage) r xs) :
    ∀ x ∈ xs, ¬ x.1.Selects := by
  intro x hx
  obtain ⟨d, hd, hcall⟩ := List.mem_map.1 (h.mem_calls hx)
  obtain ⟨⟨text, hd, htext⟩, -⟩ := creation_calls hd
  rw [← hcall, hd]
  exact not_begins htext (by decide)

end

namespace Invocation

/-- The table has to exist, and the engine does not list it. -/
def Unlisted (i : Invocation) (xs : List Exchange) : Prop :=
  ∃ name, i.command.table? = some (name, true) ∧ ¬ Lists name xs

/-- The database is there and the engine has failed at nothing, but the configuration has a time to
wait for locks that cannot be written. -/
def Unready (i : Invocation) (s : Surroundings) (xs : List Exchange) : Prop :=
  ¬ i.Lacks s i.mustExist ∧ ¬ Raised xs ∧
    ∃ config, i.config s = .ok config ∧ Decimal.isShowable config.busyTimeout = false

/-- What can end a run, each with its exit code, in the order in which it would be found out. The
engine can fail at any time, but then nothing after that is found out any more. -/
def events (i : Invocation) (s : Surroundings) (v : Version) (xs : List Exchange) :
    List (Prop × Nat) :=
  [ (i.Lacks s i.mustExist, 3),
    ((∃ e, i.config s = .error e), 2),
    (Raised xs, 3),
    (i.Unlisted xs, 4),
    ((∃ config e, i.config s = .ok config ∧ resolveStorage config v = .error e), 2),
    (i.command.Unreadable s.files, 1),
    (i.command.BadInput s.files, 2),
    (i.command.GetsNothing xs, 4) ]

variable {i : Invocation} {s : Surroundings} {v : Version} {name : Text} {mustExist : Bool}
  {config : Config} {xs : List Exchange}

theorem lists_append {xs ys : List Exchange} :
    Lists name (xs ++ ys) ↔ Lists name xs ∨ Lists name ys := by
  simp only [Lists, List.mem_append, or_and_right, exists_or]

theorem not_lists_of_forall_ne (h : ∀ x ∈ xs, x.1 ≠ .run listing []) : ¬ Lists name xs :=
  fun ⟨_, _, _, hmem, _⟩ => h _ hmem rfl

/-- A listing without a table does not list it. -/
theorem not_lists {names : List Text}
    (h : Asks (.run listing []) (cellTexts 0) (.ok names) xs) (hname : name ∉ names) :
    ¬ Lists name xs := by
  rintro ⟨rows, changes, names', hmem, hnames', hname'⟩
  rcases h with ⟨rows', changes', rfl, hnames⟩ | ⟨e, -, he⟩
  · cases List.mem_singleton.1 hmem
    cases hnames.trans hnames'
    exact hname hname'
  · cases he

/-- Looking a table up ends with the engine, with a table that is not listed, or with success. -/
inductive LookedUp (mustExist : Bool) (name : Text) : Except Failure Unit → List Exchange → Prop
  | raised {e : EngineError} {xs : List Exchange} : Raised xs →
      LookedUp mustExist name (.error (.error .working (.engine e))) xs
  | absent {xs : List Exchange} : ¬ Raised xs → mustExist = true → ¬ Lists name xs →
      LookedUp mustExist name (.error (.tableMissing name)) xs
  | found {xs : List Exchange} : ¬ Raised xs → (mustExist = true → Lists name xs) →
      LookedUp mustExist name (.ok ()) xs

theorem LooksUp.decided {r : Except Failure Unit} (h : LooksUp mustExist name r xs)
    (hfit : AllFit xs) : LookedUp mustExist name r xs ∧ ∀ x ∈ xs, ¬ x.1.Selects := by
  cases mustExist with
  | false =>
    obtain ⟨rfl, rfl⟩ : r = .ok () ∧ xs = [] := h
    exact ⟨.found not_raised_nil nofun, nofun⟩
  | true =>
    have hrequires : Requires name r xs := h
    have hlisting : ¬ (Call.run listing []).Selects := by
      show ¬ "select json(data) from".toList <+: listing
      decide
    have hreads : ∀ {done}, Asks (.run listing []) (cellTexts 0) done xs →
        Settled done xs ∧ ∀ x ∈ xs, ¬ x.1.Selects := fun hasks =>
      ⟨hasks.settled nofun fun rows changes hmem => (hfit _ _ _ _ hmem).names rfl,
        hasks.only (P := fun c => ¬ c.Selects) hlisting⟩
    cases hrequires with
    | failed hasks =>
      obtain ⟨hsettled, hselects⟩ := hreads hasks
      cases hsettled with
      | raised hsome => exact ⟨.raised hsome, hselects⟩
    | @absent names _ hasks habsent =>
      obtain ⟨hsettled, hselects⟩ := hreads hasks
      cases hsettled with
      | served hnone => exact ⟨.absent hnone rfl (not_lists hasks habsent), hselects⟩
    | listed hasks hlisted =>
      obtain ⟨hsettled, hselects⟩ := hreads hasks
      cases hsettled with
      | served hnone =>
        exact ⟨.found hnone fun _ => Requires.lists (.listed hasks hlisted), hselects⟩

/-- A table that is provided leaves no trace among the events. -/
theorem provides_quietly {t : Table} (h : Table.Provides v name config (.ok t) xs) :
    Command.Quiet xs ∧ ∀ e, resolveStorage config v ≠ .error e := by
  rcases h with ⟨e, -, he, -⟩ | ⟨storage, done, hstorage, hd, hdone⟩
  · cases he
  · refine ⟨⟨?_, not_selects_creation hd⟩, fun e he => by cases hstorage.symm.trans he⟩
    cases creation_settled hd with
    | served hnone => exact hnone
    | raised => cases hdone

theorem Works.decided {r : Except Failure (List Text)}
    (h : Works v mustExist name (fun t => i.command.Performs s.files i.style t) config r xs)
    (htable : i.command.table? = some (name, mustExist)) (hconfig : i.config s = .ok config)
    (hfit : AllFit xs) :
    ∃ code, Ending.ofResult r = .exit code ∧
      FirstEvent
        [ (Raised xs, 3),
          (i.Unlisted xs, 4),
          ((∃ config e, i.config s = .ok config ∧ resolveStorage config v = .error e), 2),
          (i.command.Unreadable s.files, 1),
          (i.command.BadInput s.files, 2),
          (i.command.GetsNothing xs, 4) ] code := by
  have hunlisted : i.Unlisted xs ↔ mustExist = true ∧ ¬ Lists name xs := by
    unfold Unlisted
    rw [htable]
    simp [and_comm]
  cases h with
  | unlisted hlook =>
    cases (LooksUp.decided hlook hfit).1 with
    | raised hsome => exact ⟨3, rfl, .here hsome⟩
    | absent hnone hmust hlists =>
      exact ⟨4, rfl, .later hnone (.here (hunlisted.2 ⟨hmust, hlists⟩))⟩
  | @unprovided e xs ys hlook hp =>
    obtain ⟨hlooked, -⟩ := LooksUp.decided hlook (hfit.of_subset (List.subset_append_left ..))
    cases hlooked with
    | found hnone hlists =>
      have hlisted : ¬ i.Unlisted (xs ++ ys) := fun h =>
        (hunlisted.1 h).2 ((hlists (hunlisted.1 h).1).mono (List.subset_append_left ..))
      rcases hp with ⟨e, hstorage, he, rfl⟩ | ⟨storage, done, -, hd, hdone⟩
      · cases he
        rw [List.append_nil] at hlisted ⊢
        exact ⟨2, rfl, .later hnone (.later hlisted (.here ⟨config, e, hconfig, hstorage⟩))⟩
      · cases creation_settled hd with
        | served => cases hdone
        | raised hsome =>
          cases hdone
          exact ⟨3, rfl, .here (raised_append.2 (.inr hsome))⟩
  | @body t r xs ys zs hlook hp hbody =>
    have hin : ∀ {us}, us ⊆ xs ∨ us ⊆ zs → us ⊆ xs ++ ys ++ zs := fun h x hx => by
      rcases h with h | h <;> simp [h hx]
    obtain ⟨hlooked, hlooks⟩ := LooksUp.decided hlook (hfit.of_subset (hin (.inl fun _ => id)))
    cases hlooked with
    | found hnone hlists =>
      obtain ⟨hprovided, hstorage⟩ := provides_quietly hp
      have hlisted : ¬ i.Unlisted (xs ++ ys ++ zs) := fun h =>
        (hunlisted.1 h).2 ((hlists (hunlisted.1 h).1).mono (hin (.inl fun _ => id)))
      have hstored :
          ¬ ∃ config e, i.config s = .ok config ∧ resolveStorage config v = .error e := by
        rintro ⟨config', e, hconfig', he⟩
        cases hconfig.symm.trans hconfig'
        exact hstorage e he
      -- What comes before the command is quiet, so its own events are those of the whole.
      have hquiet := Command.Quiet.append ⟨hnone, hlooks⟩ hprovided
      rw [hquiet.raised_append_left, hquiet.getsNothing_append_left]
      obtain ⟨code, hcode, hfirst⟩ :=
        Command.performs_decided hbody (hfit.of_subset (hin (.inr fun _ => id)))
      refine ⟨code, hcode, ?_⟩
      cases hfirst with
      | here hsome => exact .here hsome
      | later hcalm hrest => exact .later hcalm (.later hlisted (.later hstored hrest))

/-- Neither opening nor closing lists tables. -/
theorem unlisted_between (hd : Dialogue (opening i.database config true) (.ok ()) xs)
    (ys : List Exchange) (reply : Reply) :
    i.Unlisted (xs ++ ys ++ [(.close, reply)]) ↔ i.Unlisted ys := by
  have hopening : ∀ name, ¬ Lists name xs := fun _ =>
    not_lists_of_forall_ne fun x hx => (not_selects_opening hd x hx).2
  have hclosing : ∀ name, ¬ Lists name [(.close, reply)] := fun _ =>
    not_lists_of_forall_ne (List.forall_mem_singleton.2 Call.noConfusion)
  simp only [Unlisted, lists_append, hopening, hclosing, false_or, or_false]

theorem Runs.decided {r : Except Failure (List Text)} (h : i.Runs s v r xs)
    (htable : i.command.table? = some (name, mustExist))
    (hconfig : ∀ e, i.config s = .error e → ∃ cause, e = .config cause) (hfit : AllFit xs) :
    (i.Unready s xs ∧ ∀ code, Ending.ofResult r ≠ .exit code) ∨
      (¬ i.Unready s xs ∧
        ∃ code, Ending.ofResult r = .exit code ∧ FirstEvent (i.events s v xs) code) := by
  have hmust : i.mustExist = mustExist := by rw [Invocation.mustExist, htable]
  have hsets : i.setsMode = true := by rw [setsMode, htable]; rfl
  rw [Runs, hmust, hsets] at h
  unfold events Unready
  rw [hmust]
  cases h with
  | unopened hopen =>
    cases hopen with
    | missing hmust hname hfile =>
      have hlacks : i.Lacks s mustExist := ⟨hmust, hname, hfile⟩
      exact .inr ⟨fun h => h.1 hlacks, 3, rfl, .here hlacks⟩
    | unset hunset hlacks =>
      obtain ⟨cause, rfl⟩ := hconfig _ hunset
      refine .inr ⟨fun hunready => ?_, 2, rfl, .later hlacks (.here ⟨_, hunset⟩)⟩
      obtain ⟨-, -, config, hset, -⟩ := hunready
      cases hunset.symm.trans hset
    | failed hset hd hlacks =>
      have hloaded : ¬ ∃ e, i.config s = .error e := by
        rintro ⟨e, he⟩
        cases hset.symm.trans he
      rcases opening_settled_or hd hfit with hsettled | ⟨hcalm, hlong, hstopped⟩
      · cases hsettled with
        | raised hsome =>
          exact .inr ⟨fun h => h.2.1 hsome, 3, rfl, .later hlacks (.later hloaded (.here hsome))⟩
      · cases hstopped
        exact .inl ⟨⟨hlacks, hcalm, _, hset, hlong⟩, fun _ => Ending.noConfusion⟩
  | @opened config _ xs ys reply hopen hwork =>
    cases hopen with
    | opened hset hd hlacks =>
      have hloaded : ¬ ∃ e, i.config s = .error e := by
        rintro ⟨e, he⟩
        cases hset.symm.trans he
      have hin : ys ⊆ xs ++ ys ++ [(.close, reply)] := fun y hy => by simp [hy]
      have hopens := not_selects_opening hd
      have hquiet : Command.Quiet xs := by
        refine ⟨?_, fun x hx => (hopens x hx).1⟩
        have hsub : xs ⊆ xs ++ ys ++ [(.close, reply)] := fun x hx => by simp [hx]
        rcases opening_settled_or hd (hfit.of_subset hsub) with hsettled | ⟨-, -, hstopped⟩
        · cases hsettled with
          | served hnone => exact hnone
        · cases hstopped
      have hunlisted : i.Unlisted (xs ++ ys ++ [(.close, reply)]) ↔ i.Unlisted ys :=
        unlisted_between hd ys reply
      rw [Does, htable] at hwork
      obtain ⟨code, hcode, hfirst⟩ := Works.decided hwork htable hset (hfit.of_subset hin)
      have hready : ¬ ∃ config, i.config s = .ok config ∧
          Decimal.isShowable config.busyTimeout = false := by
        rintro ⟨config', hset', hlong⟩
        cases hset.symm.trans hset'
        cases hlong.symm.trans (ready_of_opening hd)
      refine .inr ⟨fun h => hready h.2.2, code, hcode, .later hlacks (.later hloaded ?_)⟩
      -- Opening and closing are quiet, too.
      have hclosing := Command.Quiet.close reply
      rw [hunlisted, hclosing.raised_append_right, hquiet.raised_append_left,
        hclosing.getsNothing_append_right, hquiet.getsNothing_append_left]
      exact hfirst

end Invocation

/-- The document with an id is asked for by its id. -/
theorem Command.exists_asking_withId {t : Table} {id : Text} {f : Fragment}
    (hf : Table.withId id = .ok f) :
    ∃ text, "select json(data) from".toList <+: text ∧
      t.asking [f, Table.limitOne] "select json(data) from".toList = .run text [.text id] := by
  obtain ⟨f', hf', hfilled⟩ := Table.withId_eq id
  obtain rfl := Except.ok.inj (hf'.symm.trans hf)
  have hvalues : f'.values = [.text id] := by
    rw [Fragment.values_eq_filterMap, hfilled, List.filterMap_append, Fragment.filterMap_verbatim]
    rfl
  refine ⟨_, Table.begins_composed _ t.name [f', Table.limitOne], ?_⟩
  rw [Table.asking, Table.args_composed, List.flatMap_cons, hvalues]
  rfl

namespace Invocation

variable {i : Invocation} {s : Surroundings} {v : Version} {name : Text} {xs : List Exchange}
  {r : Except Failure (List Text)}

/-- A run whose database is opened works with it. That is when it finds out about tables. -/
theorem Runs.works {mustExist : Bool} (h : i.Runs s v r xs)
    (htable : i.command.table? = some (name, mustExist)) (hfit : AllFit xs)
    (hready : ¬ i.Unready s xs) (hthere : ¬ i.Lacks s i.mustExist)
    (hloaded : ¬ ∃ e, i.config s = .error e) (hcalm : ¬ Raised xs) :
    ∃ config ys, i.config s = .ok config ∧ ys ⊆ xs ∧ (i.Unlisted xs ↔ i.Unlisted ys) ∧
      Works v mustExist name (fun t => i.command.Performs s.files i.style t) config r ys := by
  have hmust : i.mustExist = mustExist := by rw [Invocation.mustExist, htable]
  have hsets : i.setsMode = true := by rw [setsMode, htable]; rfl
  unfold Unready at hready
  rw [hmust] at hthere hready
  rw [Runs, hmust, hsets] at h
  cases h with
  | unopened hopen =>
    cases hopen with
    | missing hmust hname hfile => exact absurd ⟨hmust, hname, hfile⟩ hthere
    | unset hunset => exact absurd ⟨_, hunset⟩ hloaded
    | failed hset hd =>
      rcases opening_settled_or hd hfit with hsettled | ⟨-, hlong, -⟩
      · cases hsettled with
        | raised hsome => exact absurd hsome hcalm
      · exact absurd ⟨hthere, hcalm, _, hset, hlong⟩ hready
  | opened hopen hwork =>
    cases hopen with
    | opened hset hd =>
      rw [Does, htable] at hwork
      exact ⟨_, _, hset, fun y hy => by simp [hy], unlisted_between hd _ _, hwork⟩

/-- Where nothing comes before, the document with an id is looked for. -/
theorem Works.gets {id : Text} {config : Config}
    (h : Works v true name (fun t => i.command.Performs s.files i.style t) config r xs)
    (hget : i.command = .get name id) (hconfig : i.config s = .ok config) (hfit : AllFit xs)
    (hcalm : ¬ Raised xs) (hlisted : ¬ i.Unlisted xs)
    (hstored : ¬ ∃ config e, i.config s = .ok config ∧ resolveStorage config v = .error e) :
    ∃ text reply, "select json(data) from".toList <+: text ∧
      (Call.run text [.text id], reply) ∈ xs := by
  cases h with
  | unlisted hlook =>
    cases (LooksUp.decided hlook hfit).1 with
    | raised hsome => exact absurd hsome hcalm
    | absent _ _ hlists => exact absurd ⟨name, by rw [hget]; rfl, hlists⟩ hlisted
  | unprovided hlook hp =>
    rcases hp with ⟨e, hstorage, -, -⟩ | ⟨storage, done, -, hd, hdone⟩
    · exact absurd ⟨config, e, hconfig, hstorage⟩ hstored
    · cases creation_settled hd with
      | served => cases hdone
      | raised hsome => exact absurd (raised_append.2 (.inr hsome)) hcalm
  | body hlook hp hbody =>
    rw [hget] at hbody
    obtain ⟨f, found, hf, hasks, -⟩ := hbody
    obtain ⟨text, htext, hcall⟩ := Command.exists_asking_withId hf
    rw [hcall] at hasks
    obtain ⟨reply, hmem⟩ := hasks.mem
    exact ⟨text, reply, htext, List.mem_append_right _ hmem⟩

end Invocation

/-- **Every command on a table ends with an exit code.** Whatever the engine fails with, and however
the command line is composed: if rows have the columns that were asked for and the configuration is
read without trouble other than its own, the program exits, with the code of the first event that
occurs, and it has printed nothing unless it succeeds. It does not exit if a time to wait for locks
that cannot be written is all that happens. Whether there is a table or a document is not taken from
nowhere: if nothing has happened before, the engine is asked for its tables, and for the document
with the id. -/
theorem exit_code_decided (i : Invocation) (s : Surroundings) (engine : Engine) (version : Version)
    (ids : Nat → Text) (name : Text) (mustExist : Bool)
    (htable : i.command.table? = some (name, mustExist))
    (hconfig : ∀ e, i.config s = .error e → ∃ cause, e = .config cause)
    (hfits : WellFormed engine) :
    let outcome := (Request.run i).perform s (Session.start engine version ids)
    let calls := outcome.session.calls
    let xs := exchanges engine [] calls
    let events := i.events s version xs
    ((∃ code, outcome.ending = .exit code) ↔ ¬ i.Unready s xs) ∧
    (¬ i.Unready s xs →
      (∀ code, outcome.ending = .exit code ↔ FirstEvent events code) ∧
      (mustExist = true → (∀ event ∈ events.take 3, ¬ event.1) → Call.run listing [] ∈ calls) ∧
      ∀ id, i.command = .get name id → (∀ event ∈ events.take 5, ¬ event.1) →
        ∃ text, "select json(data) from".toList <+: text ∧ Call.run text [.text id] ∈ calls) ∧
    (outcome.ending ≠ .exit 0 → outcome.output = []) := by
  intro outcome calls xs events
  obtain ⟨r, hruns, hending, houtput⟩ := exists_runs i s engine version ids
  have hfit : AllFit xs := allFit_exchanges hfits _ _
  have hend : outcome.ending = .ofResult r := hending
  have hcalled : ∀ {c : Call}, (∃ reply, (c, reply) ∈ xs) → c ∈ calls := by
    rintro c ⟨reply, hmem⟩
    rw [← map_fst_exchanges engine [] calls]
    exact List.mem_map_of_mem hmem
  have hsilent : outcome.ending ≠ .exit 0 → outcome.output = [] := by
    intro hfailed
    cases r with
    | ok lines => exact absurd hending hfailed
    | error e => exact houtput
  rcases hruns.decided htable hconfig hfit with ⟨hunready, hcrash⟩ | ⟨hready, code, hcode, hfirst⟩
  · refine ⟨iff_of_false ?_ fun h => h hunready, fun h => absurd hunready h, hsilent⟩
    rintro ⟨code, hcode⟩
    exact hcrash code (hend.symm.trans hcode)
  have hexit : outcome.ending = .exit code := hend.trans hcode
  refine ⟨iff_of_true ⟨code, hexit⟩ hready, fun _ => ⟨fun code' => ⟨fun h => ?_, fun h => ?_⟩,
    fun hmust hnone => ?_, fun id hget hnone => ?_⟩, hsilent⟩
  · cases hexit.symm.trans h
    exact hfirst
  · rw [hexit, hfirst.unique h]
  · simp only [events, Invocation.events, List.take_succ_cons, List.take_zero,
      List.forall_mem_cons] at hnone
    obtain ⟨_, ys, -, hsub, -, hworks⟩ :=
      hruns.works htable hfit hready hnone.1 hnone.2.1 hnone.2.2.1
    rw [hmust] at hworks
    obtain ⟨reply, hmem⟩ := hworks.asked
    exact hcalled ⟨reply, hsub hmem⟩
  · simp only [events, Invocation.events, List.take_succ_cons, List.take_zero,
      List.forall_mem_cons] at hnone
    obtain ⟨hthere, hloaded, hcalm, hlisted, hstored, -⟩ := hnone
    obtain ⟨_, ys, hset, hsub, hunlisted, hworks⟩ :=
      hruns.works htable hfit hready hthere hloaded hcalm
    obtain rfl : mustExist = true := by
      rw [hget] at htable
      cases htable
      rfl
    obtain ⟨text, reply, htext, hmem⟩ := hworks.gets hget hset (hfit.of_subset hsub)
      (fun ⟨x, hx, hraised⟩ => hcalm ⟨x, hsub hx, hraised⟩) (hlisted ∘ hunlisted.2) hstored
    exact ⟨text, htext, hcalled ⟨reply, hsub hmem⟩⟩

/-- A document is looked for in a table that has none. -/
theorem exit_code_decided_empty_table :
    let engine := oneTable "t".toList
    let i : Invocation := ⟨"d.db".toList, none, .plain, false, .get "t".toList "a".toList⟩
    let s : Surroundings := ⟨[("d.db".toList, [])], []⟩
    let outcome := (Request.run i).perform s (Session.start engine [3, 45, 1] fun _ => [])
    WellFormed engine ∧ outcome.ending = .exit 4 ∧ outcome.output = [] ∧
      FirstEvent (i.events s [3, 45, 1] (exchanges engine [] outcome.session.calls)) 4 := by
  intro engine i s outcome
  have hfits : WellFormed engine := by
    refine wellFormed_rules fun rule hrule rows changes hreply text htext => ?_
    obtain rfl := List.mem_singleton.1 hrule
    cases hreply
    exact fits_listing htext ["t".toList]
  have hconfig : ∀ e, i.config s = .error e → ∃ cause, e = .config cause := nofun
  obtain ⟨hexits, hdecided, houtput⟩ :=
    exit_code_decided i s engine [3, 45, 1] (fun _ => []) "t".toList true rfl hconfig hfits
  have hending : outcome.ending = .exit 4 := rfl
  have hready := hexits.1 ⟨4, hending⟩
  exact ⟨hfits, hending, houtput (by rw [hending]; nofun), ((hdecided hready).1 4).1 hending⟩

end Console

end DocTable
