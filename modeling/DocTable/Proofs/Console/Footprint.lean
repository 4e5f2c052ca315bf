import DocTable.Engine.Rules
import DocTable.Proofs.Console.Course
/-!
# DocTable.Proofs.Console.Footprint

What commands may write.

Everything around a command only reads, so what a run writes is what the command itself writes, and
that is one call at the end or nothing (`Footprint`). The call decides how the command ends: a run
that is refused has not written (`write_footprint`).
-/

namespace DocTable.Console

open Session

namespace Command

/-- Whether a command is to leave the documents as they are. -/
def reads : Command → Bool
  | .insert .. | .delete .. | .replace .. => false
  | .patch _ _ _ _ dryRun => dryRun
  | .init .. | .info _ | .get .. | .find .. | .count .. | .explain .. | .createIndex ..
  | .listIndexes _ => true

end Command

/-! ### Footprints -/

/-- What a part of a run does: it reads, or it makes one call, and then it succeeds or fails with
the engine. -/
def Foot (r : Except Failure (List Text)) (xs : List Exchange) : Prop :=
  (∀ x ∈ xs, x.1.Reads) ∨
    (∃ x, xs = [x]) ∧ ((∃ lines, r = .ok lines) ∨ ∃ phase e, r = .error (.error phase (.engine e)))

/-- What a run does: it reads, and then perhaps writes once before the database is closed. -/
def Footprint (r : Except Failure (List Text)) (xs : List Exchange) : Prop :=
  ∃ front back closing, xs = front ++ back ++ closing ∧ (∀ x ∈ front, x.1.Reads) ∧ Foot r back ∧
    ∀ x ∈ closing, x.1 = .close

theorem foot_of_once {phase : Phase} {r : Except Error (List Text)} {xs : List Exchange}
    (h : Once r xs) : Foot (r.mapError (.error phase)) xs := by
  rcases h with rfl | ⟨c, -, ⟨rows, changes, lines, rfl, rfl⟩ | ⟨e, rfl, rfl⟩⟩
  · exact .inl nofun
  · exact .inr ⟨⟨_, rfl⟩, .inl ⟨lines, rfl⟩⟩
  · exact .inr ⟨⟨_, rfl⟩, .inr ⟨phase, e, rfl⟩⟩

/-- The place of a member of the middle that is in neither end. -/
theorem split_of_notMem {α : Type} {front closing before after : List α} {w x : α}
    (h : front ++ w :: closing = before ++ x :: after) (hfront : x ∉ front)
    (hclosing : x ∉ closing) : front = before ∧ closing = after := by
  rcases List.append_eq_append_iff.1 h with ⟨u, rfl, hu⟩ | ⟨u, rfl, hu⟩
  · cases u with
    | nil => exact ⟨(List.append_nil _).symm, (List.cons.inj hu).2⟩
    | cons y u =>
      rw [List.cons_append, List.cons.injEq] at hu
      exact absurd (hu.2 ▸ List.mem_append_right u List.mem_cons_self) hclosing
  · cases u with
    | nil => exact ⟨List.append_nil _, (List.cons.inj hu).2.symm⟩
    | cons y u =>
      rw [List.cons_append, List.cons.injEq] at hu
      exact absurd (hu.1 ▸ List.mem_append_right before List.mem_cons_self) hfront

/-- If a run writes, everything before reads and nothing but closing comes after, and the run
succeeds or fails with the engine. -/
theorem Footprint.of_writes {r : Except Failure (List Text)} {xs : List Exchange}
    (h : Footprint r xs) {before after : List Exchange} {x : Exchange}
    (hxs : xs = before ++ x :: after) (hx : x.1.Writes) :
    (∀ y ∈ before, y.1.Reads) ∧ (∀ y ∈ after, y.1 = .close) ∧
      ((∃ lines, r = .ok lines) ∨ ∃ phase e, r = .error (.error phase (.engine e))) := by
  obtain ⟨front, back, closing, rfl, hfront, hback, hclosing⟩ := h
  have hnot : x ∉ front := fun hmem => hfront x hmem hx
  have hclose : x ∉ closing := fun hmem => by
    rw [hclosing x hmem] at hx
    exact hx
  rcases hback with hback | ⟨⟨w, rfl⟩, hr⟩
  · -- Nothing writes.
    have hmem : x ∈ front ++ back ++ closing := by rw [hxs]; simp
    rw [List.mem_append, List.mem_append] at hmem
    rcases hmem with (hmem | hmem) | hmem
    · exact absurd hmem hnot
    · exact absurd hx (hback x hmem)
    · exact absurd hmem hclose
  · rw [List.append_assoc, List.singleton_append] at hxs
    obtain ⟨rfl, rfl⟩ := split_of_notMem hxs hnot hclose
    exact ⟨hfront, hclosing, hr⟩

/-! ### Runs -/

namespace Invocation

variable {i : Invocation} {s : Surroundings}

theorem LooksUp.queries {mustExist : Bool} {name : Text} {r : Except Failure Unit}
    {xs : List Exchange} (h : LooksUp mustExist name r xs) : ∀ x ∈ xs, x.1.Queries := by
  cases mustExist with
  | false =>
    obtain ⟨-, rfl⟩ := h
    nofun
  | true =>
    have hrequires : Requires name r xs := h
    cases hrequires with
    | failed ha | absent ha | listed ha => exact ha.only queries_listing

theorem Provides.queries {v : Version} {name : Text} {config : Config} {r : Except Error Table}
    {xs : List Exchange} (h : Table.Provides v name config r xs) : ∀ x ∈ xs, x.1.Queries := by
  rcases h with ⟨_, -, -, rfl⟩ | ⟨storage, done, -, hd, -⟩
  · nofun
  · exact fun x hx => Table.queries_creation (hd.mem_calls hx)

theorem Provides.name {v : Version} {name : Text} {config : Config} {t : Table}
    {xs : List Exchange} (h : Table.Provides v name config (.ok t) xs) : t.name = name := by
  rcases h with ⟨_, -, hr, -⟩ | ⟨storage, done, -, -, hr⟩
  · cases hr
  · cases done with
    | error e => cases hr
    | ok _ =>
      cases hr
      rfl

theorem Works.split {v : Version} {mustExist : Bool} {name : Text} {config : Config}
    {B : Table → Except Failure (List Text) → List Exchange → Prop}
    {r : Except Failure (List Text)} {xs : List Exchange}
    (h : Works v mustExist name B config r xs) :
    ∃ front back, xs = front ++ back ∧ (∀ x ∈ front, x.1.Queries) ∧
      (back = [] ∨ ∃ t, t.name = name ∧ B t r back) := by
  cases h with
  | unlisted hlook => exact ⟨xs, [], (List.append_nil _).symm, hlook.queries, .inl rfl⟩
  | unprovided hlook hp =>
    exact ⟨_, [], (List.append_nil _).symm,
      List.forall_mem_append.2 ⟨hlook.queries, Provides.queries hp⟩, .inl rfl⟩
  | body hlook hp hbody =>
    exact ⟨_, _, rfl, List.forall_mem_append.2 ⟨hlook.queries, Provides.queries hp⟩,
      .inr ⟨_, Provides.name hp, hbody⟩⟩

/-! ### What a command calls -/

variable {files : Files} {style : Style} {command : Command} {t : Table}
  {r : Except Failure (List Text)} {xs : List Exchange}

/-- A command that is to leave the documents as they are only asks. -/
theorem queries_performs (h : command.Performs files style t r xs)
    (hreads : command.reads = true) : ∀ x ∈ xs, x.1.Queries := by
  cases command with
  | insert | delete | replace => cases hreads
  | info => exact h.elim
  | init table indexes uniqueIndexes =>
    obtain ⟨_, ⟨_, _, hd, -⟩, -⟩ := h
    intro x hx
    have hmem := hd.mem_calls hx
    rw [Command.indexings, List.map_append, List.map_map, List.map_map, List.mem_append,
      List.mem_map, List.mem_map] at hmem
    rcases hmem with ⟨expr, -, hcall⟩ | ⟨expr, -, hcall⟩
    · exact hcall ▸ Table.queries_createIndex _ _ _ _ _
    · exact hcall ▸ Table.queries_createIndex _ _ _ _ _
  | get table id =>
    obtain ⟨f, _, -, hasks, -⟩ := h
    exact hasks.only (Table.queries_asking (by decide) t _)
  | find table q | count table q | explain table q =>
    obtain ⟨_, hdone, -⟩ := h
    exact hdone.only fun fs _ => Table.queries_asking (by decide) t fs
  | patch table document q all dryRun =>
    cases dryRun with
    | false => cases hreads
    | true =>
      obtain ⟨_, hdone, -⟩ := h
      intro x hx
      obtain ⟨_, -, hselect⟩ := hdone.of_mem hx
      exact Attempts.only hselect (fun fs _ => Table.queries_asking (by decide) t fs) x hx
  | createIndex table expr name unique =>
    obtain ⟨_, hasks, -⟩ := h
    exact hasks.only (Table.queries_createIndex _ _ _ _ _)
  | listIndexes table =>
    obtain ⟨_, hasks, -⟩ := h
    exact hasks.only (queries_indexListing _)

theorem once_inserts {v : Json} {r : Except Error (List Text)}
    (h : Command.Inserts style t v r xs) : Once r xs := by
  unfold Command.Inserts at h
  split at h
  · refine h.once fun docs h => ?_
    obtain ⟨members, docs', -, -, h⟩ := h
    exact h.once fun rows h => h.tells.once trivial
  · refine h.once fun doc h => ?_
    obtain ⟨members, doc', -, -, h⟩ := h
    exact h.once fun text h => h.tells.once trivial

/-- Any other command runs one statement at most. -/
theorem once_performs (h : command.Performs files style t r xs)
    (hreads : command.reads = false) : Command.Working Once r xs := by
  cases command with
  | info | init | get | find | count | explain | createIndex | listIndexes => cases hreads
  | insert =>
    obtain ⟨done, hdone, hr⟩ := h
    exact ⟨done, hdone.once fun _ => once_inserts, hr⟩
  | delete =>
    obtain ⟨done, hdone, hr⟩ := h
    exact ⟨done, hdone.once fun fs h => h.once fun s h => h.once trivial, hr⟩
  | patch table document q all dryRun =>
    cases dryRun with
    | true => cases hreads
    | false =>
      obtain ⟨done, hdone, hr⟩ := h
      exact ⟨done, hdone.once fun doc h => h.once fun fs h => h.once fun s h =>
        h.once trivial, hr⟩
  | replace =>
    obtain ⟨done, hdone, hr⟩ := h
    exact ⟨done, hdone.once fun doc h => h.once fun fs h => h.once fun s h =>
      h.once trivial, hr⟩

theorem foot_performs (h : command.Performs files style t r xs) : Foot r xs := by
  cases hreads : command.reads with
  | true => exact .inl fun x hx => (queries_performs h hreads x hx).2
  | false =>
    obtain ⟨done, hdone, rfl⟩ := once_performs h hreads
    exact foot_of_once hdone

/-- Whatever a command calls is a statement. -/
theorem statements_performs (h : command.Performs files style t r xs) :
    ∀ x ∈ xs, x.1.IsStatement := by
  cases hreads : command.reads with
  | true => exact fun x hx => (queries_performs h hreads x hx).1
  | false =>
    obtain ⟨done, rfl | ⟨c, hc, htells⟩, -⟩ := once_performs h hreads
    · nofun
    · exact fun x hx => htells.eq_of_mem hx ▸ hc

/-! ### What a run writes -/

variable {v : Version}

/-- The frame around a command reads, then the command does its own, then the database is closed. -/
theorem Runs.split (h : Runs i s v r xs) :
    ∃ front back closing, xs = front ++ back ++ closing ∧ (∀ x ∈ front, x.1.Reads) ∧
      (back = [] ∨ ∃ t mustExist, i.command.table? = some (t.name, mustExist) ∧
        i.command.Performs s.files i.style t r back) ∧ ∀ x ∈ closing, x.1 = .close := by
  cases h with
  | unopened hopen => exact ⟨xs, [], [], by simp, hopen.reads, .inl rfl, nofun⟩
  | @opened config _ xs ys reply hopen hdoes =>
    have hclosing : ∀ x ∈ [(Call.close, reply)], x.1 = .close := List.forall_mem_singleton.2 rfl
    unfold Does at hdoes
    split at hdoes
    · refine ⟨xs ++ ys, [], _, by simp, ?_, .inl rfl, hclosing⟩
      exact List.forall_mem_append.2 ⟨hopen.reads, fun y hy => (hdoes y hy).2⟩
    · next name mustExist htable =>
      obtain ⟨front, back, rfl, hfront, hback⟩ := hdoes.split
      refine ⟨xs ++ front, back, _, by simp only [List.append_assoc], ?_, ?_, hclosing⟩
      · exact List.forall_mem_append.2 ⟨hopen.reads, fun x hx => (hfront x hx).2⟩
      · refine hback.imp_right ?_
        rintro ⟨t, rfl, hbody⟩
        exact ⟨t, mustExist, htable, hbody⟩

theorem Runs.reads (h : Runs i s v r xs)
    (hreads : i.command.reads = true) : ∀ x ∈ xs, x.1.Reads := by
  obtain ⟨front, back, closing, rfl, hfront, hback, hclosing⟩ := h.split
  refine List.forall_mem_append.2 ⟨List.forall_mem_append.2 ⟨hfront, ?_⟩, fun x hx => ?_⟩
  · rcases hback with rfl | ⟨t, _, -, hback⟩
    · nofun
    · exact fun x hx => (queries_performs hback hreads x hx).2
  · rw [hclosing x hx]
    exact id

theorem Runs.footprint (h : Runs i s v r xs) : Footprint r xs := by
  obtain ⟨front, back, closing, rfl, hfront, hback, hclosing⟩ := h.split
  refine ⟨front, back, closing, rfl, hfront, ?_, hclosing⟩
  rcases hback with rfl | ⟨t, _, -, hback⟩
  · exact .inl nofun
  · exact foot_performs hback

variable {name : Text}

/-! ### Tables that do not exist -/

/-- The engine has listed a table. -/
def Lists (name : Text) (xs : List Exchange) : Prop :=
  ∃ rows changes names, (Call.run listing [], Reply.rows rows changes) ∈ xs ∧
    cellTexts 0 rows = .ok names ∧ name ∈ names

/-- The calls by which a command finds out that there is no such table. -/
def LooksOnly (i : Invocation) (s : Surroundings) (c : Call) : Prop :=
  c = .run listing [] ∨ c = .close ∨
    ∃ config, i.config s = .ok config ∧ c ∈ (opening i.database config true).map Demand.call

theorem Opens.looksOnly {mustExist : Bool} {r : Except Failure Config} {xs : List Exchange}
    (h : Opens i s mustExist true r xs) : ∀ x ∈ xs, LooksOnly i s x.1 := by
  cases h with
  | missing | unset => nofun
  | failed hconfig hd | opened hconfig hd =>
    exact fun x hx => .inr (.inr ⟨_, hconfig, hd.mem_calls hx⟩)

/-- A table that is looked up with success has been listed. -/
theorem Requires.lists {xs : List Exchange} (h : Requires name (.ok ()) xs) : Lists name xs := by
  cases h with
  | @listed names _ hasks hmem =>
    rcases hasks with ⟨rows, changes, rfl, hnames⟩ | ⟨e, -, he⟩
    · exact ⟨rows, changes, names, List.mem_singleton.2 rfl, hnames.symm, hmem⟩
    · cases he

theorem Lists.mono {xs ys : List Exchange} (h : Lists name xs) (hsub : xs ⊆ ys) :
    Lists name ys := by
  obtain ⟨rows, changes, names, hmem, hnames, hname⟩ := h
  exact ⟨rows, changes, names, hsub hmem, hnames, hname⟩

theorem Requires.looksOnly {r : Except Failure Unit} {xs : List Exchange}
    (h : Requires name r xs) : ∀ x ∈ xs, LooksOnly i s x.1 := by
  cases h with
  | failed ha | absent ha | listed ha => exact ha.only (.inl rfl)

theorem Runs.looksOnly {r : Except Failure (List Text)} {xs : List Exchange}
    (h : Runs i s v r xs) (hname : i.command.table? = some (name, true))
    (hnone : ¬ Lists name xs) : ∀ x ∈ xs, LooksOnly i s x.1 := by
  have hsets : i.setsMode = true := by rw [setsMode, hname]; rfl
  rw [Runs, hsets] at h
  cases h with
  | unopened hopen => exact hopen.looksOnly
  | @opened config _ xs ys reply hopen hwork =>
    rw [Does, hname] at hwork
    have hsub : ys ⊆ xs ++ ys ++ [(.close, reply)] := fun y hy => by simp [hy]
    have hys : ∀ y ∈ ys, LooksOnly i s y.1 := by
      cases hwork with
      | unlisted hlook => exact Requires.looksOnly hlook
      | @unprovided _ looked provided hlook =>
        have hlists : Lists name looked := Requires.lists hlook
        exact absurd ((hlists.mono (List.subset_append_left ..)).mono hsub) hnone
      | @body _ _ looked provided zs hlook =>
        have hlists : Lists name looked := Requires.lists hlook
        have hfront : looked ⊆ looked ++ provided ++ zs := fun y hy => by simp [hy]
        exact absurd ((hlists.mono hfront).mono hsub) hnone
    refine List.forall_mem_append.2 ⟨List.forall_mem_append.2 ⟨hopen.looksOnly, hys⟩, ?_⟩
    exact List.forall_mem_singleton.2 (.inr (.inl rfl))

end Invocation

theorem mem_exchanges_of_mem {engine : Engine} {history calls : List Call} {c : Call}
    (h : c ∈ calls) : ∃ x ∈ exchanges engine history calls, x.1 = c := by
  rw [← map_fst_exchanges engine history calls] at h
  exact List.mem_map.1 h

/-- **What commands may write.** Whatever a command line asks for and whatever the engine does:
a command that is to leave the documents as they are makes no call that writes; every command makes
at most one, before which everything reads and after which the database is only closed; a run that
ends with exit code 2 or 4 has made none; and a command whose table has to exist does not get past
the listing if the engine does not list it. -/
theorem write_footprint (i : Invocation) (s : Surroundings) (engine : Engine) (version : Version)
    (ids : Nat → Text) :
    let outcome := (Request.run i).perform s (Session.start engine version ids)
    let calls := outcome.session.calls
    (i.command.reads = true → ∀ c ∈ calls, c.Reads) ∧
    (∀ before c after, calls = before ++ c :: after → c.Writes →
      (∀ d ∈ before, d.Reads) ∧ ∀ d ∈ after, d = .close) ∧
    (outcome.ending = .exit 2 ∨ outcome.ending = .exit 4 → ∀ c ∈ calls, c.Reads) ∧
    (∀ name, i.command.table? = some (name, true) →
      ¬ Invocation.Lists name (exchanges engine [] calls) →
      ∀ c ∈ calls, Invocation.LooksOnly i s c) := by
  intro outcome calls
  obtain ⟨r, hruns, hending, -⟩ := exists_runs i s engine version ids
  have hfootprint := hruns.footprint
  have hsplit : ∀ before c after, calls = before ++ c :: after →
      exchanges engine [] calls = exchanges engine [] before ++
        (c, engine before c) :: exchanges engine (before ++ [c]) after := by
    intro before c after hcalls
    rw [hcalls, exchanges_append]
    rfl
  refine ⟨fun hreads c hc => ?_, fun before c after hcalls hc => ?_, fun hcode c hc hwrites => ?_,
    fun name hname hnone c hc => ?_⟩
  · obtain ⟨x, hx, rfl⟩ := mem_exchanges_of_mem hc
    exact hruns.reads hreads x hx
  · obtain ⟨hbefore, hafter, -⟩ := hfootprint.of_writes (hsplit before c after hcalls) hc
    constructor
    · intro d hd
      obtain ⟨x, hx, rfl⟩ := mem_exchanges_of_mem hd
      exact hbefore x hx
    · intro d hd
      obtain ⟨x, hx, rfl⟩ := mem_exchanges_of_mem hd
      exact hafter x hx
  · -- A run that has written ends with success or with trouble with the database.
    obtain ⟨before, after, hcalls⟩ := List.append_of_mem hc
    obtain ⟨-, -, hr⟩ := hfootprint.of_writes (hsplit before c after hcalls) hwrites
    have hend : outcome.ending = .ofResult r := hending
    rw [hend] at hcode
    rcases hr with ⟨lines, rfl⟩ | ⟨phase, e, rfl⟩
    · rcases hcode with hcode | hcode <;> cases hcode
    · cases phase <;> rcases hcode with hcode | hcode <;> cases hcode
  · obtain ⟨x, hx, rfl⟩ := mem_exchanges_of_mem hc
    exact hruns.looksOnly hname hnone x hx

/-- Deleting by an id, and patching without writing. Where the table is listed, the deletion is the
last call before closing; where it is not, the command ends with exit code 4 after the listing. -/
theorem write_footprint_by_id :
    let query : Query := ⟨none, [], [], some "a".toList, none, false, none⟩
    let s : Surroundings := ⟨[("d.db".toList, [])], []⟩
    let onFile (command : Command) : Invocation := ⟨"d.db".toList, none, .plain, false, command⟩
    let delete := onFile (.delete "t".toList query false)
    let dryRun := onFile (.patch "t".toList "\x7b\x7d".toList query false true)
    let empty : Engine := Rules.engine []
    let listed : Engine := Rules.engine [⟨"SELECT name".toList, .rows [[.text "t".toList]] 0⟩]
    let outcome (i : Invocation) (engine : Engine) :=
      (Request.run i).perform s (Session.start engine [3, 45, 1] fun _ => [])
    (∀ c ∈ (outcome dryRun listed).session.calls, c.Reads) ∧
    (∃ before c, (outcome delete listed).session.calls = before ++ [c, .close] ∧ c.Writes ∧
      ∀ d ∈ before, d.Reads) ∧
    (outcome delete empty).ending = .exit 4 ∧
    ∀ c ∈ (outcome delete empty).session.calls, c.Reads ∧ Invocation.LooksOnly delete s c := by
  intro query s onFile delete dryRun empty listed outcome
  have hdry := (write_footprint dryRun s listed [3, 45, 1] fun _ => []).1 rfl
  obtain ⟨-, hlast, -, -⟩ := write_footprint delete s listed [3, 45, 1] fun _ => []
  obtain ⟨-, -, hrefused, hunlisted⟩ := write_footprint delete s empty [3, 45, 1] fun _ => []
  have hcalls : (outcome delete listed).session.calls =
      (outcome delete listed).session.calls.take 6 ++
        [.run "delete from t where (data->>'$.id' = ?)".toList [.text "a".toList], .close] := by
    decide +kernel
  have hwrites : (Call.run "delete from t where (data->>'$.id' = ?)".toList
      [.text "a".toList]).Writes := by
    show Text.verb _ ∈ writingVerbs
    decide
  have hending : (outcome delete empty).ending = .exit 4 := rfl
  have hnone : ¬ Invocation.Lists "t".toList
      (exchanges empty [] (outcome delete empty).session.calls) := by
    rintro ⟨rows, changes, names, hmem, hnames, hname⟩
    obtain ⟨before, hreply⟩ := exists_of_mem_exchanges hmem
    cases hreply.trans (show empty before (.run listing []) = .rows [] 0 from rfl)
    cases hnames
    cases hname
  refine ⟨hdry, ⟨_, _, hcalls, hwrites, (hlast _ _ _ hcalls hwrites).1⟩, hending, fun c hc => ?_⟩
  exact ⟨hrefused (.inr hending) c hc, hunlisted _ rfl hnone c hc⟩

end DocTable.Console
