import DocTable.Proofs.Console.Selective
import DocTable.Proofs.Json.Numbers
import DocTable.Proofs.Json.ReadBack
import DocTable.Proofs.Session.Replies
/-!
# DocTable.Proofs.Console.DryRun

What a dry run of a patch says about the patch.

Up to its own body a command does not depend on what the body is (`withTable_frame`), so the two
runs come to the same table in the same state. From there they check the same input, but for one
thing: a document that is to be stored has to have finite numbers only, and a dry run does not store
it.
-/

namespace DocTable.Console

open Session Sql

/-! ### The frame of a command -/

theorem run_closing {α : Type} (m : ConsoleM α) (session : Session) :
    (closing m).run.run session =
      let (r, session') := m.run.run session
      (r, { session' with calls := session'.calls ++ [.close] }) := rfl

namespace Invocation

variable (i : Invocation) (s : Surroundings) (mustExist : Bool) (name : Text)

/-- Look a table up if it has to exist, and provide it. -/
def prepare (config : Config) : ConsoleM Table := do
  if mustExist then requireTable name
  during .working (Table.provision name config)

theorem withTable_eq (body : Table → ConsoleM (List Text)) :
    i.withTable s mustExist name body =
      i.openDatabase s mustExist true >>= fun config =>
        closing (prepare mustExist name config >>= body) := by
  cases mustExist with
  | true => simp [withTable, prepare, bind_assoc]
  | false => simp [withTable, prepare]

theorem followsAt_prepare (v : Version) (config : Config) :
    FollowsAt v (prepare mustExist name config) fun r _ =>
      ∀ t : Table, r = .ok t → t.name = name := by
  have hprovide : FollowsAt v (during .working (Table.provision name config)) fun r _ =>
      ∀ t : Table, r = .ok t → t.name = name := by
    refine followsAt_during ((Table.followsAt_provision v name config).mono fun r xs h t ht => ?_)
    cases mapError_eq_ok_iff.1 ht
    exact Provides.name h
  have hprepare := (followsAt_lookUp (v := v) mustExist name).bind
    (R := fun r _ => ∀ t : Table, r = .ok t → t.name = name) (fun _ _ _ => hprovide) nofun
  cases mustExist with
  | true | false => exact hprepare

/-- A command fails before it comes to its own body, whatever that is, or it comes to it with a
table of the given name. -/
theorem withTable_frame (session : Session) :
    (∃ e session', ∀ body,
      (i.withTable s mustExist name body).run.run session = (.error e, session')) ∨
    ∃ t session' front, t.name = name ∧ Extends session session' front ∧
      ∀ body, (i.withTable s mustExist name body).run.run session =
        (closing (body t)).run.run session' := by
  simp only [withTable_eq, run_bind]
  obtain ⟨opened, hopened, -⟩ :=
    followsAt_openDatabase (v := session.version) i s mustExist true session rfl
  rcases hopen : (i.openDatabase s mustExist true).run.run session with ⟨e | config, s₁⟩
  · exact .inl ⟨e, s₁, fun _ => rfl⟩
  · rw [hopen] at hopened
    obtain ⟨prepared, hprepared, hname⟩ :=
      followsAt_prepare mustExist name session.version config s₁ hopened.version
    rcases hprepare : (prepare mustExist name config).run.run s₁ with ⟨e | t, s₂⟩
    · refine .inl ⟨e, { s₂ with calls := s₂.calls ++ [.close] }, fun body => ?_⟩
      dsimp only
      rw [run_closing, run_bind, hprepare]
    · rw [hprepare] at hprepared hname
      refine .inr ⟨t, s₂, _, hname t rfl, hopened.trans hprepared, fun body => ?_⟩
      dsimp only
      rw [run_closing, run_closing, run_bind, hprepare]

end Invocation

/-! ### What is sent for a patch -/

section

variable (t : Table) {patch : Json} (fs : List Fragment)

theorem asking_select :
    t.asking fs "select json(data) from".toList =
      .run ("select json(data) from ".toList ++ t.name ++ fs.flatMap fun f => ' ' :: f.text)
        (fs.flatMap Fragment.values) := by
  rw [Table.asking, Table.text_composed, Table.args_composed]
  simp

/-- The call that merges a patch into the documents that fragments select. -/
def patchCall (patch : Json) : Call :=
  .run
    ("update ".toList ++ t.name ++ " set data = ".toList ++ t.storage.patchFunction
      ++ "(data, ?)".toList ++ fs.flatMap fun f => ' ' :: f.text)
    (.text patch.compact :: fs.flatMap Fragment.values)

theorem patching_of_writable (h : ¬ patch.Unwritable) :
    ∃ statement : Statement, t.patching patch (asArguments fs) = .ok statement ∧
      Call.run statement.text statement.args = patchCall t fs patch := by
  have hencode : (Document.encode? patch).isSome = true := by
    rw [Document.encode?_eq_some h]
    rfl
  obtain ⟨hmark, hdollar⟩ := Table.patchCall_clean t.storage
  obtain ⟨s, hupdate, htext, hargs⟩ := Table.update_call t fs hencode hmark hdollar
  rw [List.append_assoc] at hupdate
  refine ⟨s, hupdate, ?_⟩
  rw [patchCall, htext, hargs]
  simp

theorem patching_of_unwritable (h : patch.Unwritable) :
    ∃ e, t.patching patch (asArguments fs) = .error e := by
  obtain ⟨e, he⟩ := Document.exists_encode_eq_error h
  refine ⟨.ofWrite e, ?_⟩
  rw [Table.patching, Table.update, Table.encode, he]
  rfl

end

/-! ### The two runs -/

namespace Command

variable (style : Style) (t : Table) (session : Session) (patch : Json) (fs : List Fragment)

/-- What a dry run does: it shows the documents that fragments select, with the patch merged into
them. -/
def Previews (ended : Except Error (List Text) × Session) : Prop :=
  ∃ rows changes docs,
    session.engine session.calls (t.asking fs "select json(data) from".toList) =
      .rows rows changes ∧
    rows.mapM Table.decodeRow = .ok docs ∧
    ended.1 = .ok (Output.shownLines style (docs.map fun doc => Document.mergePatch doc patch)) ∧
    ended.2.calls = session.calls ++ [t.asking fs "select json(data) from".toList]

/-- What a run that is no dry one does: it merges the patch, unless the patch cannot be stored. -/
def Merges (ended : Except Error (List Text) × Session) : Prop :=
  (patch.HasNonFinite ∧ ∃ e, ended.1 = .error e) ∨
    (¬ patch.HasNonFinite ∧ (∃ lines, ended.1 = .ok lines) ∧
      ended.2.calls = session.calls ++ [patchCall t fs patch])

theorem compare_runPatch (document : Text) (q : Query) (all : Bool)
    (hanswers : Answers session.engine) (hfits : WellFormed session.engine) :
    let dry := (runPatch style document q all true t).run.run session
    let real := (runPatch style document q all false t).run.run session
    (∃ e, dry.1 = .error e ∧ real.1 = .error e) ∨
      ∃ members fs, readJson document = .ok (.object members) ∧
        Previews style t session (.object members) fs dry ∧
        Merges t session (.object members) fs real := by
  intro dry real
  obtain ⟨dryMade, hdryExt, hdry⟩ := follows_dryRun style t document q all session
  obtain ⟨realMade, hrealExt, hreal⟩ := follows_runPatch style t document q all session
  rcases Attempts.compare hdry hreal with hrefused | ⟨patch, hpatch, hdry, hreal⟩
  · exact .inl hrefused
  rcases Attempts.compare hdry hreal with hrefused | ⟨fs, -, hdry, hreal⟩
  · exact .inl hrefused
  obtain ⟨members, rfl, hread⟩ := readJson_of_object hpatch
  refine .inr ⟨members, fs, hread, ?_, ?_⟩
  · obtain ⟨rfl, rows, changes, hrows, hr⟩ := hanswers.asks hdry
    have hbegins := Table.begins_composed "select json(data) from".toList t.name fs
    obtain ⟨docs, hdocs⟩ := (hfits _ _ _ _ _ hrows).decoded hbegins
    rw [hdocs] at hr
    exact ⟨rows, changes, docs, hrows, hdocs, hr, hdryExt.calls⟩
  · have hwritable := Json.unwritable_iff_of_read (mapError_eq_ok_iff.1 hread)
    by_cases hfinite : (Json.object members).HasNonFinite
    · obtain ⟨e, he⟩ := patching_of_unwritable t fs (hwritable.2 hfinite)
      rw [he] at hreal
      rcases hreal with ⟨e, -, hr, -⟩ | ⟨_, hok, -⟩
      · exact .inl ⟨hfinite, e, hr⟩
      · cases hok
    · obtain ⟨statement, hstatement, hcall⟩ := patching_of_writable t fs (hfinite ∘ hwritable.1)
      rw [hstatement] at hreal
      rcases hreal with ⟨e, he, -⟩ | ⟨_, hok, htells⟩
      · cases he
      · cases hok
        obtain ⟨rfl, lines, hr⟩ := hanswers.tells htells
        rw [hcall] at hrealExt
        exact .inr ⟨hfinite, ⟨lines, hr⟩, hrealExt.calls⟩

end Command

/-- No failure has the exit code of a success. -/
theorem exitCode?_ne_success (e : Failure) : e.exitCode? ≠ some 0 := by
  fun_cases Failure.exitCode? e <;>
    simp [Failure.databaseTrouble, Failure.notFound, Failure.badUsage, Failure.fileTrouble]

theorem ofResult_eq_success_iff {r : Except Failure (List Text)} :
    Ending.ofResult r = .exit 0 ↔ ∃ lines, r = .ok lines := by
  cases r with
  | ok lines => exact ⟨fun _ => ⟨lines, rfl⟩, fun _ => rfl⟩
  | error e =>
    refine ⟨fun h => ?_, nofun⟩
    unfold Ending.ofResult at h
    dsimp only at h
    split at h
    · next code hcode =>
      cases h
      exact absurd hcode (exitCode?_ne_success e)
    · cases h

/-- **Dry runs.** If an engine raises nothing, a run of a patch succeeds exactly if a dry run of it
does, but for a patch that cannot be stored. The two make the same calls up to their statements, and
these go on with the same text and the same values; what the dry run shows is each document that it
has read, merged with the patch that the other run sends. -/
theorem dry_run_predicts (i : Invocation) (s : Surroundings) {engine : Engine}
    (hanswers : Answers engine) (hfits : WellFormed engine) (version : Version) (ids : Nat → Text)
    (table document : Text) (q : Query) (all : Bool) :
    let outcome (dryRun : Bool) := (Request.run { i with
      command := .patch table document q all dryRun }).perform s (Session.start engine version ids)
    ((outcome false).ending = .exit 0 ↔ (outcome true).ending = .exit 0 ∧
      ∀ patch, Json.read document = .ok patch → ¬ patch.HasNonFinite) ∧
    ((outcome false).ending = .exit 0 →
      ∃ patch encoded front tail args rows changes docs, ∃ storage : Storage,
        Json.read document = .ok patch ∧ Document.encode? patch = some encoded ∧
        (outcome true).session.calls = front ++
          [.run ("select json(data) from ".toList ++ table ++ tail) args, .close] ∧
        (outcome false).session.calls = front ++
          [.run ("update ".toList ++ table ++ " set data = ".toList ++ storage.patchFunction
            ++ "(data, ?)".toList ++ tail) (.text encoded :: args), .close] ∧
        engine front (.run ("select json(data) from ".toList ++ table ++ tail) args) =
          .rows rows changes ∧
        rows.mapM Table.decodeRow = .ok docs ∧
        Output.documents i.style (docs.map fun doc => Document.mergePatch doc patch) =
          ((outcome true).output, none)) := by
  intro outcome
  let body (dryRun : Bool) (t : Table) : ConsoleM (List Text) :=
    during .working (Command.runPatch i.style document q all dryRun t)
  have houtcome (dryRun : Bool) :
      let result := (i.withTable s true table (body dryRun)).run.run
        (Session.start engine version ids)
      (outcome dryRun).session = result.2 ∧ (outcome dryRun).ending = .ofResult result.1 ∧
        (outcome dryRun).output = outputOf result.1 :=
    perform_eq { i with command := .patch table document q all dryRun } s _
  obtain ⟨hdrySession, hdryEnding, hdryOutput⟩ := houtcome true
  obtain ⟨hrealSession, hrealEnding, -⟩ := houtcome false
  rcases i.withTable_frame s true table (Session.start engine version ids) with
    ⟨e, session, hframe⟩ | ⟨t, session, front, hname, hext, hframe⟩
  · -- Neither of the runs comes to its own part.
    rw [hframe] at hdryEnding hrealEnding
    rw [hdryEnding, hrealEnding]
    simp [ofResult_eq_success_iff]
  · subst hname
    have hengine : session.engine = engine := hext.engine
    have hclosed (dryRun : Bool) : (closing (body dryRun t)).run.run session =
        let (r, session') := (Command.runPatch i.style document q all dryRun t).run.run session
        (r.mapError (.error .working), { session' with calls := session'.calls ++ [.close] }) := rfl
    rw [hframe, hclosed] at hdrySession hdryEnding hdryOutput hrealSession hrealEnding
    rw [hdryEnding, hrealEnding, hdryOutput, hdrySession, hrealSession]
    have hcompare := Command.compare_runPatch i.style t session document q all
      (hengine ▸ hanswers) (hengine ▸ hfits)
    generalize (Command.runPatch i.style document q all true t).run.run session = dry at *
    generalize (Command.runPatch i.style document q all false t).run.run session = real at *
    obtain ⟨dryResult, drySession⟩ := dry
    obtain ⟨realResult, realSession⟩ := real
    rcases hcompare with ⟨e, rfl, rfl⟩ | ⟨members, fs, hread, hpreviews, hmerges⟩
    · simp [ofResult_eq_success_iff, Except.mapError]
    · obtain ⟨rows, changes, docs, hrows, hdocs, rfl, hdryCalls⟩ := hpreviews
      have hpatch : Json.read document = .ok (.object members) := mapError_eq_ok_iff.1 hread
      rcases hmerges with ⟨hbad, e, rfl⟩ | ⟨hfinite, ⟨lines, rfl⟩, hrealCalls⟩
      · have hfails : ¬ ∀ patch, Json.read document = .ok patch → ¬ patch.HasNonFinite :=
          fun h => h _ hpatch hbad
        simp [ofResult_eq_success_iff, Except.mapError, hfails]
      · have hstart : session.calls = front := hext.calls
        rw [hengine, hstart] at hrows
        rw [hstart] at hdryCalls hrealCalls
        refine ⟨iff_of_true rfl ⟨rfl, ?_⟩, fun _ => ?_⟩
        · rintro patch hpatch'
          cases hpatch.symm.trans hpatch'
          exact hfinite
        · rw [asking_select] at hrows hdryCalls
          have hshown : (Json.object members).isShowable = true := Json.isShowable_of_read hpatch
          have hwritable := (Json.unwritable_iff_of_read hpatch).not.2 hfinite
          refine ⟨.object members, _, front, fs.flatMap fun f => ' ' :: f.text,
            fs.flatMap Fragment.values, rows, changes, docs, t.storage, hpatch,
            Document.encode?_eq_some hwritable, ?_, ?_, hrows, hdocs,
            Output.documents_eq _ (Command.isShowable_mergedDocs hshown hdocs)⟩
          · show drySession.calls ++ [.close] = _
            rw [hdryCalls, List.append_assoc]
            rfl
          · show realSession.calls ++ [.close] = _
            rw [hrealCalls, List.append_assoc]
            rfl

/-- The engine of a database with a table that holds one document. -/
def oneDocument (table : Text) (doc : Json) : Engine :=
  Rules.engine
    [ ⟨"SELECT name FROM sqlite_master WHERE type = 'table'".toList, .rows [[.text table]] 0⟩,
      ⟨"select json(data) from".toList, .rows [[.text doc.compact]] 0⟩ ]

theorem answers_oneDocument (table : Text) (doc : Json) : Answers (oneDocument table doc) :=
  answers_rules (by simp)

theorem wellFormed_oneDocument (table : Text) {doc : Json} (h : doc.Legible) :
    WellFormed (oneDocument table doc) := by
  refine wellFormed_rules fun rule hrule rows changes hreply text htext => ?_
  rcases List.mem_pair.1 hrule with rfl | rfl
  · cases hreply
    exact fits_listing htext [table]
  · cases hreply
    have hread : Json.read doc.compact = .ok doc := Json.read_write Json.Layout.blank_compact h
    have hdocs : ∀ d ∈ [doc.compact], ∃ v, Json.read d = .ok v :=
      List.forall_mem_singleton.2 ⟨doc, hread⟩
    exact fits_documents htext hdocs

/-- After a dry run that succeeds, so does the real one. -/
theorem dry_run_predicts_text :
    let doc : Json := .object [("n".toList, .text "new".toList)]
    let engine := oneDocument "t".toList doc
    let s : Surroundings := ⟨[("d.db".toList, [])], []⟩
    let q : Query := ⟨none, [], [], some "a".toList, none, false, none⟩
    let outcome (dryRun : Bool) := (Request.run ⟨"d.db".toList, none, .plain, false,
      .patch "t".toList doc.compact q false dryRun⟩).perform s
        (Session.start engine [3, 45, 1] fun _ => [])
    Answers engine ∧ WellFormed engine ∧ (outcome true).ending = .exit 0 ∧
      (outcome false).ending = .exit 0 ∧
      ∃ front tail args, (outcome true).session.calls = front ++
          [.run ("select json(data) from t".toList ++ tail) args, .close] ∧
        ∃ storage : Storage, (outcome false).session.calls = front ++
          [.run ("update t set data = ".toList ++ storage.patchFunction ++ "(data, ?)".toList
            ++ tail) (.text doc.compact :: args), .close] := by
  intro doc engine s q outcome
  have hlegible : doc.Legible := ⟨by decide, trivial, trivial⟩
  have hanswers : Answers engine := answers_oneDocument _ _
  have hfits : WellFormed engine := wellFormed_oneDocument _ hlegible
  have hcode : (outcome true).ending.code? = some 0 := by decide +kernel
  have hdry : (outcome true).ending = .exit 0 := by
    generalize (outcome true).ending = ending at hcode
    cases ending with
    | exit code => cases hcode; rfl
    | crash e => cases hcode
  obtain ⟨hiff, hcalls⟩ := dry_run_predicts ⟨"d.db".toList, none, .plain, false, .info false⟩ s
    hanswers hfits [3, 45, 1] (fun _ => []) "t".toList doc.compact q false
  have hread : Json.read doc.compact = .ok doc :=
    Json.read_write Json.Layout.blank_compact hlegible
  have hwritable : ¬ doc.Unwritable := by
    rw [Json.unwritable_iff]
    decide
  have hfinite : ∀ patch, Json.read doc.compact = .ok patch → ¬ patch.HasNonFinite := by
    intro patch hpatch
    cases hread.symm.trans hpatch
    exact fun hbad => hwritable (.inl hbad)
  have hreal : (outcome false).ending = .exit 0 := hiff.2 ⟨hdry, hfinite⟩
  obtain ⟨patch, encoded, front, tail, args, rows, changes, docs, storage, hpatch, hencode, hshown,
    hsent, -⟩ := hcalls hreal
  cases hread.symm.trans hpatch
  cases (Document.encode?_eq_some hwritable).symm.trans hencode
  exact ⟨hanswers, hfits, hdry, hreal, front, tail, args, hshown, storage, hsent⟩

/-- A dry run shows what becomes of a document under a patch that cannot be stored. -/
theorem dry_run_predicts_nan :
    let engine := oneDocument "t".toList (.object [])
    let s : Surroundings := ⟨[("d.db".toList, [])], []⟩
    let q : Query := ⟨none, [], [], none, none, false, none⟩
    let outcome (dryRun : Bool) := (Request.run ⟨"d.db".toList, none, .plain, false,
      .patch "t".toList "\x7b\"a\": NaN\x7d".toList q true dryRun⟩).perform s
        (Session.start engine [3, 45, 1] fun _ => [])
    Answers engine ∧ WellFormed engine ∧ (outcome true).ending.code? = some 0 ∧
      (outcome false).ending.code? = some 2 := by
  intro engine s q outcome
  have hlegible : (Json.object []).Legible := ⟨by decide, trivial⟩
  refine ⟨answers_oneDocument _ _, wellFormed_oneDocument _ hlegible, ?_, ?_⟩
  · decide +kernel
  · decide +kernel

end DocTable.Console
