import DocTable.Proofs.Console.DryRun
import DocTable.Proofs.Session.Drawing
import DocTable.Proofs.Table.Identity
/-!
# DocTable.Proofs.Console.Insertion

What becomes of the ids of documents that are inserted.

Whoever inserts documents, a table or the command line, hands them to the same two operations, and
these keep the ids that are there (`Document.Assigned`). What the command line does around them can
be seen by setting the same table up and inserting nothing (`Invocation.settingUp`): it only reads,
and it draws no ids (`withTable_settingUp`), so that the first id that is missing is the first one
of the stream.
-/

namespace DocTable.Console

open Session Document Json Table

/-! ### Setting a table up -/

theorem drawsNone_during {α : Type} {phase : Phase} {m : SessionM α} (h : DrawsNone m) :
    DrawsNone (during phase m) := h

namespace Invocation

variable (i : Invocation) (s : Surroundings)

theorem drawsNone_openDatabase (mustExist setMode : Bool) :
    DrawsNone (i.openDatabase s mustExist setMode) := by
  unfold openDatabase
  dsimp only
  split
  · exact drawsNone_throw _
  · refine (drawsNone_during (drawsNone_lift _)).bind fun config => ?_
    exact (drawsNone_during (drawsNone_connect _ _ _)).bind fun _ => drawsNone_pure _

/-- The invocation that sets a table up and does nothing else. -/
def settingUp (table : Text) : Invocation :=
  { i with command := .init table [] [] }

theorem drawsNone_settingUp (table : Text) : DrawsNone ((i.settingUp table).run s) := by
  refine (drawsNone_openDatabase _ s _ _).bind fun config => DrawsNone.closing ?_
  exact (drawsNone_during (drawsNone_provision table config)).bind fun _ => fun _ => ⟨rfl, rfl⟩

/-- A command that may create its table fails as setting the table up does, or it comes to its own
part where no ids have been drawn. -/
theorem withTable_settingUp (table : Text) (session : Session) :
    let setup := ((i.settingUp table).run s).run.run session
    (∃ e, setup.1 = .error e ∧
      ∀ body, (i.withTable s false table body).run.run session = (.error e, setup.2)) ∨
    (∃ lines, setup.1 = .ok lines) ∧
      ∃ t session' front, t.name = table ∧ Extends session session' front ∧
        setup.2.calls = session.calls ++ front ++ [.close] ∧
        session'.ids = session.ids ∧ session'.drawn = session.drawn ∧
        ∀ body, (i.withTable s false table body).run.run session =
          (closing (body t)).run.run session' := by
  intro setup
  have hdraws := drawsNone_settingUp i s table session
  have hsetup : setup = (i.withTable s false table fun t =>
      during .working (Command.runInit i.database i.style [] [] t)).run.run session := rfl
  rcases i.withTable_frame s false table session with
    ⟨e, session', hframe⟩ | ⟨t, session', front, hname, hext, hframe⟩
  · rw [hframe] at hsetup
    refine .inl ⟨e, by rw [hsetup], fun body => ?_⟩
    rw [hframe, hsetup]
  · -- With no indexes to create, the table is all that is set up.
    rw [hframe] at hsetup
    have hcalls : setup.2.calls = session'.calls ++ [.close] := by rw [hsetup]; rfl
    have hids : setup.2.ids = session'.ids := by rw [hsetup]; rfl
    have hdrawn : setup.2.drawn = session'.drawn := by rw [hsetup]; rfl
    refine .inr ⟨⟨_, by rw [hsetup]; rfl⟩, t, session', front, hname, hext, ?_,
      hids.symm.trans hdraws.1, hdrawn.symm.trans hdraws.2, hframe⟩
    rw [hcalls, hext.calls]

end Invocation

/-! ### Inserting -/

namespace Command

/-- The command hands the documents that it is given to the table. -/
theorem runInsert_eq {files : Files} {document file : Option Text} {w : Insertion}
    (h : payload files document file = .ok w.payload) (style : Style) (t : Table) :
    runInsert files style document file t =
      w.perform t >>= fun docs => lift (Output.documentLines style docs) := by
  rw [runInsert, h, lift_ok_bind]
  cases w with
  | one doc =>
    show (t.insert (.object doc) >>= fun d => lift (Output.documentLines style [d])) =
      (t.insert (.object doc) >>= fun d => pure [d]) >>= _
    rw [bind_assoc]
    rfl
  | many docs =>
    have hdocs : (docs.map Json.object).mapM (requireObject "Each document") =
        .ok (docs.map .object) := mapM_map_eq_ok fun _ _ => rfl
    dsimp only [Insertion.payload, Insertion.perform]
    rw [hdocs, lift_ok_bind]

theorem isShowable_stored {docs : List Members} (ids : Nat → Text) (drawn : Nat)
    (hdocs : ∀ doc ∈ docs, Storable (.object doc)) :
    ∀ doc ∈ (identifyAll ids drawn docs).map Json.object, doc.isShowable = true :=
  List.forall_mem_map.2 fun doc hdoc => (storable_identifyAll ids drawn hdocs doc hdoc).isShowable

/-- The part of the command that inserts: it stores the documents with their ids and shows them. -/
theorem run_runInsert {files : Files} {document file : Option Text} {w : Insertion}
    (h : payload files document file = .ok w.payload) (style : Style) (t : Table)
    (hdocs : ∀ doc ∈ w.documents, Storable (.object doc)) (session : Session) :
    let stored := identifyAll session.ids session.drawn w.documents
    let run := (runInsert files style document file t).run.run session
    Table.Stores session run.2 [w.call t stored] (drawnAfter session.drawn w.documents) ∧
      (Table.Accepts session.engine session.calls [w.call t stored] →
        run.1 = .ok (Output.shownLines style (stored.map .object))) := by
  intro stored
  have hshown :=
    Output.documentLines_eq_ok style (isShowable_stored session.ids session.drawn hdocs)
  rw [runInsert_eq h, ← hshown]
  exact run_bind_lift (Output.documentLines style) (w.run_perform t hdocs session)

/-- The connection is closed behind the call that stores the documents, whatever came of it. -/
theorem run_closing_runInsert {files : Files} {document file : Option Text} {w : Insertion}
    (h : payload files document file = .ok w.payload) (style : Style) (t : Table)
    (hdocs : ∀ doc ∈ w.documents, Storable (.object doc)) (session : Session) :
    let stored := identifyAll session.ids session.drawn w.documents
    let run := (closing (during .working (runInsert files style document file t))).run.run session
    run.2.calls = session.calls ++ [w.call t stored, .close] ∧
      run.2.drawn = drawnAfter session.drawn w.documents ∧
      (Table.Accepts session.engine session.calls [w.call t stored] →
        run.1 = .ok (Output.shownLines style (stored.map .object))) := by
  intro stored run
  obtain ⟨hstores, hresult⟩ := run_runInsert h style t hdocs session
  have hrun : run =
      let (r, after) := (runInsert files style document file t).run.run session
      (r.mapError (.error .working), { after with calls := after.calls ++ [.close] }) := rfl
  generalize (runInsert files style document file t).run.run session = inner at *
  obtain ⟨r, after⟩ := inner
  rw [hrun]
  refine ⟨?_, hstores.drawn, fun haccepts => ?_⟩
  · show after.calls ++ [.close] = _
    rw [hstores.calls, List.append_assoc]
    rfl
  · cases hresult haccepts
    rfl

end Command

/-- What inserting adds to setting up the table: one call, unless the table cannot be set up. -/
theorem perform_insert {w : Insertion} (hdocs : ∀ doc ∈ w.documents, Storable (.object doc))
    (i : Invocation) (s : Surroundings) (engine : Engine) (version : Version) (ids : Nat → Text)
    (table : Text) {document file : Option Text}
    (hpayload : payload s.files document file = .ok w.payload) :
    let outcome (i : Invocation) := (Request.run i).perform s (Session.start engine version ids)
    let setup := outcome (i.settingUp table)
    let inserted := outcome { i with command := .insert table document file }
    let stored := identifyAll ids 0 w.documents
    (setup.ending ≠ .exit 0 → inserted.ending = setup.ending ∧
      inserted.session = setup.session) ∧
    (setup.ending = .exit 0 → ∃ front t, t.name = table ∧
      setup.session.calls = front ++ [.close] ∧
      inserted.session.calls = front ++ [w.call t stored, .close] ∧
      inserted.session.drawn = drawnAfter 0 w.documents ∧
      (Table.Accepts engine front [w.call t stored] → inserted.ending = .exit 0 ∧
        Output.documents i.style (stored.map .object) = (inserted.output, none))) := by
  intro outcome setup inserted stored
  obtain ⟨hsetup, hsetupEnding, -⟩ :=
    perform_eq (i.settingUp table) s (Session.start engine version ids)
  obtain ⟨hinserted, hending, houtput⟩ := perform_eq
    { i with command := .insert table document file } s (Session.start engine version ids)
  have hrun : ({ i with command := .insert table document file } : Invocation).run s =
      i.withTable s false table fun t =>
        during .working (Command.runInsert s.files i.style document file t) := rfl
  rw [hrun] at hinserted hending houtput
  rcases i.withTable_settingUp s table (Session.start engine version ids) with
    ⟨e, he, hframe⟩ |
    ⟨⟨lines, hlines⟩, t, session, front, hname, hext, hcalls, hids, hdrawn, hframe⟩
  · rw [hframe] at hinserted hending
    rw [he] at hsetupEnding
    refine ⟨fun _ => ⟨hending.trans hsetupEnding.symm, hinserted.trans hsetup.symm⟩,
      fun hzero => ?_⟩
    obtain ⟨lines, hok⟩ := ofResult_eq_success_iff.1 (hsetupEnding.symm.trans hzero)
    cases hok
  · rw [hlines] at hsetupEnding
    refine ⟨fun hne => absurd hsetupEnding hne, fun _ => ?_⟩
    have hstart : session.calls = front := hext.calls
    obtain ⟨hinsert, hafter, hresult⟩ :=
      Command.run_closing_runInsert hpayload i.style t hdocs session
    rw [hids, hdrawn, hstart] at hinsert
    rw [hdrawn] at hafter
    rw [hids, hdrawn, hstart, hext.engine] at hresult
    rw [hframe] at hinserted hending houtput
    refine ⟨front, t, hname, hsetup ▸ hcalls, hinserted ▸ hinsert, hinserted ▸ hafter,
      fun haccepts => ?_⟩
    have hok := hresult haccepts
    rw [hok] at hending houtput
    refine ⟨hending, ?_⟩
    rw [houtput]
    exact Output.documents_eq i.style (Command.isShowable_stored ids 0 hdocs)

/-- **Ids are kept.** However documents are inserted, a document with an id is stored and answered
as it is and draws no id; any other one gets the next id of the stream, and keeps its other members
in their order. The command line draws no ids but those: where setting up the table fails, so does
inserting, in the same way, and otherwise one call that stores the documents is all it does in
addition. -/
theorem insertion_keeps_ids (w : Insertion)
    (hdocs : ∀ doc ∈ w.documents, Storable (.object doc)) :
    (∀ (t : Table) (session : Session),
      let run := (w.perform t).run.run session
      ∃ stored after, Assigned session.ids session.drawn w.documents stored after ∧
        Table.Stores session run.2 [w.call t stored] after ∧
        (Table.Accepts session.engine session.calls [w.call t stored] →
          run.1 = .ok (stored.map .object)) ∧
        (stored.map boundRow).mapM decodeRow = .ok (stored.map .object)) ∧
    (∀ (i : Invocation) (s : Surroundings) (engine : Engine) (version : Version)
      (ids : Nat → Text) (table : Text) (document file : Option Text),
      payload s.files document file = .ok w.payload →
      let outcome (i : Invocation) := (Request.run i).perform s (Session.start engine version ids)
      let setup := outcome (i.settingUp table)
      let inserted := outcome { i with command := .insert table document file }
      (∀ c ∈ setup.session.calls, c.Reads) ∧ setup.session.drawn = 0 ∧
      (setup.ending ≠ .exit 0 → inserted.ending = setup.ending ∧
        inserted.session = setup.session) ∧
      (setup.ending = .exit 0 → ∃ front t stored after, t.name = table ∧
        setup.session.calls = front ++ [.close] ∧
        Assigned ids 0 w.documents stored after ∧
        inserted.session.calls = front ++ [w.call t stored, .close] ∧
        inserted.session.drawn = after ∧
        (Table.Accepts engine front [w.call t stored] → inserted.ending = .exit 0 ∧
          Output.documents i.style (stored.map .object) = (inserted.output, none)))) := by
  constructor
  · intro t session run
    obtain ⟨hstores, hresult⟩ := w.run_perform t hdocs session
    have hstorable := storable_identifyAll session.ids session.drawn hdocs
    exact ⟨_, _, assigned_identifyAll session.ids session.drawn w.documents, hstores, hresult,
      mapM_map_eq_ok fun doc hdoc => decodeRow_boundRow (hstorable doc hdoc)⟩
  · intro i s engine version ids table document file hpayload outcome setup inserted
    obtain ⟨hsetup, -, -⟩ := perform_eq (i.settingUp table) s (Session.start engine version ids)
    obtain ⟨r, hruns, -⟩ := exists_runs (i.settingUp table) s engine version ids
    obtain ⟨hfails, hworks⟩ := perform_insert hdocs i s engine version ids table hpayload
    refine ⟨fun c hc => ?_, ?_, hfails, fun hzero => ?_⟩
    · obtain ⟨x, hx, rfl⟩ := mem_exchanges_of_mem hc
      exact hruns.reads rfl x hx
    · have hdraws := i.drawsNone_settingUp s table (Session.start engine version ids)
      exact hsetup ▸ hdraws.2
    · obtain ⟨front, t, hname, hcalls, hinserted, hdrawn, hresult⟩ := hworks hzero
      exact ⟨front, t, _, _, hname, hcalls, assigned_identifyAll ids 0 w.documents, hinserted,
        hdrawn, hresult⟩

/-- An array of documents: one with a number as its id, one without, and one with an empty id. -/
theorem insertion_keeps_ids_array :
    let docs : List Members :=
      [[(idKey, .int 7), (['x'], .null)], [(['x'], .bool true)],
        [(idKey, .text []), (['y'], .array [])]]
    let w : Insertion := .many docs
    let i : Invocation := ⟨":memory:".toList, none, .plain, false, .info false⟩
    let ids : Nat → Text := fun n => ['n', Decimal.digit n]
    let outcome (command : Command) := (Request.run { i with command }).perform ⟨[], []⟩
      (Session.start (Rules.engine []) [3, 45] ids)
    let setup := outcome (.init "notes".toList [] [])
    let inserted := outcome (.insert "notes".toList (some w.payload.compact) none)
    (∀ doc ∈ w.documents, Storable (.object doc)) ∧
      payload [] (some w.payload.compact) none = .ok w.payload ∧ setup.ending = .exit 0 ∧
      ∃ stored, Assigned ids 0 docs stored 2 ∧ inserted.session.drawn = 2 ∧
        inserted.ending = .exit 0 ∧
        Output.documents .plain (stored.map .object) = (inserted.output, none) := by
  intro docs w i ids outcome setup inserted
  have hdocs : ∀ doc ∈ w.documents, Storable (.object doc) := by
    have hseven : Storable (.int 7) := storable_int (by simp [Decimal.ofNat, Decimal.maxDigits])
    have hempty : Storable (.array []) := storable_array_iff.2 (List.forall_mem_nil _)
    simp only [w, docs, Insertion.documents, List.forall_mem_cons, storable_object_iff]
    exact ⟨⟨by decide, hseven, storable_null, List.forall_mem_nil _⟩,
      ⟨by decide, storable_bool true, List.forall_mem_nil _⟩,
      ⟨by decide, storable_text [], hempty, List.forall_mem_nil _⟩, List.forall_mem_nil _⟩
  have hstorable : Storable w.payload := storable_array_iff.2 (List.forall_mem_map.2 hdocs)
  have hpayload : payload [] (some w.payload.compact) none = .ok w.payload := by
    show readJson _ = _
    rw [readJson, Json.compact, read_write Layout.blank_compact hstorable.legible]
    rfl
  have hsetup : setup.ending = .exit 0 := rfl
  obtain ⟨-, hcommand⟩ := insertion_keeps_ids w hdocs
  obtain ⟨-, -, -, hworks⟩ := hcommand i ⟨[], []⟩ (Rules.engine []) [3, 45] ids
    "notes".toList (some w.payload.compact) none hpayload
  obtain ⟨front, t, stored, after, -, -, hassigned, -, hdrawn, hresult⟩ := hworks hsetup
  have hafter : after = 2 := hdrawn.symm.trans (by decide +kernel)
  obtain ⟨hending, houtput⟩ := hresult (accepts_unruled _ _)
  exact ⟨hdocs, hpayload, hsetup, stored, hafter ▸ hassigned, hafter ▸ hdrawn, hending, houtput⟩

/-- A document with the id zero is stored and answered with another id, which is drawn for it. -/
theorem insertion_replaces_zero :
    let t : Table := ⟨"notes".toList, .textual⟩
    let w : Insertion := .one [(idKey, .int 0), (['x'], .int 1)]
    let stored : Members := [(idKey, .text "fresh".toList), (['x'], .int 1)]
    let run := (w.perform t).run.run
      (Session.start (Rules.engine []) [3, 45] fun _ => "fresh".toList)
    run.1 = .ok [.object stored] ∧ run.2.calls = [w.call t [stored]] ∧ run.2.drawn = 1 :=
  ⟨rfl, rfl, rfl⟩

end DocTable.Console
