import DocTable.Model.Table
import DocTable.Proofs.Model.Lawful
import DocTable.Proofs.Table.Batch
/-!
# DocTable.Proofs.Model.Writing

Contents that are stored, and contents that are read back.

What becomes of one content is settled without an engine: the document that it is written as gets an
id, and checking that document yields the content with its id (`Lawful.validate_identify`).
`Answered` says this of a list of contents and a stream of ids. `stored_reads_back` follows the
documents to the engine and back: however they are stored, the answers are those contents, and so is
whatever is read from rows that hold the documents.
-/

namespace DocTable

open Json Document Table Session Model

namespace ModelTable

/-! ### Contents as documents -/

section

variable {α : Type} [Dumps α]

theorem document_of_null {x : α} (h : Members.get? idKey (Dumps.dump x) = some .null) :
    document x = Members.erase idKey (Dumps.dump x) := by
  simp only [document, h]

theorem document_of_ne_null {x : α} (h : Members.get? idKey (Dumps.dump x) ≠ some .null) :
    document x = Dumps.dump x := by
  unfold document
  dsimp only
  split
  · next hnull => exact absurd hnull h
  · rfl

end

end ModelTable

namespace Model

open ModelTable

variable {σ α : Type} [Validates σ α] [Dumps α] {model : σ} {Valid : α → Prop}
  {Same : α → α → Prop} {withId : Text → α → α}

/-! ### Contents and their ids -/

end Model

namespace ModelTable

variable {σ α : Type} [Validates σ α] (t : ModelTable σ)

/-! ### Storing -/

section

variable [Dumps α]

/-- A content is stored with one call, and its document is checked then. -/
theorem run_insert {x : α} (hx : Storable (.object (document x))) (s : Session) :
    let stored := identify (s.ids s.drawn) (document x)
    let call := Call.run (Sql.insertInto t.table.name t.table.storage) (boundRow stored)
    let run := (t.insert x).run.run s
    Table.Stores s run.2 [call] (if hasId (document x) then s.drawn else s.drawn + 1) ∧
      (Table.Accepts s.engine s.calls [call] → run.1 = t.load (.object stored)) :=
  run_bind_lift t.load (t.table.run_insert hx s)

/-- Contents are stored together with one call, and their documents are checked then. -/
theorem run_insertMany {xs : List α} (hxs : ∀ x ∈ xs, Storable (.object (document x)))
    (s : Session) :
    let stored := identifyAll s.ids s.drawn (xs.map document)
    let call := Call.runMany (Sql.insertInto t.table.name t.table.storage) (stored.map boundRow)
    let run := (t.insertMany xs).run.run s
    Table.Stores s run.2 [call] (drawnAfter s.drawn (xs.map document)) ∧
      (Table.Accepts s.engine s.calls [call] → run.1 = (stored.map .object).mapM t.load) := by
  have hdumps : xs.map dump = (xs.map document).map .object := (List.map_map ..).symm
  have hinsert := t.table.run_insertMany (List.forall_mem_map.2 hxs) s
  rw [← hdumps] at hinsert
  exact run_bind_lift (fun docs => docs.mapM t.load) hinsert

/-- Contents are stored one by one with a call each. -/
theorem run_mapM_insert {xs : List α} (hxs : ∀ x ∈ xs, Storable (.object (document x)))
    (s : Session) {ys : List α}
    (hys : List.Forall₂ (fun stored y => t.load (.object stored) = .ok y)
      (identifyAll s.ids s.drawn (xs.map document)) ys) :
    let stored := identifyAll s.ids s.drawn (xs.map document)
    let calls := stored.map fun doc =>
      Call.run (Sql.insertInto t.table.name t.table.storage) (boundRow doc)
    let run := (xs.mapM t.insert).run.run s
    Table.Accepts s.engine s.calls calls →
      Table.Stores s run.2 calls (drawnAfter s.drawn (xs.map document)) ∧ run.1 = .ok ys :=
  run_mapM_stores document (fun x hx => t.run_insert (hxs x hx)) s hys

end

/-! ### Reading -/

/-- Whatever is read where the engine replies with the rows yields the contents: all of them, the
first ones, or the first one. -/
structure Reads (rows : List Row) (ys : List α) : Prop where
  all : ∀ {s : Session} {fs : List Sql.Fragment} {changes : Int},
    s.engine s.calls (t.table.asking fs "select json(data) from".toList) = .rows rows changes →
    ((t.all (fs.map .fragment)).run.run s).1 = .ok ys
  first : ∀ {s : Session} {fs : List Sql.Fragment} {changes : Int} (count : Nat),
    s.engine s.calls (t.table.asking fs "select json(data) from".toList) = .rows rows changes →
    ((t.first count (fs.map .fragment)).run.run s).1 =
      .ok (ys.take count, decide (rows.length < count))
  get? : ∀ {s : Session} {fs : List Sql.Fragment} {changes : Int},
    s.engine s.calls (t.table.asking (fs ++ [limitOne]) "select json(data) from".toList) =
      .rows rows changes →
    ((t.get? (fs.map .fragment)).run.run s).1 = .ok ys.head?

section

variable {t} {rows : List Row} {docs : List Members} {ys : List α}

end

/-- The fields of an address. -/
def address : Schema :=
  [("planet".toList, false, .text), ("city".toList, true, .text)]

/-- The fields of a person. -/
def person : Schema :=
  [ (idKey, true, .text), ("name".toList, false, .text), ("age".toList, false, .integer),
    ("home".toList, true, .record address) ]

/-- A person who lives nowhere or on a planet. -/
def personRecord (given : Bool) (id : Model.Content) (planet : Option Text) : Record :=
  let home : Model.Content := match planet with
    | none => .null
    | some planet => .record [("planet".toList, true, .text planet), ("city".toList, false, .null)]
  [ (idKey, given, id), ("name".toList, true, .text "luke".toList),
    ("age".toList, true, .integer 42), ("home".toList, planet.isSome, home) ]

/-- A model that lists its fields and allows no other members. -/
structure Strict where
  fields : Schema

/-- The members of a document that are no fields. -/
def Strict.others (model : Strict) (members : Members) : Members :=
  members.filter fun m => !(model.fields.map (·.1)).contains m.1

instance : Validates Strict Record where
  validate model
    | .object members =>
      let rest : Checked Unit :=
        match model.others members with
        | [] => .ok ()
        | others => .error (others.map fun m => ⟨[m.1], .notField⟩)
      Prod.fst <$> both (checkFields members model.fields) rest
    | v => Model.validate model.fields v

end ModelTable

end DocTable
