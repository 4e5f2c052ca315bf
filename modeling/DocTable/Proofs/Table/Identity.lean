import DocTable.Proofs.Table.Batch
/-!
# DocTable.Proofs.Table.Identity

Which documents keep their ids when they are stored.

`Document.Assigned` says how documents are stored while ids are drawn from a stream: a document with
an id is stored as it is and draws nothing, any other one takes the next id of the stream and keeps
all else. A value counts as an id only if it is *given*, which rules out more than null and the
empty text (`Document.Overlooked`). `Insertion` is what can be inserted, one document or several;
`Insertion.run_perform` says that either way of inserting assigns ids like that.
-/

namespace DocTable

namespace Document

open Json

/-! ### Values that count as ids -/

/-- Values that are neither null nor the empty text, and do not count as an id all the same. -/
inductive Overlooked : Json → Prop
  | no : Overlooked (.bool false)
  | zero : Overlooked (.int 0)
  | floatZero {x : Binary64} : x.isZero = true → Overlooked (.float x)
  | noItems : Overlooked (.array [])
  | noMembers : Overlooked (.object [])

theorem overlooked_iff {v : Json} :
    Overlooked v ↔ v.given = false ∧ v ≠ .null ∧ v ≠ .text [] := by
  constructor
  · intro h
    cases h with
    | floatZero hx => exact ⟨by rw [given, hx]; rfl, Json.noConfusion, Json.noConfusion⟩
    | no | zero | noItems | noMembers => exact ⟨rfl, Json.noConfusion, Json.noConfusion⟩
  · rintro ⟨hgiven, hnull, htext⟩
    cases v with
    | null => exact absurd rfl hnull
    | bool b =>
      cases b with
      | false => exact .no
      | true => cases hgiven
    | int n =>
      have hzero : n = 0 := by simpa [given] using hgiven
      exact hzero ▸ .zero
    | float x => exact .floatZero (by simpa [given] using hgiven)
    | text t =>
      have hempty : t = [] := by simpa [given] using hgiven
      exact absurd (hempty ▸ rfl) htext
    | array items =>
      have hempty : items = [] := by simpa [given] using hgiven
      exact hempty ▸ .noItems
    | object members =>
      have hempty : members = [] := by simpa [given] using hgiven
      exact hempty ▸ .noMembers

theorem given_iff {v : Json} :
    v.given = true ↔ v ≠ .null ∧ v ≠ .text [] ∧ ¬ Overlooked v := by
  constructor
  · intro hgiven
    have hne : ∀ w : Json, w.given = false → v ≠ w := by
      rintro w hw rfl
      exact absurd hgiven (Bool.eq_false_iff.1 hw)
    refine ⟨hne .null rfl, hne (.text []) rfl, fun hover => ?_⟩
    exact absurd hgiven (Bool.eq_false_iff.1 (overlooked_iff.1 hover).1)
  · rintro ⟨hnull, htext, hover⟩
    cases hgiven : v.given with
    | true => rfl
    | false => exact absurd (overlooked_iff.2 ⟨hgiven, hnull, htext⟩) hover

/-- A document has an id: a value other than null and the empty text that is not overlooked. -/
def HasOwnId (doc : Members) : Prop :=
  ∃ v, Members.get? idKey doc = some v ∧ v ≠ .null ∧ v ≠ .text [] ∧ ¬ Overlooked v

theorem hasOwnId_iff {doc : Members} : HasOwnId doc ↔ hasId doc = true := by
  rw [hasId, HasOwnId]
  cases Members.get? idKey doc with
  | none => simp
  | some v => simp [given_iff]

/-! ### Drawing ids -/

/-- Documents and how they are stored, while ids are drawn from a stream, from one number to
another: a document with an id stays as it is, any other one has the next id and keeps its other
members, in their order. -/
inductive Assigned (ids : Nat → Text) : (drawn : Nat) → (docs stored : List Members) →
    (after : Nat) → Prop
  | nil {drawn : Nat} : Assigned ids drawn [] [] drawn
  | kept {drawn after : Nat} {doc : Members} {docs stored : List Members} : HasOwnId doc →
      Assigned ids drawn docs stored after →
      Assigned ids drawn (doc :: docs) (doc :: stored) after
  | fresh {drawn after : Nat} {doc doc' : Members} {docs stored : List Members} : ¬ HasOwnId doc →
      Members.get? idKey doc' = some (.text (ids drawn)) →
      Members.erase idKey doc' = Members.erase idKey doc →
      Assigned ids (drawn + 1) docs stored after →
      Assigned ids drawn (doc :: docs) (doc' :: stored) after

theorem get?_identify {doc : Members} (h : hasId doc = false) (fresh : Text) :
    Members.get? idKey (identify fresh doc) = some (.text fresh) := by
  rw [identify, if_neg (Bool.eq_false_iff.1 h), Members.get?_put, if_pos rfl]

theorem assigned_identifyAll (ids : Nat → Text) (drawn : Nat) (docs : List Members) :
    Assigned ids drawn docs (identifyAll ids drawn docs) (drawnAfter drawn docs) := by
  induction docs generalizing drawn with
  | nil => exact .nil
  | cons doc docs ih =>
    rw [identifyAll, drawnAfter]
    cases hid : hasId doc with
    | true =>
      have hkept : identify (ids drawn) doc = doc := if_pos hid
      rw [hkept]
      exact .kept (hasOwnId_iff.2 hid) (ih _)
    | false =>
      have hnone : ¬ HasOwnId doc := by rw [hasOwnId_iff, hid]; exact Bool.false_ne_true
      exact .fresh hnone (get?_identify hid _) (erase_identify _ doc) (ih _)

end Document

namespace Table

open Session Document Json

/-! ### Insertions -/

/-- What can be inserted: one document, or several together. -/
inductive Insertion where
  | one (doc : Members)
  | many (docs : List Members)

namespace Insertion

/-- The documents that are inserted. -/
def documents : Insertion → List Members
  | one doc => [doc]
  | many docs => docs

/-- Insert documents, and answer them as they are stored. -/
def perform (t : Table) : Insertion → SessionM (List Json)
  | one doc => do return [← t.insert (.object doc)]
  | many docs => t.insertMany (docs.map .object)

/-- The call that stores documents. -/
def call (t : Table) (stored : List Members) : Insertion → Call
  | one _ => .run (Sql.insertInto t.name t.storage) (stored.flatMap boundRow)
  | many _ => .runMany (Sql.insertInto t.name t.storage) (stored.map boundRow)

/-- What the console is given to insert. -/
def payload : Insertion → Json
  | one doc => .object doc
  | many docs => .array (docs.map .object)

/-- Inserting binds the documents with their ids in one call and draws the ids that are missing; if
the engine takes the call, the documents are answered as they were bound. -/
theorem run_perform (t : Table) (w : Insertion)
    (hdocs : ∀ doc ∈ w.documents, Storable (.object doc)) (s : Session) :
    let stored := identifyAll s.ids s.drawn w.documents
    let run := (w.perform t).run.run s
    Stores s run.2 [w.call t stored] (drawnAfter s.drawn w.documents) ∧
      (Accepts s.engine s.calls [w.call t stored] → run.1 = .ok (stored.map .object)) := by
  cases w with
  | many docs => exact run_insertMany t hdocs s
  | one doc =>
    have hinsert := run_insert t (hdocs doc List.mem_cons_self) s
    have hrow : [identify (s.ids s.drawn) doc].flatMap boundRow =
        boundRow (identify (s.ids s.drawn) doc) := List.flatMap_singleton ..
    dsimp only [documents, identifyAll, drawnAfter, call]
    rw [hrow]
    exact run_bind_lift (fun d => .ok [d]) hinsert

end Insertion

end Table

end DocTable
