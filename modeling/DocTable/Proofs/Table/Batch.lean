import DocTable.Engine.Rules
import DocTable.Proofs.Document.RoundTrip
import DocTable.Proofs.Table.Exchanges
/-!
# DocTable.Proofs.Table.Batch

Documents that are stored together and documents that are stored one by one.

Both ways draw an id for each document without one, in the order of the documents
(`Document.identifyAll`), and bind the same rows. `insertMany_agrees_insert` compares the two, for
an engine that takes what it is handed, and says that the rows are read back as the documents that
are answered.
-/

namespace DocTable

open Json

/-! ### Documents with their ids -/

namespace Document

/-- An id changes nothing else in a document. -/
theorem erase_identify (fresh : Text) (doc : Members) :
    Members.erase idKey (identify fresh doc) = Members.erase idKey doc := by
  rw [identify]
  split
  · rfl
  · exact Members.erase_put idKey _ doc

/-- A document that can be stored can be stored with an id. -/
theorem storable_identify (fresh : Text) {doc : Members} (h : Storable (.object doc)) :
    Storable (.object (identify fresh doc)) := by
  rw [identify]
  split
  · exact h
  · obtain ⟨hkeys, hparts⟩ := storable_object_iff.1 h
    refine storable_object_iff.2 ⟨?_, fun m hm => ?_⟩
    · rw [Members.keys_put]
      split
      · exact hkeys
      · next hnew =>
        refine List.nodup_append.2 ⟨hkeys, List.nodup_singleton _, ?_⟩
        intro k hk k' hk' heq
        rw [List.mem_singleton.1 hk'] at heq
        exact hnew (heq ▸ hk)
    · rcases Members.mem_put hm with rfl | hm
      · exact storable_of_leaf rfl trivial
      · exact hparts m hm

/-- Documents with their ids. Those that are missing are taken from a stream, in order. -/
def identifyAll (ids : Nat → Text) : (drawn : Nat) → List Members → List Members
  | _, [] => []
  | drawn, doc :: docs =>
    identify (ids drawn) doc :: identifyAll ids (if hasId doc then drawn else drawn + 1) docs

/-- How many ids have been drawn when all documents have one. -/
def drawnAfter : (drawn : Nat) → List Members → Nat
  | drawn, [] => drawn
  | drawn, doc :: docs => drawnAfter (if hasId doc then drawn else drawn + 1) docs

theorem map_erase_identifyAll (ids : Nat → Text) (drawn : Nat) (docs : List Members) :
    (identifyAll ids drawn docs).map (Members.erase idKey) = docs.map (Members.erase idKey) := by
  induction docs generalizing drawn with
  | nil => rfl
  | cons doc docs ih => rw [identifyAll, List.map_cons, List.map_cons, ih, erase_identify]

theorem forall_mem_identifyAll {P : Members → Prop} {docs : List Members} (ids : Nat → Text)
    (drawn : Nat) (h : ∀ fresh, ∀ doc ∈ docs, P (identify fresh doc)) :
    ∀ doc ∈ identifyAll ids drawn docs, P doc := by
  induction docs generalizing drawn with
  | nil => exact List.forall_mem_nil _
  | cons doc docs ih =>
    rw [identifyAll]
    exact List.forall_mem_cons.2 ⟨h _ doc List.mem_cons_self,
      ih _ fun fresh doc hdoc => h fresh doc (List.mem_cons_of_mem _ hdoc)⟩

theorem storable_identifyAll (ids : Nat → Text) (drawn : Nat) {docs : List Members}
    (h : ∀ doc ∈ docs, Storable (.object doc)) :
    ∀ doc ∈ identifyAll ids drawn docs, Storable (.object doc) :=
  forall_mem_identifyAll ids drawn fun fresh doc hdoc => storable_identify fresh (h doc hdoc)

end Document

namespace Table

open Session Document

/-- The values that are bound for a document. -/
def boundRow (doc : Members) : Row :=
  [.text (Json.object doc).compact]

theorem insertionRow_eq {doc : Members} (h : Storable (.object doc)) :
    insertionRow (.object doc) = .ok (boundRow doc) := by
  rw [insertionRow, encode_of_writable h.writable]
  rfl

/-- A bound row is read back as its document. -/
theorem decodeRow_boundRow {doc : Members} (h : Storable (.object doc)) :
    decodeRow (boundRow doc) = .ok (.object doc) := by
  rw [boundRow, decodeRow, Json.compact, read_write Layout.blank_compact h.legible]
  rfl

/-! ### Drawing ids -/

theorem run_identified (doc : Members) (s : Session) :
    (identified (.object doc)).run.run s =
      (.ok (.object (identify (s.ids s.drawn) doc)),
        { s with drawn := if hasId doc then s.drawn else s.drawn + 1 }) := by
  rw [identified]
  by_cases hid : hasId doc = true
  · rw [if_pos hid, if_pos hid, identify, if_pos hid]
    rfl
  · rw [if_neg hid, if_neg hid]
    rfl

theorem run_mapM_identified (docs : List Members) (s : Session) :
    ((docs.map Json.object).mapM identified).run.run s =
      (.ok ((identifyAll s.ids s.drawn docs).map .object),
        { s with drawn := drawnAfter s.drawn docs }) := by
  induction docs generalizing s with
  | nil => rfl
  | cons doc docs ih =>
    rw [List.map_cons, List.mapM_cons, run_bind, run_identified]
    dsimp only
    rw [run_bind, ih]
    rfl

/-! ### Storing -/

/-- The engine replies with rows to calls that are made one after another. -/
def Accepts (engine : Engine) : (history calls : List Call) → Prop
  | _, [] => True
  | history, c :: cs =>
    (∃ rows changes, engine history c = .rows rows changes) ∧ Accepts engine (history ++ [c]) cs

/-- An engine that never fails accepts everything. -/
theorem accepts_of_replies {engine : Engine}
    (h : ∀ history c, ∃ rows changes, engine history c = .rows rows changes)
    (history calls : List Call) : Accepts engine history calls := by
  induction calls generalizing history with
  | nil => exact trivial
  | cons c calls ih => exact ⟨h history c, ih _⟩

/-- How a session goes on when documents have been stored: with calls, and with ids drawn. -/
structure Stores (s s' : Session) (calls : List Call) (drawn : Nat) : Prop where
  engine : s'.engine = s.engine
  ids : s'.ids = s.ids
  calls : s'.calls = s.calls ++ calls
  drawn : s'.drawn = drawn

theorem Stores.trans {s s' s'' : Session} {cs ds : List Call} {m n : Nat}
    (h : Stores s s' cs m) (h' : Stores s' s'' ds n) : Stores s s'' (cs ++ ds) n where
  engine := h'.engine.trans h.engine
  ids := h'.ids.trans h.ids
  calls := by rw [h'.calls, h.calls, List.append_assoc]
  drawn := h'.drawn

theorem run_bind_of_ok {α β : Type} {m : SessionM α} {s : Session} {a : α}
    (h : (m.run.run s).1 = .ok a) (f : α → SessionM β) :
    (m >>= f).run.run s = (f a).run.run (m.run.run s).2 := by
  rw [run_bind]
  generalize m.run.run s = r at *
  obtain ⟨_, s'⟩ := r
  obtain rfl := h
  rfl

/-- What is made of the result of storing changes nothing about what has been stored. -/
theorem run_bind_lift {α β : Type} {m : SessionM α} {s : Session} {cs : List Call} {drawn : Nat}
    {a : α} (g : α → Except Error β) (hm : Stores s (m.run.run s).2 cs drawn ∧
      (Accepts s.engine s.calls cs → (m.run.run s).1 = .ok a)) :
    let run := (m >>= fun a => lift (g a)).run.run s
    Stores s run.2 cs drawn ∧ (Accepts s.engine s.calls cs → run.1 = g a) := by
  dsimp only
  obtain ⟨hstores, hresult⟩ := hm
  rw [run_bind]
  generalize m.run.run s = stored at hstores hresult
  obtain ⟨r, s'⟩ := stored
  cases r with
  | ok b =>
    refine ⟨hstores, fun haccepts => ?_⟩
    cases hresult haccepts
    rfl
  | error e => exact ⟨hstores, fun haccepts => nomatch hresult haccepts⟩

/-- One call that is logged, after ids have been drawn, and a result without the rows. -/
theorem run_loggedCall {α : Type} (message : Text) (c : Call) (a : α) (s : Session) (drawn : Nat) :
    let m : SessionM α := do
      logEntry .debug .table message
      discard (call c)
      return a
    Stores s (m.run.run { s with drawn := drawn }).2 [c] drawn ∧
      (Accepts s.engine s.calls [c] → (m.run.run { s with drawn := drawn }).1 = .ok a) := by
  intro m
  have hrun : m.run.run { s with drawn := drawn } =
      (call c >>= fun _ => (pure a : SessionM α)).run.run
        { s with drawn := drawn, log := s.log ++ [⟨.debug, .table, message⟩] } := by
    have hdiscard : discard (call c) = call c >>= fun _ => pure () := rfl
    show (logEntry .debug .table message >>= fun _ => discard (call c) >>= fun _ =>
      (pure a : SessionM α)).run.run _ = _
    rw [hdiscard, bind_assoc]
    rfl
  rw [hrun, run_bind, run_call]
  dsimp only
  cases hreply : s.engine s.calls c with
  | fail e =>
    refine ⟨⟨rfl, rfl, rfl, rfl⟩, ?_⟩
    rintro ⟨⟨rows, changes, haccept⟩, -⟩
    rw [hreply] at haccept
    cases haccept
  | rows rows changes => exact ⟨⟨rfl, rfl, rfl, rfl⟩, fun _ => rfl⟩

variable (t : Table)

/-- Documents are stored together with one call. -/
theorem run_insertMany {docs : List Members} (hdocs : ∀ doc ∈ docs, Storable (.object doc))
    (s : Session) :
    let stored := identifyAll s.ids s.drawn docs
    let call := Call.runMany (Sql.insertInto t.name t.storage) (stored.map boundRow)
    let batch := (t.insertMany (docs.map .object)).run.run s
    Stores s batch.2 [call] (drawnAfter s.drawn docs) ∧
      (Accepts s.engine s.calls [call] → batch.1 = .ok (stored.map .object)) := by
  dsimp only
  have hstored := storable_identifyAll s.ids s.drawn hdocs
  rw [insertMany, run_bind, run_mapM_identified]
  dsimp only
  generalize identifyAll s.ids s.drawn docs = stored at *
  have hrows : ((stored.map Json.object).mapM fun doc => do return [Json.text (← encode doc)]) =
      .ok (stored.map boundRow) := mapM_map_eq_ok fun doc hdoc => insertionRow_eq (hstored doc hdoc)
  rw [hrows]
  exact run_loggedCall _ _ _ s _

/-- A document is stored with one call. -/
theorem run_insert {doc : Members} (hdoc : Storable (.object doc)) (s : Session) :
    let stored := identify (s.ids s.drawn) doc
    let call := Call.run (Sql.insertInto t.name t.storage) (boundRow stored)
    let single := (t.insert (.object doc)).run.run s
    Stores s single.2 [call] (if hasId doc then s.drawn else s.drawn + 1) ∧
      (Accepts s.engine s.calls [call] → single.1 = .ok (.object stored)) := by
  dsimp only
  have hstored := storable_identify (s.ids s.drawn) hdoc
  rw [insert, run_bind, run_identified]
  dsimp only
  generalize identify (s.ids s.drawn) doc = stored at *
  rw [encode_of_writable hstored.writable]
  exact run_loggedCall _ _ _ s _

/-- Where each member of a list is stored as a document with one call, and `g` is what is answered
for a stored document, the list is stored with a call for each. -/
theorem run_mapM_stores {α β : Type} {f : α → SessionM β} (doc : α → Members) {text : Text}
    {g : Members → Except Error β} {xs : List α}
    (hf : ∀ x ∈ xs, ∀ s : Session,
      let stored := identify (s.ids s.drawn) (doc x)
      Stores s ((f x).run.run s).2 [.run text (boundRow stored)]
          (if hasId (doc x) then s.drawn else s.drawn + 1) ∧
        (Accepts s.engine s.calls [.run text (boundRow stored)] →
          ((f x).run.run s).1 = g stored))
    (s : Session) {ys : List β}
    (hys : List.Forall₂ (fun stored y => g stored = .ok y)
      (identifyAll s.ids s.drawn (xs.map doc)) ys) :
    let calls :=
      (identifyAll s.ids s.drawn (xs.map doc)).map fun doc => Call.run text (boundRow doc)
    let run := (xs.mapM f).run.run s
    Accepts s.engine s.calls calls →
      Stores s run.2 calls (drawnAfter s.drawn (xs.map doc)) ∧ run.1 = .ok ys := by
  induction xs generalizing s ys with
  | nil =>
    cases hys
    exact fun _ => ⟨⟨rfl, rfl, (List.append_nil _).symm, rfl⟩, rfl⟩
  | cons x xs ih =>
    obtain ⟨hx, hxs⟩ := List.forall_mem_cons.1 hf
    cases hys with
    | @cons _ y _ ys hy hlater =>
    intro calls run haccepts
    obtain ⟨hfirst, hrest⟩ := haccepts
    obtain ⟨hstores, hresult⟩ := hx s
    have hone := (hresult ⟨hfirst, trivial⟩).trans hy
    -- The rest is stored where the first member has left the session.
    have hnext := @ih hxs ((f x).run.run s).2 ys
    rw [hstores.engine, hstores.ids, hstores.calls, hstores.drawn] at hnext
    obtain ⟨hstores', hresult'⟩ := hnext hlater hrest
    have hrun : run = ((x :: xs).mapM f).run.run s := rfl
    rw [List.mapM_cons, run_bind_of_ok hone, run_bind_of_ok hresult'] at hrun
    rw [hrun]
    exact ⟨hstores.trans hstores', rfl⟩

/-- Documents are stored one by one with a call each. -/
theorem run_mapM_insert {docs : List Members} (hdocs : ∀ doc ∈ docs, Storable (.object doc))
    (s : Session) :
    let stored := identifyAll s.ids s.drawn docs
    let calls := stored.map fun doc => Call.run (Sql.insertInto t.name t.storage) (boundRow doc)
    let single := ((docs.map Json.object).mapM t.insert).run.run s
    Accepts s.engine s.calls calls →
      Stores s single.2 calls (drawnAfter s.drawn docs) ∧
        single.1 = .ok (stored.map .object) := by
  have hmap : (docs.map Json.object).mapM t.insert = docs.mapM fun doc => t.insert (.object doc) :=
    List.mapM_map
  have hanswers : List.Forall₂
      (fun stored d => .ok (Json.object stored) = (.ok d : Except Error Json))
      (identifyAll s.ids s.drawn (docs.map id))
      ((identifyAll s.ids s.drawn (docs.map id)).map .object) :=
    List.forall₂_map_right_iff.2 (List.forall₂_same.2 fun _ _ => rfl)
  have hrun := run_mapM_stores (f := fun doc => t.insert (.object doc)) id
    (fun doc hdoc => run_insert t (hdocs doc hdoc)) s hanswers
  rw [List.map_id] at hrun
  rw [hmap]
  exact hrun

/-- Documents that are stored together and documents that are stored one by one. Both ways draw
the same ids for the same documents and bind the same rows with one text, and they answer the same
documents. These are what the rows are read back as, and an id is all that they have in addition. -/
theorem insertMany_agrees_insert {docs : List Members}
    (hdocs : ∀ doc ∈ docs, Storable (.object doc)) (s : Session) :
    let stored := identifyAll s.ids s.drawn docs
    let rows := stored.map boundRow
    let drawn := drawnAfter s.drawn docs
    let text := Sql.insertInto t.name t.storage
    let batch := (t.insertMany (docs.map .object)).run.run s
    let single := ((docs.map Json.object).mapM t.insert).run.run s
    Stores s batch.2 [.runMany text rows] drawn ∧
      (Accepts s.engine s.calls [.runMany text rows] → batch.1 = .ok (stored.map .object)) ∧
      (Accepts s.engine s.calls (rows.map (.run text)) →
        Stores s single.2 (rows.map (.run text)) drawn ∧ single.1 = .ok (stored.map .object)) ∧
      (stored.map Json.object).mapM insertionRow = .ok rows ∧
      rows.mapM decodeRow = .ok (stored.map .object) ∧
      stored.map (Members.erase idKey) = docs.map (Members.erase idKey) := by
  intro stored rows drawn text batch single
  have hstored := storable_identifyAll s.ids s.drawn hdocs
  obtain ⟨hbatch, hbatch'⟩ := run_insertMany t hdocs s
  have hcalls : rows.map (Call.run text) =
      stored.map fun doc => Call.run text (boundRow doc) := List.map_map
  refine ⟨hbatch, hbatch', ?_, ?_, ?_, map_erase_identifyAll s.ids s.drawn docs⟩
  · rw [hcalls]
    exact run_mapM_insert t hdocs s
  · exact mapM_map_eq_ok fun doc hdoc => insertionRow_eq (hstored doc hdoc)
  · exact mapM_map_eq_ok fun doc hdoc => decodeRow_boundRow (hstored doc hdoc)

/-- Without rules an engine takes everything. -/
theorem accepts_unruled (history calls : List Call) :
    Accepts (Rules.engine []) history calls :=
  accepts_of_replies (fun _ c => Rules.exists_fallback (Rules.textOf c)) history calls

/-- A document with an id, one without and one with an empty id; the engine takes everything. -/
theorem insertMany_agrees_insert_mixed :
    let t : Table := ⟨"notes".toList, .textual⟩
    let s := Session.start (Rules.engine []) [3, 45] fun n => ['n', Decimal.digit n]
    let docs : List Members :=
      [[(idKey, .text ['a']), (['x'], .bool true)], [(['x'], .null)],
        [(idKey, .text []), (['x'], .array [])]]
    let stored : List Members :=
      [[(idKey, .text ['a']), (['x'], .bool true)], [(['x'], .null), (idKey, .text "n0".toList)],
        [(idKey, .text "n1".toList), (['x'], .array [])]]
    let batch := (t.insertMany (docs.map .object)).run.run s
    let single := ((docs.map Json.object).mapM t.insert).run.run s
    batch.1 = .ok (stored.map .object) ∧ single.1 = .ok (stored.map .object) ∧
      batch.2.drawn = 2 ∧ single.2.drawn = 2 := by
  intro t s docs stored batch single
  have hdocs : ∀ doc ∈ docs, Storable (.object doc) := by
    have htext : ∀ t, Storable (.text t) := fun _ => storable_of_leaf rfl trivial
    have hbool : Storable (.bool true) := storable_of_leaf rfl trivial
    have hnull : Storable .null := storable_of_leaf rfl trivial
    have hempty : Storable (.array []) := storable_of_leaf rfl trivial
    simp only [docs, List.forall_mem_cons, storable_object_iff]
    exact ⟨⟨by decide, htext _, hbool, List.forall_mem_nil _⟩,
      ⟨by decide, hnull, List.forall_mem_nil _⟩,
      ⟨by decide, htext _, hempty, List.forall_mem_nil _⟩, List.forall_mem_nil _⟩
  obtain ⟨hbatch, hbatch', hsingle, -⟩ := insertMany_agrees_insert t hdocs s
  obtain ⟨hsingle, hsingle'⟩ := hsingle (accepts_unruled _ _)
  exact ⟨hbatch' (accepts_unruled _ _), hsingle', hbatch.drawn, hsingle.drawn⟩

end Table

end DocTable
