import DocTable.Proofs.Document.NullMembers
import DocTable.Proofs.Model.Writing
import DocTable.Proofs.Table.Binding
/-!
# DocTable.Proofs.Model.NullIds

Which writes bind a null as an id.

`Write` is what can be written with contents. Its documents are bound as they are for any table
(`Write.binds_perform`). Of these only the document of a patch keeps a null as its id, and it has
one exactly if that was given (`Write.ErasesId`). In a patch a null is a request: merged into a
document, it removes the id, and nothing else does (`bound_null_id_iff`).
-/

namespace DocTable

open Document Table Session Model

namespace ModelTable

/-- A write of contents; fragments select the documents that are changed, and the content of a patch
may be one of another model. -/
inductive Write (α β : Type) where
  | insert (x : α)
  | insertMany (xs : List α)
  | replace (x : α) (fs : List Sql.Fragment)
  | patch (x : β) (fs : List Sql.Fragment)

namespace Write

variable {σ α β : Type} [Validates σ α] [Dumps α] [Dumps β]

/-- Do what a write says. -/
def perform (t : ModelTable σ) : Write α β → SessionM Unit
  | insert x => discard (t.insert x)
  | insertMany xs => discard (t.insertMany xs)
  | replace x fs => t.replace x (fs.map .fragment)
  | patch x fs => t.patch x (fs.map .fragment)

/-- The documents of a write where it is done, with their ids. -/
def documents (s : Session) : Write α β → List Members
  | insert x => [identify (s.ids s.drawn) (document x)]
  | insertMany xs => identifyAll s.ids s.drawn (xs.map document)
  | replace x _ => [document x]
  | patch x _ => [Dumps.dumpGiven x]

/-- The values of the fragments that select documents. -/
def others : Write α β → List Json
  | insert _ | insertMany _ => []
  | replace _ fs | patch _ fs => fs.flatMap Sql.Fragment.values

/-- A write asks for ids to be removed: it is a patch whose content was given a null as its id. -/
def ErasesId : Write α β → Prop
  | patch x _ => Members.get? idKey (Dumps.dumpGiven x) = some .null
  | insert _ | insertMany _ | replace _ _ => False

theorem binds_perform (t : ModelTable σ) (w : Write α β) (s : Session) :
    Binds s ((w.perform t).run.run s).2 (w.documents s) w.others := by
  cases w with
  | insert x =>
    have hcalls : (((insert x : Write α β).perform t).run.run s).2.calls =
        ((t.table.insert (.object (document x))).run.run s).2.calls :=
      (calls_discard _ s).trans (calls_bind_lift t.load s)
    have hbinds := t.table.binds_insert s (document x)
    rwa [Binds, ← hcalls] at hbinds
  | insertMany xs =>
    have hdumps : xs.map dump = (xs.map document).map .object := (List.map_map ..).symm
    have hcalls : (((insertMany xs : Write α β).perform t).run.run s).2.calls =
        ((t.table.insertMany (xs.map dump)).run.run s).2.calls :=
      (calls_discard _ s).trans (calls_bind_lift (fun docs : List Json => docs.mapM t.load) s)
    have hbinds := t.table.binds_insertMany s (xs.map document)
    rw [← hdumps] at hbinds
    rwa [Binds, ← hcalls] at hbinds
  | replace x fs => exact t.table.binds_replace s (document x) fs
  | patch x fs => exact t.table.binds_patch s (Dumps.dumpGiven x) fs

/-- A document with an id that was given or drawn has no null as its id. -/
theorem get?_identify_ne_null (fresh : Text) (doc : Members) :
    Members.get? idKey (identify fresh doc) ≠ some .null := by
  rw [identify]
  split
  · next hid =>
    intro hnull
    rw [hasId, hnull] at hid
    cases hid
  · rw [Members.get?_put, if_pos rfl]
    simp

theorem get?_document_ne_null (x : α) : Members.get? idKey (document x) ≠ some .null := by
  by_cases hnull : Members.get? idKey (Dumps.dump x) = some .null
  · rw [document_of_null hnull, Members.get?_erase, if_pos rfl]
    exact nofun
  · rwa [document_of_ne_null hnull]

theorem null_iff_erasesId (w : Write α β) (s : Session) :
    ∀ doc ∈ w.documents s, Members.get? idKey doc = some .null ↔ w.ErasesId := by
  cases w with
  | insert x => exact List.forall_mem_singleton.2 (iff_of_false (get?_identify_ne_null _ _) id)
  | insertMany xs =>
    exact forall_mem_identifyAll _ _ fun fresh doc _ =>
      iff_of_false (get?_identify_ne_null fresh doc) id
  | replace x fs => exact List.forall_mem_singleton.2 (iff_of_false (get?_document_ne_null x) id)
  | patch x fs => exact List.forall_mem_singleton.2 Iff.rfl

end Write

/-! ### Patches -/

/-- Whether a document keeps its id depends on whether the patch has a null there. -/
theorem keeps_id_iff {patch : Members} (hkeys : (patch.map (·.1)).Nodup) {target : Members}
    {id : Json} (hid : Members.get? idKey target = some id) (hnull : id ≠ .null) :
    (∃ id', Members.get? idKey (mergeMembers target patch) = some id' ∧ id' ≠ .null) ↔
      Members.get? idKey patch ≠ some .null := by
  rw [get?_mergeMembers hkeys, hid]
  cases hpatch : Members.get? idKey patch with
  | none => exact iff_of_true ⟨id, rfl, hnull⟩ nofun
  | some v =>
    by_cases hv : v = .null
    · subst hv
      exact iff_of_false (fun ⟨_, hnone, _⟩ => nomatch hnone) (fun h => h rfl)
    · refine iff_of_true ⟨_, mergedMember_of_ne hv _, mergePatch_ne_null hv _⟩ ?_
      exact fun h => hv (Option.some.inj h)

theorem dumpGivenFields_eq_map (r : Record) :
    dumpGivenFields r = (r.filter (·.2.1)).map fun f => (f.1, f.2.2.dumpGiven) := by
  induction r with
  | nil => rfl
  | cons f r ih =>
    obtain ⟨name, given, c⟩ := f
    cases given with
    | true => rw [dumpGivenFields, if_pos rfl, ih, List.filter_cons_of_pos rfl, List.map_cons]
    | false =>
      rw [dumpGivenFields, if_neg Bool.false_ne_true, ih,
        List.filter_cons_of_neg Bool.false_ne_true]

theorem keys_dumpGivenFields (r : Record) :
    ((dumpGivenFields r).map (·.1)).Sublist (r.map (·.1)) := by
  have hkeys : (dumpGivenFields r).map (·.1) = (r.filter (·.2.1)).map (·.1) := by
    rw [dumpGivenFields_eq_map, List.map_map]
    rfl
  rw [hkeys]
  exact List.filter_sublist.map _

/-- The patch of a record removes ids exactly if the record was given a null as its id. -/
theorem erasesId_record_iff {α : Type} {r : Record} (hnames : (r.map (·.1)).Nodup)
    (fs : List Sql.Fragment) :
    (Write.patch r fs : Write α Record).ErasesId ↔ (idKey, true, .null) ∈ r := by
  have hkeys : ((dumpGivenFields r).map (·.1)).Nodup := hnames.sublist (keys_dumpGivenFields r)
  have hnull : ∀ c : Model.Content, c.dumpGiven = .null ↔ c = .null := by
    intro c
    cases c <;> simp [Model.Content.dumpGiven]
  show Members.get? idKey (dumpGivenFields r) = some .null ↔ _
  rw [Members.get?_eq_some_iff hkeys, dumpGivenFields_eq_map, List.mem_map]
  simp [hnull]

/-- **Nulls as ids.** Of the documents that a write binds one has a null as its id only if the write
is a patch whose content was given that null. Such a patch takes the id of every document that it is
merged into, and any other one leaves each of these with an id. -/
theorem bound_null_id_iff {σ α β : Type} [Validates σ α] [Dumps α] [Dumps β] (t : ModelTable σ)
    (w : Write α β) (s : Session) :
    Binds s ((w.perform t).run.run s).2 (w.documents s) w.others ∧
      (∀ doc ∈ w.documents s, Members.get? idKey doc = some .null ↔ w.ErasesId) ∧
      ∀ x fs, w = .patch x fs → ((Dumps.dumpGiven x).map (·.1)).Nodup →
        ∀ target id, Members.get? idKey target = some id → id ≠ .null →
          ((∃ id', Members.get? idKey (mergeMembers target (Dumps.dumpGiven x)) = some id' ∧
            id' ≠ .null) ↔ ¬ w.ErasesId) := by
  refine ⟨w.binds_perform t s, w.null_iff_erasesId s, ?_⟩
  rintro x fs rfl hkeys target id hid hnull
  exact keeps_id_iff hkeys hid hnull

/-- A patch that was given no id leaves a document with its id, and a content whose id is null
replaces a document by one without that null. -/
theorem bound_null_id_iff_person :
    let t : ModelTable := ⟨⟨"persons".toList, .textual⟩, person⟩
    let x := personRecord false .null none
    let y := personRecord true .null none
    let target : Members := [(idKey, .text "luke".toList)]
    let s := Session.start (Rules.engine []) [3, 45] fun _ => []
    (∃ id, Members.get? idKey (mergeMembers target (dumpGivenFields x)) = some id ∧ id ≠ .null) ∧
      Binds s ((t.replace y []).run.run s).2 [document y] [] ∧
      Members.get? idKey (document y) ≠ some .null := by
  intro t x y target s
  have hkept : ¬ (Write.patch x [] : Write Record Record).ErasesId := by
    rw [erasesId_record_iff (by decide)]
    simp [x, personRecord]
  obtain ⟨-, -, hmerge⟩ := bound_null_id_iff (α := Record) t (.patch x []) s
  obtain ⟨hbinds, hnull, -⟩ := bound_null_id_iff (β := Record) t (.replace y []) s
  refine ⟨?_, hbinds, fun hid => ?_⟩
  · exact (hmerge x [] rfl (by decide) target (.text "luke".toList) rfl (by simp)).2 hkept
  · exact (hnull _ (List.mem_singleton.2 rfl)).1 hid

/-- A patch whose id was set to null is bound with that null, and takes the id of a document. -/
theorem bound_null_id_given :
    let t : ModelTable := ⟨⟨"persons".toList, .textual⟩, person⟩
    let x := personRecord true .null none
    let patch : Members :=
      [(idKey, .null), ("name".toList, .text "luke".toList), ("age".toList, .int 42)]
    let s := Session.start (Rules.engine []) [3, 45] fun _ => []
    ((t.patch x []).run.run s).2.calls =
        [.run "update persons set data = json_patch(data, ?)".toList (boundRow patch)] ∧
      Members.get? idKey patch = some .null ∧
      mergeMembers [(idKey, .text "luke".toList)] patch =
        [("name".toList, .text "luke".toList), ("age".toList, .int 42)] := by
  refine ⟨by decide +kernel, rfl, by decide +kernel⟩

end ModelTable

end DocTable
