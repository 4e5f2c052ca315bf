import DocTable.Engine.Rules
import DocTable.Proofs.Json.Numbers
import DocTable.Proofs.Table.Exchanges
/-!
# DocTable.Proofs.Table.AllOrNothing

Operations that fail on their own leave the engine alone.

An operation refuses what it is given if something is no fragment or, if it writes, if a number in
one of its documents is not finite or has too many digits. It finds this out before it makes its one
call (`AllOrNothing`), wherever in its documents and arguments the fault is.
-/

namespace DocTable

namespace Error

/-- Whether an error is about putting fragments and statements together. -/
def IsComposition : Error → Prop
  | .query (.composition _) => True
  | _ => False

/-- Whether an error is one of a table operation itself. -/
def IsOwn (e : Error) : Prop :=
  e.IsComposition ∨ e = .notFinite ∨ e = .notShowable

end Error

namespace Session

variable {α γ : Type} {Own Late : Error → Prop} {refused : Prop} {r : Except Error α}
  {xs : List Exchange} {m : SessionM α}

/-- An operation that refuses what it is given does so before it calls the engine, with an error of
its own. Otherwise it hands one statement over, and can only fail later, in some other way. -/
inductive AllOrNothing (Own Late : Error → Prop) (refused : Prop) :
    Except Error α → List Exchange → Prop
  | nothing {e : Error} : refused → Own e → AllOrNothing Own Late refused (.error e) []
  | all {r : Except Error α} {x : Exchange} : ¬ refused → (∀ e, r = .error e → Late e) →
      x.1.IsStatement → AllOrNothing Own Late refused r [x]

/-- Everything is checked before the one call. -/
theorem Attempts.allOrNothing {p : Except Error γ} {c : γ → Call}
    {k : γ → List Row → Except Error α} (h : Attempts p (fun a => Asks (c a) (k a)) r xs)
    (hp : Judges Own refused p) (hc : ∀ a, (c a).IsStatement) (hengine : ∀ e, Late (.engine e))
    (hk : ∀ a rows e, k a rows = .error e → Late e) : AllOrNothing Own Late refused r xs := by
  cases hp with
  | fails hrefused he =>
    rcases h with ⟨_, hp, rfl, rfl⟩ | ⟨_, hp, -⟩
    · cases hp
      exact .nothing hrefused he
    · cases hp
  | passes hrefused =>
    rcases h with ⟨_, hp, -⟩ | ⟨a, -, ⟨rows, changes, rfl, rfl⟩ | ⟨e, rfl, rfl⟩⟩
    · cases hp
    · exact .all hrefused (hk a rows) (hc a)
    · exact .all hrefused (fun _ he => Except.error.inj he ▸ hengine e) (hc a)

theorem Follows.discard_allOrNothing (hm : Follows m (AllOrNothing Own Late refused)) :
    Follows (discard m) (AllOrNothing Own Late refused) := by
  refine hm.bind (fun a xs h => follows_pure ?_) fun e xs h => ?_
  · cases h with
    | all hrefused _ hx => exact .all hrefused nofun hx
  · cases h with
    | nothing hrefused he => exact .nothing hrefused he
    | all hrefused hlate hx => exact .all hrefused (fun _ he => by cases he; exact hlate e rfl) hx

/-- Read off a run: how an operation fails, and the calls that it adds. -/
theorem Follows.allOrNothing (hm : Follows m (AllOrNothing Own Late refused)) (s : Session) :
    let (r, s') := m.run.run s
    (refused ∧ (∃ e, r = .error e ∧ Own e) ∧ s'.calls = s.calls) ∨
      (¬ refused ∧ (∀ e, r = .error e → Late e) ∧
        ∃ c, c.IsStatement ∧ s'.calls = s.calls ++ [c]) := by
  obtain ⟨made, hext, h⟩ := hm s
  have hcalls := hext.calls
  rw [← map_fst_exchanges s.engine s.calls made] at hcalls
  rcases hrun : m.run.run s with ⟨r, s'⟩
  rw [hrun] at h hcalls
  dsimp only at h hcalls ⊢
  rw [hcalls]
  generalize exchanges s.engine s.calls made = xs at h
  cases h with
  | nothing hrefused hown => exact .inl ⟨hrefused, ⟨_, rfl, hown⟩, List.append_nil _⟩
  | all hrefused hlate hx => exact .inr ⟨hrefused, hlate, _, hx, rfl⟩

end Session

namespace Table

open Session

/-! ### What is refused -/

/-- Some argument is no fragment. -/
def Misplaced (args : List Argument) : Prop :=
  ∃ v, Argument.other v ∈ args

theorem judges_items (args : List Argument) :
    Judges Error.IsComposition (Misplaced args) (Argument.items args) := by
  refine (Judges.mapM (W := fun a => ∃ v, a = .other v) fun a _ => ?_).congr ?_
  · cases a with
    | fragment f => exact .passes (by simp)
    | other v => exact .fails ⟨v, rfl⟩ trivial
  · constructor
    · rintro ⟨_, hmem, v, rfl⟩
      exact ⟨v, hmem⟩
    · rintro ⟨v, hmem⟩
      exact ⟨_, hmem, v, rfl⟩

theorem exists_fragments {args : List Argument} (h : ¬ Misplaced args) :
    ∃ fs : List Sql.Fragment, args = fs.map .fragment := by
  induction args with
  | nil => exact ⟨[], rfl⟩
  | cons a args ih =>
    obtain ⟨fs, rfl⟩ := ih fun ⟨v, hv⟩ => h ⟨v, List.mem_cons_of_mem _ hv⟩
    cases a with
    | fragment f => exact ⟨f :: fs, rfl⟩
    | other v => exact absurd ⟨v, List.mem_cons_self⟩ h

/-- Where a statement is put together from a head, a name, fragments and arguments, the arguments
are all that can be wrong. -/
theorem judges_composed (head name : Text) (front : List Sql.Fragment) (args : List Argument) :
    Judges Error.IsComposition (Misplaced args) (do
      let items ← Argument.items args
      statement (.raw head :: .raw name :: (front.map Sql.Item.fragment ++ items))) := by
  by_cases h : Misplaced args
  · obtain ⟨e, he, hown⟩ := (judges_items args).exists_error h
    rw [he]
    exact .fails h hown
  · obtain ⟨fs, rfl⟩ := exists_fragments h
    have hok : (do
        let items ← Argument.items (fs.map .fragment)
        statement (.raw head :: .raw name :: (front.map Sql.Item.fragment ++ items))) =
        .ok (composed head name (front ++ fs)) := by
      rw [items_fragments]
      have hstatement := statement_fragments head name (front ++ fs)
      rw [List.map_append] at hstatement
      exact hstatement
    rw [hok]
    exact .passes h

theorem judges_encode (doc : Json) : Judges Error.IsOwn doc.Unwritable (encode doc) := by
  rw [encode]
  by_cases h : doc.Unwritable
  · obtain ⟨e, he⟩ := Document.exists_encode_eq_error h
    rw [he]
    cases e with
    | notFinite => exact .fails h (.inr (.inl rfl))
    | notShowable => exact .fails h (.inr (.inr rfl))
  · rw [Document.encode_eq_ok h]
    exact .passes h

/-- A document is looked at before the arguments. -/
theorem judges_update (t : Table) {call : Text} (hcall : Sql.holeMark ∉ call) (doc : Json)
    (args : List Argument) :
    Judges Error.IsOwn (doc.Unwritable ∨ Misplaced args)
      (t.update (call ++ "?)".toList) doc args) := by
  refine (judges_encode doc).andThen fun text _ => ?_
  have hbefore : Sql.holeMark ∉ "set data = ".toList ++ call := by
    simpa [Sql.holeMark] using hcall
  obtain ⟨f, hf, -⟩ := sql_hole (.text text) hbefore (show Sql.holeMark ∉ [')'] by decide)
  rw [List.append_assoc] at hf
  have hassignment : ((Sql.Fragment.sql ("set data = ".toList ++ (call ++ "?)".toList))
      [.text text]).mapError fun e => Error.query (.composition e)) = .ok f :=
    congrArg (Except.mapError _) hf
  rw [hassignment]
  exact (judges_composed "update".toList t.name [f] args).mono fun e he => .inl he

theorem judges_insertionRows (docs : List Json) :
    Judges Error.IsOwn (∃ doc ∈ docs, doc.Unwritable) (docs.mapM insertionRow) :=
  Judges.mapM fun doc _ => (judges_encode doc).map fun text => [Json.text text]

/-- Whether documents can be stored does not depend on the ids they are given. -/
theorem exists_identified_unwritable {docs : List Members} {docs' : List Json}
    (h : List.Forall₂ (fun d d' => ∃ fresh, d' = Json.object (Document.identify fresh d))
      docs docs') :
    (∃ doc ∈ docs', doc.Unwritable) ↔ ∃ doc ∈ docs, (Json.object doc).Unwritable := by
  induction h with
  | nil => simp
  | cons hd _ ih =>
    obtain ⟨fresh, rfl⟩ := hd
    simp only [List.exists_mem_cons_iff, Document.unwritable_identify, ih]

/-! ### Operations that write -/

/-- An operation that writes, with what it is given. -/
inductive Write where
  | insert (doc : Members)
  | insertMany (docs : List Members)
  | delete (args : List Argument)
  | patch (doc : Members) (args : List Argument)
  | replace (doc : Members) (args : List Argument)

namespace Write

/-- Do what an operation says. -/
def perform (t : Table) : Write → SessionM Unit
  | insert doc => discard (t.insert (.object doc))
  | insertMany docs => discard (t.insertMany (docs.map .object))
  | delete args => t.delete args
  | patch doc args => t.patch (.object doc) args
  | replace doc args => t.replace (.object doc) args

/-- The documents that are to be stored. -/
def documents : Write → List Members
  | insert doc | patch doc _ | replace doc _ => [doc]
  | insertMany docs => docs
  | delete _ => []

/-- The arguments that select what is changed. -/
def arguments : Write → List Argument
  | insert _ | insertMany _ => []
  | delete args | patch _ args | replace _ args => args

/-- What is given cannot be used: some document cannot be stored, or some argument is no
fragment. -/
def Refused (w : Write) : Prop :=
  (∃ doc ∈ w.documents, (Json.object doc).Unwritable) ∨ Misplaced w.arguments

/-- Failing with the engine. -/
def Late (e : Error) : Prop :=
  ∃ cause, e = .engine cause

theorem follows_perform (t : Table) (w : Write) :
    Follows (w.perform t) (AllOrNothing Error.IsOwn Late w.Refused) := by
  have hengine : ∀ e, Late (.engine e) := fun e => ⟨e, rfl⟩
  cases w with
  | insert doc =>
    refine Follows.discard_allOrNothing ((t.follows_insert doc).mono ?_)
    rintro r xs ⟨fresh, h⟩
    refine h.allOrNothing ((judges_encode _).congr ?_) (fun _ => trivial) hengine nofun
    simp [Refused, documents, arguments, Misplaced, Document.unwritable_identify]
  | insertMany docs =>
    refine Follows.discard_allOrNothing ((t.follows_insertMany docs).mono ?_)
    rintro r xs ⟨docs', hdocs, h⟩
    refine h.allOrNothing ((judges_insertionRows _).congr ?_) (fun _ => trivial) hengine nofun
    simp [Refused, documents, arguments, Misplaced, exists_identified_unwritable hdocs]
  | delete args =>
    refine (t.follows_delete args).mono fun r xs h => ?_
    have hjudges := (judges_composed "delete from".toList t.name [] args).mono
      (Q := Error.IsOwn) fun e he => .inl he
    refine h.allOrNothing (hjudges.congr ?_) (fun _ => trivial) hengine nofun
    simp [Refused, documents, arguments]
  | patch doc args =>
    refine (t.follows_patch args (.object doc)).mono fun r xs h => ?_
    have hcall := (patchCall_clean t.storage).1
    have hjudges := judges_update t hcall (.object doc) args
    rw [List.append_assoc] at hjudges
    refine h.allOrNothing (hjudges.congr ?_) (fun _ => trivial) hengine nofun
    simp [Refused, documents, arguments]
  | replace doc args =>
    refine (t.follows_replace args (.object doc)).mono fun r xs h => ?_
    have hcall := (encodeCall_clean t.storage).1
    have hjudges := judges_update t hcall (.object doc) args
    rw [List.append_assoc] at hjudges
    refine h.allOrNothing (hjudges.congr ?_) (fun _ => trivial) hengine nofun
    simp [Refused, documents, arguments]

end Write

/-! ### Operations that read -/

/-- An operation that reads, with what it is given. -/
inductive Read where
  | all (args : List Argument)
  /-- Go through documents until so many have been taken. -/
  | iterate (wanted : Nat) (args : List Argument)
  | get (args : List Argument)
  | getById (id : Text)
  | count (args : List Argument)
  | explain (args : List Argument)

namespace Read

/-- Do what an operation says. -/
def perform (t : Table) : Read → SessionM Unit
  | all args => discard (t.all args)
  | iterate wanted args => discard (t.first wanted args)
  | get args => discard (t.get? args)
  | getById id => discard (t.getById? id)
  | count args => discard (t.count args)
  | explain args => discard (t.explain args)

/-- The arguments that select what is read. -/
def arguments : Read → List Argument
  | getById _ => []
  | all args | iterate _ args | get args | count args | explain args => args

/-- Nothing is asked for. -/
def Idle : Read → Prop
  | iterate 0 _ => True
  | _ => False

/-- Failing while documents are read, or with the engine. -/
def Late (e : Error) : Prop :=
  ¬ e.IsComposition

/-- What is given cannot be used: some argument is no fragment. -/
def Refused (rd : Read) : Prop :=
  ¬ rd.Idle ∧ Misplaced rd.arguments

theorem late_decodeRow {row : Row} {e : Error} (h : decodeRow row = .error e) : Late e := by
  unfold decodeRow at h
  split at h
  · next t =>
    cases hread : Json.read t with
    | ok v => rw [hread] at h; cases h
    | error cause => rw [hread] at h; cases h; exact id
  all_goals cases h; exact id

theorem late_decodeRows {rows : List Row} {e : Error} (h : rows.mapM decodeRow = .error e) :
    Late e := by
  obtain ⟨row, -, hrow⟩ := exists_of_mapM_eq_error h
  exact late_decodeRow hrow

theorem late_cellTexts {position : Nat} {rows : List Row} {e : Error}
    (h : cellTexts position rows = .error e) : Late e := by
  obtain ⟨row, -, hrow⟩ := exists_of_mapM_eq_error h
  have hcell := map_eq_error_iff.1 hrow
  unfold cellOf at hcell
  split at hcell
  · cases hcell
  · cases hcell
    exact id

theorem late_firstCellOf {rows : List Row} {e : Error} (h : firstCellOf rows = .error e) :
    Late e := by
  unfold firstCellOf at h
  split at h <;> cases h <;> exact id

/-- An operation that is asked for nothing does nothing. -/
theorem follows_idle (t : Table) {rd : Read} (h : rd.Idle) :
    Follows (rd.perform t) fun r xs => r = .ok () ∧ xs = [] := by
  match rd, h with
  | iterate 0 args, _ => exact follows_pure ⟨rfl, rfl⟩

theorem follows_perform (t : Table) {rd : Read} (h : ¬ rd.Idle) :
    Follows (rd.perform t) (AllOrNothing Error.IsComposition Late rd.Refused) := by
  have hengine : ∀ e, Late (.engine e) := fun _ => id
  have hrefused : Misplaced rd.arguments ↔ rd.Refused := by simp [Refused, h]
  have hselection : ∀ args, Judges Error.IsComposition (Misplaced args) (t.selection args) :=
    judges_composed "select json(data) from".toList t.name []
  cases rd with
  | all args =>
    refine Follows.discard_allOrNothing ((t.follows_all args).mono fun r xs h => ?_)
    exact h.allOrNothing ((hselection args).congr hrefused) (fun _ => trivial) hengine
      fun _ _ _ => late_decodeRows
  | iterate wanted args =>
    have hwanted : wanted ≠ 0 := by
      rintro rfl
      exact h trivial
    refine Follows.discard_allOrNothing ((t.follows_first args hwanted).mono fun r xs h => ?_)
    refine h.allOrNothing ((hselection args).congr hrefused) (fun _ => trivial) hengine
      fun _ rows e he => ?_
    rcases bind_eq_error_iff.1 he with he | ⟨_, -, he⟩
    · exact late_decodeRows he
    · cases he
  | get args =>
    refine Follows.discard_allOrNothing ((t.follows_get? args).mono fun r xs h => ?_)
    refine h.allOrNothing ((hselection _).congr ?_) (fun _ => trivial) hengine fun _ _ _ he =>
      late_decodeRows (map_eq_error_iff.1 he)
    rw [← hrefused]
    simp [Misplaced, arguments]
  | getById id =>
    obtain ⟨f, hf, -⟩ := withId_eq id
    refine Follows.discard_allOrNothing (((t.follows_getById? id).of_attempts hf).mono
      fun r xs h => ?_)
    refine h.allOrNothing ((hselection _).congr ?_) (fun _ => trivial) hengine fun _ _ _ he =>
      late_decodeRows (map_eq_error_iff.1 he)
    rw [← hrefused]
    simp [Misplaced, arguments]
  | count args =>
    refine Follows.discard_allOrNothing ((t.follows_count args).mono fun r xs h => ?_)
    have hjudges := judges_composed "select count(*) from".toList t.name [] args
    refine h.allOrNothing (hjudges.congr hrefused) (fun _ => trivial) hengine
      fun _ rows e he => ?_
    rcases bind_eq_error_iff.1 he with he | ⟨cell, -, he⟩
    · exact late_firstCellOf he
    · cases hint : Integer.ofJson cell with
      | ok n => rw [hint] at he; cases he
      | error cause => rw [hint] at he; cases he; exact id
  | explain args =>
    refine Follows.discard_allOrNothing ((t.follows_explain args).mono fun r xs h => ?_)
    exact h.allOrNothing ((hselection args).congr hrefused) (fun _ => trivial) hengine
      fun _ _ _ => late_cellTexts

end Read

/-- **All or nothing.** An operation that writes fails on its own if and only if some document has a
number in it, at any depth, that is not finite or is a whole number with too many digits, or some
argument is no fragment. Then it has not called the engine; otherwise it has handed one statement
over, and only the engine can have failed. An operation that reads likewise complains about what it
is given, if at all, before it calls the engine. -/
theorem all_or_nothing (t : Table) (s : Session) :
    (∀ w : Write,
      let (r, s') := (w.perform t).run.run s
      (w.Refused ∧ (∃ e, r = .error e ∧ e.IsOwn) ∧ s'.calls = s.calls) ∨
        (¬ w.Refused ∧ (r = .ok () ∨ ∃ cause, r = .error (.engine cause)) ∧
          ∃ c, c.IsStatement ∧ s'.calls = s.calls ++ [c])) ∧
    ∀ rd : Read,
      let (r, s') := (rd.perform t).run.run s
      (rd.Refused ∧ (∃ e, r = .error e ∧ e.IsComposition) ∧ s'.calls = s.calls) ∨
        (¬ rd.Refused ∧ (¬ ∃ e, r = .error e ∧ e.IsComposition) ∧
          (rd.Idle ∧ s'.calls = s.calls ∨ ∃ c, c.IsStatement ∧ s'.calls = s.calls ++ [c])) := by
  constructor
  · intro w
    have h := (w.follows_perform t).allOrNothing s
    rcases hrun : (w.perform t).run.run s with ⟨r, s'⟩
    rw [hrun] at h
    refine h.imp_right fun ⟨hrefused, hlate, hcall⟩ => ⟨hrefused, ?_, hcall⟩
    cases r with
    | ok u => exact .inl rfl
    | error e =>
      obtain ⟨cause, rfl⟩ := hlate e rfl
      exact .inr ⟨cause, rfl⟩
  · intro rd
    rcases hrun : (rd.perform t).run.run s with ⟨r, s'⟩
    by_cases hidle : rd.Idle
    · obtain ⟨made, hext, hr, hmade⟩ := Read.follows_idle t hidle s
      have hnone : made = [] := by
        simpa [hmade] using (map_fst_exchanges s.engine s.calls made).symm
      have hcalls := hext.calls
      rw [hrun] at hr hcalls
      dsimp only at hr hcalls
      subst hr
      refine .inr ⟨fun hrefused => hrefused.1 hidle, by simp, .inl ⟨hidle, ?_⟩⟩
      rw [hcalls, hnone, List.append_nil]
    · have h := (Read.follows_perform t hidle).allOrNothing s
      rw [hrun] at h
      refine h.imp_right fun ⟨hrefused, hlate, hcall⟩ => ⟨hrefused, ?_, .inr hcall⟩
      rintro ⟨e, he, hown⟩
      exact hlate e he hown

/-- A whole number with one digit too many is finite, but a document with it is not stored. -/
theorem insert_long_number :
    let t : Table := ⟨"t".toList, .textual⟩
    let doc : Members := [("n".toList, .int (Decimal.tenTo Decimal.maxDigits))]
    let s := Session.start (Rules.engine []) [3, 45, 1] fun _ => "a".toList
    let (r, s') := ((Write.insert doc).perform t).run.run s
    ¬ (Json.object doc).HasNonFinite ∧ ¬ Misplaced (Write.insert doc).arguments ∧
      (∃ e, r = .error e ∧ e.IsOwn) ∧ s'.calls = [] := by
  intro t doc s
  have hfinite : ¬ (Json.object doc).HasNonFinite := Json.not_hasNonFinite_member _ _
  have hlong : (Json.object doc).HasLongNumber :=
    Json.hasLongNumber_object List.mem_cons_self (Nat.le_refl _)
  -- The number is large, and nothing more about it matters.
  clear_value doc
  have hrefused : (Write.insert doc).Refused := .inl ⟨doc, List.mem_singleton.2 rfl, .inr hlong⟩
  rcases hrun : ((Write.insert doc).perform t).run.run s with ⟨r, s'⟩
  have hfails := ((Write.insert doc).follows_perform t).allOrNothing s
  rw [hrun] at hfails
  rcases hfails with ⟨-, hown, hcalls⟩ | ⟨hnot, -⟩
  · exact ⟨hfinite, nofun, hown, hcalls⟩
  · exact absurd hrefused hnot

end Table

end DocTable
