import DocTable.Proofs.Console.Columns
import DocTable.Proofs.Console.Input
import DocTable.Proofs.Session.Replies
/-!
# DocTable.Proofs.Console.Checking

What a command does with its table, as far as it may fail.

`Settled` says of a part of a run that nothing but the engine can have failed, `Checked` that bad
input was refused before the engine was called. Every command is `Checked` for the input that has no
meaning for it (`Command.performs_checked`), if the rows of the engine have the columns that were
asked for (`AllFit`).
-/

namespace DocTable

namespace Session

/-! ### Failures of the engine -/

/-- The engine has failed at some call. Nobody looks at the reply to `close`. -/
def Raised (xs : List Exchange) : Prop :=
  ∃ x ∈ xs, x.1 ≠ .close ∧ ∃ e, x.2 = .fail e

theorem raised_append {xs ys : List Exchange} : Raised (xs ++ ys) ↔ Raised xs ∨ Raised ys := by
  simp only [Raised, List.mem_append, or_and_right, exists_or]

theorem not_raised_nil : ¬ Raised [] := nofun

theorem not_raised_close (reply : Reply) : ¬ Raised [(.close, reply)] := by
  rintro ⟨x, hx, hclose, -⟩
  rw [List.mem_singleton.1 hx] at hclose
  exact hclose rfl

theorem raised_fail {c : Call} (hc : c ≠ .close) (e : EngineError) : Raised [(c, .fail e)] :=
  ⟨_, List.mem_cons_self, hc, e, rfl⟩

theorem not_raised_rows (c : Call) (rows : List Row) (changes : Int) :
    ¬ Raised [(c, .rows rows changes)] := by
  rintro ⟨x, hx, -, e, he⟩
  rw [List.mem_singleton.1 hx] at he
  cases he

variable {α β : Type}

/-- Nothing but the engine can have failed. -/
inductive Settled : Except Error α → List Exchange → Prop
  | served {a : α} {xs : List Exchange} : ¬ Raised xs → Settled (.ok a) xs
  | raised {e : EngineError} {xs : List Exchange} : Raised xs → Settled (.error (.engine e)) xs

/-- All rows fit the statements that they answer. -/
def AllFit (xs : List Exchange) : Prop :=
  ∀ text args rows changes, (Call.run text args, Reply.rows rows changes) ∈ xs → Fits text rows

theorem allFit_exchanges {engine : Engine} (h : WellFormed engine) (history calls : List Call) :
    AllFit (exchanges engine history calls) := by
  intro text args rows changes hmem
  obtain ⟨before, hreply⟩ := exists_of_mem_exchanges hmem
  exact h _ _ _ _ _ hreply.symm

theorem AllFit.of_subset {xs ys : List Exchange} (h : AllFit ys) (hsub : xs ⊆ ys) : AllFit xs :=
  fun text args rows changes hmem => h text args rows changes (hsub hmem)

theorem Asks.settled {c : Call} {k : List Row → Except Error α} {r : Except Error α}
    {xs : List Exchange} (h : Asks c k r xs) (hc : c ≠ .close)
    (hk : ∀ rows changes, (c, Reply.rows rows changes) ∈ xs → ∃ a, k rows = .ok a) :
    Settled r xs := by
  rcases h with ⟨rows, changes, rfl, rfl⟩ | ⟨e, rfl, rfl⟩
  · obtain ⟨a, ha⟩ := hk rows changes List.mem_cons_self
    rw [ha]
    exact .served (not_raised_rows _ _ _)
  · exact .raised (raised_fail hc e)

theorem Tells.settled {c : Call} {r : Except Error α} {xs : List Exchange} (h : Tells c r xs)
    (hc : c ≠ .close) : Settled r xs := by
  rcases h with ⟨rows, changes, a, rfl, rfl⟩ | ⟨e, rfl, rfl⟩
  · exact .served (not_raised_rows _ _ _)
  · exact .raised (raised_fail hc e)

/-- Rows that are accepted, or are refused with an error of some kind. -/
theorem Dialogue.settled_or {P : Error → Prop} {ds : List Demand} {r : Except Error Unit}
    {xs : List Exchange} (h : Dialogue ds r xs) (hds : ∀ d ∈ ds, d.call ≠ .close)
    (haccepts : ∀ d ∈ ds, ∀ rows changes, (d.call, Reply.rows rows changes) ∈ xs →
      d.accepts rows = .ok () ∨ ∃ e, P e ∧ d.accepts rows = .error e) :
    Settled r xs ∨ ¬ Raised xs ∧ ∃ e, P e ∧ r = .error e := by
  induction h with
  | done => exact .inl (.served not_raised_nil)
  | @step d ds r xs rows changes _ _ ih =>
    -- A demand that is met leaves it to the others whether the engine has failed.
    rw [List.forall_mem_cons] at hds haccepts
    have hrest := ih hds.2 fun d' hd' rows' changes' hmem =>
      haccepts.2 d' hd' rows' changes' (List.mem_cons_of_mem _ hmem)
    have hraised : Raised ((d.call, .rows rows changes) :: xs) ↔ Raised xs := by
      rw [← List.singleton_append, raised_append, or_iff_right (not_raised_rows _ _ _)]
    rw [hraised]
    refine hrest.imp_left fun hsettled => ?_
    cases hsettled with
    | served hnone => exact .served (hnone ∘ hraised.1)
    | raised hsome => exact .raised (hraised.2 hsome)
  | @refused d ds e rows changes hrows =>
    rcases haccepts d List.mem_cons_self rows changes List.mem_cons_self with hok | ⟨e', he', hfail⟩
    · cases hrows.symm.trans hok
    · cases hrows.symm.trans hfail
      exact .inr ⟨not_raised_rows _ _ _, e, he', rfl⟩
  | @failed d ds e => exact .inl (.raised (raised_fail (hds d List.mem_cons_self) e))

theorem Dialogue.settled {ds : List Demand} {r : Except Error Unit} {xs : List Exchange}
    (h : Dialogue ds r xs) (hds : ∀ d ∈ ds, d.call ≠ .close)
    (haccepts : ∀ d ∈ ds, ∀ rows changes, (d.call, Reply.rows rows changes) ∈ xs →
      d.accepts rows = .ok ()) : Settled r xs := by
  refine (h.settled_or (P := fun _ => False) hds fun d hd rows changes hmem =>
    .inl (haccepts d hd rows changes hmem)).resolve_right ?_
  rintro ⟨-, _, hno, -⟩
  exact hno

/-! ### Checks of the input -/

/-- Input without a meaning is refused before the engine is called; otherwise nothing but the engine
can have failed. -/
inductive Checked (wrong : Prop) : Except Error α → List Exchange → Prop
  | refused {e : Error} : wrong → e.IsBadInput → Checked wrong (.error e) []
  | settled {r : Except Error α} {xs : List Exchange} : ¬ wrong → Settled r xs →
      Checked wrong r xs

variable {wrong wrong' : Prop} {r : Except Error α} {xs : List Exchange}

theorem Checked.congr (h : Checked wrong r xs) (hiff : wrong ↔ wrong') : Checked wrong' r xs := by
  cases h with
  | refused hwrong he => exact .refused (hiff.1 hwrong) he
  | settled hright hr => exact .settled (fun hwrong => hright (hiff.2 hwrong)) hr

theorem Settled.checked (h : Settled r xs) : Checked False r xs :=
  .settled id h

theorem Settled.map {r : Except Error α} (h : Settled r xs) (f : α → β) : Settled (r.map f) xs := by
  cases h with
  | served hnone => exact .served hnone
  | raised hsome => exact .raised hsome

/-- What the part after a check finds wrong is decided before the check. -/
theorem Attempts.checked {p : Except Error β} {R : β → Except Error α → List Exchange → Prop}
    (h : Attempts p R r xs) (hp : Judges Error.IsBadInput wrong p)
    (hR : ∀ a, p = .ok a → R a r xs → Checked wrong' r xs) : Checked (wrong ∨ wrong') r xs := by
  rcases h with ⟨e, rfl, rfl, rfl⟩ | ⟨a, rfl, hr⟩
  · obtain ⟨hwrong, he⟩ := hp.of_error
    exact .refused (.inl hwrong) he
  · exact (hR a rfl hr).congr (or_iff_right hp.of_ok).symm

theorem Attempts.settled {p : Except Error β} {R : β → Except Error α → List Exchange → Prop}
    (h : Attempts p R r xs) (hp : Judges Error.IsBadInput wrong p)
    (hR : ∀ a, p = .ok a → R a r xs → Settled r xs) : Checked wrong r xs :=
  (h.checked hp fun a ha hr => (hR a ha hr).checked).congr (or_iff_left id)

end Session

namespace Console

open Session Sql

namespace Command

/-! ### What a command does with its table -/

variable {files : Files} {style : Style} {t : Table} {r : Except Failure (List Text)}
  {xs : List Exchange}

theorem asks_settled {fs : List Fragment} {head : Text} {α : Type} {k : List Row → Except Error α}
    {done : Except Error α} (h : Asks (t.asking fs head) k done xs) (hfit : AllFit xs)
    (hk : ∀ text rows, head <+: text → Fits text rows → ∃ a, k rows = .ok a) : Settled done xs :=
  Asks.settled h nofun fun rows _ hmem =>
    hk _ rows (Table.begins_composed head t.name fs) (hfit _ _ _ _ hmem)

theorem exists_indexLines (style : Style) (t : Table) {found : List IndexInfo}
    (hshown : ∀ i ∈ found, i.sql.isShowable = true) :
    ∃ lines, indexLines style t found = .ok lines := by
  unfold indexLines
  split
  · exact ⟨_, rfl⟩
  · have hstop : (Output.table style ["name".toList, "unique".toList, "sql".toList]
        (found.map fun i => [.text i.name, .bool i.unique, i.sql])).2 = none :=
      Output.table_snd _ _ (by simpa [Json.isShowable, Json.writeError?] using hshown) (by simp)
    generalize Output.table style ["name".toList, "unique".toList, "sql".toList]
      (found.map fun i => [.text i.name, .bool i.unique, i.sql]) = printed at hstop
    obtain ⟨lines, stop⟩ := printed
    cases hstop
    exact ⟨lines, rfl⟩

theorem mapM_requireObject_eq_self {what : String} {items docs : List Json}
    (h : items.mapM (requireObject what) = .ok docs) : docs = items := by
  have hall : List.Forall₂ (fun item doc => item = doc) items docs :=
    (mapM_eq_ok_iff.1 h).imp fun _ _ hdoc => (requireObject_eq_self hdoc).symm
  rw [List.forall₂_eq_eq_eq] at hall
  exact hall.symm

theorem judges_deletion (t : Table) (fs : List Fragment) :
    Judges Error.IsBadInput False (t.deletion (asArguments fs)) := by
  rw [asArguments, Table.deletion_fragments]
  exact .passes id

/-- An update with fragments is refused only for what is in its document. -/
theorem judges_updating (t : Table) {call : Text} (hcall : Sql.holeMark ∉ call) (doc : Json)
    (fs : List Fragment) :
    Judges Error.IsBadInput doc.Unwritable
      (t.update (call ++ "?)".toList) doc (asArguments fs)) := by
  have hjudges := Table.judges_update t hcall doc (asArguments fs)
  refine (hjudges.mono fun _ he => he.isBadInput).congr (or_iff_left ?_)
  rintro ⟨v, hv⟩
  simp [asArguments] at hv

theorem judges_patching (t : Table) (doc : Json) (fs : List Fragment) :
    Judges Error.IsBadInput doc.Unwritable (t.patching doc (asArguments fs)) := by
  have hjudges := judges_updating t (Table.patchCall_clean t.storage).1 doc fs
  rwa [List.append_assoc] at hjudges

theorem judges_replacing (t : Table) (doc : Json) (fs : List Fragment) :
    Judges Error.IsBadInput doc.Unwritable (t.replacing doc (asArguments fs)) := by
  have hjudges := judges_updating t (Table.encodeCall_clean t.storage).1 doc fs
  rwa [List.append_assoc] at hjudges

/-- Several documents are inserted if each of them is an object with finite numbers. -/
theorem insertMany_checked {items : List Json} {done : Except Error (List Text)}
    (h : Inserts style t (.array items) done xs) (hshown : ∀ v ∈ items, v.isShowable = true) :
    Checked ((∃ doc ∈ items, ¬ IsObject doc) ∨ ∃ doc ∈ items, doc.HasNonFinite) done xs := by
  unfold Inserts at h
  refine h.checked (Judges.mapM fun item _ => judges_requireObject _ item) ?_
  rintro docs hdocs ⟨members, docs', rfl, hidentified, hinsert⟩
  have hencode := (Table.judges_insertionRows docs').mono fun _ he => he.isBadInput
  have hbad : (∃ doc ∈ items, doc.Unwritable) ↔ ∃ doc ∈ items, doc.HasNonFinite :=
    exists_congr fun doc => and_congr_right fun hdoc =>
      Json.unwritable_iff_of_isShowable (hshown doc hdoc)
  rw [← mapM_requireObject_eq_self hdocs] at hbad ⊢
  refine (hinsert.settled hencode fun _ _ hasks => hasks.settled nofun fun _ _ _ =>
    ⟨_, rfl⟩).congr ?_
  rw [Table.exists_identified_unwritable hidentified, ← hbad]
  simp

/-- One document is inserted if it is an object with finite numbers. -/
theorem insert_checked {v : Json} {done : Except Error (List Text)}
    (h : Attempts (requireObject "Document" v) (fun doc r xs =>
      ∃ members doc', doc = .object members ∧ Identified members doc' ∧
        Attempts (Table.encode doc') (fun text =>
          Asks (.run (Sql.insertInto t.name t.storage) [.text text])
            fun _ => .ok (Output.shownLines style [doc'])) r xs) done xs)
    (hshown : v.isShowable = true) : Checked (¬ IsObject v ∨ v.HasNonFinite) done xs := by
  refine h.checked (judges_requireObject _ v) ?_
  rintro doc hdoc ⟨members, doc', rfl, ⟨fresh, rfl⟩, hinsert⟩
  have hencode := (Table.judges_encode (.object (Document.identify fresh members))).mono
    fun _ he => he.isBadInput
  rw [← requireObject_eq_self hdoc] at hshown ⊢
  refine (hinsert.settled hencode fun _ _ hasks => hasks.settled nofun fun _ _ _ =>
    ⟨_, rfl⟩).congr ?_
  rw [Document.unwritable_identify, Json.unwritable_iff_of_isShowable hshown]

theorem inserts_checked (table : Text) (document file : Option Text) {v : Json}
    {done : Except Error (List Text)} (h : Inserts style t v done xs)
    (hshown : v.isShowable = true) :
    Checked ((∃ doc ∈ documents (.insert table document file) v, ¬ IsObject doc) ∨
      ∃ doc ∈ documents (.insert table document file) v, doc.HasNonFinite) done xs := by
  cases v with
  | array items => exact insertMany_checked h (Json.isShowable_array_iff.1 hshown)
  | object | null | bool | int | float | text =>
    exact (insert_checked h hshown).congr (by simp [documents])

/-- What is to be inserted is read, and then each document is looked at. -/
theorem inserting_checked {table : Text} {document file : Option Text}
    {done : Except Error (List Text)}
    (h : Attempts (payload files document file) (Inserts style t) done xs)
    (hread : ¬ Unreadable files (.insert table document file)) :
    Checked (BadInput files (.insert table document file)) done xs := by
  rcases payload_cases files table document file with
    ⟨hunreadable, -⟩ | ⟨-, hbad, e, hpayload, he⟩ | ⟨-, text, hgiven, hpayload⟩
  · exact absurd hunreadable hread
  · rcases h with ⟨e', he', rfl, rfl⟩ | ⟨v, hv, -⟩
    · cases hpayload.symm.trans he'
      exact .refused hbad he
    · cases hpayload.symm.trans hv
  · rw [hpayload] at h
    have hinserts : ∀ v, readJson text = .ok v → Inserts style t v done xs →
        Checked (∃ v, Json.read text = .ok v ∧
          ((∃ doc ∈ documents (.insert table document file) v, ¬ IsObject doc) ∨
            ∃ doc ∈ documents (.insert table document file) v, doc.HasNonFinite)) done xs := by
      intro v hv hinserts
      have hread := mapError_eq_ok_iff.1 hv
      have hshown := Json.isShowable_of_read hread
      refine (inserts_checked table document file hinserts hshown).congr ?_
      rw [hread]
      simp
    refine (h.checked (judges_readJson text) hinserts).congr ?_
    rw [badInput_given_iff hgiven]
    simp [query?, selective?, Stores]

/-- A command with a document and a selection looks at the document first. -/
theorem document_checked {what : String} {document : Text} {q : Query} {all : Bool}
    {W : Json → Prop} {R : Json → List Fragment → Except Error (List Text) → List Exchange → Prop}
    {done : Except Error (List Text)}
    (h : Attempts (do requireObject what (← readJson document))
      (fun v => Attempts (selection q all) (R v)) done xs)
    (hR : ∀ v fs, Json.read document = .ok v → R v fs done xs → Checked (W v) done xs) :
    Checked ((¬ Json.IsText document ∨
        ∃ v, Json.read document = .ok v ∧ (¬ IsObject v ∨ W v)) ∨
      ¬ q.Valid ∨ (all = false ∧ q.IsVoid)) done xs := by
  have hselected : ∀ doc, (do requireObject what (← readJson document)) = .ok doc →
      Attempts (selection q all) (R doc) done xs →
      Checked ((¬ q.Valid ∨ (all = false ∧ q.IsVoid)) ∨
        ∃ v, Json.read document = .ok v ∧ W v) done xs := by
    intro doc hdoc hselect
    obtain ⟨v, hread, hobject⟩ := bind_eq_ok_iff.1 hdoc
    obtain rfl := requireObject_eq_self hobject
    have hread : Json.read document = .ok doc := mapError_eq_ok_iff.1 hread
    refine hselect.checked (judges_selection q all) fun fs _ hr => (hR doc fs hread hr).congr ?_
    rw [hread]
    simp
  refine (h.checked (judges_document what document) hselected).congr ?_
  simp only [and_or_left, exists_or]
  grind

/-- A command that only asks for documents looks at its selection. -/
theorem asking_checked {c : Command} {q : Query} {head : Text}
    {k : List Row → Except Error (List Text)} {done : Except Error (List Text)}
    (h : Attempts q.fragments (fun fs => Asks (t.asking fs head) k) done xs) (hfit : AllFit xs)
    (hk : ∀ text rows, head <+: text → Fits text rows → ∃ lines, k rows = .ok lines)
    (hc : c.takesDocuments = false) (hq : c.query? = some q) (hs : c.selective? = none) :
    Checked (c.BadInput files) done xs := by
  have hchecked := h.settled q.judges_fragments fun fs _ hasks => asks_settled hasks hfit hk
  exact hchecked.congr (badInput_of_query hc hq hs).symm

/-- A command that writes a document to those it selects. -/
theorem changing_checked {c : Command} {what : String} {table document : Text} {q : Query}
    {all : Bool} {p : Json → List Fragment → Except Error Statement}
    {done : Except Error (List Text)}
    (h : Attempts (do requireObject what (← readJson document)) (fun doc =>
      Attempts (selection q all) fun fs =>
        Attempts (p doc fs) fun s => Tells (.run s.text s.args)) done xs)
    (hp : ∀ doc fs, Judges Error.IsBadInput doc.Unwritable (p doc fs))
    (hgiven : ∀ t, c.Given files t ↔ t = document) (hone : ∀ v, c.documents v = [v])
    (hstores : c.Stores) (hq : c.query? = some q)
    (hs : c.selective? = if all then none else some (table, q)) :
    Checked (c.BadInput files) done xs := by
  have hchecked := document_checked (W := Json.HasNonFinite) h fun doc fs hread hwrite =>
    (Attempts.settled hwrite (hp doc fs) fun _ _ htells => htells.settled nofun).congr
      (Json.unwritable_iff_of_read hread)
  refine hchecked.congr ?_
  rw [badInput_document_iff hgiven hone hq hs]
  simp only [hstores, true_and]

theorem performs_checked {c : Command} (h : c.Performs files style t r xs) (hfit : AllFit xs)
    (hget : ∀ table id, c ≠ .get table id) (hread : ¬ c.Unreadable files) :
    ∃ done, r = done.mapError (.error .working) ∧ Checked (c.BadInput files) done xs := by
  cases c with
  | info => exact h.elim
  | get table id => exact absurd rfl (hget table id)
  | init table indexes uniqueIndexes =>
    obtain ⟨_, ⟨done, lines, hdone, rfl⟩, rfl⟩ := h
    refine ⟨_, rfl, ?_⟩
    have hcalls : ∀ d ∈ indexings t indexes uniqueIndexes, d.call ≠ .close ∧
        ∀ rows, d.accepts rows = .ok () := by
      intro d hd
      rcases List.mem_append.1 hd with hd | hd
      all_goals
        obtain ⟨expr, -, rfl⟩ := List.mem_map.1 hd
        exact ⟨nofun, fun _ => rfl⟩
    have hsettled := hdone.settled (fun d hd => (hcalls d hd).1) fun d hd rows _ _ =>
      (hcalls d hd).2 rows
    exact .settled (not_badInput rfl rfl) (hsettled.map fun _ => lines)
  | insert table document file =>
    obtain ⟨done, hdone, rfl⟩ := h
    exact ⟨done, rfl, inserting_checked hdone hread⟩
  | find table q =>
    obtain ⟨done, hdone, rfl⟩ := h
    refine ⟨done, rfl, asking_checked hdone hfit (fun text rows htext hrows => ?_) rfl rfl rfl⟩
    obtain ⟨docs, hdocs⟩ := hrows.decoded htext
    exact ⟨_, by rw [hdocs]; rfl⟩
  | count table q =>
    obtain ⟨done, hdone, rfl⟩ := h
    refine ⟨done, rfl, asking_checked hdone hfit (fun text rows htext hrows => ?_) rfl rfl rfl⟩
    obtain ⟨n, hn⟩ := hrows.counted htext
    exact ⟨_, by rw [hn]; rfl⟩
  | explain table q =>
    obtain ⟨done, hdone, rfl⟩ := h
    refine ⟨done, rfl, asking_checked hdone hfit (fun text rows htext hrows => ?_) rfl rfl rfl⟩
    have hplans : "explain query plan".toList <+:
        "explain query plan select json(data) from".toList := by decide
    obtain ⟨plan, hplan⟩ := hrows.steps (hplans.trans htext)
    exact ⟨_, by rw [hplan]; rfl⟩
  | delete table q all =>
    obtain ⟨done, hdone, rfl⟩ := h
    refine ⟨done, rfl, ?_⟩
    have hchecked := hdone.checked (judges_selection q all) fun fs _ hdelete =>
      hdelete.settled (judges_deletion t fs) fun _ _ htells => htells.settled nofun
    refine (hchecked.congr (or_iff_left id)).congr ?_
    rw [badInput_iff rfl]
    cases all <;> simp [query?, selective?]
  | patch table document q all dryRun =>
    have hgiven : ∀ t, Given files (.patch table document q all dryRun) t ↔ t = document :=
      fun t => ⟨fun ht => by cases ht; rfl, fun ht => ht ▸ .patch⟩
    have hs : selective? (.patch table document q all dryRun) =
        if all then none else some (table, q) := by cases all <;> rfl
    cases dryRun with
    | true =>
      obtain ⟨done, hdone, rfl⟩ := h
      have hchecked := document_checked (W := fun _ => False) hdone fun patch fs _ hasks =>
        (asks_settled hasks hfit fun text rows htext hrows => by
          obtain ⟨docs, hdocs⟩ := hrows.decoded htext
          exact ⟨_, by rw [hdocs]; rfl⟩).checked
      refine ⟨done, rfl, hchecked.congr ?_⟩
      rw [badInput_document_iff hgiven (fun _ => rfl) rfl hs]
      simp [Stores]
    | false =>
      obtain ⟨done, hdone, rfl⟩ := h
      exact ⟨done, rfl,
        changing_checked hdone (judges_patching t) hgiven (fun _ => rfl) rfl rfl hs⟩
  | replace table document q all =>
    obtain ⟨done, hdone, rfl⟩ := h
    have hgiven : ∀ t, Given files (.replace table document q all) t ↔ t = document :=
      fun t => ⟨fun ht => by cases ht; rfl, fun ht => ht ▸ .replace⟩
    have hs : selective? (.replace table document q all) =
        if all then none else some (table, q) := by cases all <;> rfl
    exact ⟨done, rfl,
      changing_checked hdone (judges_replacing t) hgiven (fun _ => rfl) trivial rfl hs⟩
  | createIndex table expr name unique =>
    obtain ⟨done, hdone, rfl⟩ := h
    refine ⟨done, rfl, ?_⟩
    have hsettled := hdone.settled nofun fun _ _ _ => ⟨_, rfl⟩
    exact .settled (not_badInput rfl rfl) hsettled
  | listIndexes table =>
    obtain ⟨done, hdone, rfl⟩ := h
    refine ⟨done, rfl, ?_⟩
    have hsettled := hdone.settled nofun fun rows _ hmem => by
      obtain ⟨found, hfound⟩ := (hfit _ _ _ _ hmem).found rfl
      have hshown := (hfit _ _ _ _ hmem).isShowable_of_found rfl hfound
      obtain ⟨lines, hlines⟩ := exists_indexLines style t hshown
      exact ⟨lines, by rw [hfound]; exact hlines⟩
    exact .settled (not_badInput rfl rfl) hsettled

end Command

end Console

end DocTable
