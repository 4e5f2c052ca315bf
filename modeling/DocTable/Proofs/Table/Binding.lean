import DocTable.Proofs.Table.AllOrNothing
import DocTable.Proofs.Table.Batch
/-!
# DocTable.Proofs.Table.Binding

The documents that an operation binds.

An operation that writes looks at its documents before it calls the engine. If one of them cannot be
stored, nothing is bound; otherwise the one call of the operation binds them all, with their ids if
they are inserted, and whatever selects documents to be changed is bound behind them (`Binds`).
-/

namespace DocTable

namespace Call

/-- The values that a call binds, in order. -/
def values : Call → List Json
  | .run _ args => args
  | .runMany _ rows => rows.flatten
  | .connect _ | .close => []

end Call

namespace Session

variable {α β γ : Type} {m : SessionM α}

/-- A check that is passed is followed by one call; any other one by none. -/
theorem Follows.calls_of_attempts {p : Except Error γ} {c : γ → Call}
    {k : γ → List Row → Except Error α} (h : Follows m (Attempts p fun a => Asks (c a) (k a)))
    (s : Session) :
    (∀ e, p = .error e → (m.run.run s).2.calls = s.calls) ∧
      ∀ a, p = .ok a → (m.run.run s).2.calls = s.calls ++ [c a] := by
  obtain ⟨made, hext, hattempts⟩ := h s
  have hcalls := hext.calls
  rw [← map_fst_exchanges s.engine s.calls made] at hcalls
  generalize exchanges s.engine s.calls made = xs at hattempts hcalls
  constructor
  · rintro e rfl
    rcases hattempts with ⟨_, -, -, rfl⟩ | ⟨_, hok, -⟩
    · rw [hcalls, List.map_nil, List.append_nil]
    · cases hok
  · rintro a rfl
    rcases hattempts with ⟨_, herror, -⟩ | ⟨_, hok, hasks⟩
    · cases herror
    · cases hok
      rcases hasks with ⟨rows, changes, rfl, -⟩ | ⟨e, rfl, -⟩
      · exact hcalls
      · exact hcalls

/-- What is made of a result without the engine adds no calls. -/
theorem calls_bind_lift (g : α → Except Error β) (s : Session) :
    ((m >>= fun a => lift (g a)).run.run s).2.calls = (m.run.run s).2.calls := by
  rw [run_bind]
  rcases m.run.run s with ⟨_ | a, s'⟩
  · rfl
  · rfl

end Session

namespace Table

open Session Document

/-! ### What is bound -/

/-- How a session goes on when documents are written: none of them is bound if one cannot be stored,
and otherwise all are, in one call and before the other values. -/
def Binds (s s' : Session) (docs : List Members) (others : List Json) : Prop :=
  ((∃ doc ∈ docs, (Json.object doc).Unwritable) → s'.calls = s.calls) ∧
    ((∀ doc ∈ docs, ¬ (Json.object doc).Unwritable) →
      ∃ c : Call, s'.calls = s.calls ++ [c] ∧ c.values = docs.flatMap boundRow ++ others)

/-- The documents are looked at before the call. -/
theorem binds_of_attempts {α γ : Type} {m : SessionM α} {p : Except Error γ} {c : γ → Call}
    {k : γ → List Row → Except Error α} (h : Follows m (Attempts p fun a => Asks (c a) (k a)))
    {docs : List Members} {others : List Json}
    (hbad : (∃ doc ∈ docs, (Json.object doc).Unwritable) → ∃ e, p = .error e)
    (hgood : (∀ doc ∈ docs, ¬ (Json.object doc).Unwritable) →
      ∃ a, p = .ok a ∧ (c a).values = docs.flatMap boundRow ++ others) (s : Session) :
    Binds s (m.run.run s).2 docs others := by
  obtain ⟨hrefused, hpassed⟩ := h.calls_of_attempts s
  constructor
  · intro hdocs
    obtain ⟨e, he⟩ := hbad hdocs
    exact hrefused e he
  · intro hdocs
    obtain ⟨a, ha, hvalues⟩ := hgood hdocs
    exact ⟨c a, hpassed a ha, hvalues⟩

variable (t : Table) (s : Session)

theorem binds_insert (doc : Members) :
    Binds s ((t.insert (.object doc)).run.run s).2 [identify (s.ids s.drawn) doc] [] := by
  rw [insert, run_bind, run_identified]
  dsimp only
  generalize identify (s.ids s.drawn) doc = stored
  have hstore : Follows (do
      logEntry .debug .table
        ("execute ".toList ++ Sql.insertInto t.name t.storage ++ " [1 args]".toList)
      discard (run (Sql.insertInto t.name t.storage) [.text (← lift (encode (.object stored)))])
      return Json.object stored)
      (Attempts (encode (.object stored)) fun text =>
        Asks (.run (Sql.insertInto t.name t.storage) [.text text])
          fun _ => .ok (.object stored)) := by
    refine Follows.logged (follows_attempts fun text _ => ?_) _ _ _
    exact (follows_run _ _).asks_discard.asks_bind fun _ => follows_pure ⟨rfl, rfl⟩
  refine binds_of_attempts hstore (fun hbad => ?_) (fun hgood => ?_)
    { s with drawn := if hasId doc then s.drawn else s.drawn + 1 }
  · obtain ⟨e, he, -⟩ := (judges_encode _).exists_error (by simpa using hbad)
    exact ⟨e, he⟩
  · exact ⟨_, encode_of_writable (hgood stored (List.mem_singleton.2 rfl)), rfl⟩

theorem binds_insertMany (docs : List Members) :
    Binds s ((t.insertMany (docs.map .object)).run.run s).2
      (identifyAll s.ids s.drawn docs) [] := by
  rw [insertMany, run_bind, run_mapM_identified]
  dsimp only
  generalize identifyAll s.ids s.drawn docs = stored
  have hstore : Follows (do
      logEntry .debug .table
        ("executemany ".toList ++ Sql.insertInto t.name t.storage ++ " [".toList
          ++ Decimal.ofNat (stored.map Json.object).length ++ " rows]".toList)
      let rows ← lift ((stored.map Json.object).mapM insertionRow)
      runMany (Sql.insertInto t.name t.storage) rows
      return stored.map Json.object)
      (Attempts ((stored.map Json.object).mapM insertionRow) fun rows =>
        Asks (.runMany (Sql.insertInto t.name t.storage) rows)
          fun _ => .ok (stored.map .object)) := by
    refine Follows.logged (follows_attempts fun rows _ => ?_) _ _ _
    exact (follows_call _).asks_discard.asks_bind fun _ => follows_pure ⟨rfl, rfl⟩
  refine binds_of_attempts hstore (fun hbad => ?_) (fun hgood => ?_)
    { s with drawn := drawnAfter s.drawn docs }
  · obtain ⟨e, he, -⟩ :=
      (judges_insertionRows (stored.map .object)).exists_error (by simpa using hbad)
    exact ⟨e, he⟩
  · have hrows : (stored.map Json.object).mapM insertionRow = .ok (stored.map boundRow) :=
      mapM_map_eq_ok fun doc hdoc => by
        rw [insertionRow, encode_of_writable (hgood doc hdoc)]
        rfl
    exact ⟨_, hrows, (List.append_nil _).symm⟩

/-- Writing a document over others, or merging it into them, binds it before what selects them. -/
theorem binds_update {call : Text} (hmark : Sql.holeMark ∉ call) (hdollar : '$' ∉ call)
    (doc : Members) (fs : List Sql.Fragment) {m : SessionM Unit}
    (h : Follows m (Attempts (t.update (call ++ "?)".toList) (.object doc) (fs.map .fragment))
      fun s => Asks (.run s.text s.args) fun _ => .ok ())) :
    Binds s (m.run.run s).2 [doc] (fs.flatMap Sql.Fragment.values) := by
  refine binds_of_attempts h (fun hbad => ?_) (fun hgood => ?_) s
  · have hrefused : (Json.object doc).Unwritable := by simpa using hbad
    obtain ⟨e, he, -⟩ := (judges_update t hmark (.object doc) (fs.map .fragment)).exists_error
      (.inl hrefused)
    exact ⟨e, he⟩
  · have hencode : (encode? (.object doc)).isSome = true := by
      rw [encode?_eq_some (hgood doc (List.mem_singleton.2 rfl))]
      rfl
    obtain ⟨statement, hupdate, -, hargs⟩ := t.update_call fs hencode hmark hdollar
    exact ⟨statement, hupdate, hargs⟩

theorem binds_replace (doc : Members) (fs : List Sql.Fragment) :
    Binds s ((t.replace (.object doc) (fs.map .fragment)).run.run s).2 [doc]
      (fs.flatMap Sql.Fragment.values) := by
  obtain ⟨hmark, hdollar⟩ := encodeCall_clean t.storage
  refine t.binds_update s hmark hdollar doc fs ?_
  rw [List.append_assoc]
  exact t.follows_replace (fs.map .fragment) (.object doc)

theorem binds_patch (doc : Members) (fs : List Sql.Fragment) :
    Binds s ((t.patch (.object doc) (fs.map .fragment)).run.run s).2 [doc]
      (fs.flatMap Sql.Fragment.values) := by
  obtain ⟨hmark, hdollar⟩ := patchCall_clean t.storage
  refine t.binds_update s hmark hdollar doc fs ?_
  rw [List.append_assoc]
  exact t.follows_patch (fs.map .fragment) (.object doc)

end Table

end DocTable
