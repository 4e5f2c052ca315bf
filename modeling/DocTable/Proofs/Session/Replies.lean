import DocTable.Engine.Rules
import DocTable.Proofs.Table.Exchanges
/-!
# DocTable.Proofs.Session.Replies

Engines whose rows have the columns that are asked for.

A reply is read only as far as something is wanted from it. `Fits` says what its rows have to be
like for that, by the statement that they answer; then reading them cannot fail. An engine is
`WellFormed` if all of its rows fit. What it fails with, and when, is left open.
-/

namespace DocTable

namespace Session

/-- Rows have the columns that a statement asks for, and the documents in them are JSON texts. -/
structure Fits (text : Text) (rows : List Row) : Prop where
  journal : "PRAGMA journal_mode=".toList <+: text → ∃ kept rest, rows = [kept] :: rest
  tables : text = listing → ∀ row ∈ rows, ∃ name, row = [name]
  indexes : text = indexListing → ∀ row ∈ rows,
    ∃ name sql, row = [name, sql] ∧ (sql = .null ∨ ∃ t, sql = .text t)
  documents : "select json(data) from".toList <+: text → ∀ row ∈ rows,
    ∃ t v, row = [.text t] ∧ Json.read t = .ok v
  count : "select count(*) from".toList <+: text → ∃ n rest, rows = [.int n] :: rest
  plan : "explain query plan".toList <+: text → ∀ row ∈ rows,
    ∃ id parent unused detail, row = [id, parent, unused, detail]

/-- An engine that answers statements with rows that fit them. -/
def WellFormed (engine : Engine) : Prop :=
  ∀ history text args rows changes,
    engine history (.run text args) = .rows rows changes → Fits text rows

namespace Fits

variable {text : Text} {rows : List Row}

/-! ### Reading rows that fit -/

theorem firstCellOf (h : Fits text rows) (ht : "PRAGMA journal_mode=".toList <+: text) :
    ∃ kept, Session.firstCellOf rows = .ok kept := by
  obtain ⟨kept, rest, rfl⟩ := h.journal ht
  exact ⟨kept, rfl⟩

theorem names (h : Fits text rows) (ht : text = listing) :
    ∃ names, cellTexts 0 rows = .ok names := by
  refine exists_mapM_eq_ok fun row hrow => ?_
  obtain ⟨name, rfl⟩ := h.tables ht row hrow
  exact ⟨_, rfl⟩

theorem found (h : Fits text rows) (ht : text = indexListing) :
    ∃ found, rows.mapM indexOf = .ok found := by
  refine exists_mapM_eq_ok fun row hrow => ?_
  obtain ⟨name, sql, rfl, rfl | ⟨t, rfl⟩⟩ := h.indexes ht row hrow
  · exact ⟨_, rfl⟩
  · cases t with
    | nil => exact ⟨_, rfl⟩
    | cons c t => exact ⟨_, rfl⟩

theorem isShowable_of_found (h : Fits text rows) (ht : text = indexListing)
    {found : List IndexInfo} (hfound : rows.mapM indexOf = .ok found) :
    ∀ i ∈ found, i.sql.isShowable = true := by
  intro i hi
  obtain ⟨row, hrow, hindex⟩ := exists_of_mem_results hfound hi
  obtain ⟨name, sql, rfl, hsql⟩ := h.indexes ht row hrow
  obtain ⟨unique, -, rfl⟩ := map_eq_ok_iff.1 hindex
  rcases hsql with rfl | ⟨t, rfl⟩
  · rfl
  · rfl

theorem decoded (h : Fits text rows) (ht : "select json(data) from".toList <+: text) :
    ∃ docs, rows.mapM Table.decodeRow = .ok docs := by
  refine exists_mapM_eq_ok fun row hrow => ?_
  obtain ⟨t, v, rfl, hv⟩ := h.documents ht row hrow
  exact ⟨v, mapError_eq_ok_iff.2 hv⟩

theorem counted (h : Fits text rows) (ht : "select count(*) from".toList <+: text) :
    ∃ n, Table.countOf rows = .ok n := by
  obtain ⟨n, rest, rfl⟩ := h.count ht
  exact ⟨n, rfl⟩

theorem steps (h : Fits text rows) (ht : "explain query plan".toList <+: text) :
    ∃ plan, cellTexts 3 rows = .ok plan := by
  refine exists_mapM_eq_ok fun row hrow => ?_
  obtain ⟨id, parent, unused, detail, rfl⟩ := h.plan ht row hrow
  exact ⟨_, rfl⟩

end Fits

/-! ### Engines that fail with nothing -/

/-- An engine that answers every call. -/
def Answers (engine : Engine) : Prop :=
  ∀ history c, ∃ rows changes, engine history c = .rows rows changes

namespace Answers

variable {engine : Engine} (h : Answers engine) {α : Type} {history made : List Call} {c : Call}
  {r : Except Error α}

include h

theorem asks {k : List Row → Except Error α} (hasks : Asks c k r (exchanges engine history made)) :
    made = [c] ∧ ∃ rows changes, engine history c = .rows rows changes ∧ r = k rows := by
  obtain ⟨rows, changes, hreply⟩ := h history c
  obtain ⟨hmade, hr⟩ := hasks.of_reply hreply
  exact ⟨hmade, rows, changes, hreply, hr⟩

theorem tells (htells : Tells c r (exchanges engine history made)) :
    made = [c] ∧ ∃ a, r = .ok a := by
  have hmade := map_fst_exchanges engine history made
  rcases htells with ⟨rows, changes, a, hxs, hr⟩ | ⟨e, hxs, -⟩
  · rw [hxs] at hmade
    exact ⟨hmade.symm, a, hr⟩
  · obtain ⟨rows, changes, hreply⟩ := h history c
    cases (exchanges_eq_cons hxs).1.trans hreply

end Answers

/-! ### Engines that are given by rules -/

/-- A text does not have two beginnings of which neither begins the other. -/
theorem not_begins {a b text : Text} (ha : a <+: text) (hab : ¬ a <+: b ∧ ¬ b <+: a) :
    ¬ b <+: text := fun hb =>
  (List.prefix_or_prefix_of_prefix ha hb).elim hab.1 hab.2

/-- A text with a long enough beginning has its first characters. -/
theorem lower_take {a text : Text} (ha : a <+: text) {n : Nat} (hn : n ≤ a.length) :
    Text.lower (text.take n) = Text.lower (a.take n) := by
  obtain ⟨rest, rfl⟩ := ha
  rw [List.take_append_of_le_length hn]

theorem fits_journal {text : Text} (ht : "PRAGMA journal_mode=".toList <+: text) (mode : Json) :
    Fits text [[mode]] where
  journal _ := ⟨mode, [], rfl⟩
  tables _ := List.forall_mem_singleton.2 ⟨mode, rfl⟩
  indexes h := absurd (h ▸ List.prefix_rfl) (not_begins ht (b := indexListing) (by decide))
  documents h := absurd h (not_begins ht (by decide))
  count h := absurd h (not_begins ht (by decide))
  plan h := absurd h (not_begins ht (by decide))

theorem fits_count {text : Text} (ht : Text.lower (text.take 15) = "select count(*)".toList)
    (n : Int) : Fits text [[.int n]] where
  journal _ := ⟨.int n, [], rfl⟩
  tables _ := List.forall_mem_singleton.2 ⟨.int n, rfl⟩
  indexes h := by
    subst h
    exact absurd ht (by decide +kernel)
  documents h := by
    rw [lower_take h (by decide)] at ht
    exact absurd ht (by decide +kernel)
  count _ := ⟨n, [], rfl⟩
  plan h := by
    rw [lower_take h (by decide)] at ht
    exact absurd ht (by decide +kernel)

theorem fits_listing {text : Text}
    (ht : "SELECT name FROM sqlite_master WHERE type = 'table'".toList <+: text)
    (names : List Text) : Fits text (names.map fun name => [.text name]) where
  journal h := absurd h (not_begins ht (by decide))
  tables _ := by simp
  indexes h := absurd (h ▸ List.prefix_rfl) (not_begins ht (b := indexListing) (by decide))
  documents h := absurd h (not_begins ht (by decide))
  count h := absurd h (not_begins ht (by decide))
  plan h := absurd h (not_begins ht (by decide))

theorem fits_documents {text : Text} (ht : "select json(data) from".toList <+: text)
    {docs : List Text} (hdocs : ∀ t ∈ docs, ∃ v, Json.read t = .ok v) :
    Fits text (docs.map fun t => [.text t]) where
  journal h := absurd h (not_begins ht (by decide))
  tables _ := by simp
  indexes h := absurd (h ▸ List.prefix_rfl) (not_begins ht (b := indexListing) (by decide))
  documents _ := by simpa using hdocs
  count h := absurd h (not_begins ht (by decide))
  plan h := absurd h (not_begins ht (by decide))

theorem fits_fallback {text : Text} {rows : List Row} {changes : Int}
    (h : Rules.fallback text = .rows rows changes) : Fits text rows := by
  unfold Rules.fallback at h
  cases hmode : Text.afterStart? "PRAGMA journal_mode=".toList text with
  | some mode =>
    rw [hmode] at h
    cases h
    refine fits_journal ?_ _
    unfold Text.afterStart? at hmode
    split at hmode
    · next hprefix => exact List.isPrefixOf_iff_prefix.1 hprefix
    · cases hmode
  | none =>
    rw [hmode] at h
    dsimp only at h
    split at h
    · next hcount =>
      cases h
      exact fits_count hcount 0
    · next hcount =>
      cases h
      refine ⟨fun hjournal => ?_, nofun, nofun, nofun, fun h => absurd ?_ hcount, nofun⟩
      · rw [Text.afterStart?, if_pos (List.isPrefixOf_iff_prefix.2 hjournal)] at hmode
        cases hmode
      · rw [lower_take h (by decide)]
        decide +kernel

theorem answers_rules {rules : List Rule}
    (h : ∀ rule ∈ rules, ∃ rows changes, rule.reply = .rows rows changes) :
    Answers (Rules.engine rules) := by
  intro history c
  show ∃ rows changes, Rules.reply rules c = .rows rows changes
  rcases Rules.reply_cases rules c with ⟨rule, hrule, -, hreply⟩ | hreply
  · rw [hreply]
    exact h rule hrule
  · rw [hreply]
    exact Rules.exists_fallback _

/-- The rules decide; where there is none, the rows fit. -/
theorem wellFormed_rules {rules : List Rule}
    (h : ∀ rule ∈ rules, ∀ rows changes, rule.reply = .rows rows changes →
      ∀ text, rule.start <+: text → Fits text rows) : WellFormed (Rules.engine rules) := by
  intro history text args rows changes hreply
  rcases Rules.reply_cases rules (.run text args) with ⟨rule, hrule, hstart, hrows⟩ | hrows
  · exact h rule hrule rows changes (hrows.symm.trans hreply) text hstart
  · exact fits_fallback (hrows.symm.trans hreply)

end Session

end DocTable
