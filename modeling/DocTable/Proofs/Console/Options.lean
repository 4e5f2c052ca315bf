import DocTable.Console.Command
/-!
# DocTable.Proofs.Console.Options

The options of command lines.

A line that words are read as has only options that it was read by (`known_readWords`). So what a
command does not know is never given to it: the commands that change documents take no order and no
limit (`unclipped_of_ofWords`).
-/

namespace DocTable.Console

/-! ### Known options -/

/-- Whether one of the options has a name. -/
def Known (flags : List Flag) (name : Text) : Prop :=
  ∃ f ∈ flags, f.name = name

instance (flags : List Flag) (name : Text) : Decidable (Known flags name) :=
  inferInstanceAs (Decidable (∃ f ∈ flags, f.name = name))

/-- The options in a word, and the one that awaits its value, are known. -/
def WordReading.IsKnown (flags : List Flag) (r : WordReading) : Prop :=
  (∀ o ∈ r.1, Known flags o.1) ∧ ∀ name ∈ r.2, Known flags name

variable {flags : List Flag} {r : WordReading}

theorem known_readLong {f : Flag} (hf : f ∈ flags) {value : Option Text}
    (h : readLong f value = some r) : r.IsKnown flags := by
  have hknown : Known flags f.name := ⟨f, hf, rfl⟩
  unfold readLong at h
  split at h
  · cases h
    exact ⟨by simpa using hknown, nofun⟩
  · cases h
    exact ⟨nofun, by simpa using hknown⟩
  · cases h
  · cases h
    exact ⟨by simpa using hknown, nofun⟩

theorem known_readCluster {t : Text} (h : readCluster flags t = some r) : r.IsKnown flags := by
  induction t generalizing r with
  | nil =>
    cases h
    exact ⟨nofun, nofun⟩
  | cons c rest ih =>
    unfold readCluster at h
    split at h
    · cases h
    · next f hf =>
      have hknown : Known flags f.name := ⟨f, List.mem_of_find?_eq_some hf, rfl⟩
      by_cases hvalue : f.takesValue = true
      · rw [if_pos hvalue] at h
        split at h
        · cases h
          exact ⟨nofun, by simpa using hknown⟩
        · cases h
          exact ⟨by simpa using hknown, nofun⟩
      · rw [if_neg hvalue] at h
        obtain ⟨⟨given, awaiting⟩, hrest, hr⟩ := Option.bind_eq_some_iff.1 h
        cases hr
        obtain ⟨hgiven, hawaiting⟩ := ih hrest
        exact ⟨List.forall_mem_cons.2 ⟨hknown, hgiven⟩, hawaiting⟩

theorem known_readDashed {word : Text} (h : readDashed flags word = some r) :
    r.IsKnown flags := by
  unfold readDashed at h
  dsimp only at h
  split at h
  · next f hf => exact known_readLong (List.mem_of_find?_eq_some hf) h
  · split at h
    · cases h
    · exact known_readCluster h

/-- Words are read as options that are known. -/
theorem known_readWords {mixed : Bool} {awaiting : Option Text} {words : List Text} {l : Line}
    (hawaiting : ∀ name ∈ awaiting, Known flags name)
    (h : readWords flags mixed awaiting words = some l) : ∀ o ∈ l.options, Known flags o.1 := by
  have hnone : ∀ name ∈ (none : Option Text), Known flags name := nofun
  induction words generalizing awaiting l with
  | nil =>
    cases awaiting with
    | none =>
      cases h
      nofun
    | some name => cases h
  | cons word rest ih =>
    cases awaiting with
    | some name =>
      obtain ⟨m, hm, rfl⟩ := Option.map_eq_some_iff.1 h
      have hname : Known flags name := hawaiting name rfl
      exact List.forall_mem_cons.2 ⟨hname, ih hnone hm⟩
    | none =>
      unfold readWords at h
      split at h
      · cases h
        nofun
      · split at h
        · obtain ⟨⟨given, next⟩, hword, h⟩ := Option.bind_eq_some_iff.1 h
          obtain ⟨m, hm, rfl⟩ := Option.map_eq_some_iff.1 h
          obtain ⟨hgiven, hnext⟩ := known_readDashed hword
          exact List.forall_mem_append.2 ⟨hgiven, ih hnext hm⟩
        · split at h
          · obtain ⟨m, hm, rfl⟩ := Option.map_eq_some_iff.1 h
            have hrest := ih hnone hm
            exact hrest
          · cases h
            nofun

/-- An option that is not known is not given. -/
theorem value?_eq_none {words : List Text} {l : Line} (h : Command.read flags words = some l)
    {name : String} (hname : ¬ Known flags name.toList) : l.value? name = none := by
  have hnone : l.options.filter (fun o => o.1 = name.toList) = [] := by
    rw [List.filter_eq_nil_iff]
    intro o ho heq
    have hnone : ∀ name ∈ (none : Option Text), Known flags name := nofun
    have hknown := known_readWords hnone h o ho
    rw [of_decide_eq_true heq] at hknown
    exact hname hknown
  rw [Line.value?, hnone]
  rfl

/-! ### Commands that change documents -/

namespace Command

/-- The query of a command that changes documents and may not touch all of them, with its table. -/
def selective? : Command → Option (Text × Query)
  | .delete table q false | .patch table _ q false _ | .replace table _ q false => some (table, q)
  | _ => none

/-- A query without an order and a limit. -/
def Unclipped (q : Query) : Prop :=
  q.order = none ∧ q.limit = none

theorem unclipped_queryOf {words : List Text} {l : Line} (h : read flags words = some l)
    (hname : ¬ Known flags "--order-by".toList) : Unclipped (queryOf l none) :=
  ⟨value?_eq_none h hname, rfl⟩

theorem onTable_eq_some {make : Text → Line → Command} {words : List Text} {c : Command}
    (h : onTable flags make words = some c) :
    ∃ l table, read flags words = some l ∧ c = make table l := by
  obtain ⟨l, hl, h⟩ := Option.bind_eq_some_iff.1 h
  split at h
  · next table _ => exact ⟨l, table, hl, (Option.some.inj h).symm⟩
  · cases h

theorem onTwo_eq_some {make : Text → Text → Line → Command} {words : List Text} {c : Command}
    (h : onTwo flags make words = some c) :
    ∃ l first second, read flags words = some l ∧ c = make first second l := by
  obtain ⟨l, hl, h⟩ := Option.bind_eq_some_iff.1 h
  split at h
  · next first second _ => exact ⟨l, first, second, hl, (Option.some.inj h).symm⟩
  · cases h

theorem selective?_insertOfWords {words : List Text} {c : Command}
    (h : insertOfWords words = some c) : c.selective? = none := by
  obtain ⟨l, -, h⟩ := Option.bind_eq_some_iff.1 h
  split at h <;> cases h <;> rfl

theorem selective?_findOfWords {words : List Text} {c : Command}
    (h : findOfWords words = some c) : c.selective? = none := by
  obtain ⟨l, -, h⟩ := Option.bind_eq_some_iff.1 h
  obtain ⟨limit, -, h⟩ := Option.bind_eq_some_iff.1 h
  split at h <;> cases h
  rfl

theorem selective?_infoOfWords {words : List Text} {c : Command}
    (h : infoOfWords words = some c) : c.selective? = none := by
  obtain ⟨l, -, h⟩ := Option.bind_eq_some_iff.1 h
  split at h <;> cases h
  rfl

theorem selective?_indexOfWords {words : List Text} {c : Command}
    (h : indexOfWords words = some c) : c.selective? = none := by
  obtain ⟨l, -, h⟩ := Option.bind_eq_some_iff.1 h
  split at h
  · cases h
  · split at h
    · obtain ⟨_, table, expr, -, rfl⟩ := onTwo_eq_some h
      rfl
    · split at h
      · obtain ⟨_, table, -, rfl⟩ := onTable_eq_some h
        rfl
      · cases h

/-- Commands that change documents take no order and no limit. -/
theorem unclipped_of_reader {name : Text} {reader : List Text → Option Command}
    (hreader : (name, reader) ∈ readers) {words : List Text} {c : Command}
    (h : reader words = some c) {table : Text} {q : Query}
    (hq : c.selective? = some (table, q)) : Unclipped q := by
  have hchange : ¬ Known changeFlags "--order-by".toList := by decide
  have hpatch : ¬ Known (.switch "--dry-run" :: changeFlags) "--order-by".toList := by decide
  have hother : c.selective? ≠ none := by simp [hq]
  -- One case for each name of a command; only three of them change documents.
  simp only [readers, List.mem_cons, List.not_mem_nil, or_false, Prod.mk.injEq] at hreader
  rcases hreader with ⟨-, rfl⟩ | ⟨-, rfl⟩ | ⟨-, rfl⟩ | ⟨-, rfl⟩ | ⟨-, rfl⟩ | ⟨-, rfl⟩ | ⟨-, rfl⟩ |
    ⟨-, rfl⟩ | ⟨-, rfl⟩ | ⟨-, rfl⟩ | ⟨-, rfl⟩
  · obtain ⟨l, t, -, rfl⟩ := onTable_eq_some h
    exact absurd rfl hother
  · exact absurd (selective?_infoOfWords h) hother
  · exact absurd (selective?_insertOfWords h) hother
  · obtain ⟨l, t, id, -, rfl⟩ := onTwo_eq_some h
    exact absurd rfl hother
  · exact absurd (selective?_findOfWords h) hother
  · obtain ⟨l, t, -, rfl⟩ := onTable_eq_some h
    exact absurd rfl hother
  · obtain ⟨l, t, hl, rfl⟩ := onTable_eq_some h
    cases hall : l.has "--all" <;> rw [hall] at hq <;> cases hq
    exact unclipped_queryOf hl hchange
  · obtain ⟨l, t, document, hl, rfl⟩ := onTwo_eq_some h
    cases hall : l.has "--all" <;> rw [hall] at hq <;> cases hq
    exact unclipped_queryOf hl hpatch
  · obtain ⟨l, t, document, hl, rfl⟩ := onTwo_eq_some h
    cases hall : l.has "--all" <;> rw [hall] at hq <;> cases hq
    exact unclipped_queryOf hl hchange
  · obtain ⟨l, t, -, rfl⟩ := onTable_eq_some h
    exact absurd rfl hother
  · exact absurd (selective?_indexOfWords h) hother

end Command

/-- Neither does any command line that is written for such a command. -/
theorem unclipped_of_ofWords {env : Environment} {words : List Text} {i : Invocation}
    (h : Request.ofWords env words = some (.run i)) {table : Text} {q : Query}
    (hq : i.command.selective? = some (table, q)) : Command.Unclipped q := by
  obtain ⟨l, -, h⟩ := Option.bind_eq_some_iff.1 h
  split at h
  · cases h
  · split at h
    · cases h
    · split at h
      · obtain ⟨c, hc, hi⟩ := Option.bind_eq_some_iff.1 h
        cases hi
        obtain ⟨⟨name, reader⟩, hfind, hread⟩ := Option.bind_eq_some_iff.1 hc
        exact Command.unclipped_of_reader (List.mem_of_find?_eq_some hfind) hread hq
      · obtain ⟨l', -, h⟩ := Option.bind_eq_some_iff.1 h
        split at h <;> cases h

end DocTable.Console
