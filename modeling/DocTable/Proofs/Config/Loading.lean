import DocTable.Proofs.Config.KeyOrder
import DocTable.Proofs.Config.Settings
/-!
# DocTable.Proofs.Config.Loading

Which files make a configuration.

A value of a file is loaded if and only if it is a mapping of known settings that make one
(`ConfigFile.ofValue_eq_ok_iff`). Everything else is refused with an error about the configuration,
with two exceptions (`ConfigFile.load_outcomes`). Unknown keys are put in order before they are
reported, and where they have no common order, that fails. And a whole number may be too long to be
shown in the message of the error.
-/

namespace DocTable

namespace ConfigFile

open Yaml (Value)

/-! ### Files -/

/-- The entries of a value that is read as a mapping. -/
def entries? : Value → Option (List (Value × Value))
  | .null => some []
  | .dict entries => some entries
  | _ => none

/-- The keys that are no settings. -/
def unknownKeys (entries : List (Value × Value)) : List Value :=
  (entries.map (·.1)).filter (!isKnown ·)

/-- The unknown keys of a mapping have a common order. -/
def KeysOrdered (v : Value) : Prop :=
  ∀ entries, entries? v = some entries → (unknownKeys entries).Pairwise Comparable

/-- The value of a setting among entries, or else its default. -/
def valueOf (key : String) (default : Value) : List (Value × Value) → Value
  | [] => default
  | (.text t, v) :: rest => if t = key.toList then v else valueOf key default rest
  | _ :: rest => valueOf key default rest

/-- The fields of a configuration are the values of a file, or else the defaults. -/
structure IsRead (entries : List (Value × Value)) (c : Config) : Prop where
  storage : valueOf "encoding" (.text "auto".toList) entries = .text c.storage.name
  journalMode : valueOf "journal_mode" (.text "wal".toList) entries = .text c.journalMode
  busyTimeout : valueOf "busy_timeout_ms" (.int 5000) entries = .int c.busyTimeout
  cacheLimit : valueOf "cache_maxsize" .null entries = c.cacheLimit.elim .null fun n => .int n

/-- A value stands for a configuration: it is a mapping of settings, which are those of the
configuration and keep the rules. -/
def StandsFor (v : Value) (c : Config) : Prop :=
  ∃ entries, entries? v = some entries ∧ (∀ e ∈ entries, isKnown e.1 = true) ∧ IsRead entries c ∧
    c.Valid

/-- The settings that have to be texts are texts. -/
def HasTexts (entries : List (Value × Value)) : Prop :=
  (∃ t, valueOf "encoding" (.text "auto".toList) entries = .text t) ∧
    ∃ t, valueOf "journal_mode" (.text "wal".toList) entries = .text t

/-- A value is shown when entries are refused: an unknown key, or without unknown keys the first
setting that is not of the right kind, if it should be a number. -/
inductive Shows (entries : List (Value × Value)) : Value → Prop
  | key {k : Value} : k ∈ unknownKeys entries → Shows entries k
  | timeout {v : Value} : unknownKeys entries = [] → HasTexts entries →
      valueOf "busy_timeout_ms" (.int 5000) entries = v → (∀ n, v ≠ .int n) → Shows entries v
  | limit {v : Value} {timeout : Int} : unknownKeys entries = [] → HasTexts entries →
      valueOf "busy_timeout_ms" (.int 5000) entries = .int timeout →
      valueOf "cache_maxsize" .null entries = v → v ≠ .null → (∀ n, v ≠ .int n) → Shows entries v

/-- A mapping is refused with a message that would show a number with too many digits. -/
def HidesNumber (v : Value) : Prop :=
  ∃ entries, entries? v = some entries ∧ ∃ w, Shows entries w ∧ w.isShowable = false

theorem sameKey_text_iff {k : Value} {t : Text} : k.sameKey (.text t) = true ↔ k = .text t := by
  cases k with
  | text u => simp [Value.sameKey]
  | _ => simp [Value.sameKey, Value.worth?]

theorem getD_value? (key : String) (default : Value) (entries : List (Value × Value)) :
    (value? entries key).getD default = valueOf key default entries := by
  induction entries with
  | nil => rfl
  | cons e entries ih =>
    obtain ⟨k, v⟩ := e
    by_cases hk : k = .text key.toList
    · subst hk
      simp [value?, Value.sameKey, valueOf]
    · have hsame : k.sameKey (.text key.toList) = false := by
        rw [Bool.eq_false_iff, Ne, sameKey_text_iff]
        exact hk
      have hvalue : valueOf key default ((k, v) :: entries) = valueOf key default entries := by
        cases k with
        | text t => exact if_neg fun ht => hk (congrArg Value.text ht)
        | _ => rfl
      rw [hvalue, ← ih, value?, value?, List.find?_cons_of_neg (by simp [hsame])]

theorem getD_setting? (key : String) (default : Value) (entries : List (Value × Value)) :
    (setting? entries key).getD (.ofYaml default) = .ofYaml (valueOf key default entries) := by
  rw [setting?, Option.getD_map, getD_value?]

theorem ofYaml_eq_text_iff {v : Value} {t : Text} : Setting.ofYaml v = .text t ↔ v = .text t := by
  cases v with
  | _ => simp [Setting.ofYaml]

theorem ofYaml_eq_integer_iff {v : Value} {n : Int} :
    Setting.ofYaml v = .integer n ↔ v = .int n := by
  cases v with
  | _ => simp [Setting.ofYaml]

theorem ofYaml_eq_limit_iff {v : Value} {limit : Option Nat} :
    Setting.ofYaml v = limit.elim .null (fun n => .integer n) ↔
      v = limit.elim .null fun n => .int n := by
  cases v with
  | _ => cases limit with
    | _ => simp [Setting.ofYaml]

/-- The settings among entries. -/
def settings (entries : List (Value × Value)) : Settings :=
  { Settings.none with
    storage := setting? entries "encoding"
    journalMode := setting? entries "journal_mode"
    busyTimeout := setting? entries "busy_timeout_ms"
    cacheLimit := setting? entries "cache_maxsize" }

theorem isGiven_settings_iff {entries : List (Value × Value)} {c : Config} :
    Config.IsGiven (settings entries) c ↔ IsRead entries c := by
  have hstorage := getD_setting? "encoding" (.text "auto".toList) entries
  have hjournal := getD_setting? "journal_mode" (.text "wal".toList) entries
  have htimeout := getD_setting? "busy_timeout_ms" (.int 5000) entries
  have hcache := getD_setting? "cache_maxsize" .null entries
  constructor
  · intro h
    refine ⟨?_, ?_, ?_, ?_⟩
    · exact ofYaml_eq_text_iff.1 (hstorage.symm.trans h.storage)
    · exact ofYaml_eq_text_iff.1 (hjournal.symm.trans h.journalMode)
    · exact ofYaml_eq_integer_iff.1 (htimeout.symm.trans h.busyTimeout)
    · exact ofYaml_eq_limit_iff.1 (hcache.symm.trans h.cacheLimit)
  · intro h
    refine ⟨?_, ?_, ?_, ?_, rfl⟩
    · exact hstorage.trans (ofYaml_eq_text_iff.2 h.storage)
    · exact hjournal.trans (ofYaml_eq_text_iff.2 h.journalMode)
    · exact htimeout.trans (ofYaml_eq_integer_iff.2 h.busyTimeout)
    · exact hcache.trans (ofYaml_eq_limit_iff.2 h.cacheLimit)

/-! ### Messages -/

theorem mem_of_value?_eq_some {entries : List (Value × Value)} {key : String} {v : Value}
    (h : value? entries key = some v) : ∃ k, (k, v) ∈ entries := by
  obtain ⟨⟨k, w⟩, hfind, rfl⟩ := Option.map_eq_some_iff.1 h
  exact ⟨k, List.mem_of_find?_eq_some hfind⟩

/-- What the message of an error about settings shows is the value of one of them. -/
theorem mem_of_mem_shown? {entries : List (Value × Value)} {e : ConfigError} {v : Value}
    (h : v ∈ shown? entries e) : ∃ k, (k, v) ∈ entries := by
  cases e with
  | timeoutNotInteger => exact mem_of_value?_eq_some h
  | cacheNotInteger => exact mem_of_value?_eq_some h
  | _ => cases h

/-- A configuration or an error about it, except that there may be a value that cannot be shown. -/
def Settles (showable : Bool) (r : Except ConfigFileError Config) : Prop :=
  (∃ c, r = .ok c) ∨ (∃ e, r = .error (.config e)) ∨ r = .error .notShowable ∧ showable = false

theorem refusal_eq_notShowable_iff {shown : Option Value} {e : ConfigError} :
    refusal shown e = .notShowable ↔ ∃ v ∈ shown, v.isShowable = false := by
  cases shown with
  | none => simp [refusal]
  | some v =>
    rw [refusal, Option.all_some]
    cases h : v.isShowable with
    | true | false => simp [h]

theorem settles_refusal {showable : Bool} {shown : Option Value} {e : ConfigError}
    (h : showable = true → ∀ v ∈ shown, v.isShowable = true) :
    Settles showable (.error (refusal shown e)) := by
  rw [refusal]
  split
  · exact .inr (.inl ⟨e, rfl⟩)
  · next hhidden =>
    refine .inr (.inr ⟨rfl, Bool.eq_false_iff.2 fun hshowable => hhidden ?_⟩)
    cases shown with
    | none => rfl
    | some v => exact h hshowable v rfl

/-- A value of a setting that is not the default stands in the entries. -/
theorem value?_eq_some_of_ne {key : String} {default v : Value} {entries : List (Value × Value)}
    (h : valueOf key default entries = v) (hne : v ≠ default) : value? entries key = some v := by
  rw [← getD_value?] at h
  cases hv : value? entries key with
  | none =>
    rw [hv] at h
    exact absurd h.symm hne
  | some w => rw [← h, hv, Option.getD_some]

theorem ofYaml_eq_null_iff {v : Value} : Setting.ofYaml v = .null ↔ v = .null := by
  cases v with
  | _ => simp [Setting.ofYaml]

/-- What the message of an error about settings shows is the first one of a wrong kind. -/
theorem shows_of_mem_shown? {entries : List (Value × Value)} (hknown : unknownKeys entries = [])
    {e : ConfigError} (he : Config.ofSettings (settings entries) = .error e) {w : Value}
    (hw : w ∈ shown? entries e) : Shows entries w := by
  have hstorage := getD_setting? "encoding" (.text "auto".toList) entries
  have hjournal := getD_setting? "journal_mode" (.text "wal".toList) entries
  have htimeout := getD_setting? "busy_timeout_ms" (.int 5000) entries
  have hcache := getD_setting? "cache_maxsize" .null entries
  have hvalue : ∀ {key : String} (default : Value), w ∈ value? entries key →
      valueOf key default entries = w := fun default hw => by
    rw [← getD_value?, hw, Option.getD_some]
  have htexts : ∀ {name mode : Text},
      (settings entries).storage.getD (.text "auto".toList) = .text name →
      (settings entries).journalMode.getD (.text "wal".toList) = .text mode → HasTexts entries :=
    fun hname hmode => ⟨⟨_, ofYaml_eq_text_iff.1 (hstorage.symm.trans hname)⟩,
      ⟨_, ofYaml_eq_text_iff.1 (hjournal.symm.trans hmode)⟩⟩
  rw [Config.ofSettings] at he
  simp only [bind_eq_error_iff, Config.textSetting_eq_error_iff, Config.textSetting_eq_ok_iff,
    Config.timeoutSetting_eq_error_iff, Config.timeoutSetting_eq_ok_iff,
    Config.cacheSetting_eq_error_iff] at he
  rcases he with ⟨-, rfl⟩ | ⟨name, hname, ⟨-, rfl⟩ | ⟨mode, hmode, ⟨hkind, rfl⟩ |
    ⟨n, hn, ⟨hnull, hkind, rfl⟩ | ⟨limit, -, hrest⟩⟩⟩⟩
  · cases hw
  · cases hw
  · refine .timeout hknown (htexts hname hmode) (hvalue _ hw) fun n hn => hkind n ?_
    exact htimeout.trans (ofYaml_eq_integer_iff.2 ((hvalue _ hw).trans hn))
  · refine .limit hknown (htexts hname hmode) (ofYaml_eq_integer_iff.1 (htimeout.symm.trans hn))
      (hvalue _ hw) (fun hw' => hnull ?_) fun n hn => hkind n ?_
    · exact hcache.trans (ofYaml_eq_null_iff.2 ((hvalue _ hw).trans hw'))
    · exact hcache.trans (ofYaml_eq_integer_iff.2 ((hvalue _ hw).trans hn))
  · rcases guard_eq_error_iff.1 hrest with ⟨-, rfl⟩ | ⟨-, hrest⟩
    · cases hw
    · rcases Config.ofValues_error hrest with rfl | rfl | rfl | rfl <;> cases hw

/-- The first setting that is of a wrong kind is shown, if it should be a number. -/
theorem exists_error_of_shows {entries : List (Value × Value)} (hknown : unknownKeys entries = [])
    {w : Value} (h : Shows entries w) :
    ∃ e, Config.ofSettings (settings entries) = .error e ∧ w ∈ shown? entries e := by
  have htimeout := getD_setting? "busy_timeout_ms" (.int 5000) entries
  have hcache := getD_setting? "cache_maxsize" .null entries
  have hfirst : ∀ {e}, HasTexts entries →
      (Config.timeoutSetting (.ofYaml (valueOf "busy_timeout_ms" (.int 5000) entries)) = .error e ∨
        ∃ n, Config.timeoutSetting (.ofYaml (valueOf "busy_timeout_ms" (.int 5000) entries)) =
            .ok n ∧
          Config.cacheSetting (.ofYaml (valueOf "cache_maxsize" .null entries)) = .error e) →
      Config.ofSettings (settings entries) = .error e := by
    rintro e ⟨⟨name, hname⟩, ⟨mode, hmode⟩⟩ hkinds
    rw [← htimeout, ← hcache] at hkinds
    rw [← ofYaml_eq_text_iff, ← getD_setting?] at hname hmode
    exact Config.ofSettings_eq_error hname hmode hkinds
  cases h with
  | key hk =>
    rw [hknown] at hk
    cases hk
  | timeout _ htexts hv hkind =>
    have herror := Config.timeoutSetting_eq_error_iff.2
      ⟨fun n hn => hkind n (hv.symm.trans (ofYaml_eq_integer_iff.1 hn)), rfl⟩
    exact ⟨_, hfirst htexts (.inl herror), value?_eq_some_of_ne hv (hkind 5000)⟩
  | limit _ htexts hn hv hnull hkind =>
    have hnumber := Config.timeoutSetting_eq_ok_iff.2 (ofYaml_eq_integer_iff.2 hn)
    have herror := Config.cacheSetting_eq_error_iff.2
      ⟨fun h => hnull (hv.symm.trans (ofYaml_eq_null_iff.1 h)),
        fun m hm => hkind m (hv.symm.trans (ofYaml_eq_integer_iff.1 hm)), rfl⟩
    exact ⟨_, hfirst htexts (.inr ⟨_, hnumber, herror⟩), value?_eq_some_of_ne hv hnull⟩

/-! ### Outcomes -/

/-- The keys are put in order first. Then a file without unknown keys is what its settings make, and
one with unknown keys is refused. -/
theorem ofEntries_of_sorted {path : Text} {entries : List (Value × Value)} {sorted : List Value}
    (h : sortKeys (unknownKeys entries) = .ok sorted) :
    ofEntries path entries =
      if unknownKeys entries = [] then
        (Config.ofSettings (settings entries)).mapError fun e => refusal (shown? entries e) e
      else
        .error (refusal (some (.list sorted)) (.unknownKeys path (Value.list sorted).display)) := by
  have hempty : sorted = [] ↔ unknownKeys entries = [] := by
    rw [← List.perm_nil, ← List.perm_nil]
    exact ⟨(perm_sortKeys h).symm.trans, (perm_sortKeys h).trans⟩
  rw [unknownKeys] at h
  rw [ofEntries, h]
  show (do
      if !sorted.isEmpty then
        Except.error
          (refusal (some (.list sorted)) (.unknownKeys path (Value.list sorted).display))
      (Config.ofSettings (settings entries)).mapError fun e => refusal (shown? entries e) e) = _
  by_cases hsorted : sorted = []
  · rw [if_pos (hempty.1 hsorted), hsorted]
    rfl
  · rw [if_neg (mt hempty.2 hsorted), if_pos (by simpa using hsorted)]
    rfl

/-- Keys without a common order are reported before anything else. -/
theorem ofEntries_of_unordered {path : Text} {entries : List (Value × Value)} {e : OrderError}
    (h : sortKeys (unknownKeys entries) = .error e) :
    ofEntries path entries = .error (.order e) := by
  rw [unknownKeys] at h
  rw [ofEntries, h]
  rfl

theorem ofEntries_eq_ok_iff {path : Text} {entries : List (Value × Value)} {c : Config} :
    ofEntries path entries = .ok c ↔ unknownKeys entries = [] ∧ IsRead entries c ∧ c.Valid := by
  cases hsort : sortKeys (unknownKeys entries) with
  | error e =>
    rw [ofEntries_of_unordered hsort]
    have hsome : unknownKeys entries ≠ [] := by
      intro hnone
      rw [hnone] at hsort
      cases hsort
    simp [hsome]
  | ok sorted =>
    rw [ofEntries_of_sorted hsort]
    by_cases hnone : unknownKeys entries = []
    · rw [if_pos hnone, mapError_eq_ok_iff, Config.ofSettings_eq_ok_iff, isGiven_settings_iff]
      simp [hnone]
    · simp [hnone]

/-- Unknown keys are part of the entries. -/
theorem isShowable_of_mem_unknownKeys {entries : List (Value × Value)}
    (h : Value.entriesShowable entries = true) {k : Value} (hk : k ∈ unknownKeys entries) :
    k.isShowable = true := by
  obtain ⟨e, he, rfl⟩ := List.mem_map.1 (List.mem_filter.1 hk).1
  exact (Value.entriesShowable_iff.1 h e he).1

/-- What the order of the unknown keys decides: without one, that is the error; with one, the
entries make a configuration or are refused. -/
theorem ofEntries_cases (path : Text) (entries : List (Value × Value)) :
    (∃ e, ofEntries path entries = .error (.order e)) ∧
        ¬ (unknownKeys entries).Pairwise Comparable ∨
      Settles (Value.entriesShowable entries) (ofEntries path entries) ∧
        (unknownKeys entries).Pairwise Comparable := by
  rw [← sortKeys_eq_ok_iff]
  cases hsort : sortKeys (unknownKeys entries) with
  | error e =>
    exact .inl ⟨⟨e, ofEntries_of_unordered hsort⟩, by simp⟩
  | ok sorted =>
    refine .inr ⟨?_, sorted, rfl⟩
    rw [ofEntries_of_sorted hsort]
    by_cases hnone : unknownKeys entries = []
    · rw [if_pos hnone]
      cases Config.ofSettings (settings entries) with
      | ok c => exact .inl ⟨c, rfl⟩
      | error e =>
        refine settles_refusal fun hshowable v hv => ?_
        obtain ⟨k, hk⟩ := mem_of_mem_shown? hv
        exact (Value.entriesShowable_iff.1 hshowable _ hk).2
    · rw [if_neg hnone]
      refine settles_refusal fun hshowable v hv => ?_
      cases hv
      refine Value.areShowable_iff.2 fun k hk => ?_
      exact isShowable_of_mem_unknownKeys hshowable ((perm_sortKeys hsort).mem_iff.1 hk)

/-- Where the keys can be put in order, a number is hidden exactly if what is shown holds one. -/
theorem ofEntries_eq_notShowable_iff {path : Text} {entries : List (Value × Value)}
    {sorted : List Value} (h : sortKeys (unknownKeys entries) = .ok sorted) :
    ofEntries path entries = .error .notShowable ↔
      ∃ w, Shows entries w ∧ w.isShowable = false := by
  rw [ofEntries_of_sorted h]
  by_cases hnone : unknownKeys entries = []
  · rw [if_pos hnone, mapError_eq_error_iff]
    simp only [refusal_eq_notShowable_iff]
    constructor
    · rintro ⟨e, he, w, hw, hhidden⟩
      exact ⟨w, shows_of_mem_shown? hnone he hw, hhidden⟩
    · rintro ⟨w, hshows, hhidden⟩
      obtain ⟨e, he, hw⟩ := exists_error_of_shows hnone hshows
      exact ⟨e, he, w, hw, hhidden⟩
  · have hsome : ∀ {w}, Shows entries w ↔ w ∈ unknownKeys entries := by
      intro w
      constructor
      · intro h
        cases h with
        | key hw => exact hw
        | timeout hknown | limit hknown => exact absurd hknown hnone
      · exact .key
    have hlist : (Value.list sorted).isShowable = false ↔ ∃ k ∈ sorted, k.isShowable = false := by
      rw [Value.isShowable, Bool.eq_false_iff, Ne, Value.areShowable_iff]
      simp
    rw [if_neg hnone, Except.error.injEq, refusal_eq_notShowable_iff]
    simp only [Option.mem_some_iff, exists_eq_left', hlist, hsome, (perm_sortKeys h).mem_iff]

/-- A value that is no mapping is refused; otherwise its entries decide. -/
theorem ofValue_cases (path : Text) (v : Value) :
    entries? v = none ∧ ofValue path v = .error (.config (.notMapping path v.kind)) ∨
      ∃ entries, entries? v = some entries ∧ v.isShowable = Value.entriesShowable entries ∧
        ofValue path v = ofEntries path entries := by
  cases v with
  | null => exact .inr ⟨[], rfl, rfl, rfl⟩
  | dict entries => exact .inr ⟨entries, rfl, rfl, rfl⟩
  | _ => exact .inl ⟨rfl, rfl⟩

theorem ofValue_eq_ok_iff {path : Text} {v : Value} {c : Config} :
    ofValue path v = .ok c ↔ StandsFor v c := by
  obtain ⟨hnone, h⟩ | ⟨entries, hentries, -, h⟩ := ofValue_cases path v
  · simp [h, StandsFor, hnone]
  · rw [h, ofEntries_eq_ok_iff]
    simp [StandsFor, hentries, unknownKeys, List.filter_eq_nil_iff]

theorem keysOrdered_iff {v : Value} {entries : List (Value × Value)}
    (h : entries? v = some entries) :
    KeysOrdered v ↔ (unknownKeys entries).Pairwise Comparable := by
  simp [KeysOrdered, h]

theorem ofValue_eq_order_iff {path : Text} {v : Value} :
    (∃ e, ofValue path v = .error (.order e)) ↔ ¬ KeysOrdered v := by
  obtain ⟨hnone, h⟩ | ⟨entries, hentries, -, h⟩ := ofValue_cases path v
  · simp [h, KeysOrdered, hnone]
  · rw [h, keysOrdered_iff hentries]
    obtain ⟨herror, hkeys⟩ | ⟨hsettles, hkeys⟩ := ofEntries_cases path entries
    · exact iff_of_true herror hkeys
    · refine iff_of_false ?_ (not_not_intro hkeys)
      rintro ⟨e, he⟩
      rw [he] at hsettles
      simp [Settles] at hsettles

theorem ofValue_eq_notShowable_iff {path : Text} {v : Value} :
    ofValue path v = .error .notShowable ↔ KeysOrdered v ∧ HidesNumber v := by
  obtain ⟨hnone, h⟩ | ⟨entries, hentries, -, h⟩ := ofValue_cases path v
  · simp [h, HidesNumber, hnone]
  · rw [h, keysOrdered_iff hentries, ← sortKeys_eq_ok_iff]
    simp only [HidesNumber, hentries, Option.some.injEq, exists_eq_left']
    cases hsort : sortKeys (unknownKeys entries) with
    | error e =>
      rw [ofEntries_of_unordered hsort]
      simp
    | ok sorted =>
      rw [ofEntries_eq_notShowable_iff hsort]
      simp

/-- A value whose unknown keys can be put in order makes a configuration or is refused. -/
theorem settles_ofValue {path : Text} {v : Value} (hv : KeysOrdered v) :
    Settles v.isShowable (ofValue path v) := by
  obtain ⟨-, h⟩ | ⟨entries, hentries, hshowable, h⟩ := ofValue_cases path v
  · exact .inr (.inl ⟨_, h⟩)
  · rw [h, hshowable]
    rw [keysOrdered_iff hentries] at hv
    exact ((ofEntries_cases path entries).resolve_left fun horder => horder.2 hv).1

/-- The file at a path is there, and its text is read as a value. -/
def Reads (parse : Text → Except Yaml.Error Value) (files : Files) (path : Text) (v : Value) :
    Prop :=
  files.has (Files.normal path) = true ∧
    ∃ content t, files.read (Files.normal path) = .ok content ∧ content.text = .ok t ∧
      parse t = .ok v

theorem exists_reads {parse : Text → Except Yaml.Error Value} {files : Files} {path t : Text}
    {content : Content} (hhas : files.has (Files.normal path) = true)
    (hread : files.read (Files.normal path) = .ok content) (htext : content.text = .ok t)
    (hvalue : (parse t).toOption.isSome = true) : ∃ v, Reads parse files path v := by
  cases hv : parse t with
  | error e =>
    rw [hv] at hvalue
    cases hvalue
  | ok v => exact ⟨v, hhas, content, t, hread, htext, hv⟩

theorem loadWith_eq_ofValue {parse : Text → Except Yaml.Error Value} {files : Files} {path : Text}
    {v : Value} (h : Reads parse files path v) :
    loadWith parse files path = ofValue (Files.normal path) v := by
  obtain ⟨hhas, content, t, hread, htext, hv⟩ := h
  simp only [loadWith, hhas, hread, Except.mapError, bind, Except.bind, htext, hv]
  rfl

/-- **What loading comes to.** However texts are read as values, a file that is read as a value
makes exactly the configuration that the value stands for, and an environment exactly that with its
variables over the other fields. A file that makes none fails with an error about the configuration,
with two exceptions: unknown keys without a common order, and an error that would show a whole
number with too many digits. -/
theorem load_outcomes {parse : Text → Except Yaml.Error Value} {files : Files} {path : Text}
    {v : Value} (h : Reads parse files path v) :
    (∀ c, loadWith parse files path = .ok c ↔ StandsFor v c) ∧
      ((∃ e, loadWith parse files path = .error (.order e)) ↔ ¬ KeysOrdered v) ∧
      (loadWith parse files path = .error .notShowable ↔ KeysOrdered v ∧ HidesNumber v) ∧
      (KeysOrdered v →
        (∃ c, loadWith parse files path = .ok c) ∨
          (∃ e, loadWith parse files path = .error (.config e)) ∨
          loadWith parse files path = .error .notShowable ∧ v.isShowable = false) ∧
      ∀ (base : Config) (env : Environment) (c : Config),
        base.overlay env = .ok c ↔ base.IsOverlaid env c ∧ c.Valid := by
  rw [loadWith_eq_ofValue h]
  exact ⟨fun _ => ofValue_eq_ok_iff, ofValue_eq_order_iff, ofValue_eq_notShowable_iff,
    settles_ofValue, fun _ _ _ => Config.overlay_eq_ok_iff⟩

/-- A journal mode in capitals and a bound for the cache; the environment sets the mode again. -/
theorem load_outcomes_sample :
    let files : Files := [("c.yml".toList, "journal_mode: WAL\ncache_maxsize: 64\n".toList)]
    let env : Environment := [("SQLDOC_JOURNAL_MODE".toList, "Off".toList)]
    let c : Config := ⟨.auto, "WAL".toList, 5000, some 64⟩
    ∃ v, Reads Value.ofText files "c.yml".toList v ∧ load files "c.yml".toList = .ok c ∧
      StandsFor v c ∧ c.overlay env = .ok ⟨.auto, "off".toList, 5000, some 64⟩ := by
  intro files env c
  obtain ⟨v, hreads⟩ : ∃ v, Reads Value.ofText files "c.yml".toList v :=
    exists_reads (by decide +kernel) rfl rfl (by decide +kernel)
  have hload : load files "c.yml".toList = .ok c := eq_ok_of_toOption (by decide +kernel)
  obtain ⟨hloads, -, -, -, hoverlay⟩ := load_outcomes hreads
  refine ⟨v, hreads, hload, (hloads c).1 hload, ?_⟩
  refine (hoverlay c env _).2 ⟨⟨rfl, rfl, rfl, rfl⟩, ?_⟩
  exact ⟨by decide, by decide, by rintro n ⟨⟩; decide⟩

/-- Whether a file is refused because its keys have no order. -/
def lacksOrder : Except ConfigFileError Config → Bool
  | .error (.order _) => true
  | _ => false

/-- Keys without a common order crash the loading before the file is refused. -/
theorem load_unordered_keys :
    let files : Files := [("c.yml".toList, "0: x\nnull: y\n".toList)]
    (∃ v, Reads Value.ofText files "c.yml".toList v) ∧ (∀ c, load files "c.yml".toList ≠ .ok c) ∧
      ∀ e, load files "c.yml".toList ≠ .error (.config e) := by
  intro files
  have hcrash : lacksOrder (load files "c.yml".toList) = true := by decide +kernel
  refine ⟨exists_reads (by decide +kernel) rfl rfl (by decide +kernel), ?_, ?_⟩
  · intro c h
    rw [h] at hcrash
    cases hcrash
  · intro e h
    rw [h] at hcrash
    cases hcrash

end ConfigFile

end DocTable
