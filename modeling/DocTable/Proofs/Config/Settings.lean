import DocTable.Config.Environment
import DocTable.Proofs.Result
/-!
# DocTable.Proofs.Config.Settings

Which settings make a configuration.

They do if and only if they are its fields, up to defaults, and its fields keep the rules
(`Config.ofSettings_eq_ok_iff`). So an environment is laid over a configuration if and only if what
comes of that keeps the rules (`Config.overlay_eq_ok_iff`).
-/

namespace DocTable

namespace StorageChoice

theorem ofName?_eq_some_iff {name : Text} {s : StorageChoice} :
    ofName? name = some s ↔ s.name = name := by
  constructor
  · intro h
    rw [ofName?] at h
    split at h
    · next hauto =>
      cases h
      exact hauto.symm
    · rw [Sql.Storage.ofName] at h
      split at h
      · next hbinary =>
        cases h
        exact hbinary.symm
      · split at h
        · next htextual =>
          cases h
          exact htextual.symm
        · cases h
  · rintro rfl
    cases s with
    | auto => rfl
    | fixed s => cases s with
      | _ => rfl

theorem name_mem_choices (s : StorageChoice) :
    s.name ∈ ["auto".toList, "jsonb".toList, "json".toList] := by
  cases s with
  | auto => decide
  | fixed s => cases s with
    | _ => decide

end StorageChoice

namespace Config

/-! ### Settings -/

/-- The rules for the fields of a configuration, beside those that their types keep: a timeout is a
number that is not negative. -/
structure Valid (c : Config) : Prop where
  storage : c.storage.name ∈ ["auto".toList, "jsonb".toList, "json".toList]
  journalMode : Text.lower c.journalMode ∈ journalModes
  cacheLimit : ∀ n, c.cacheLimit = some n → 0 < n

/-- The fields of a configuration are what is given for them, or else the defaults. -/
structure IsGiven (s : Settings) (c : Config) : Prop where
  storage : s.storage.getD (.text "auto".toList) = .text c.storage.name
  journalMode : s.journalMode.getD (.text "wal".toList) = .text c.journalMode
  busyTimeout : s.busyTimeout.getD (.integer 5000) = .integer c.busyTimeout
  cacheLimit : s.cacheLimit.getD .null = c.cacheLimit.elim .null fun n => .integer n
  idSource : s.idSource = .none

theorem textSetting_eq_ok_iff {key : String} {s : Setting} {t : Text} :
    textSetting key s = .ok t ↔ s = .text t := by
  cases s with
  | _ => simp [textSetting]

theorem timeoutSetting_eq_ok_iff {s : Setting} {n : Int} :
    timeoutSetting s = .ok n ↔ s = .integer n := by
  cases s with
  | _ => simp [timeoutSetting]

theorem cacheSetting_eq_ok_iff {s : Setting} {limit : Option Int} :
    cacheSetting s = .ok limit ↔ s = limit.elim .null .integer := by
  cases s with
  | _ => cases limit with
    | _ => simp [cacheSetting]

theorem textSetting_eq_error_iff {key : String} {s : Setting} {e : ConfigError} :
    textSetting key s = .error e ↔ (∀ t, s ≠ .text t) ∧ .notText key.toList s.kind = e := by
  cases s with
  | _ => simp [textSetting]

theorem timeoutSetting_eq_error_iff {s : Setting} {e : ConfigError} :
    timeoutSetting s = .error e ↔ (∀ n, s ≠ .integer n) ∧ .timeoutNotInteger s.display = e := by
  cases s with
  | _ => simp [timeoutSetting]

theorem cacheSetting_eq_error_iff {s : Setting} {e : ConfigError} :
    cacheSetting s = .error e ↔
      s ≠ .null ∧ (∀ n, s ≠ .integer n) ∧ .cacheNotInteger s.display = e := by
  cases s with
  | _ => simp [cacheSetting]

/-- Limits that are positive are written as they are read. -/
theorem elim_map_toNat {limit : Option Int} (h : ¬ limit.any (· < 1) = true) :
    (limit.elim .null .integer : Setting) =
      (limit.map Int.toNat).elim .null fun n => .integer n := by
  cases limit with
  | none => rfl
  | some n =>
    have hn : 1 ≤ n := by simpa using h
    exact congrArg Setting.integer (Int.toNat_of_nonneg (by omega)).symm

theorem elim_map_ofNat (limit : Option Nat) :
    (limit.elim .null fun n => .integer n : Setting) =
      (limit.map Int.ofNat).elim .null .integer := by
  cases limit with
  | none => rfl
  | some n => rfl

theorem map_toNat_map_ofNat (limit : Option Nat) : (limit.map Int.ofNat).map Int.toNat = limit := by
  simp [Function.comp_def]

theorem not_any_map_ofNat_iff {limit : Option Nat} :
    ¬ (limit.map Int.ofNat).any (· < 1) = true ↔ ∀ n, limit = some n → 0 < n := by
  cases limit with
  | none => simp
  | some n =>
    simp only [Option.map_some, Option.any_some, decide_eq_true_eq, Option.some.injEq, forall_eq']
    show ¬ (n : Int) < 1 ↔ 0 < n
    omega

/-- Settings make a configuration exactly if they are given for it and it keeps the rules. -/
theorem ofSettings_eq_ok_iff {s : Settings} {c : Config} :
    ofSettings s = .ok c ↔ IsGiven s c ∧ c.Valid := by
  rw [ofSettings]
  simp only [bind_eq_ok_iff, guard_eq_ok_iff, textSetting_eq_ok_iff, timeoutSetting_eq_ok_iff,
    cacheSetting_eq_ok_iff]
  constructor
  · rintro ⟨name, hname, mode, hmode, n, hn, limit, hlimit, hsource, h⟩
    rw [ofValues] at h
    split at h
    · cases h
    · next storage hstorage =>
      obtain ⟨hjournal, h⟩ := guard_eq_ok_iff.1 h
      obtain ⟨htimeout, h⟩ := guard_eq_ok_iff.1 h
      obtain ⟨hcache, h⟩ := guard_eq_ok_iff.1 h
      cases h
      refine ⟨⟨?_, hmode, ?_, hlimit.trans (elim_map_toNat hcache), by simpa using hsource⟩,
        StorageChoice.name_mem_choices storage, by simpa using hjournal, ?_⟩
      · rw [hname, StorageChoice.ofName?_eq_some_iff.1 hstorage]
      · rw [hn, Int.toNat_of_nonneg (by omega)]
      · intro m hm
        obtain ⟨n, rfl, rfl⟩ := Option.map_eq_some_iff.1 hm
        have hn : 1 ≤ n := by simpa using hcache
        omega
  · rintro ⟨hgiven, hvalid⟩
    refine ⟨_, hgiven.storage, _, hgiven.journalMode, _, hgiven.busyTimeout, _,
      hgiven.cacheLimit.trans (elim_map_ofNat c.cacheLimit), by simp [hgiven.idSource], ?_⟩
    rw [ofValues, StorageChoice.ofName?_eq_some_iff.2 rfl]
    refine guard_eq_ok_iff.2 ⟨by simpa using hvalid.journalMode, ?_⟩
    refine guard_eq_ok_iff.2 ⟨by omega, ?_⟩
    refine guard_eq_ok_iff.2 ⟨not_any_map_ofNat_iff.2 hvalid.cacheLimit, ?_⟩
    rw [map_toNat_map_ofNat]
    rfl

/-- Where the texts are texts, a field that should be a number is looked at next. -/
theorem ofSettings_eq_error {s : Settings} {name mode : Text} {e : ConfigError}
    (hstorage : s.storage.getD (.text "auto".toList) = .text name)
    (hjournal : s.journalMode.getD (.text "wal".toList) = .text mode)
    (h : timeoutSetting (s.busyTimeout.getD (.integer 5000)) = .error e ∨
      ∃ n, timeoutSetting (s.busyTimeout.getD (.integer 5000)) = .ok n ∧
        cacheSetting (s.cacheLimit.getD .null) = .error e) : ofSettings s = .error e := by
  refine bind_eq_error_iff.2 (.inr ⟨name, textSetting_eq_ok_iff.2 hstorage, ?_⟩)
  refine bind_eq_error_iff.2 (.inr ⟨mode, textSetting_eq_ok_iff.2 hjournal, ?_⟩)
  refine bind_eq_error_iff.2 (h.imp_right fun ⟨n, hn, hlimit⟩ => ⟨n, hn, ?_⟩)
  exact bind_eq_error_iff.2 (.inl hlimit)

/-- Values of the right kinds are refused for what they are. -/
theorem ofValues_error {name mode : Text} {timeout : Int} {limit : Option Int} {e : ConfigError}
    (h : ofValues name mode timeout limit = .error e) :
    e = .unknownStorage name ∨ e = .unknownJournal mode ∨ e = .negativeTimeout ∨
      e = .cacheNotPositive := by
  rw [ofValues] at h
  split at h
  · cases h
    exact .inl rfl
  · rcases guard_eq_error_iff.1 h with ⟨-, rfl⟩ | ⟨-, h⟩
    · exact .inr (.inl rfl)
    rcases guard_eq_error_iff.1 h with ⟨-, rfl⟩ | ⟨-, h⟩
    · exact .inr (.inr (.inl rfl))
    rcases guard_eq_error_iff.1 h with ⟨-, rfl⟩ | ⟨-, h⟩
    · exact .inr (.inr (.inr rfl))
    cases h

/-! ### Environments -/

/-- The fields of a configuration are what the variables of an environment say, in small letters,
or else those of another configuration. -/
structure IsOverlaid (base : Config) (env : Environment) (c : Config) : Prop where
  storage : c.storage.name = ((env.get? "SQLDOC_ENCODING").map Text.lower).getD base.storage.name
  journalMode : c.journalMode =
    ((env.get? "SQLDOC_JOURNAL_MODE").map Text.lower).getD base.journalMode
  busyTimeout : match env.get? "SQLDOC_BUSY_TIMEOUT_MS" with
    | none => c.busyTimeout = base.busyTimeout
    | some t => Integer.ofText t = .ok c.busyTimeout
  cacheLimit : c.cacheLimit = base.cacheLimit

theorem timeout?_eq_ok_iff {env : Environment} {key : String} {r : Option Setting} :
    env.timeout? key = .ok r ↔
      match env.get? key with
      | none => r = none
      | some t => ∃ n, Integer.ofText t = .ok n ∧ r = some (.integer n) := by
  rw [Environment.timeout?]
  cases env.get? key with
  | none => simp [eq_comm]
  | some t =>
    dsimp only
    split
    · next n hn => simp [hn, eq_comm]
    · next e he => simp [he]

/-- A variable that names something goes before the name that is there. -/
theorem getD_name?_or (env : Environment) (key : String) (t : Text) (s : Setting) :
    ((env.name? key).or (some (.text t))).getD s =
      .text (((env.get? key).map Text.lower).getD t) := by
  rw [Environment.name?]
  cases env.get? key with
  | none => rfl
  | some u => rfl

theorem elim_limit_inj {m n : Option Nat} :
    (m.elim .null fun n => .integer n : Setting) = n.elim .null (fun n => .integer n) ↔ m = n := by
  cases m with
  | none => cases n with
    | none => simp
    | some n => simp
  | some m => cases n with
    | none => simp
    | some n =>
      simp only [Option.elim_some, Setting.integer.injEq, Int.natCast_inj, Option.some.injEq]

theorem getD_cacheLimit (c : Config) :
    c.settings.cacheLimit.getD .null = c.cacheLimit.elim .null fun n => .integer n := by
  cases h : c.cacheLimit with
  | _ => simp [settings, h]

/-- The settings of a configuration with those of an environment laid over them, the timeout read
already. -/
def overlaid (base : Config) (env : Environment) (timeout : Option Setting) : Settings :=
  { base.settings with
    storage := (env.name? "SQLDOC_ENCODING").or base.settings.storage
    journalMode := (env.name? "SQLDOC_JOURNAL_MODE").or base.settings.journalMode
    busyTimeout := timeout.or base.settings.busyTimeout }

/-- An environment is laid over a configuration exactly if what its variables say and the other
fields of the configuration keep the rules. -/
theorem overlay_eq_ok_iff {base : Config} {env : Environment} {c : Config} :
    base.overlay env = .ok c ↔ IsOverlaid base env c ∧ c.Valid := by
  have hoverlay : base.overlay env = .ok c ↔ ∃ timeout,
      env.timeout? "SQLDOC_BUSY_TIMEOUT_MS" = .ok timeout ∧
        IsGiven (overlaid base env timeout) c ∧ c.Valid := by
    simp only [← ofSettings_eq_ok_iff]
    exact bind_eq_ok_iff
  rw [hoverlay]
  constructor
  · rintro ⟨timeout, htimeout, hgiven, hvalid⟩
    refine ⟨⟨?_, ?_, ?_, ?_⟩, hvalid⟩
    · exact Setting.text.inj (hgiven.storage.symm.trans (getD_name?_or env _ _ _))
    · exact Setting.text.inj (hgiven.journalMode.symm.trans (getD_name?_or env _ _ _))
    · have hbusy := hgiven.busyTimeout
      rw [timeout?_eq_ok_iff] at htimeout
      cases hget : env.get? "SQLDOC_BUSY_TIMEOUT_MS" with
      | none =>
        rw [hget] at htimeout
        obtain rfl : timeout = none := htimeout
        exact Int.natCast_inj.1 (Setting.integer.inj hbusy).symm
      | some t =>
        rw [hget] at htimeout
        obtain ⟨n, hn, rfl⟩ := htimeout
        rw [← Setting.integer.inj hbusy]
        exact hn
    · exact (elim_limit_inj.1 ((getD_cacheLimit base).symm.trans hgiven.cacheLimit)).symm
  · rintro ⟨hlaid, hvalid⟩
    have hgiven : ∀ {timeout}, (timeout.or base.settings.busyTimeout).getD (.integer 5000) =
        .integer c.busyTimeout → IsGiven (overlaid base env timeout) c := fun hbusy =>
      { storage := (getD_name?_or env _ _ _).trans (congrArg Setting.text hlaid.storage.symm)
        journalMode :=
          (getD_name?_or env _ _ _).trans (congrArg Setting.text hlaid.journalMode.symm)
        busyTimeout := hbusy
        cacheLimit := (getD_cacheLimit base).trans (elim_limit_inj.2 hlaid.cacheLimit.symm)
        idSource := rfl }
    have hbusy := hlaid.busyTimeout
    simp only [timeout?_eq_ok_iff]
    cases hget : env.get? "SQLDOC_BUSY_TIMEOUT_MS" with
    | none =>
      rw [hget] at hbusy
      exact ⟨none, rfl, hgiven (congrArg (Setting.integer ∘ Int.ofNat) hbusy.symm), hvalid⟩
    | some t =>
      rw [hget] at hbusy
      exact ⟨some (.integer c.busyTimeout), ⟨_, hbusy, rfl⟩, hgiven rfl, hvalid⟩

end Config

end DocTable
