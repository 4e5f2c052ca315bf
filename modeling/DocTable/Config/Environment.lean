import DocTable.Config.Basic
import DocTable.Json.Integer
/-!
# DocTable.Config.Environment

Settings from environment variables, laid over a configuration. An empty variable counts as
absent, and the names of choices may be written in capitals.
-/

namespace DocTable

/-- The variables of an environment. -/
abbrev Environment := List (Text × Text)

namespace Environment

/-- The value of a variable, unless it is empty. -/
def get? (env : Environment) (name : String) : Option Text :=
  ((env.find? fun e => e.1 = name.toList).map (·.2)).filter (!·.isEmpty)

/-- The setting of a variable that names something. -/
def name? (env : Environment) (key : String) : Option Setting :=
  (env.get? key).map fun t => .text (Text.lower t)

/-- The setting of a variable that has to be a number. -/
def timeout? (env : Environment) (key : String) : Except ConfigError (Option Setting) :=
  match env.get? key with
  | none => .ok none
  | some t =>
    match Integer.ofText t with
    | .ok n => .ok (some (.integer n))
    | .error _ => .error (.timeoutText t)

end Environment

namespace Config

/-- The configuration with the variables of an environment laid over it. -/
def overlay (base : Config) (env : Environment) : Except ConfigError Config := do
  let timeout ← env.timeout? "SQLDOC_BUSY_TIMEOUT_MS"
  let s := base.settings
  ofSettings
    { s with
      storage := (env.name? "SQLDOC_ENCODING").or s.storage
      journalMode := (env.name? "SQLDOC_JOURNAL_MODE").or s.journalMode
      busyTimeout := timeout.or s.busyTimeout }

end Config

end DocTable
