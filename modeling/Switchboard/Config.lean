import Switchboard.Duration
import Switchboard.Text.Numeral
import Switchboard.Text.Quoted
/-!
# Configuration

Three numbers govern a run: how many calls may be inside the engine at once, how long the run
may take, and into how many shards the pending requests are split. None of them may be zero.
-/
namespace Switchboard

/-- The three numbers. -/
inductive Setting where
  | jobPoolSize
  | runTimeoutMs
  | pendingShards
deriving DecidableEq

namespace Setting

/-- All settings, in the order in which they are read. -/
def all : List Setting := [jobPoolSize, runTimeoutMs, pendingShards]

/-- The key of a setting in a document. -/
def key : Setting → String
  | jobPoolSize => "job_pool_size"
  | runTimeoutMs => "run_timeout_ms"
  | pendingShards => "pending_shards"

/-- The environment variable of a setting. -/
def envName : Setting → String
  | jobPoolSize => "TESTER_JOB_POOL_SIZE"
  | runTimeoutMs => "TESTER_RUN_TIMEOUT_MS"
  | pendingShards => "TESTER_PENDING_SHARDS"

/-- The setting with a given key. -/
def ofKey? (key : String) : Option Setting := all.find? (·.key = key)

end Setting

/-- A configuration; the defaults hold where nothing else is said. -/
structure Config where
  jobPoolSize : UInt64 := 5
  runTimeoutMs : UInt64 := 30000
  pendingShards : UInt64 := 16
deriving DecidableEq

/-- Why there is no configuration. -/
inductive ConfigError where
  | noPermits
  | noShards
  | noTime
  | malformed
  | notANumber (setting : Setting) (raw : String) (cause : Text.NumeralError)
deriving DecidableEq

namespace ConfigError

/-- The error in words, followed by its cause where that has words too. -/
def texts : ConfigError → List String
  | noPermits => ["job_pool_size must be at least 1"]
  | noShards => ["pending_shards must be at least 1"]
  | noTime => ["run_timeout_ms must be positive"]
  | malformed => ["parse tester config"]
  | notANumber setting raw cause =>
    [setting.envName ++ "=" ++ Text.quoted raw ++ " is not a valid number", cause.text]

end ConfigError

namespace Config

/-- The value of a setting. -/
def get (c : Config) : Setting → UInt64
  | .jobPoolSize => c.jobPoolSize
  | .runTimeoutMs => c.runTimeoutMs
  | .pendingShards => c.pendingShards

/-- The configuration with one setting replaced. -/
def set (c : Config) (setting : Setting) (value : UInt64) : Config :=
  match setting with
  | .jobPoolSize => { c with jobPoolSize := value }
  | .runTimeoutMs => { c with runTimeoutMs := value }
  | .pendingShards => { c with pendingShards := value }

/-- Accepts a configuration without a zero; otherwise tells the first that is found. -/
def validate (c : Config) : Except ConfigError Config :=
  if c.jobPoolSize = 0 then .error .noPermits
  else if c.pendingShards = 0 then .error .noShards
  else if c.runTimeoutMs = 0 then .error .noTime
  else .ok c

/-- How long a run may take. -/
def runTimeout (c : Config) : Duration := .ofMillis c.runTimeoutMs

/-- The configuration with another time limit: its whole milliseconds, at least one, of which
the low 64 bits are kept. -/
def withRunTimeout (c : Config) (d : Duration) : Config :=
  { c with runTimeoutMs := (max d.millis 1).toUInt64 }

/-- The defaults with some settings replaced, one after the other. -/
def replacing (settings : List (Setting × UInt64)) : Config :=
  settings.foldl (fun c s => c.set s.1 s.2) {}

/-- Replaces settings of the defaults, then validates. -/
def ofSettings (settings : List (Setting × UInt64)) : Except ConfigError Config :=
  (replacing settings).validate

@[simp] theorem get_set (c : Config) (s : Setting) (v : UInt64) : (c.set s v).get s = v := by
  cases s <;> rfl

theorem get_set_of_ne (c : Config) {s t : Setting} (v : UInt64) (h : t ≠ s) :
    (c.set s v).get t = c.get t := by
  cases s <;> cases t <;> simp_all [get, set]

end Config
end Switchboard
