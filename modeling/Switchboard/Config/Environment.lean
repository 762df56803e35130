import Switchboard.Config
/-!
# Configuration from environment variables

Each setting has a variable. A variable that is not set, or whose bytes are no UTF-8 text, leaves
the default; any other must hold a numeral, with or without blanks around it.
-/
namespace Switchboard

/-- The values of environment variables, as bytes. -/
abbrev Environment := String → Option ByteArray

namespace Environment

/-- The text of a variable. -/
def text? (e : Environment) (name : String) : Option String :=
  (e name).bind String.fromUTF8?

end Environment

namespace Config

/-- Takes the variable of one setting. -/
def override (e : Environment) (c : Config) (setting : Setting) : Except ConfigError Config :=
  match e.text? setting.envName with
  | none => .ok c
  | some raw =>
    match Text.readNumeral (Text.trim raw) with
    | .ok value => .ok (c.set setting value)
    | .error cause => .error (.notANumber setting raw cause)

/-- Reads a configuration from the environment. -/
def ofEnvironment (e : Environment) : Except ConfigError Config := do
  (← Setting.all.foldlM (override e) {}).validate

end Config
end Switchboard
