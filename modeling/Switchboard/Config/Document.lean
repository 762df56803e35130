import Switchboard.Config
import Switchboard.Json.Reader
/-!
# Configuration from a document

A document is an object with members for some of the settings, or an array of values for the
first of them. It must hold natural numbers of 64 bits, no unknown or repeated member and no
value too many. What it leaves out keeps its default.
-/
namespace Switchboard.Config

/-- Takes the members of a document, of which those in `seen` came before. -/
def ofMembers? (c : Config) (seen : List Setting) : List (String × Json) → Option Config
  | [] => some c
  | (key, value) :: members => do
    let setting ← Setting.ofKey? key
    if setting ∈ seen then none
    else ofMembers? (c.set setting (← value.natural?)) (setting :: seen) members

/-- Takes the values of a document for settings in their order. -/
def ofItems? (c : Config) : List Setting → List Json → Option Config
  | _, [] => some c
  | [], _ :: _ => none
  | setting :: settings, value :: values => do
    ofItems? (c.set setting (← value.natural?)) settings values

/-- The settings of a document. -/
def ofJson? : Json → Option Config
  | .object members => ofMembers? {} [] members
  | .array items => ofItems? {} Setting.all items
  | .null | .bool _ | .number _ | .string _ => none

/-- Reads a configuration from the text of a document. -/
def ofDocument (text : String) : Except ConfigError Config :=
  match (Json.read? text).bind ofJson? with
  | none => .error .malformed
  | some c => c.validate

end Switchboard.Config
