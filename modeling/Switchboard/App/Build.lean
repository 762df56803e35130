import Switchboard.App.State
import Switchboard.Json.Reader
/-!
# Building an application

An application is built from a configuration, the name of the extension under test and its
properties, a JSON object. It begins with open routes in both directions and the initialisation
of the extension as the engine's first job.
-/
namespace Switchboard

/-- Why a text holds no properties. -/
inductive PropertyError where
  | malformed
  | notAnObject
deriving DecidableEq

/-- The error in words. -/
def PropertyError.text : PropertyError → String
  | malformed => "property json is malformed"
  | notAnObject => "property json must be an object"

/-- Reads properties; a blank text holds none. -/
def readProperties (text : String) : Except PropertyError Json :=
  if Text.isBlankText text then .ok (.object [])
  else
    match Json.read? text with
    | none => .error .malformed
    | some v => if v.isObject then .ok v.settle else .error .notAnObject

/-- Why there is no application. -/
inductive BuildError where
  | config (e : ConfigError)
  | noExtension
  | emptyName
  | properties (name : String) (e : PropertyError)
deriving DecidableEq

/-- The error in words, followed by its causes. -/
def BuildError.texts : BuildError → List String
  | config e => e.texts
  | noExtension => ["no extension under test; call set_test_mode_single"]
  | emptyName => ["extension name must not be empty"]
  | properties name e => ["properties for extension " ++ name, e.text]

namespace App

/-- An application for an extension of a given name, before any job has run. -/
def ofParts (config : Config) (name : String) (properties : Json) (extension : Extension) : App :=
  { config, name, extension
    router :=
      { routes := [(.extension name, .engine), (.tester, .tester)]
        table := .ofShards config.pendingShards.toNat }
    testerWorker := { name := "tester" }
    engineWorker := { name := "ext-" ++ name, queue := [.job (.initExtension properties)] }
    pool := .ofCapacity config.jobPoolSize.toNat }

/-- Builds an application. The configuration is looked at first, then the name, then the
properties. -/
def build (config : Config) (name : Option String) (properties : String) (extension : Extension) :
    Except BuildError App :=
  match config.validate, name, readProperties properties with
  | .error e, _, _ => .error (.config e)
  | .ok _, none, _ => .error .noExtension
  | .ok _, some name, properties =>
    if name = "" then .error .emptyName
    else
      match properties with
      | .error e => .error (.properties name e)
      | .ok properties => .ok (ofParts config name properties extension)

end App
end Switchboard
