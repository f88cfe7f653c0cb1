import Colloquy.Settings
import Colloquy.Settings.Environment
import Colloquy.Settings.Layered
import Colloquy.Yaml.Document

/-!
# Loading settings

Settings come from three sources: the built-in ones of a service in development, a file in YAML, and
environment variables. Each is laid over the one before, so a variable wins over the file, and the
file over what is built in; only what is named is replaced. A file that is missing or empty names
nothing.
-/

set_option autoImplicit false

namespace Colloquy

/-- Where a piece of data comes from. -/
inductive SettingsSource
  | builtIn
  /-- From the file of a name. -/
  | file (name : String)
  | environment
  deriving DecidableEq, Repr, Inhabited

namespace SettingsSource

/-- The name of a step of a path. -/
def stepName : Json.Step → String
  | .member name => name
  | .index i => toString i
  | .nameless => ""

/-- The place of a path, as it is written in the source. -/
def key (source : SettingsSource) (path : List Json.Step) : String :=
  let steps := path.map stepName
  match source with
  | environment => ".".intercalate (steps.map String.toUpper)
  | builtIn | file _ => ".".intercalate ("default" :: steps)

/-- The way to a file, without the steps that lead nowhere. -/
def wayTo (name : String) : String :=
  if name.startsWith "/" then name
  else "/".intercalate ((name.splitOn "/").filter fun step => step ≠ "" && step ≠ ".")

/-- What messages call a source. -/
def describe : SettingsSource → String
  | builtIn => "AppConfig"
  | file name => wayTo name ++ " YAML file"
  | environment => "`" ++ Environment.mark ++ "` environment variable(s)"

end SettingsSource

/-- Why settings cannot be loaded. -/
inductive LoadFailure
  /-- The file cannot be read, or is no group. -/
  | unusableFile (name reason : String)
  /-- A piece of data is not of the form that is wanted. -/
  | misfit (source : SettingsSource) (misfit : Misfit)
  deriving Inhabited

namespace LoadFailure

/-- The wording of the reason alone. -/
def reason : LoadFailure → String
  | unusableFile _ reason => reason
  | misfit _ m => m.cause.message

/-- The way to the piece of data. -/
def path : LoadFailure → List String
  | unusableFile .. => []
  | misfit _ m => m.path.map SettingsSource.stepName

/-- The wording of a failure. -/
def message : LoadFailure → String
  | unusableFile name reason => reason ++ " in " ++ (SettingsSource.file name).describe
  | misfit source m =>
    m.cause.message ++
      (if m.path.isEmpty then "" else " for key " ++ Quoted.quote (source.key m.path)) ++
      " in " ++ source.describe

end LoadFailure

namespace Settings

/-- The settings of a file. -/
def ofFile (name : String) (content : Bytes) : Except LoadFailure Datum :=
  (Yaml.read content).mapError fun flaw => .unusableFile name flaw.message

/-- The layers of settings, each to be laid over the one before. -/
abbrev Layers := List (SettingsSource × Datum)

/-- The layer that a piece of data at the end of a path comes from: the uppermost one that has
something there. -/
def sourceOf (layers : Layers) (path : List Json.Step) : SettingsSource :=
  match layers.reverse.find? fun layer => (layer.2.at? path).isSome with
  | some layer => layer.1
  | none => .builtIn

/-- The settings of layers that lie over one another. -/
def ofLayers (layers : Layers) : Except LoadFailure Settings :=
  match Encoded.ofDatum (layers.foldl (fun lower layer => lower.overlay layer.2) (.group [])) with
  | .ok settings => .ok settings
  | .error m => .error (.misfit (sourceOf layers m.path) m)

/-- Loads settings from a file, if there is one, and environment variables. -/
def load (file : Option (String × Bytes)) (vars : List (String × String)) :
    Except LoadFailure Settings := do
  let fileLayer ← match file with
    | none => .ok []
    | some (name, content) => (ofFile name content).map fun d => [(SettingsSource.file name, d)]
  ofLayers
    ([(.builtIn, Encoded.toDatum development)] ++ fileLayer ++
      [(.environment, Environment.settingsOf vars)])

end Settings

end Colloquy
