import AccessControl.Config.Declaration
import AccessControl.Config.Environment
import AccessControl.Toml.Document

/-!
# Configurations from several sources

A configuration is put together from what is built in, the user's file, the project's file, the file
of local overrides and the environment, each laid over the ones before. A file that is not there
adds nothing. Every file has to be a document without numbers that are too large, the whole has to
declare a configuration, and the configuration has to pass its checks.
-/

namespace AccessControl

/-- Where the parts of a configuration come from. -/
structure Sources where
  /-- The user's file. -/
  user : Option String := none
  /-- The project's file. -/
  project : Option String := none
  /-- The file of local overrides. -/
  overrides : Option String := none
  /-- The variables of the environment. -/
  environment : NameMap String := .empty
  /-- The word that the names of the variables start with. -/
  word : String := "WARRANT"

/-- Why sources give no configuration. -/
inductive LoadFault where
  /-- A file is no document. -/
  | malformed
  /-- The settings declare no configuration. -/
  | undeclared
  /-- The configuration is refused. -/
  | refused (fault : ConfigFault)
  deriving DecidableEq

namespace LoadFault

/-- The text of a fault. -/
def message : LoadFault → String
  | .malformed => "Failed to build configuration"
  | .undeclared => "Failed to deserialize configuration"
  | .refused _ => "Configuration failed validation"

end LoadFault

namespace Sources

/-- What is built in. -/
def builtIn : Layer := [("evaluation", ({} : Settings).toValue)]

/-- The layer of a document, in which dotted keys adopt the tables that headers imply. -/
def layerOf? (text : String) : Option Layer := do
  let document ← Toml.read? true text.toList
  match document.layered? with
  | some (.object members) => some members
  | _ => none

/-- The layer of a file, which is empty if there is no file. -/
def fileLayer? : Option String → Option Layer
  | none => some []
  | some text => layerOf? text

/-- All layers, the lowest one first. -/
def layers? (sources : Sources) : Option (List Layer) := do
  let user ← fileLayer? sources.user
  let project ← fileLayer? sources.project
  let overrides ← fileLayer? sources.overrides
  some [builtIn, user, project, overrides, Environment.layer sources.word sources.environment]

end Sources

namespace Config

/-- The configuration that settings declare. -/
def ofSetting? (setting : Setting) : Option Config :=
  ofValue? Setting.flag? SourceNumber.toJson? setting.trimmed

/-- The configuration that sources give. -/
def load (sources : Sources) : Except LoadFault Config :=
  match sources.layers? with
  | none => .error .malformed
  | some layers =>
    match ofSetting? (Layer.stack layers) with
    | none => .error .undeclared
    | some config =>
      match config.fault? with
      | some fault => .error (.refused fault)
      | none => .ok config

/-- The configuration that sources give, or that without any settings if they give none. -/
def loadOrDefault (sources : Sources) : Config :=
  match load sources with
  | .ok config => config
  | .error _ => {}

end Config

end AccessControl
