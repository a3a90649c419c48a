import AccessControl.Config.Declaration
import AccessControl.Config.Setting
import AccessControl.Toml.Document

/-!
# Configurations in a file of their own

A configuration can be read from one document, with nothing laid over it. The document has to be
there in UTF-8, it has to declare a configuration, and the configuration has to pass its checks.
-/

namespace AccessControl

/-- Why a file gives no configuration. -/
inductive FileFault where
  /-- There is no text to be read. -/
  | unreadable
  /-- The text is no document or declares no configuration. -/
  | malformed
  /-- The configuration is refused. -/
  | refused (fault : ConfigFault)
  deriving DecidableEq

namespace Config

/-- The configuration that a document declares. -/
def ofDocument? (text : String) : Option Config := do
  let document ← Toml.read? false text.toList
  let setting := document.toSetting.trimmed
  if setting.isReadable then ofValue? Value.bool? SourceNumber.toJson? setting else none

/-- The configuration in a file with this content; without content there is no file. -/
def ofFile (content : Option ByteArray) : Except FileFault Config :=
  match content.bind String.fromUTF8? with
  | none => .error .unreadable
  | some text =>
    match ofDocument? text with
    | none => .error .malformed
    | some config =>
      match config.fault? with
      | some fault => .error (.refused fault)
      | none => .ok config

end Config

end AccessControl
