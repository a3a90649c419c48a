/-!
# Where configurations are kept

A user's configuration is kept in a directory of the user's configuration home, which is a `.config`
in the home directory unless an absolute path is given for it. A project's configuration and its
local overrides are kept in the project's directory.
-/

namespace AccessControl

namespace Location

/-- A path below another one. -/
def join (left right : String) : String :=
  if left.isEmpty || left.endsWith "/" then left ++ right else left ++ "/" ++ right

/-- Why there is no place for the user's configuration. -/
inductive Fault where
  /-- The user has no home directory. -/
  | noHome
  deriving DecidableEq, Repr

/-- The text of a fault. -/
def Fault.message : Fault → String
  | .noHome => "XDG directory error: Failed to determine user config directory"

/-- The directory of the user's configuration, for a home directory and a configuration home. A
configuration home that is not absolute does not count. -/
def userDirectory (home configHome : Option String) : Except Fault String :=
  match home.filter (fun path => !path.isEmpty) with
  | none => .error .noHome
  | some home =>
    let base := (configHome.filter (fun path => path.startsWith "/")).getD (join home ".config")
    .ok (join base "warrant")

/-- The file of the user's configuration. -/
def userFile (home configHome : Option String) : Except Fault String :=
  (userDirectory home configHome).map (fun directory => join directory "config.toml")

/-- The file of a project's configuration. -/
def projectFile (directory : String) : String := join directory "warrant.toml"

/-- The file of local overrides of a project's configuration. -/
def localFile (directory : String) : String := join directory "warrant.local.toml"

end Location

end AccessControl
