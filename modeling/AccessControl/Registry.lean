import AccessControl.Value

/-!
# Injected values and functions

Rules may name values and functions of the host. A registry holds them by name, and whoever compiles
a rule takes a snapshot of the entries that the rule names: what is registered or removed afterwards
does not reach the rule.
-/

namespace AccessControl

/-- A function of the host that rules call by name. -/
structure HostFunction where
  /-- The name under which the function is registered. -/
  name : String
  /-- Whether the host asks for a report of every call. -/
  audited : Bool := false
  /-- The result for a list of arguments, or a message that says why there is none. -/
  apply : List Json → Except String Json

/-- An entry of a registry. -/
inductive Injected where
  /-- A value. -/
  | value (value : Json)
  /-- A function. -/
  | function (function : HostFunction)

/-- The injected entries by name. -/
abbrev Registry := NameMap Injected

namespace Registry

/-- Registers a value, replacing what the name stood for. -/
def register (registry : Registry) (name : String) (value : Json) : Registry :=
  registry.insert name (.value value)

/-- Registers a function under its own name, replacing what that stood for. -/
def registerFunction (registry : Registry) (function : HostFunction) : Registry :=
  registry.insert function.name (.function function)

/-- Removes what a name stands for, if anything. -/
def unregister (registry : Registry) (name : String) : Registry := registry.erase name

/-- The entries of those of the names that are registered. -/
def snapshot (registry : Registry) (names : List String) : Registry :=
  registry.restrict (fun name => names.contains name)

end Registry

/-- A call of a host function, as it was made. -/
structure Call where
  /-- The function. -/
  function : HostFunction
  /-- The arguments. -/
  arguments : List Json

namespace Call

/-- What the function answers. -/
def result (call : Call) : Except String Json := call.function.apply call.arguments

end Call

end AccessControl
