import AccessControl.Value

/-!
# Attribute bags

A request is described by four bags of attributes: of the user who asks, of the action that is asked
for, of the environment and of the resource. A bag holds any value, usually an object, and is null
where nothing is known.
-/

namespace AccessControl

/-- One of the four bags. -/
inductive Bag where
  /-- The attributes of the requesting user. -/
  | user
  /-- The attributes of the requested action. -/
  | action
  /-- The attributes of the environment of the request. -/
  | environment
  /-- The attributes of the resource. -/
  | resource
  deriving DecidableEq, Repr

namespace Bag

/-- The word for a bag in rules and in declarations. -/
def word : Bag → String
  | .user => "user"
  | .action => "action"
  | .environment => "env"
  | .resource => "resource"

/-- The bag that a word stands for. -/
def ofWord? (word : String) : Option Bag :=
  match word with
  | "user" => some .user
  | "action" => some .action
  | "env" => some .environment
  | "resource" => some .resource
  | _ => none

end Bag

/-- The attributes of one request, bag by bag. -/
structure Attributes where
  /-- The bag of the user. -/
  user : Json := .null
  /-- The bag of the action. -/
  action : Json := .null
  /-- The bag of the environment. -/
  environment : Json := .null
  /-- The bag of the resource. -/
  resource : Json := .null
  deriving DecidableEq, Inhabited

namespace Attributes

/-- The content of a bag. -/
def bag (attributes : Attributes) : Bag → Json
  | .user => attributes.user
  | .action => attributes.action
  | .environment => attributes.environment
  | .resource => attributes.resource

/-- The attributes with the content of one bag replaced. -/
def withBag (attributes : Attributes) (bag : Bag) (content : Json) : Attributes :=
  match bag with
  | .user => { attributes with user := content }
  | .action => { attributes with action := content }
  | .environment => { attributes with environment := content }
  | .resource => { attributes with resource := content }

end Attributes

end AccessControl
