import AccessControl.Config.Setting

/-!
# Layers of settings

Settings are laid over each other. An object is laid over what is there member by member, and any
other value replaces it. The names at the top of a layer are paths: names with points between them,
and indexes in brackets, with blanks around them if need be, which count from the end if they are
negative. What is missing on a path comes about, and what is in the way is replaced.
-/

namespace AccessControl

namespace Setting

/-- One step of a path. -/
inductive Step where
  /-- Into a member of an object. -/
  | member (name : String)
  /-- Into an item of a list. -/
  | item (index : Int)
  deriving DecidableEq, Repr

/-- The characters of the names in a path. -/
def isPathPart (c : Char) : Bool := c.isAlphanum || c == '_' || c == '-'

/-- The step to a name at the head of a text, and the text behind it. -/
def nameStep? (text : List Char) : Option (Step × List Char) :=
  match text.takeWhile isPathPart with
  | [] => none
  | name => some (.member (String.ofList name), text.dropWhile isPathPart)

/-- The blanks around the indexes in a path. -/
def isPathBlank (c : Char) : Bool := c == ' ' || c == '\t'

/-- The step to an index behind its opening bracket, and the text behind the closing one. -/
def indexStep? (text : List Char) : Option (Step × List Char) :=
  let (negative, text) := match text.dropWhile isPathBlank with
    | '-' :: rest => (true, rest)
    | other => (false, other)
  let (digits, rest) := Decimal.spanDigits text
  let value : Int := Decimal.valueOf digits
  let index := if negative then -value else value
  match rest.dropWhile isPathBlank with
  | ']' :: rest =>
    if !digits.isEmpty && decide (Number.Signed index) then some (.item index, rest) else none
  | _ => none

/-- The further steps of a path, at most as many as the fuel says. -/
def moreSteps? : Nat → List Char → Option (List Step)
  | _, [] => some []
  | 0, _ => none
  | fuel + 1, c :: text => do
    let (step, rest) ← if c = '.' then nameStep? text else if c = '[' then indexStep? text else none
    let steps ← moreSteps? fuel rest
    some (step :: steps)

/-- The steps of the path that a text spells. A text that spells none is a name as it is. -/
def stepsOf (key : String) : List Step :=
  let steps := do
    let (first, rest) ← nameStep? key.toList
    let steps ← moreSteps? rest.length rest
    some (first :: steps)
  steps.getD [.member key]

/-- The members of an object; other values have none. -/
def members : Setting → List (String × Setting)
  | .object members => members
  | _ => []

/-- The items of a list; other values have none. -/
def items : Setting → List Setting
  | .array items => items
  | _ => []

/-- A setting with the member of a name changed; a missing one is null before the change. -/
def alterMember (name : String) (change : Setting → Setting) (setting : Setting) : Setting :=
  let old := (NameMap.find name setting.members).getD .null
  .object (NameMap.place name (change old) setting.members)

/-- A setting with the item at an index changed. Missing items are filled up with null: behind the
last one, or before the first one if the index counts from the end. -/
def alterItem (index : Int) (change : Setting → Setting) (setting : Setting) : Setting :=
  let items := setting.items
  match index with
  | .ofNat position =>
    let filled := items ++ List.replicate (position + 1 - items.length) Value.null
    .array (filled.modify position change)
  | .negSucc before =>
    let filled := List.replicate (before + 1 - items.length) Value.null ++ items
    .array (filled.modify (filled.length - (before + 1)) change)

/-- A setting with what is at the end of a path changed. -/
def alter (change : Setting → Setting) : List Step → Setting → Setting
  | [], setting => change setting
  | .member name :: steps, setting => setting.alterMember name (alter change steps)
  | .item index :: steps, setting => setting.alterItem index (alter change steps)

mutual

/-- What is there with another setting laid over it. An object is laid over whatever is no object as
over an empty one. -/
def overlay (incoming present : Setting) : Setting :=
  match incoming with
  | .object members => overlayMembers members (.object present.members)
  | other => other

/-- What is there with members laid over it, one after the other. -/
def overlayMembers (incoming : List (String × Setting)) (present : Setting) : Setting :=
  match incoming with
  | [] => present
  | (name, value) :: rest => overlayMembers rest (present.alterMember name (overlay value))

end

end Setting

/-- A layer of settings, each under the text of a path. -/
abbrev Layer := List (String × Setting)

namespace Layer

/-- A setting with a layer laid over it. -/
def applyTo (layer : Layer) (present : Setting) : Setting :=
  layer.foldl
    (fun present (key, value) =>
      Setting.alter (Setting.overlay value) (Setting.stepsOf key) present)
    present

/-- The layers laid over each other, the first one at the bottom. -/
def stack (layers : List Layer) : Setting :=
  layers.foldl (fun present layer => layer.applyTo present) (.object [])

end Layer

end AccessControl
