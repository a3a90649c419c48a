import AccessControl.Toml
import AccessControl.Value

/-!
# Settings as their sources write them

A source of settings can write numbers that no attribute can hold: a float that is not finite,
which becomes null among injected values, and numbers that are too large, which are refused there. A
number that is larger still is refused even where nothing is done with it. In layers that are laid
over each other no number is too large, or else there is no layer, and a truth value may also be
written as a number or as a word.
-/

namespace AccessControl

/-- A number as a source of settings writes it. -/
inductive SourceNumber where
  /-- A number that attributes can hold. -/
  | finite (value : Number)
  /-- An infinity, or what is no number. -/
  | nonFinite
  /-- An integer of more than 64 bits, but no more than 128. -/
  | oversized
  /-- An integer of more than 128 bits, or a float beyond the largest double. -/
  | unreadable
  deriving DecidableEq

/-- A value as a source of settings writes it. -/
abbrev Setting := Value SourceNumber

namespace SourceNumber

/-- The value that is injected for a number. -/
def toJson? : SourceNumber → Option Json
  | .finite value => some (.number value)
  | .nonFinite => some .null
  | .oversized | .unreadable => none

/-- What is left of a number that is passed over, if it can be. -/
def passedOver? : SourceNumber → Option Json
  | .unreadable => none
  | _ => some .null

/-- The number of an integer of a document. -/
def ofInteger (value : Int) : SourceNumber :=
  match Number.ofInt? value with
  | some number => .finite number
  | none =>
    if -(1 <<< 127 : Nat) ≤ value ∧ value < (1 <<< 128 : Nat) then .oversized else .unreadable

/-- The number of a float of a document. -/
def ofFloat : Option Double → SourceNumber
  | some value => .finite (.double value)
  | none => .nonFinite

/-- Whether a number is zero. -/
def isZero : SourceNumber → Bool
  | .finite (.integer value _) => value == 0
  | .finite (.double value) => value.isZero
  | _ => false

end SourceNumber

namespace Setting

/-- Whether every number in a setting can at least be passed over. -/
def isReadable (setting : Setting) : Bool :=
  (setting.replaceNumbers? SourceNumber.passedOver?).isSome

/-- A member as it is looked at: of a list in place of the evaluation settings, which are a record
with one field, only the first item. -/
def trimmedMember : String × Setting → String × Setting
  | ("evaluation", .array items) => ("evaluation", .array (items.take 1))
  | member => member

/-- A setting without what a configuration never looks at. -/
def trimmed : Setting → Setting
  | .object members => .object (members.map trimmedMember)
  | other => other

/-- The truth value that a word stands for, in letters of either case. -/
def ofWord? (word : String) : Option Bool :=
  match String.ofList (word.toList.map Char.toLower) with
  | "1" | "true" | "on" | "yes" => some true
  | "0" | "false" | "off" | "no" => some false
  | _ => none

/-- The truth value that a setting stands for: itself, whether a number is other than zero, or what
a word says. -/
def flag? : Setting → Option Bool
  | .bool value => some value
  | .number value => some (!value.isZero)
  | .string word => ofWord? word
  | _ => none

end Setting

namespace Toml

/-- The name of the one member that a moment has as a record. -/
def momentName : String := "$__toml_private_datetime"

/-- A moment as a record. -/
def momentRecord (moment : Moment) : Setting :=
  .object [(momentName, .string (String.ofList moment.complete.text))]

/-- A moment as its text. -/
def momentText (moment : Moment) : Setting := .string (String.ofList moment.text)

/-- The value of the member whose name marks a record as a moment, if that is the first member. -/
def marked? : List (String × Toml) → Option Toml
  | (name, value) :: _ => if name = momentName then some value else none
  | [] => none

/-- The moment that a text spells, as its text. -/
def spelledMoment? : Toml → Option Setting
  | .string text => (Moment.read? text.toList).map momentText
  | _ => none

mutual

/-- The setting that a value is in a document of its own. -/
def toSetting : Toml → Setting
  | .string text => .string text
  | .integer value => .number (.ofInteger value)
  | .float value => .number (.ofFloat value)
  | .excessive => .number .unreadable
  | .boolean value => .bool value
  | .moment value => momentRecord value
  | .array items => .array (itemSettings items)
  | .table entries => .object (entrySettings entries)

/-- The settings that the items of an array are. -/
def itemSettings : List Toml → List Setting
  | [] => []
  | item :: rest => toSetting item :: itemSettings rest

/-- The settings that the entries of a table are. -/
def entrySettings : List (String × Toml) → List (String × Setting)
  | [] => []
  | (name, value) :: rest => (name, toSetting value) :: entrySettings rest

end

mutual

/-- The setting that a value is in a layer. Integers have 64 bits with a sign, floats are not beyond
the largest double, and a record that is marked as a moment has to spell one. -/
def layered? : Toml → Option Setting
  | .string text => some (.string text)
  | .integer value => (Number.ofSigned? value).map (fun number => .number (.finite number))
  | .float value => some (.number (.ofFloat value))
  | .excessive => none
  | .boolean value => some (.bool value)
  | .moment value => some (momentText value)
  | .array items => (layeredItems? items).map .array
  | .table entries =>
    match marked? entries with
    | some value => spelledMoment? value
    | none => (layeredEntries? entries).map .object

/-- The settings that the items of an array are in a layer. -/
def layeredItems? : List Toml → Option (List Setting)
  | [] => some []
  | item :: rest => do
    let setting ← layered? item
    let settings ← layeredItems? rest
    some (setting :: settings)

/-- The settings that the entries of a table are in a layer. -/
def layeredEntries? : List (String × Toml) → Option (List (String × Setting))
  | [] => some []
  | (name, value) :: rest => do
    let setting ← layered? value
    let settings ← layeredEntries? rest
    some ((name, setting) :: settings)

end

end Toml

end AccessControl
