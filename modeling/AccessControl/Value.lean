import AccessControl.NameMap
import AccessControl.Number

/-!
# Attribute values

Values are null, truth values, numbers, texts, lists and objects. The kind of number is a parameter:
attribute values hold finite numbers, while a configuration source may also hold an infinity. An
object is built with its members in ascending order of their names, each name once.
-/

namespace AccessControl

/-- The kinds of values that messages speak of. -/
inductive Kind where
  /-- The absent value. -/
  | null
  /-- A truth value. -/
  | boolean
  /-- A number. -/
  | number
  /-- A text. -/
  | string
  /-- A list. -/
  | array
  /-- An object. -/
  | object
  deriving DecidableEq, Repr

namespace Kind

/-- The word for a kind. -/
def word : Kind → String
  | .null => "null"
  | .boolean => "boolean"
  | .number => "number"
  | .string => "string"
  | .array => "array"
  | .object => "object"

end Kind

/-- A value whose numbers are taken from `ν`. -/
inductive Value (ν : Type) where
  /-- The absent value. -/
  | null
  /-- A truth value. -/
  | bool (value : Bool)
  /-- A number. -/
  | number (value : ν)
  /-- A text. -/
  | string (value : String)
  /-- A list. -/
  | array (items : List (Value ν))
  /-- An object: named members in ascending order. -/
  | object (members : List (String × Value ν))

/-- Values with finite numbers, which are what attributes hold and rules compute with. -/
abbrev Json := Value Number

namespace Value

variable {ν μ : Type}

instance : Inhabited (Value ν) := ⟨.null⟩

/-- The object of a list of members: of two members with one name the later counts. -/
def ofMembers (members : List (String × Value ν)) : Value ν :=
  .object (NameMap.ofList members).entries

/-- The object of a map. -/
def ofMap (map : NameMap (Value ν)) : Value ν := .object map.entries

/-- The kind of a value. -/
def kind : Value ν → Kind
  | .null => .null
  | .bool _ => .boolean
  | .number _ => .number
  | .string _ => .string
  | .array _ => .array
  | .object _ => .object

mutual

/-- The value with its numbers replaced by values, if there is one for each of them. -/
def replaceNumbers? (f : ν → Option (Value μ)) : Value ν → Option (Value μ)
  | .null => some .null
  | .bool value => some (.bool value)
  | .number value => f value
  | .string value => some (.string value)
  | .array items => (replaceInItems? f items).map .array
  | .object members => (replaceInMembers? f members).map .object

/-- The items of a list with their numbers replaced. -/
def replaceInItems? (f : ν → Option (Value μ)) : List (Value ν) → Option (List (Value μ))
  | [] => some []
  | item :: rest => do
    let item ← replaceNumbers? f item
    let rest ← replaceInItems? f rest
    some (item :: rest)

/-- The members of an object with their numbers replaced. -/
def replaceInMembers? (f : ν → Option (Value μ)) :
    List (String × Value ν) → Option (List (String × Value μ))
  | [] => some []
  | (name, value) :: rest => do
    let value ← replaceNumbers? f value
    let rest ← replaceInMembers? f rest
    some ((name, value) :: rest)

end

mutual

/-- Structural agreement of two values, with numbers compared by a test of their own. -/
def agrees (sameNumber : ν → ν → Bool) : Value ν → Value ν → Bool
  | .null, .null => true
  | .bool a, .bool b => a == b
  | .number a, .number b => sameNumber a b
  | .string a, .string b => a == b
  | .array a, .array b => itemsAgree sameNumber a b
  | .object a, .object b => membersAgree sameNumber a b
  | _, _ => false

/-- Agreement of two lists item by item. -/
def itemsAgree (sameNumber : ν → ν → Bool) : List (Value ν) → List (Value ν) → Bool
  | [], [] => true
  | a :: as, b :: bs => agrees sameNumber a b && itemsAgree sameNumber as bs
  | _, _ => false

/-- Agreement of two lists of members, name by name. -/
def membersAgree (sameNumber : ν → ν → Bool) :
    List (String × Value ν) → List (String × Value ν) → Bool
  | [], [] => true
  | (n, a) :: as, (m, b) :: bs => n == m && agrees sameNumber a b && membersAgree sameNumber as bs
  | _, _ => false

end

mutual

/-- Equality of values can be decided when that of numbers can. -/
def decEq [DecidableEq ν] : (a b : Value ν) → Decidable (a = b)
  | .null, .null => isTrue rfl
  | .bool a, .bool b =>
    if h : a = b then isTrue (h ▸ rfl) else isFalse (fun heq => h (by injection heq))
  | .number a, .number b =>
    if h : a = b then isTrue (h ▸ rfl) else isFalse (fun heq => h (by injection heq))
  | .string a, .string b =>
    if h : a = b then isTrue (h ▸ rfl) else isFalse (fun heq => h (by injection heq))
  | .array a, .array b =>
    match decEqItems a b with
    | isTrue h => isTrue (h ▸ rfl)
    | isFalse h => isFalse (fun heq => h (by injection heq))
  | .object a, .object b =>
    match decEqMembers a b with
    | isTrue h => isTrue (h ▸ rfl)
    | isFalse h => isFalse (fun heq => h (by injection heq))
  | .null, .bool _ | .null, .number _ | .null, .string _ | .null, .array _ | .null, .object _
  | .bool _, .null | .bool _, .number _ | .bool _, .string _ | .bool _, .array _
  | .bool _, .object _
  | .number _, .null | .number _, .bool _ | .number _, .string _ | .number _, .array _
  | .number _, .object _
  | .string _, .null | .string _, .bool _ | .string _, .number _ | .string _, .array _
  | .string _, .object _
  | .array _, .null | .array _, .bool _ | .array _, .number _ | .array _, .string _
  | .array _, .object _
  | .object _, .null | .object _, .bool _ | .object _, .number _ | .object _, .string _
  | .object _, .array _ => isFalse (fun heq => by cases heq)

/-- Equality of lists of values. -/
def decEqItems [DecidableEq ν] : (a b : List (Value ν)) → Decidable (a = b)
  | [], [] => isTrue rfl
  | a :: as, b :: bs =>
    match decEq a b, decEqItems as bs with
    | isTrue h, isTrue hs => isTrue (by rw [h, hs])
    | isFalse h, _ => isFalse (fun heq => h (by injection heq))
    | _, isFalse hs => isFalse (fun heq => hs (by injection heq))
  | [], _ :: _ | _ :: _, [] => isFalse (fun heq => by cases heq)

/-- Equality of lists of members. -/
def decEqMembers [DecidableEq ν] : (a b : List (String × Value ν)) → Decidable (a = b)
  | [], [] => isTrue rfl
  | (n, a) :: as, (m, b) :: bs =>
    if hn : n = m then
      match decEq a b, decEqMembers as bs with
      | isTrue h, isTrue hs => isTrue (by rw [hn, h, hs])
      | isFalse h, _ => isFalse (fun heq => h (by injection heq with heq _; injection heq))
      | _, isFalse hs => isFalse (fun heq => hs (by injection heq))
    else isFalse (fun heq => hn (by injection heq with heq _; injection heq))
  | [], _ :: _ | _ :: _, [] => isFalse (fun heq => by cases heq)

end

instance [DecidableEq ν] : DecidableEq (Value ν) := decEq

end Value

namespace Json

/-- Structural equality of values: numbers must agree in kind as well as in value. -/
def same (a b : Json) : Bool := Value.agrees Number.same a b

/-- An integer as a value. -/
def ofNat (n : Nat) : Json := .number (.ofNat n)

/-- A text as a value. -/
def ofChars (text : List Char) : Json := .string (String.ofList text)

end Json

end AccessControl
