import AccessControl.Config.Layer
import AccessControl.Double.Text
import AccessControl.Text.Lowercase

/-!
# Settings from the environment

A variable is a setting if its name, in lower case, starts with a word and an underscore. What
follows is the path of the setting, with two underscores between its names. Its text is read as a
truth value, an integer or a float if it spells one, and is otherwise the setting as it is.
-/

namespace AccessControl

namespace Environment

/-- A text with every pair of underscores replaced by a point. -/
def pointed : List Char → List Char
  | '_' :: '_' :: rest => '.' :: pointed rest
  | c :: rest => c :: pointed rest
  | [] => []

/-- The path of the setting that a variable with this name is, if it is one. -/
def key? (word name : String) : Option String :=
  let start := Text.lowercase (word.toList ++ ['_'])
  (start.isPrefixOf? (Text.lowercase name.toList)).map (fun rest => String.ofList (pointed rest))

/-- The sign at the head of a number, set for a minus, and the text behind it. -/
def signed : List Char → Bool × List Char
  | '-' :: rest => (true, rest)
  | '+' :: rest => (false, rest)
  | text => (false, text)

/-- The integer of 64 bits that a text spells with or without a sign. -/
def integer? (text : List Char) : Option SourceNumber :=
  let (negative, digits) := signed text
  if digits.isEmpty || !digits.all Char.isDigit then none
  else
    let value : Int := Decimal.valueOf digits
    (Number.ofSigned? (if negative then -value else value)).map .finite

/-- The exponent that a text spells; zero if there is no text. -/
def exponent? : List Char → Option Int
  | [] => some 0
  | letter :: text =>
    if letter = 'e' ∨ letter = 'E' then
      let (negative, digits) := signed text
      let value : Int := Decimal.valueOf digits
      if digits.isEmpty || !digits.all Char.isDigit then none
      else some (if negative then -value else value)
    else none

/-- The float that a text without a sign spells: digits with a point before, between or behind them
and an exponent, or a word for what is not finite. -/
def magnitude? (negative : Bool) (text : List Char) : Option SourceNumber :=
  match String.ofList (text.map Char.toLower) with
  | "inf" | "infinity" | "nan" => some .nonFinite
  | _ =>
    let (whole, rest) := Decimal.spanDigits text
    let (fraction, rest) := match rest with
      | '.' :: rest => Decimal.spanDigits rest
      | other => ([], other)
    if whole.isEmpty && fraction.isEmpty then none
    else
      (exponent? rest).map (fun exponent =>
        SourceNumber.ofFloat (Double.ofDecimal negative (Decimal.ofDigits whole fraction exponent)))

/-- The float that a text spells. -/
def float? (text : List Char) : Option SourceNumber :=
  let (negative, magnitude) := signed text
  magnitude? negative magnitude

/-- The setting that the text of a variable spells. -/
def setting (text : String) : Setting :=
  match String.ofList (text.toList.map Char.toLower) with
  | "true" => .bool true
  | "false" => .bool false
  | _ =>
    match (integer? text.toList).or (float? text.toList) with
    | some number => .number number
    | none => .string text

/-- The layer of the variables whose names start with a word. Of variables with one path the last
one counts. -/
def layer (word : String) (environment : NameMap String) : Layer :=
  (NameMap.ofList (environment.entries.filterMap (fun (name, text) =>
    (key? word name).map (fun key => (key, setting text))))).entries

end Environment

end AccessControl
