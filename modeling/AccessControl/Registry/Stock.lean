import AccessControl.Registry
import AccessControl.Value.Text

/-!
# Stock functions

Functions that a host can register under names of its choice.
-/

namespace AccessControl

/-- The functions that come with the library. -/
inductive StockFunction where
  /-- The first argument. -/
  | first
  /-- The list of the arguments. -/
  | echo
  /-- The number of arguments. -/
  | count
  /-- A text with its ASCII letters in lower case. -/
  | lower
  /-- Whether a list holds a value. -/
  | contains
  /-- Whether an age is at least eighteen. -/
  | isAdult
  /-- No answer: the arguments are the message. -/
  | fail
  /-- The first argument, or null, with every call reported. -/
  | probe
  deriving DecidableEq, Repr

namespace StockFunction

/-- The word for a stock function. -/
def word : StockFunction → String
  | .first => "first"
  | .echo => "echo"
  | .count => "count"
  | .lower => "lower"
  | .contains => "contains"
  | .isAdult => "isAdult"
  | .fail => "fail"
  | .probe => "probe"

/-- The stock function that a word stands for. -/
def ofWord? (word : String) : Option StockFunction :=
  match word with
  | "first" => some .first
  | "echo" => some .echo
  | "count" => some .count
  | "lower" => some .lower
  | "contains" => some .contains
  | "isAdult" => some .isAdult
  | "fail" => some .fail
  | "probe" => some .probe
  | _ => none

/-- The result of a stock function. -/
def apply (function : StockFunction) (arguments : List Json) : Except String Json :=
  match function with
  | .first =>
    match arguments with
    | head :: _ => .ok head
    | [] => .error "no arguments"
  | .echo => .ok (.array arguments)
  | .count => .ok (Json.ofNat arguments.length)
  | .lower =>
    match arguments with
    | [.string text] => .ok (Json.ofChars (text.toList.map Char.toLower))
    | _ => .error "lower expects one string"
  | .contains =>
    match arguments with
    | [.array items, value] => .ok (.bool (items.any (fun item => Json.same item value)))
    | _ => .error "expected (array, value)"
  | .isAdult =>
    match arguments with
    | .number age :: _ => .ok (.bool (age.signed?.any (fun years => 18 ≤ years)))
    | _ => .ok (.bool false)
  | .fail => .error (Json.compact (.array arguments))
  | .probe => .ok (arguments.head?.getD .null)

/-- A stock function as a host function of a name. Calls of `probe` are reported. -/
def hostFunction (function : StockFunction) (name : String) : HostFunction :=
  ⟨name, function == .probe, function.apply⟩

end StockFunction

end AccessControl
