import AccessControl.Double.Text

/-!
# What a TOML document says

The content of a document is a table of named values: texts, integers, floats, truth values,
moments, arrays and tables. Integers are kept exactly. A float is a finite double, or it is written
as a word for what is not finite, or it is beyond the largest double.

A moment is a date, a time of day, both, or both with an offset from universal time. A date has to
be one of the calendar, a leap second is allowed for, and seconds may be left out. Of a fraction of
a second nine digits count. A moment is written with the parts that it was read with; completing it
adds the seconds and takes away a fraction of zero.
-/

namespace AccessControl

namespace Moment

/-- A day of the calendar. -/
structure Date where
  /-- The year. -/
  year : Nat
  /-- The month, from one on. -/
  month : Nat
  /-- The day of the month, from one on. -/
  day : Nat
  deriving DecidableEq, Repr

/-- A time of day. -/
structure Time where
  /-- The hour. -/
  hour : Nat
  /-- The minute. -/
  minute : Nat
  /-- The second, which may be a leap second, if it is given. -/
  second : Option Nat
  /-- The digits of the fraction of a second, without zeros at the end, if it is given. -/
  fraction : Option (List Char)
  deriving DecidableEq, Repr

/-- An offset from universal time. -/
inductive Offset where
  /-- No offset, marked as such. -/
  | universal
  /-- An offset in minutes. -/
  | minutes (count : Int)
  deriving DecidableEq, Repr

end Moment

/-- A date, a time of day, or both. -/
inductive Moment where
  /-- A date. -/
  | date (date : Moment.Date)
  /-- A time of day. -/
  | time (time : Moment.Time)
  /-- A time of a date, wherever. -/
  | dateTime (date : Moment.Date) (time : Moment.Time)
  /-- A time of a date at an offset from universal time. -/
  | instant (date : Moment.Date) (time : Moment.Time) (offset : Moment.Offset)
  deriving DecidableEq, Repr

namespace Moment

/-- Reads a part of a moment at the head of a text and returns it with the text behind it. -/
abbrev Reader (α : Type) := List Char → Option (α × List Char)

/-- Two digits. -/
def pair? : Reader Nat
  | a :: b :: rest => if a.isDigit && b.isDigit then some (Decimal.valueOf [a, b], rest) else none
  | _ => none

/-- Two digits behind a mark. -/
def pairBehind? (mark : Char) : Reader Nat
  | c :: rest => if c = mark then pair? rest else none
  | [] => none

/-- Whether a year has a day more than others. -/
def isLeap (year : Nat) : Bool := year % 4 == 0 && (year % 100 != 0 || year % 400 == 0)

/-- The number of days of a month. -/
def daysOf (year month : Nat) : Nat :=
  if month == 2 then (if isLeap year then 29 else 28)
  else if month == 4 || month == 6 || month == 9 || month == 11 then 30
  else 31

/-- A date: the year with four digits, the month and the day with two, and hyphens between them. -/
def date? : Reader Date := fun text => do
  let (century, text) ← pair? text
  let (year, text) ← pair? text
  let (month, text) ← pairBehind? '-' text
  let (day, text) ← pairBehind? '-' text
  let year := 100 * century + year
  if 1 ≤ month ∧ month ≤ 12 ∧ 1 ≤ day ∧ day ≤ daysOf year month then some (⟨year, month, day⟩, text)
  else none

/-- The fraction of a second, if a point stands at the head of the text. -/
def fraction? : Reader (Option (List Char))
  | '.' :: text =>
    let (digits, rest) := Decimal.spanDigits text
    if digits.isEmpty then none
    else
      let counting := ((digits.take 9).reverse.dropWhile (fun digit => digit == '0')).reverse
      some (some counting, rest)
  | text => some (none, text)

/-- The second and its fraction, if a colon stands at the head of the text. -/
def second? : Reader (Option Nat × Option (List Char))
  | ':' :: text => do
    let (second, text) ← pair? text
    let (fraction, text) ← fraction? text
    some ((some second, fraction), text)
  | text => some ((none, none), text)

/-- A time of day. -/
def time? : Reader Time := fun text => do
  let (hour, text) ← pair? text
  let (minute, text) ← pairBehind? ':' text
  let ((second, fraction), text) ← second? text
  if hour ≤ 23 ∧ minute ≤ 59 ∧ second.getD 0 ≤ 60 then some (⟨hour, minute, second, fraction⟩, text)
  else none

/-- The minutes of an offset behind its sign. An offset is less than a day. -/
def minutes? : Reader Nat := fun text => do
  let (hours, text) ← pair? text
  let (minutes, text) ← pairBehind? ':' text
  if hours ≤ 23 ∧ minutes ≤ 59 then some (60 * hours + minutes, text) else none

/-- An offset from universal time. -/
def offset? : Reader Offset
  | 'Z' :: rest => some (.universal, rest)
  | 'z' :: rest => some (.universal, rest)
  | '+' :: rest => (minutes? rest).map (fun (count, rest) => (.minutes count, rest))
  | '-' :: rest => (minutes? rest).map (fun (count, rest) => (.minutes (-(count : Int)), rest))
  | _ => none

/-- What may stand between a date and a time. -/
def isSeparator (c : Char) : Bool := c == 'T' || c == 't' || c == ' '

/-- The moment of a date and what stands behind it. -/
def behind? (date : Date) : List Char → Option Moment
  | [] => some (.date date)
  | separator :: text =>
    if isSeparator separator then
      match time? text with
      | some (clock, []) => some (.dateTime date clock)
      | some (clock, rest) =>
        match offset? rest with
        | some (offset, []) => some (.instant date clock offset)
        | _ => none
      | none => none
    else none

/-- The moment that a text spells. -/
def read? (text : List Char) : Option Moment :=
  match date? text with
  | some (day, rest) => behind? day rest
  | none =>
    match time? text with
    | some (clock, []) => some (.time clock)
    | _ => none

/-- A number with a least number of digits. -/
def padded (width value : Nat) : List Char := (Nat.toDigits 10 value).leftpad width '0'

/-- The text of a date. -/
def Date.text (date : Date) : List Char :=
  padded 4 date.year ++ '-' :: (padded 2 date.month ++ '-' :: padded 2 date.day)

/-- The text of a fraction of a second. -/
def fractionText : Option (List Char) → List Char
  | none => []
  | some [] => ['.', '0']
  | some digits => '.' :: digits

/-- The text of a second and its fraction. -/
def secondText (fraction : Option (List Char)) : Option Nat → List Char
  | none => []
  | some second => ':' :: (padded 2 second ++ fractionText fraction)

/-- The text of a time of day. -/
def Time.text (time : Time) : List Char :=
  padded 2 time.hour ++ ':' :: (padded 2 time.minute ++ secondText time.fraction time.second)

/-- The text of an offset. -/
def Offset.text : Offset → List Char
  | .universal => ['Z']
  | .minutes count =>
    (if count < 0 then '-' else '+')
      :: (padded 2 (count.natAbs / 60) ++ ':' :: padded 2 (count.natAbs % 60))

/-- The same time of day with its second, and with no fraction of zero. -/
def Time.complete (time : Time) : Time where
  hour := time.hour
  minute := time.minute
  second := some (time.second.getD 0)
  fraction := time.fraction.filter (fun digits => !digits.isEmpty)

/-- The same moment with the second of its time of day, and with no fraction of zero. -/
def complete : Moment → Moment
  | .date day => .date day
  | .time clock => .time clock.complete
  | .dateTime day clock => .dateTime day clock.complete
  | .instant day clock offset => .instant day clock.complete offset

/-- The text of a moment. -/
def text : Moment → List Char
  | .date day => day.text
  | .time clock => clock.text
  | .dateTime day clock => day.text ++ 'T' :: clock.text
  | .instant day clock offset => day.text ++ 'T' :: (clock.text ++ offset.text)

end Moment

/-- A value of a document. -/
inductive Toml where
  /-- A text. -/
  | string (text : String)
  /-- An integer. -/
  | integer (value : Int)
  /-- A float; nothing stands for the two infinities and for what is no number. -/
  | float (value : Option Double)
  /-- A float beyond the largest double. -/
  | excessive
  /-- A truth value. -/
  | boolean (value : Bool)
  /-- A date, a time or both. -/
  | moment (value : Moment)
  /-- An array. -/
  | array (items : List Toml)
  /-- A table, with its entries in ascending order of their names. -/
  | table (entries : List (String × Toml))

instance : Inhabited Toml := ⟨.table []⟩

end AccessControl
