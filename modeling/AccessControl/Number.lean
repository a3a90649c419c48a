import AccessControl.Double.Text

/-!
# Numbers of attribute values

A number is an integer of 64 bits, signed or unsigned, or a double. The kinds stay apart: an
integer and a double of one value are equal in a comparison of two numbers and differ inside a
list or an object, and only an integer can be an index.
-/

namespace AccessControl

/-- The integers of 64 bits, signed and unsigned together. -/
def Number.Fits (value : Int) : Prop := -9223372036854775808 ≤ value ∧ value < 18446744073709551616

instance (value : Int) : Decidable (Number.Fits value) :=
  inferInstanceAs (Decidable (-9223372036854775808 ≤ value ∧ value < 18446744073709551616))

/-- An integer of 64 bits or a double. -/
inductive Number where
  /-- An integer. -/
  | integer (value : Int) (fits : Number.Fits value)
  /-- A double. -/
  | double (value : Double)
  deriving DecidableEq

namespace Number

/-- The signed integers of 64 bits. -/
def Signed (value : Int) : Prop := -9223372036854775808 ≤ value ∧ value < 9223372036854775808

instance (value : Int) : Decidable (Signed value) :=
  inferInstanceAs (Decidable (-9223372036854775808 ≤ value ∧ value < 9223372036854775808))

/-- A signed integer of 64 bits is one of those that numbers hold. -/
theorem Signed.fits {value : Int} (h : Signed value) : Fits value :=
  ⟨h.1, Int.lt_trans h.2 (by decide)⟩

/-- An integer as a number, if it has 64 bits. -/
def ofInt? (value : Int) : Option Number := if h : Fits value then some (.integer value h) else none

/-- An integer as a number, if it has 64 bits with a sign. -/
def ofSigned? (value : Int) : Option Number :=
  if h : Signed value then some (.integer value h.fits) else none

/-- A natural number as a number; beyond 64 bits it wraps, which no length reaches. -/
def ofNat (value : Nat) : Number :=
  .integer ((value % 18446744073709551616 : Nat) : Int)
    ⟨by omega, by have := Nat.mod_lt value (by decide : 0 < 18446744073709551616); omega⟩

/-- The value of an integer that has 64 bits with a sign. -/
def signed? : Number → Option Int
  | .integer value _ => if Signed value then some value else none
  | .double _ => none

/-- The value of an integer that is not negative. -/
def unsigned? : Number → Option Nat
  | .integer value _ => if 0 ≤ value then some value.toNat else none
  | .double _ => none

/-- The double nearest to the number. -/
def toDouble : Number → Double
  | .integer value fits => Double.ofInt value (by
      have h := fits
      simp only [Fits] at h
      omega)
  | .double value => value

/-- The numeric order: exact where both are signed or both unsigned, otherwise that of the nearest
doubles. -/
def order (x y : Number) : Ordering :=
  match x.signed?, y.signed? with
  | some a, some b => compare a b
  | _, _ =>
    match x.unsigned?, y.unsigned? with
    | some a, some b => compare a b
    | _, _ => x.toDouble.order y.toDouble

/-- Sameness of kind and value, which is equality inside lists and objects. The two zeros among the
doubles are the same. -/
def same : Number → Number → Bool
  | .integer a _, .integer b _ => a == b
  | .double a, .double b => a.order b == .eq
  | _, _ => false

/-- The number of the opposite sign; an integer that has none with 64 bits becomes a double. -/
def negate (x : Number) : Number :=
  match x.signed?.bind (fun value => ofSigned? (-value)) with
  | some negated => negated
  | none => .double x.toDouble.neg

/-- The number that a numeral without a fraction and an exponent stands for: an integer if it has
64 bits, otherwise the nearest double. A minus before zero keeps its sign and so makes a double. -/
def ofWhole? (negative : Bool) (digits : List Char) : Option Number :=
  let value := Decimal.valueOf digits
  if negative && value == 0 then some (.double (.zero true))
  else
    match ofInt? (if negative then -value else value) with
    | some number => some number
    | none => (Double.ofDecimal negative ⟨value, 0⟩).map .double

/-- The text of a number. -/
def text : Number → List Char
  | .integer value _ =>
    let digits := Nat.toDigits 10 value.natAbs
    if value < 0 then '-' :: digits else digits
  | .double value => value.text

end Number

end AccessControl
