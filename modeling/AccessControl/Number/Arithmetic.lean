import AccessControl.Number

/-!
# Arithmetic on numbers

Two signed integers are combined exactly as long as the result is a signed integer of 64 bits again;
in every other case the nearest doubles are combined and the result is a double. A result that is no
finite double is a fault, and so is a division by zero.
-/

namespace AccessControl

/-- The arithmetic operators of an operand. -/
inductive Operator where
  /-- The sum. -/
  | plus
  /-- The difference. -/
  | minus
  /-- The product. -/
  | times
  /-- The quotient. -/
  | over
  /-- The remainder of a division toward zero. -/
  | modulo
  deriving DecidableEq, Repr

namespace Operator

/-- The sign that stands for an operator. -/
def symbol : Operator → String
  | .plus => "+"
  | .minus => "-"
  | .times => "*"
  | .over => "/"
  | .modulo => "%"

/-- Whether the right operand is a divisor. -/
def divides : Operator → Bool
  | .over | .modulo => true
  | _ => false

/-- Why an operator has no result. -/
inductive Fault where
  /-- The divisor is zero. -/
  | divisionByZero
  /-- The result is beyond the largest double. -/
  | notFinite
  deriving DecidableEq, Repr

/-- The result on integers as far as it stays among the signed integers of 64 bits: a quotient must
be exact, and a remainder needs its truncated quotient to be such an integer. -/
def onIntegers (operator : Operator) (x y : Int) : Option Number :=
  match operator with
  | .plus => Number.ofSigned? (x + y)
  | .minus => Number.ofSigned? (x - y)
  | .times => Number.ofSigned? (x * y)
  | .over => if x.tmod y = 0 then Number.ofSigned? (x.tdiv y) else none
  | .modulo => if Number.Signed (x.tdiv y) then Number.ofSigned? (x.tmod y) else none

/-- The rounded result on doubles. -/
def onDoubles (operator : Operator) (x y : Double) : Option Double :=
  match operator with
  | .plus => x.add y
  | .minus => x.sub y
  | .times => x.mul y
  | .over => x.div y
  | .modulo => x.rem y

/-- The result on the nearest doubles. -/
def calculateRounded (operator : Operator) (x y : Number) : Except Fault Number :=
  if operator.divides && y.toDouble.isZero then .error .divisionByZero
  else
    match operator.onDoubles x.toDouble y.toDouble with
    | some value => .ok (.double value)
    | none => .error .notFinite

/-- The result of an operator on two numbers. -/
def calculate (operator : Operator) (x y : Number) : Except Fault Number :=
  match x.signed?, y.signed? with
  | some a, some b =>
    if operator.divides && b == 0 then .error .divisionByZero
    else
      match operator.onIntegers a b with
      | some number => .ok number
      | none => operator.calculateRounded x y
  | _, _ => operator.calculateRounded x y

end Operator

end AccessControl
