import AccessControl.Registry
import AccessControl.Rule.Fault
import AccessControl.Rule.Operand

/-!
# Evaluation of comparisons

Operands are evaluated from left to right over the bags of a request and the injected entries of a
scope, and the first fault ends the evaluation. Numbers are equal when they compare as equal; all
other values are equal when they agree structurally. Only two numbers or two texts have an order.
Every call of a host function is noted, in the order of the calls.
-/

namespace AccessControl

/-- An evaluation: the calls it made, in order, and how it ended. -/
structure Traced (ε α : Type) where
  /-- The calls made, in order. -/
  calls : List Call
  /-- The result, or what ended the evaluation. -/
  outcome : Except ε α

namespace Traced

variable {ε α β : Type}

/-- Evaluation that makes no call. -/
def ofExcept (outcome : Except ε α) : Traced ε α := ⟨[], outcome⟩

/-- A result without any call. -/
def value (result : α) : Traced ε α := ⟨[], .ok result⟩

/-- One evaluation after another, unless the first ended without a result. -/
def andThen (first : Traced ε α) (next : α → Traced ε β) : Traced ε β :=
  match first.outcome with
  | .error cause => ⟨first.calls, .error cause⟩
  | .ok result => ⟨first.calls ++ (next result).calls, (next result).outcome⟩

instance : Monad (Traced ε) where
  pure := value
  bind := andThen

/-- The evaluation with its cause of failure put into other words. -/
def mapError {δ : Type} (f : ε → δ) (run : Traced ε α) : Traced δ α :=
  ⟨run.calls, run.outcome.mapError f⟩

/-- One evaluation after another ends as the second one does, or as the first one if that fails. -/
theorem outcome_andThen (first : Traced ε α) (next : α → Traced ε β) :
    (first.andThen next).outcome = first.outcome.bind (fun result => (next result).outcome) := by
  rw [andThen]
  cases first.outcome <;> rfl

/-- One evaluation after another has a result where both have one. -/
theorem outcome_andThen_eq_ok_iff {first : Traced ε α} {next : α → Traced ε β} {result : β} :
    (first.andThen next).outcome = .ok result ↔
      ∃ value, first.outcome = .ok value ∧ (next value).outcome = .ok result := by
  rw [outcome_andThen]
  cases first.outcome with
  | error cause =>
    constructor
    · intro h
      cases h
    · rintro ⟨_, h, _⟩
      cases h
  | ok value =>
    constructor
    · exact fun h => ⟨value, rfl, h⟩
    · rintro ⟨_, hvalue, h⟩
      cases hvalue
      exact h

end Traced

namespace Json

/-- A field of a value: a member of an object, or the length of a list or a text. -/
def field (value : Json) (name : String) : Except Fault Json :=
  match value with
  | .object members =>
    match NameMap.find name members with
    | some member => .ok member
    | none => .error (.missingField name)
  | .array items =>
    if name = "length" then .ok (ofNat items.length) else .error (.notAnObject name .array)
  | .string text =>
    if name = "length" then .ok (ofNat text.toList.length) else .error (.notAnObject name .string)
  | other => .error (.notAnObject name other.kind)

/-- An element of a value: a field under a text, an item of a list under an integer from zero on. -/
def element (value : Json) (index : Json) : Except Fault Json :=
  match value, index with
  | _, .string name => value.field name
  | .array items, .number position =>
    match position.unsigned? with
    | none => .error .fractionalIndex
    | some position =>
      match items[position]? with
      | some item => .ok item
      | none => .error (.indexOutOfBounds position items.length)
  | _, _ => .error (.invalidIndex value.kind index.kind)

/-- Equality in rules: of two numbers by their order, of other values structurally. -/
def equals (left right : Json) : Bool :=
  match left, right with
  | .number a, .number b => a.order b == .eq
  | _, _ => same left right

/-- The order of two numbers or of two texts. -/
def order (left right : Json) : Except Fault Ordering :=
  match left, right with
  | .number a, .number b => .ok (a.order b)
  | .string a, .string b => .ok (compare a b)
  | _, _ => .error (.incomparable left.kind right.kind)

/-- The negative of a number. -/
def negative (value : Json) : Except Fault Json :=
  match value with
  | .number n => .ok (.number n.negate)
  | other => .error (.typeMismatch .minus .number other.kind)

end Json

namespace Operator

/-- The fault that an operator's failure is. -/
def Fault.toFault : Operator.Fault → AccessControl.Fault
  | .divisionByZero => .divisionByZero
  | .notFinite => .notFinite

/-- The result of an operator on two values: numbers are calculated with, and two texts can be
added. -/
def apply (operator : Operator) (left right : Json) : Except AccessControl.Fault Json :=
  match left, right with
  | .number a, .number b =>
    match operator.calculate a b with
    | .ok n => .ok (.number n)
    | .error fault => .error fault.toFault
  | .string a, .string b =>
    if operator = .plus then .ok (.string (a ++ b))
    else .error (.typeMismatch operator .string .string)
  | _, _ => .error (.typeMismatch operator left.kind right.kind)

end Operator

namespace Relation

/-- Whether a relation holds between two values. -/
def holds (relation : Relation) (left right : Json) : Except Fault Bool :=
  match relation with
  | .equal => .ok (left.equals right)
  | .unequal => .ok (!left.equals right)
  | .less => (left.order right).map Ordering.isLT
  | .greater => (left.order right).map Ordering.isGT
  | .atMost => (left.order right).map Ordering.isLE
  | .atLeast => (left.order right).map Ordering.isGE

end Relation

namespace Call

/-- Makes a call and notes it. -/
def make (call : Call) (name : String) : Traced Fault Json :=
  ⟨[call], call.result.mapError (Fault.function name)⟩

end Call

namespace Operand

mutual

/-- The value of an operand over a scope of injected entries and the bags of a request. -/
def evaluate (scope : Registry) (attributes : Attributes) : Operand → Traced Fault Json
  | .literal value => .value value
  | .bag which => .value (attributes.bag which)
  | .name word =>
    match scope.get? word with
    | some (.value value) => .value value
    | some (.function _) => .ofExcept (.error (.notAValue word))
    | none => .ofExcept (.error (.unknownIdentifier word))
  | .field base key =>
    (evaluate scope attributes base).andThen (fun value => .ofExcept (value.field key))
  | .index base position =>
    (evaluate scope attributes base).andThen (fun value =>
      (evaluate scope attributes position).andThen (fun index => .ofExcept (value.element index)))
  | .call function arguments =>
    match scope.get? function with
    | some (.function host) =>
      (evaluateAll scope attributes arguments).andThen
        (fun values => Call.make ⟨host, values⟩ function)
    | some (.value _) => .ofExcept (.error (.notCallable function))
    | none => .ofExcept (.error (.unknownIdentifier function))
  | .negative inner =>
    (evaluate scope attributes inner).andThen (fun value => .ofExcept value.negative)
  | .arithmetic left operator right =>
    (evaluate scope attributes left).andThen (fun a =>
      (evaluate scope attributes right).andThen (fun b => .ofExcept (operator.apply a b)))

/-- The values of a list of operands, from left to right. -/
def evaluateAll (scope : Registry) (attributes : Attributes) :
    List Operand → Traced Fault (List Json)
  | [] => .value []
  | operand :: rest =>
    (evaluate scope attributes operand).andThen (fun value =>
      (evaluateAll scope attributes rest).andThen (fun values => .value (value :: values)))

end

end Operand

namespace Comparison

/-- The truth value of a comparison over a scope of injected entries and the bags of a request. -/
def evaluate (comparison : Comparison) (scope : Registry) (attributes : Attributes) :
    Traced Fault Bool :=
  (comparison.left.evaluate scope attributes).andThen (fun left =>
    (comparison.right.evaluate scope attributes).andThen (fun right =>
      .ofExcept (comparison.relation.holds left right)))

end Comparison

end AccessControl
