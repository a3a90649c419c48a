import AccessControl.Attributes
import AccessControl.Rule.Token

/-!
# Operands and comparisons

The operands of a rule are trees over literals, bags and injected names. Their normal text puts
every arithmetic operation into parentheses.
-/

namespace AccessControl

/-- One side of a comparison. -/
inductive Operand where
  /-- A literal. -/
  | literal (value : Json)
  /-- The content of a bag. -/
  | bag (which : Bag)
  /-- An injected value. -/
  | name (word : String)
  /-- A field of an operand's value. -/
  | field (base : Operand) (key : String)
  /-- An element of an operand's value. -/
  | index (base : Operand) (position : Operand)
  /-- A call of an injected function. -/
  | call (function : String) (arguments : List Operand)
  /-- The negative of an operand's value. -/
  | negative (inner : Operand)
  /-- An arithmetic operation. -/
  | arithmetic (left : Operand) (operator : Operator) (right : Operand)

namespace Operand

instance : Inhabited Operand := ⟨.literal .null⟩

mutual

/-- The injected names that an operand needs, in the order of its text. -/
def names : Operand → List String
  | .literal _ => []
  | .bag _ => []
  | .name word => [word]
  | .field base _ => names base
  | .index base position => names base ++ names position
  | .call function arguments => function :: namesOfAll arguments
  | .negative inner => names inner
  | .arithmetic left _ right => names left ++ names right

/-- The injected names that a list of operands needs. -/
def namesOfAll : List Operand → List String
  | [] => []
  | operand :: rest => names operand ++ namesOfAll rest

end

mutual

/-- The normal text of an operand. -/
def text : Operand → List Char
  | .literal value => Json.text value
  | .bag which => which.word.toList
  | .name word => word.toList
  | .field base key => text base ++ '.' :: key.toList
  | .index base position => text base ++ '[' :: (text position ++ [']'])
  | .call function arguments => function.toList ++ '(' :: (argumentsText arguments ++ [')'])
  | .negative inner => '-' :: text inner
  | .arithmetic left operator right =>
    '(' :: (text left ++ ' ' :: (operator.symbol.toList ++ ' ' :: (text right ++ [')'])))

/-- The texts of arguments, separated by a comma and a space. -/
def argumentsText : List Operand → List Char
  | [] => []
  | operand :: rest => text operand ++ furtherText rest

/-- The texts of further arguments, each behind a comma and a space. -/
def furtherText : List Operand → List Char
  | [] => []
  | operand :: rest => ',' :: ' ' :: (text operand ++ furtherText rest)

end

end Operand

/-- Two operands and the relation that a rule states between them. -/
structure Comparison where
  /-- The operand before the operator. -/
  left : Operand
  /-- The relation. -/
  relation : Relation
  /-- The operand behind the operator. -/
  right : Operand

namespace Comparison

/-- The injected names that a comparison needs. -/
def names (comparison : Comparison) : List String := comparison.left.names ++ comparison.right.names

/-- The normal text of a comparison. -/
def text (comparison : Comparison) : List Char :=
  comparison.left.text ++
    ' ' :: (comparison.relation.symbol.toList ++ ' ' :: comparison.right.text)

end Comparison

end AccessControl
