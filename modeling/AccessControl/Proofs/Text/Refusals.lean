import AccessControl.Expression
import AccessControl.Proofs.Expression.Cursor
import AccessControl.Proofs.Rule.Cursor
import AccessControl.Proofs.Rule.Refusals

/-!
# Refused texts

Where a text is refused, as a rule or as an expression, the error tells where and what: the offset
is the number of bytes before a place in the text, and what is named stands there. Both are read
with byte positions alone, and the text is never cut inside a character on the way.
-/

namespace AccessControl

/-- The error of a text that is no rule or no expression tells what stands in the text, behind as
many bytes as its offset says. Reading the text at byte positions never comes to cut it inside a
character, and has the same tokens, the same tree or the same error. -/
theorem truthful_refusals :
    (∀ (text : String) (cause : SyntaxError), Comparison.parse text = .error cause →
      cause.Truthful text.toList) ∧
    (∀ (text : String) (cause : ExpressionError), (Expression.parse text).tree = .error cause →
      cause.Truthful text.toList) ∧
    (∀ text : String, Lexeme.scanAt text.toList (text.toList.length + 1) 0 =
      some (Lexeme.scan text)) ∧
    ∀ text : String, Expression.treeAt text.toList = some (Expression.parse text).tree :=
  ⟨fun _ _ h => Comparison.truthful_of_parse h, fun _ _ h => Expression.truthful_of_treeOf h,
    Lexeme.scanAt_eq_scan, fun text => Expression.treeAt_eq_treeOf text.toList⟩

/-- A quote that opens a text without end, a token without a place and a parenthesis without its
partner, each behind a character of several bytes. -/
theorem truthful_refusals_umlauts :
    Comparison.parse "'\u00e4' == \"x'" = .error (.unterminatedString 8) ∧
    (SyntaxError.unterminatedString 8).Truthful "'\u00e4' == \"x'".toList ∧
    Comparison.parse "'\u00e4' x == 1" = .error (.unexpectedToken (.name "x") 5) ∧
    (SyntaxError.unexpectedToken (.name "x") 5).Truthful "'\u00e4' x == 1".toList ∧
    (Expression.parse "data.\u00e4 && data['b'])").tree = .error (.unbalanced 20) ∧
    (ExpressionError.unbalanced 20).Truthful "data.\u00e4 && data['b'])".toList ∧
    Expression.treeAt "data.\u00e4 && data['b'])".toList = some (.error (.unbalanced 20)) := by
  have hquote : Comparison.parse "'\u00e4' == \"x'" = .error (.unterminatedString 8) := by
    have hscan : Lexeme.scan "'\u00e4' == \"x'" = .error (.unterminatedString 8) := by
      decide +kernel
    rw [Comparison.parse, hscan]
    rfl
  have htoken : Comparison.parse "'\u00e4' x == 1" = .error (.unexpectedToken (.name "x") 5) := by
    have hscan : Lexeme.scan "'\u00e4' x == 1" =
        .ok [⟨.literal (.string "\u00e4"), 0⟩, ⟨.name "x", 5⟩, ⟨.relation .equal, 7⟩,
          ⟨.literal (.ofNat 1), 10⟩] := by
      decide +kernel
    rw [Comparison.parse_of_scan hscan]
    rfl
  have hclose : (Expression.parse "data.\u00e4 && data['b'])").tree =
      .error (.unbalanced 20) := by
    decide +kernel
  obtain ⟨hrules, hexpressions, -, hpositions⟩ := truthful_refusals
  exact ⟨hquote, hrules _ _ hquote, htoken, hrules _ _ htoken, hclose, hexpressions _ _ hclose,
    (hpositions _).trans (congrArg some hclose)⟩

end AccessControl
