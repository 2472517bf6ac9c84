import ShapeLang.Token.Combine
import ShapeLang.Token.Scan

/-! The tokens of a source text. -/

namespace ShapeLang.Token

def Builder.lex {ε : Type} (builder : Builder ε) (operators : OperatorSet) (source : String) :
    Except ε (List Token) :=
  match builder.scan operators source with
  | .error stop => .error stop
  | .ok tokens => builder.combine operators tokens

def lex (operators : OperatorSet) (source : String) : Except LexError (List Token) :=
  Builder.unchecked.lex operators source

theorem lex_eq_bind (operators : OperatorSet) (source : String) :
    lex operators source = (scan operators source).bind (combine operators) := by
  rw [lex, Builder.lex, scan]
  cases Builder.unchecked.scan operators source <;> rfl

theorem lex_eq_ok_iff {operators : OperatorSet} {source : String} {tokens : List Token} :
    lex operators source = .ok tokens ↔
      ∃ scanned, scan operators source = .ok scanned ∧ combine operators scanned = .ok tokens := by
  rw [lex_eq_bind]
  cases scan operators source <;> simp [Except.bind]

theorem lex_eq_error_iff {operators : OperatorSet} {source : String} {error : LexError} :
    lex operators source = .error error ↔
      scan operators source = .error error ∨
        ∃ scanned, scan operators source = .ok scanned ∧
          combine operators scanned = .error error := by
  rw [lex_eq_bind]
  cases scan operators source <;> simp [Except.bind]

end ShapeLang.Token
