import ShapeLang.Lexeme.Category
import ShapeLang.Source.Place
import ShapeLang.Text.Quoted

/-! Why a text has no tokens: the cause, its place, and hints on how to mend it. The hints depend
on the cause alone. -/

namespace ShapeLang

namespace LexError

inductive Cause where
  /-- A lexeme that no token kind takes, or a fault, which has no category. -/
  | unknownToken (category : Option Category) (text : String)
  | invalidNumber (text : String)
  | unterminatedComment
  | invalidArraySize (text : String)
  | sourceTooLarge (error : SpanError)
deriving DecidableEq, Repr

namespace Cause

def needsExtended (mark : Char) : Bool :=
  mark = '&' || mark = '-' || mark = '/' || mark = '%' || mark = '^' || mark = '='

def message : Cause → String
  | unknownToken category text =>
    "unknown token " ++ Text.quoted text ++
      category.elim "" fun category => " (" ++ category.describe ++ ")"
  | invalidNumber text =>
    "invalid number " ++ Text.quoted text ++ ": no digits after the radix prefix"
  | unterminatedComment => "block comment is not terminated"
  | invalidArraySize text => "invalid array size in " ++ Text.quoted text
  | sourceTooLarge error => "source too large: " ++ error.message

def extendedHint : String :=
  "this operator requires the extended operator set"

def categoryHints : Category → List String
  | .float => ["only integer literals are supported"]
  | .string | .rawString | .character => ["quoted literals are not part of the DSL"]
  | .punctuation mark =>
    if needsExtended mark then [extendedHint] else []
  | _ => []

def hints : Cause → List String
  | unknownToken category _ => category.elim [] categoryHints
  | invalidNumber _ => ["write at least one digit, e.g. \x600x0\x60"]
  | unterminatedComment => ["close the comment with \x60*/\x60"]
  | invalidArraySize _ => ["array sizes must be between 1 and 18446744073709551615"]
  | sourceTooLarge _ => []

end Cause
end LexError

structure LexError where
  cause : LexError.Cause
  span : Span
  position : Position
deriving DecidableEq, Repr

namespace LexError

def tooLarge (error : SpanError) : LexError :=
  ⟨.sourceTooLarge error, Span.origin, Position.start⟩

def hints (error : LexError) : List String :=
  error.cause.hints

def message (error : LexError) : String :=
  error.position.render ++ ": " ++ error.cause.message

end LexError
end ShapeLang
