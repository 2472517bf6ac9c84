import ShapeLang.Lexeme.Split
import ShapeLang.OperatorSet
import ShapeLang.Source.LineTable
import ShapeLang.Token.Builder

/-! The tokens that the lexemes of a text stand for, one by one. The first lexeme that stands for
no token ends the scan, and nothing of it is kept. -/

namespace ShapeLang

def OperatorSet.kind? (operators : OperatorSet) : Category → Option Token.Kind
  | .identifier => some .symbol
  | .integer _ => some .number
  | .punctuation mark => operators.mark? mark
  | _ => none

theorem OperatorSet.eq_number_iff_of_kind? {operators : OperatorSet} {category : Category}
    {kind : Token.Kind} (h : operators.kind? category = some kind) :
    kind = .number ↔ category.radix?.isSome := by
  cases category with
  | lineComment | blockComment | float | string | rawString | character => cases h
  | integer => exact ⟨fun _ => rfl, fun _ => (Option.some.inj h).symm⟩
  | identifier =>
    obtain rfl := Option.some.inj h
    exact ⟨Token.Kind.noConfusion, fun hradix => by cases hradix⟩
  | punctuation mark =>
    refine ⟨?_, fun hradix => by cases hradix⟩
    rintro rfl
    cases carriesValue_of_mark? h

theorem OperatorSet.carriesValue_of_kind? {operators : OperatorSet} {category : Category}
    {kind : Token.Kind} (h : operators.kind? category = some kind) (hnumber : kind ≠ .number) :
    kind.carriesValue = false := by
  cases category with
  | lineComment | blockComment | float | string | rawString | character => cases h
  | integer => exact absurd (Option.some.inj h).symm hnumber
  | identifier =>
    obtain rfl := Option.some.inj h
    rfl
  | punctuation mark => exact carriesValue_of_mark? h

/-- A fault is a comment without an end, or is known by its first character. -/
def Lexeme.faultCause (lexeme : Lexeme) : LexError.Cause :=
  if ['/', '*'].isPrefixOf lexeme.text then .unterminatedComment
  else .unknownToken none (String.ofList (lexeme.text.take 1))

namespace Token.Builder

variable {ε : Type} (builder : Builder ε)

def classify (operators : OperatorSet) (category : Category) (lexeme : Lexeme) (span : Span)
    (position : Position) : Except ε Token :=
  let text := String.ofList lexeme.text
  match operators.kind? category with
  | none => .error (builder.failed ⟨.unknownToken (some category) text, span, position⟩)
  | some kind =>
    if kind = .number then
      match category.radix?.bind (·.readLiteral? lexeme.text) with
      | some value => .ok (number text value span position)
      | none => .error (builder.failed ⟨.invalidNumber text, span, position⟩)
    else builder.bare kind text span position

def toToken? (operators : OperatorSet) (lines : LineTable) (source : List Char)
    (lexeme : Lexeme) : Except ε (Option Token) :=
  match Span.ofBounds lexeme.start lexeme.stop with
  | .error error => .error (builder.failed (LexError.tooLarge error))
  | .ok span =>
    let position := lines.position source span.start
    match lexeme.category with
    | none => .error (builder.failed ⟨lexeme.faultCause, span, position⟩)
    | some category =>
      if category.isTrivia then .ok none
      else (builder.classify operators category lexeme span position).map some

def ofLexemes (operators : OperatorSet) (lines : LineTable) (source : List Char) :
    List Lexeme → Except ε (List Token)
  | [] => .ok []
  | lexeme :: lexemes =>
    match builder.toToken? operators lines source lexeme with
    | .error stop => .error stop
    | .ok token => (ofLexemes operators lines source lexemes).map (token.toList ++ ·)

def scan (operators : OperatorSet) (source : String) : Except ε (List Token) :=
  let text := source.toList
  builder.ofLexemes operators (LineTable.ofText text) text (Lexeme.split text)

end Token.Builder

def Lexeme.toToken? (operators : OperatorSet) (lines : LineTable) (source : List Char)
    (lexeme : Lexeme) : Except LexError (Option Token) :=
  Token.Builder.unchecked.toToken? operators lines source lexeme

theorem Lexeme.toToken?_of_tooLarge {operators : OperatorSet} {lines : LineTable}
    {source : List Char} {lexeme : Lexeme} {large : SpanError}
    (h : Span.ofBounds lexeme.start lexeme.stop = .error large) :
    lexeme.toToken? operators lines source = .error (LexError.tooLarge large) := by
  rw [toToken?, Token.Builder.toToken?, h]
  rfl

namespace Token

def ofLexemes (operators : OperatorSet) (lines : LineTable) (source : List Char)
    (lexemes : List Lexeme) : Except LexError (List Token) :=
  Builder.unchecked.ofLexemes operators lines source lexemes

/-- The tokens of a source text before neighbours are joined. -/
def scan (operators : OperatorSet) (source : String) : Except LexError (List Token) :=
  Builder.unchecked.scan operators source

theorem scan_eq_ofLexemes (operators : OperatorSet) (source : String) :
    scan operators source = ofLexemes operators (LineTable.ofText source.toList) source.toList
      (Lexeme.split source.toList) := rfl

@[simp] theorem ofLexemes_nil (operators : OperatorSet) (lines : LineTable) (source : List Char) :
    ofLexemes operators lines source [] = .ok [] := rfl

theorem ofLexemes_cons (operators : OperatorSet) (lines : LineTable) (source : List Char)
    (lexeme : Lexeme) (lexemes : List Lexeme) :
    ofLexemes operators lines source (lexeme :: lexemes) =
      match lexeme.toToken? operators lines source with
      | .error error => .error error
      | .ok token => (ofLexemes operators lines source lexemes).map (token.toList ++ ·) := by
  rw [ofLexemes, Builder.ofLexemes, Lexeme.toToken?]
  cases Builder.unchecked.toToken? operators lines source lexeme <;> rfl

end Token
end ShapeLang
