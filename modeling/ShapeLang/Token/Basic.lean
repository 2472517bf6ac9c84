import ShapeLang.Numeral.Literal
import ShapeLang.Source.Place
import ShapeLang.Text.Quoted
import ShapeLang.Token.Kind

/-! Tokens: text with a kind and a place, and a value where the kind asks for one. -/

namespace ShapeLang

/-- A token. Its span covers all of the source that its text comes from, and its position is that
of the first character. -/
structure Token where
  text : String
  span : Span
  position : Position
  kind : Token.Kind
  value : Option IntegerValue
deriving DecidableEq, Repr

namespace Token

inductive BuildError where
  | missingValue (kind : Kind)
deriving DecidableEq, Repr

def BuildError.message : BuildError → String
  | missingValue kind => kind.name ++ " tokens must be built with a value"

def plain (kind : Kind) (text : String) (span : Span) (position : Position) : Token :=
  ⟨text, span, position, kind, none⟩

def number (text : String) (value : IntegerValue) (span : Span) (position : Position) : Token :=
  ⟨text, span, position, .number, some value⟩

def arrayType (text : String) (size : UInt64) (span : Span) (position : Position) : Token :=
  ⟨text, span, position, .arrayType, some (.word size)⟩

def ofKind (kind : Kind) (text : String) (span : Span) (position : Position) :
    Except BuildError Token :=
  if kind.carriesValue then .error (.missingValue kind) else .ok (plain kind text span position)

def WellValued (token : Token) : Prop :=
  token.value.isSome = token.kind.carriesValue

instance (token : Token) : Decidable token.WellValued :=
  inferInstanceAs (Decidable (_ = _))

def word? (token : Token) : Option UInt64 :=
  token.value.bind IntegerValue.word?

def describe (token : Token) (hidden : Char → Bool := Text.isHidden) : String :=
  "[" ++ token.position.render ++ "] " ++ token.kind.name ++ " " ++ Text.quoted token.text hidden ++
    token.value.elim "" fun value => " value=<" ++ value.render ++ ">"

theorem ofKind_eq_ok_iff {kind : Kind} {text : String} {span : Span} {position : Position}
    {token : Token} :
    ofKind kind text span position = .ok token ↔
      kind.carriesValue = false ∧ token = plain kind text span position := by
  cases h : kind.carriesValue <;> simp [ofKind, h, eq_comm]

theorem wellValued_plain {kind : Kind} (h : kind.carriesValue = false) (text : String)
    (span : Span) (position : Position) : (plain kind text span position).WellValued := by
  simp [WellValued, plain, h]

theorem wellValued_number (text : String) (value : IntegerValue) (span : Span)
    (position : Position) : (number text value span position).WellValued := rfl

theorem wellValued_arrayType (text : String) (size : UInt64) (span : Span) (position : Position) :
    (arrayType text size span position).WellValued := rfl

end Token
end ShapeLang
