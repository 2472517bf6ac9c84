import ShapeLang.Numeral.Radix

/-! The categories of lexemes, whether the language has a use for them or not. -/

namespace ShapeLang

inductive Category where
  /-- From `//` up to the end of the line. -/
  | lineComment
  /-- From `/*` to the first `*/` after it. -/
  | blockComment
  | identifier
  | integer (radix : Radix)
  | float
  | string
  /-- Text between grave accents. -/
  | rawString
  | character
  | punctuation (mark : Char)
deriving DecidableEq, Repr

namespace Category

def isTrivia : Category → Bool
  | lineComment | blockComment => true
  | _ => false

def radix? : Category → Option Radix
  | integer radix => some radix
  | _ => none

theorem radix?_eq_some_iff {category : Category} {radix : Radix} :
    category.radix? = some radix ↔ category = .integer radix := by
  cases category <;> simp [radix?]

def describe : Category → String
  | lineComment | blockComment => "comment"
  | identifier => "identifier"
  | integer _ => "integer literal"
  | float => "float literal"
  | string | rawString => "string literal"
  | character => "char literal"
  | punctuation mark => String.ofList ['\x60', mark, '\x60']

end Category
end ShapeLang
