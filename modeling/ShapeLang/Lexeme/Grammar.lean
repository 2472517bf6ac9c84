import ShapeLang.Lexeme.Reading

/-! The texts of each category, said without a way to read them. -/

namespace ShapeLang

open Text (isPunctuation)

namespace Category

def IsDecimal (text : List Char) : Prop :=
  ∃ first body, text = first :: body ∧ Radix.decimal.isDigit first ∧
    ∀ c ∈ body, Radix.decimal.isBody c

/-- The mark, a sign that may be missing, and at least one digit. -/
def IsExponent (text : List Char) : Prop :=
  ∃ mark sign digits, text = mark :: (sign ++ digits) ∧ (mark = 'e' ∨ mark = 'E') ∧
    (sign = [] ∨ sign = ['+'] ∨ sign = ['-']) ∧ digits ≠ [] ∧
    ∀ c ∈ digits, Radix.decimal.isDigit c

/-- One character as quotes hold it: itself, or a backslash and what it escapes. -/
def IsItem (quote : Char) (text : List Char) : Prop :=
  (∃ c, text = [c] ∧ c ≠ quote ∧ c ≠ '\\' ∧ c ≠ '\n' ∧ c ≠ '\r') ∨
    ∃ c, text = ['\\', c] ∧ c ≠ '\n'

def Spells : Category → List Char → Prop
  | lineComment, text => ∃ body, text = '/' :: '/' :: body ∧ '\n' ∉ body
  | blockComment, text =>
    ∃ body, text = '/' :: '*' :: (body ++ ['*', '/']) ∧ ¬ ['*', '/'] <:+: body ++ ['*']
  | identifier, text =>
    ∃ first rest, text = first :: rest ∧ isNameStart first ∧ ∀ c ∈ rest, isNamePart c
  | integer .decimal, text => IsDecimal text
  | integer radix, text =>
    ∃ mark body, text = '0' :: mark :: body ∧ Radix.ofMark? mark = some radix ∧ body ≠ [] ∧
      ∀ c ∈ body, radix.isBody c
  | float, text =>
    ∃ whole tail, text = whole ++ tail ∧ IsDecimal whole ∧
      (IsExponent tail ∨ ∃ fraction exponent, tail = '.' :: (fraction ++ exponent) ∧
        (∀ c ∈ fraction, Radix.decimal.isBody c) ∧ (exponent = [] ∨ IsExponent exponent))
  | string, text =>
    ∃ items : List (List Char), text = '"' :: (items.flatten ++ ['"']) ∧
      ∀ item ∈ items, IsItem '"' item
  | rawString, text => ∃ body, text = '\x60' :: (body ++ ['\x60']) ∧ '\x60' ∉ body
  | character, text => ∃ item, text = '\'' :: (item ++ ['\'']) ∧ IsItem '\'' item
  | punctuation mark, text => text = [mark] ∧ isPunctuation mark

end Category
end ShapeLang
