/-! The closed set of token kinds. -/

namespace ShapeLang.Token

inductive Kind where
  | equals
  | notEquals
  | greaterThan
  | greaterOrEqual
  | lessThan
  | lessOrEqual
  | add
  | subtract
  | multiply
  | divide
  | exponent
  | mod
  | bitwiseOr
  | bitwiseAnd
  | logicalAnd
  | logicalOr
  | leftParen
  | rightParen
  | leftBracket
  | rightBracket
  | symbol
  | number
  | sliceType
  | arrayType
  | mapType
deriving DecidableEq, Repr

namespace Kind

/-- Every kind: relations, arithmetic, bits and logic, brackets, atoms, type constructors. -/
def all : List Kind :=
  [equals, notEquals, greaterThan, greaterOrEqual, lessThan, lessOrEqual, add, subtract, multiply,
    divide, exponent, mod, bitwiseOr, bitwiseAnd, logicalAnd, logicalOr, leftParen, rightParen,
    leftBracket, rightBracket, symbol, number, sliceType, arrayType, mapType]

def name : Kind → String
  | equals => "Equals"
  | notEquals => "NotEquals"
  | greaterThan => "GreaterThan"
  | greaterOrEqual => "GreaterOrEqual"
  | lessThan => "LessThan"
  | lessOrEqual => "LessOrEqual"
  | add => "Add"
  | subtract => "Subtract"
  | multiply => "Multiply"
  | divide => "Divide"
  | exponent => "Exponent"
  | mod => "Mod"
  | bitwiseOr => "BitwiseOr"
  | bitwiseAnd => "BitwiseAnd"
  | logicalAnd => "LogicalAnd"
  | logicalOr => "LogicalOr"
  | leftParen => "LeftParen"
  | rightParen => "RightParen"
  | leftBracket => "LeftBracket"
  | rightBracket => "RightBracket"
  | symbol => "Symbol"
  | number => "Number"
  | sliceType => "SliceType"
  | arrayType => "ArrayType"
  | mapType => "MapType"

def ofName? (name : String) : Option Kind :=
  all.find? (·.name = name)

/-- The text that a kind is documented by; the text of names, numbers and arrays varies. -/
def lexeme? : Kind → Option String
  | equals => some "=="
  | notEquals => some "!="
  | greaterThan => some ">"
  | greaterOrEqual => some ">="
  | lessThan => some "<"
  | lessOrEqual => some "<="
  | add => some "+"
  | subtract => some "-"
  | multiply => some "*"
  | divide => some "/"
  | exponent => some "^"
  | mod => some "%"
  | bitwiseOr => some "|"
  | bitwiseAnd => some "&"
  | logicalAnd => some "&&"
  | logicalOr => some "||"
  | leftParen => some "("
  | rightParen => some ")"
  | leftBracket => some "["
  | rightBracket => some "]"
  | sliceType => some "[]"
  | mapType => some "[map]"
  | symbol | number | arrayType => none

def carriesValue : Kind → Bool
  | number | arrayType => true
  | _ => false

def opensType : Kind → Bool
  | sliceType | arrayType | mapType => true
  | _ => false

end Kind
end ShapeLang.Token
