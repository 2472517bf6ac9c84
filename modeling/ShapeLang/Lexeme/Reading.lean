import ShapeLang.Lexeme.Category
import ShapeLang.Text.Classes

/-! The longest lexeme at the start of a text. Its first character decides which categories can
win: quotes and comments that find no end are faults, a quote with nothing in it is a mark, and a
number goes on for as long as its notation allows. -/

namespace ShapeLang

open Text (isDecimalDigit isLetter isPunctuation)

/-- A lexeme by its category and the number of characters after the first. A reading without a
category is a fault. -/
structure Reading where
  category : Option Category
  extra : Nat
deriving DecidableEq, Repr

def isNameStart (c : Char) : Bool :=
  c = '_' || isLetter c

def isNamePart (c : Char) : Bool :=
  isNameStart c || isDecimalDigit c

namespace Reading

def runLength (p : Char → Bool) (text : List Char) : Nat :=
  (text.takeWhile p).length

def signLength : List Char → Nat
  | c :: _ => if c = '+' || c = '-' then 1 else 0
  | [] => 0

def exponentLength : List Char → Nat
  | [] => 0
  | mark :: text =>
    if mark = 'e' || mark = 'E' then
      let sign := signLength text
      let digits := runLength Radix.decimal.isDigit (text.drop sign)
      if digits = 0 then 0 else 1 + sign + digits
    else 0

/-- A literal whose radix is marked after its leading zero. The mark needs a body. -/
def marked? (first : Char) : List Char → Option Reading
  | [] => none
  | mark :: text =>
    if first = '0' then
      (Radix.ofMark? mark).bind fun radix =>
        let body := runLength radix.isBody text
        if body = 0 then none else some ⟨some (.integer radix), 1 + body⟩
    else none

def decimal (text : List Char) : Reading :=
  let whole := runLength Radix.decimal.isBody text
  match text.drop whole with
  | '.' :: tail =>
    let fraction := runLength Radix.decimal.isBody tail
    ⟨some .float, whole + 1 + fraction + exponentLength (tail.drop fraction)⟩
  | tail =>
    let exponent := exponentLength tail
    if exponent = 0 then ⟨some (.integer .decimal), whole⟩
    else ⟨some .float, whole + exponent⟩

def number (first : Char) (text : List Char) : Reading :=
  (marked? first text).getD (decimal text)

def closeLength? : List Char → Option Nat
  | [] => none
  | '*' :: '/' :: _ => some 2
  | _ :: text => (closeLength? text).map (· + 1)

def slash : List Char → Reading
  | '/' :: text => ⟨some .lineComment, 1 + runLength (· ≠ '\n') text⟩
  | '*' :: text =>
    match closeLength? text with
    | some n => ⟨some .blockComment, 1 + n⟩
    | none => ⟨none, 1 + text.length⟩
  | _ => ⟨some (.punctuation '/'), 0⟩

inductive Body where
  | closed (length : Nat)
  | unclosed (length : Nat)
deriving DecidableEq, Repr

namespace Body

def grow (n : Nat) : Body → Body
  | closed length => closed (n + length)
  | unclosed length => unclosed (n + length)

end Body

/-- The items of a string: a character other than the quote, the backslash and the line ends, or a
backslash with the character after it, which is any but a line feed. -/
def stringBody : List Char → Body
  | [] => .unclosed 0
  | '"' :: _ => .closed 0
  | '\\' :: c :: text => if c = '\n' then .unclosed 0 else (stringBody text).grow 2
  | c :: text =>
    if c = '\\' || c = '\n' || c = '\r' then .unclosed 0 else (stringBody text).grow 1

def string (text : List Char) : Reading :=
  match stringBody text with
  | .closed n => ⟨some .string, n + 1⟩
  | .unclosed 0 => ⟨some (.punctuation '"'), 0⟩
  | .unclosed n => ⟨none, n⟩

def rawString (text : List Char) : Reading :=
  let n := runLength (· ≠ '\x60') text
  if n < text.length then ⟨some .rawString, n + 1⟩
  else if n = 0 then ⟨some (.punctuation '\x60'), 0⟩
  else ⟨none, n⟩

def character : List Char → Reading
  | '\\' :: c :: '\'' :: _ =>
    if c = '\n' then ⟨some (.punctuation '\''), 0⟩ else ⟨some .character, 3⟩
  | c :: '\'' :: _ =>
    if c = '\\' || c = '\'' || c = '\n' || c = '\r' then ⟨some (.punctuation '\''), 0⟩
    else ⟨some .character, 2⟩
  | _ => ⟨some (.punctuation '\''), 0⟩

/-- The longest lexeme of `first :: text`. -/
def longest (first : Char) (text : List Char) : Reading :=
  if first = '/' then slash text
  else if first = '"' then string text
  else if first = '\x60' then rawString text
  else if first = '\'' then character text
  else if Radix.decimal.isDigit first then number first text
  else if isNameStart first then ⟨some .identifier, runLength isNamePart text⟩
  else if isPunctuation first then ⟨some (.punctuation first), 0⟩
  else ⟨none, 0⟩

end Reading
end ShapeLang
