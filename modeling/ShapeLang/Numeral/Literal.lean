import ShapeLang.Numeral.Radix

/-! The value of a run of digits. Reading takes the digits from the left and keeps the value so
far in a 64-bit word; it fails as soon as the word is too narrow. -/

namespace ShapeLang

/-- What an integer literal denotes. A literal that is too wide for a word is still a literal. -/
inductive IntegerValue where
  | word (n : UInt64)
  | overflow
deriving DecidableEq, Repr

namespace IntegerValue

def render : IntegerValue → String
  | word n => toString n.toNat
  | overflow => "overflow"

def word? : IntegerValue → Option UInt64
  | word n => some n
  | overflow => none

end IntegerValue

namespace Radix

def value (radix : Radix) (digits : List Char) : Nat :=
  digits.foldl (fun n c => n * radix.base + (radix.digit? c).getD 0) 0

def push? (radix : Radix) (n : UInt64) (c : Char) : Option UInt64 :=
  let m := n.toNat * radix.base + (radix.digit? c).getD 0
  if m < UInt64.size then some (.ofNat m) else none

def readWord? (radix : Radix) (digits : List Char) : Option UInt64 :=
  digits.foldlM radix.push? 0

/-- The digits of a literal: the mark of its radix and the separators are dropped. -/
def digitsOf (radix : Radix) (literal : List Char) : List Char :=
  let body := if radix = decimal then literal else literal.drop 2
  body.filter (· ≠ '_')

def readLiteral? (radix : Radix) (literal : List Char) : Option IntegerValue :=
  let digits := radix.digitsOf literal
  if digits.isEmpty then none
  else some ((radix.readWord? digits).elim .overflow .word)

end Radix
end ShapeLang
