/-! The four radixes of integer literals and the digits of each. -/

namespace ShapeLang

inductive Radix where
  | binary
  | octal
  | decimal
  | hexadecimal
deriving DecidableEq, Repr

def digitValue? (c : Char) : Option Nat :=
  if '0' ≤ c ∧ c ≤ '9' then some (c.toNat - 48)
  else if 'a' ≤ c ∧ c ≤ 'f' then some (c.toNat - 87)
  else if 'A' ≤ c ∧ c ≤ 'F' then some (c.toNat - 55)
  else none

namespace Radix

def base : Radix → Nat
  | binary => 2
  | octal => 8
  | decimal => 10
  | hexadecimal => 16

def ofMark? (c : Char) : Option Radix :=
  if c = 'x' || c = 'X' then some hexadecimal
  else if c = 'o' || c = 'O' then some octal
  else if c = 'b' || c = 'B' then some binary
  else none

def digit? (radix : Radix) (c : Char) : Option Nat :=
  (digitValue? c).filter (· < radix.base)

def isDigit (radix : Radix) (c : Char) : Bool :=
  (radix.digit? c).isSome

def isBody (radix : Radix) (c : Char) : Bool :=
  c = '_' || radix.isDigit c

theorem ofMark?_ne_decimal (c : Char) : ofMark? c ≠ some decimal := by
  unfold ofMark?
  repeat' split
  all_goals nofun

end Radix
end ShapeLang
