import ShapeLang.Token.Kind

/-! The two sets of operators that a text can be read with. -/

namespace ShapeLang

inductive OperatorSet where
  | core
  /-- Adds subtraction, division, remainder, power, bitwise and, and the relations with `=`. -/
  | extended
deriving DecidableEq, Repr

namespace OperatorSet

open Token (Kind)

instance : Inhabited OperatorSet := ⟨core⟩

def coreMark? (mark : Char) : Option Kind :=
  if mark = '(' then some .leftParen
  else if mark = ')' then some .rightParen
  else if mark = '*' then some .multiply
  else if mark = '+' then some .add
  else if mark = '<' then some .lessThan
  else if mark = '>' then some .greaterThan
  else if mark = '[' then some .leftBracket
  else if mark = ']' then some .rightBracket
  else if mark = '|' then some .bitwiseOr
  else none

def extendedMark? (mark : Char) : Option Kind :=
  if mark = '-' then some .subtract
  else if mark = '/' then some .divide
  else if mark = '%' then some .mod
  else if mark = '^' then some .exponent
  else if mark = '&' then some .bitwiseAnd
  else if mark = '=' then some .equals
  else none

def mark? : OperatorSet → Char → Option Kind
  | core, mark => coreMark? mark
  | extended, mark => (coreMark? mark).or (extendedMark? mark)

def corePair? (text : String) : Option Kind :=
  if text = "||" then some .logicalOr
  else if text = "&&" then some .logicalAnd
  else if text = "[]" then some .sliceType
  else none

def extendedPair? (text : String) : Option Kind :=
  if text = "==" then some .equals
  else if text = ">=" then some .greaterOrEqual
  else if text = "<=" then some .lessOrEqual
  else none

def pair? : OperatorSet → String → Option Kind
  | core, text => corePair? text
  | extended, text => (corePair? text).or (extendedPair? text)

theorem carriesValue_of_mark? {operators : OperatorSet} {mark : Char} {kind : Kind}
    (h : operators.mark? mark = some kind) : kind.carriesValue = false := by
  have hcore : coreMark? mark = some kind → kind.carriesValue = false := by
    intro h
    unfold coreMark? at h
    repeat' split at h
    all_goals cases h <;> rfl
  have hextended : extendedMark? mark = some kind → kind.carriesValue = false := by
    intro h
    unfold extendedMark? at h
    repeat' split at h
    all_goals cases h <;> rfl
  cases operators with
  | core => exact hcore h
  | extended => exact (Option.or_eq_some_iff.mp h).elim hcore fun hmark => hextended hmark.2

theorem carriesValue_of_pair? {operators : OperatorSet} {text : String} {kind : Kind}
    (h : operators.pair? text = some kind) : kind.carriesValue = false := by
  have hcore : corePair? text = some kind → kind.carriesValue = false := by
    intro h
    unfold corePair? at h
    repeat' split at h
    all_goals cases h <;> rfl
  have hextended : extendedPair? text = some kind → kind.carriesValue = false := by
    intro h
    unfold extendedPair? at h
    repeat' split at h
    all_goals cases h <;> rfl
  cases operators with
  | core => exact hcore h
  | extended => exact (Option.or_eq_some_iff.mp h).elim hcore fun hpair => hextended hpair.2

end OperatorSet
end ShapeLang
