import Mathlib.Data.List.Induction
import Mathlib.Data.Nat.Digits.Defs
import ShapeLang.Lexeme.Grammar
import ShapeLang.Proofs.Numeral.Word

/-! Integer literals denote the number that their digits spell. Separators, zeros in front and the
case of letters have no part in it, and of the words only the width has: a number denotes itself as
long as there is a word for it. -/

namespace ShapeLang

/-- What a literal of the number `m` denotes. -/
def IntegerValue.exact (m : Nat) : IntegerValue :=
  if m < UInt64.size then .word (.ofNat m) else .overflow

namespace IntegerValue

variable {m : Nat}

theorem exact_of_lt (h : m < UInt64.size) : exact m = .word (.ofNat m) :=
  if_pos h

theorem exact_eq_word_iff {n : UInt64} : exact m = .word n ↔ m = n.toNat := by
  constructor
  · intro h
    rw [exact] at h
    split at h
    · rename_i hword
      rw [← word.inj h, UInt64.toNat_ofNat_of_lt' hword]
    · cases h
  · rintro rfl
    rw [exact_of_lt n.toNat_lt, UInt64.ofNat_toNat]

theorem exact_eq_overflow_iff : exact m = .overflow ↔ UInt64.size ≤ m := by
  by_cases h : m < UInt64.size
  · rw [exact, if_pos h]
    exact iff_of_false nofun (Nat.not_le_of_lt h)
  · rw [exact, if_neg h]
    exact iff_of_true rfl (Nat.le_of_not_lt h)

end IntegerValue

namespace Radix

variable {radix : Radix} {literal digits : List Char}

/-- A literal without the two characters that mark its radix; a decimal one has no mark. -/
def unmarked (radix : Radix) (literal : List Char) : List Char :=
  if radix = decimal then literal else literal.drop 2

def digitValues (radix : Radix) (literal : List Char) : List Nat :=
  (radix.unmarked literal).filterMap radix.digit?

def number (radix : Radix) (literal : List Char) : Nat :=
  Nat.ofDigits radix.base (radix.digitValues literal).reverse

theorem exists_digit?_of_isDigit {c : Char} (h : radix.isDigit c) : ∃ d, radix.digit? c = some d :=
  Option.isSome_iff_exists.mp h

theorem digit?_separator (radix : Radix) : radix.digit? '_' = none := by
  cases radix <;> decide

theorem value_eq_ofDigits (h : ∀ c ∈ digits, radix.isDigit c) :
    radix.value digits = Nat.ofDigits radix.base (digits.filterMap radix.digit?).reverse := by
  induction digits using List.reverseRecOn with
  | nil => rfl
  | append_singleton digits c ih =>
    obtain ⟨hdigits, hc⟩ := List.forall_mem_append.mp h
    obtain ⟨d, hd⟩ := exists_digit?_of_isDigit (hc c (List.mem_singleton_self c))
    have hvalue : radix.value (digits ++ [c]) = radix.value digits * radix.base + d := by
      simp [value, hd]
    have hlast : [c].filterMap radix.digit? = [d] := List.filterMap_cons_some hd
    rw [hvalue, ih hdigits, List.filterMap_append, hlast, List.reverse_append,
      List.reverse_singleton, List.singleton_append, Nat.ofDigits_cons, Nat.mul_comm, Nat.add_comm]

theorem isBody_of_mem_unmarked (h : (Category.integer radix).Spells literal) :
    ∀ c ∈ radix.unmarked literal, radix.isBody c := by
  cases radix with
  | decimal =>
    obtain ⟨first, body, rfl, hfirst, hbody⟩ := h
    exact List.forall_mem_cons.mpr ⟨by simp [isBody, hfirst], hbody⟩
  | binary | octal | hexadecimal =>
    obtain ⟨mark, body, rfl, -, -, hbody⟩ := h
    exact hbody

theorem digitValues_ne_nil_of_decimal (h : (Category.integer .decimal).Spells literal) :
    decimal.digitValues literal ≠ [] := by
  obtain ⟨first, body, rfl, hfirst, -⟩ := h
  obtain ⟨d, hd⟩ := exists_digit?_of_isDigit hfirst
  rw [digitValues, unmarked, if_pos rfl, List.filterMap_cons_some hd]
  exact List.cons_ne_nil _ _

theorem filterMap_digitsOf (radix : Radix) (literal : List Char) :
    (radix.digitsOf literal).filterMap radix.digit? = radix.digitValues literal := by
  have hsame (c : Char) :
      (if decide (c ≠ '_') = true then radix.digit? c else none) = radix.digit? c := by
    by_cases hc : c = '_'
    · rw [hc, digit?_separator]
      rfl
    · rw [if_pos (decide_eq_true hc)]
  rw [digitsOf, List.filterMap_filter, funext hsame]
  rfl

theorem isDigit_of_mem_digitsOf (h : (Category.integer radix).Spells literal) :
    ∀ c ∈ radix.digitsOf literal, radix.isDigit c := by
  intro c hc
  obtain ⟨hmem, hne⟩ := List.mem_filter.mp hc
  have hbody := isBody_of_mem_unmarked h c hmem
  simpa [isBody, of_decide_eq_true hne] using hbody

theorem readLiteral?_eq (h : (Category.integer radix).Spells literal) :
    radix.readLiteral? literal =
      if radix.digitValues literal = [] then none else some (.exact (radix.number literal)) := by
  have hdigits := isDigit_of_mem_digitsOf h
  have hvalue : radix.value (radix.digitsOf literal) = radix.number literal := by
    rw [value_eq_ofDigits hdigits, filterMap_digitsOf, number]
  have hempty : (radix.digitsOf literal).isEmpty ↔ radix.digitValues literal = [] := by
    rw [← filterMap_digitsOf, List.filterMap_eq_nil_iff, List.isEmpty_iff]
    refine ⟨fun hnil => by simp [hnil], fun hnone => ?_⟩
    refine List.eq_nil_iff_forall_not_mem.mpr fun c hc => ?_
    obtain ⟨d, hd⟩ := exists_digit?_of_isDigit (hdigits c hc)
    cases (hnone c hc).symm.trans hd
  simp only [readLiteral?, readWord?_eq, hvalue, hempty]
  refine if_congr Iff.rfl rfl (congrArg some ?_)
  rw [IntegerValue.exact]
  split <;> rfl

end Radix
end ShapeLang
