import ShapeLang.Lexeme.Reading
import ShapeLang.Text.Classes

/-! The classes that the first character of a lexeme can be of. No character is of two of them, so
a first character alone decides what goes on to read the rest. -/

namespace ShapeLang

open Text (decimalDigitRanges inRanges isBlank isDecimalDigit isLetter isPunctuation letterRanges)

theorem not_mem_of_all {p : Char → Bool} {marks : List Char} (hmarks : marks.all fun c => !p c)
    {c : Char} (hc : p c) : c ∉ marks := by
  intro hmark
  have hnot := List.all_eq_true.mp hmarks c hmark
  rw [hc] at hnot
  exact Bool.false_ne_true hnot

theorem inRanges_letterRanges_ascii :
    ∀ n < 128, inRanges letterRanges n = (65 ≤ n && n ≤ 90 || 97 ≤ n && n ≤ 122) := by
  decide

theorem isNameStart_iff_of_ascii {c : Char} (h : c.toNat < 128) :
    isNameStart c ↔
      c.toNat = 95 ∨ (65 ≤ c.toNat ∧ c.toNat ≤ 90) ∨ (97 ≤ c.toNat ∧ c.toNat ≤ 122) := by
  have hmark : c = '_' ↔ c.toNat = 95 := Char.toNat_inj.symm
  rw [isNameStart, isLetter, inRanges_letterRanges_ascii _ h]
  simp [hmark]

theorem isDigit_iff {radix : Radix} {c : Char} :
    radix.isDigit c ↔ ∃ n, digitValue? c = some n ∧ n < radix.base := by
  simp [Radix.isDigit, Radix.digit?, Option.isSome_filter, Option.any_eq_true]

theorem isDigit_decimal_iff {c : Char} :
    Radix.decimal.isDigit c ↔ 48 ≤ c.toNat ∧ c.toNat ≤ 57 := by
  have hten : ∀ n, n < Radix.decimal.base ↔ n < 10 := fun _ => Iff.rfl
  have hdigit : ('0' ≤ c ∧ c ≤ '9') ↔ 48 ≤ c.toNat ∧ c.toNat ≤ 57 := Iff.rfl
  have hlower : ('a' ≤ c ∧ c ≤ 'f') ↔ 97 ≤ c.toNat ∧ c.toNat ≤ 102 := Iff.rfl
  have hupper : ('A' ≤ c ∧ c ≤ 'F') ↔ 65 ≤ c.toNat ∧ c.toNat ≤ 70 := Iff.rfl
  simp only [isDigit_iff, hten, digitValue?, hdigit, hlower, hupper]
  repeat' split
  all_goals simp
  all_goals omega

theorem isPunctuation_iff {c : Char} :
    isPunctuation c ↔ (33 ≤ c.toNat ∧ c.toNat ≤ 47) ∨ (58 ≤ c.toNat ∧ c.toNat ≤ 64) ∨
      (91 ≤ c.toNat ∧ c.toNat ≤ 94) ∨ c.toNat = 96 ∨ (123 ≤ c.toNat ∧ c.toNat ≤ 126) := by
  simp [isPunctuation, or_assoc]

theorem toNat_of_isBlank {c : Char} (h : isBlank c) : c.toNat ≤ 32 := by
  have hblank : (((c = ' ' ∨ c = '\t') ∨ c = '\r') ∨ c = '\n') ∨ c = '\x0c' := by
    simpa [isBlank] using h
  rcases hblank with (((rfl | rfl) | rfl) | rfl) | rfl <;> decide

theorem isNameStart_of_isDigit {c : Char} (h : Radix.decimal.isDigit c) :
    isNameStart c = false := by
  obtain ⟨hlow, hhigh⟩ := isDigit_decimal_iff.mp h
  rw [Bool.eq_false_iff, Ne, isNameStart_iff_of_ascii (by omega)]
  omega

theorem isNameStart_of_isPunctuation {c : Char} (h : isPunctuation c) :
    isNameStart c = false := by
  have hmark := isPunctuation_iff.mp h
  rw [Bool.eq_false_iff, Ne, isNameStart_iff_of_ascii (by omega)]
  omega

theorem isDigit_of_isPunctuation {c : Char} (h : isPunctuation c) :
    Radix.decimal.isDigit c = false := by
  have hmark := isPunctuation_iff.mp h
  rw [Bool.eq_false_iff, Ne, isDigit_decimal_iff]
  omega

theorem isPunctuation_of_isBlank {c : Char} (h : isBlank c) : isPunctuation c = false := by
  have hblank := toNat_of_isBlank h
  rw [Bool.eq_false_iff, Ne, isPunctuation_iff]
  omega

theorem isDigit_of_isBlank {c : Char} (h : isBlank c) : Radix.decimal.isDigit c = false := by
  have hblank := toNat_of_isBlank h
  rw [Bool.eq_false_iff, Ne, isDigit_decimal_iff]
  omega

theorem isNameStart_of_isBlank {c : Char} (h : isBlank c) : isNameStart c = false := by
  have hblank := toNat_of_isBlank h
  rw [Bool.eq_false_iff, Ne, isNameStart_iff_of_ascii (by omega)]
  omega

theorem ofMark?_of_isBody {c : Char} (h : Radix.decimal.isBody c) : Radix.ofMark? c = none := by
  have hbody : c = '_' ∨ Radix.decimal.isDigit c := by simpa [Radix.isBody] using h
  rcases hbody with rfl | hdigit
  · decide
  · have hrange := isDigit_decimal_iff.mp hdigit
    have hne : ∀ mark : Char, 57 < mark.toNat → c ≠ mark := by
      rintro mark hmark rfl
      omega
    simp [Radix.ofMark?, hne]

theorem inRanges_decimalDigitRanges_ascii :
    ∀ n < 128, inRanges decimalDigitRanges n = (48 ≤ n && n ≤ 57) := by
  decide

theorem isNamePart_iff_of_ascii {c : Char} (h : c.toNat < 128) :
    isNamePart c ↔ (48 ≤ c.toNat ∧ c.toNat ≤ 57) ∨ c.toNat = 95 ∨
      (65 ≤ c.toNat ∧ c.toNat ≤ 90) ∨ (97 ≤ c.toNat ∧ c.toNat ≤ 122) := by
  rw [isNamePart, Bool.or_eq_true, isNameStart_iff_of_ascii h, isDecimalDigit,
    inRanges_decimalDigitRanges_ascii _ h, or_comm]
  simp

theorem isNamePart_of_isBody {radix : Radix} {c : Char} (h : radix.isBody c) : isNamePart c := by
  have hbody : c = '_' ∨ radix.isDigit c := by simpa [Radix.isBody] using h
  rcases hbody with rfl | hdigit
  · decide
  obtain ⟨n, hvalue, -⟩ := isDigit_iff.mp hdigit
  have hdecimal : ('0' ≤ c ∧ c ≤ '9') ↔ 48 ≤ c.toNat ∧ c.toNat ≤ 57 := Iff.rfl
  have hlower : ('a' ≤ c ∧ c ≤ 'f') ↔ 97 ≤ c.toNat ∧ c.toNat ≤ 102 := Iff.rfl
  have hupper : ('A' ≤ c ∧ c ≤ 'F') ↔ 65 ≤ c.toNat ∧ c.toNat ≤ 70 := Iff.rfl
  simp only [digitValue?, hdecimal, hlower, hupper] at hvalue
  repeat' split at hvalue
  · exact (isNamePart_iff_of_ascii (by omega)).mpr (by omega)
  · exact (isNamePart_iff_of_ascii (by omega)).mpr (by omega)
  · exact (isNamePart_iff_of_ascii (by omega)).mpr (by omega)
  · cases hvalue

theorem isBody_of_isNamePart {c : Char} (h : isNamePart c = false) (radix : Radix) :
    radix.isBody c = false := by
  rw [Bool.eq_false_iff] at h ⊢
  exact fun hbody => h (isNamePart_of_isBody hbody)

theorem mem_of_ofMark? {c : Char} {radix : Radix} (h : Radix.ofMark? c = some radix) :
    c ∈ ['x', 'X', 'o', 'O', 'b', 'B'] := by
  refine Decidable.byContradiction fun hc => ?_
  simp only [List.mem_cons, List.not_mem_nil, or_false, not_or] at hc
  simp [Radix.ofMark?, hc] at h

theorem ofMark?_of_isNamePart {c : Char} (h : isNamePart c = false) : Radix.ofMark? c = none := by
  have hmarks : ['x', 'X', 'o', 'O', 'b', 'B'].all fun c => !!isNamePart c := by decide
  have hc : c ∉ ['x', 'X', 'o', 'O', 'b', 'B'] :=
    not_mem_of_all (p := fun c => !isNamePart c) hmarks (by rw [h]; rfl)
  exact Option.eq_none_iff_forall_not_mem.mpr fun radix hradix => hc (mem_of_ofMark? hradix)

theorem isNamePart_of_ofMark? {c : Char} {radix : Radix} (h : Radix.ofMark? c = some radix) :
    isNamePart c := by
  cases hc : isNamePart c with
  | true => rfl
  | false => cases (ofMark?_of_isNamePart hc).symm.trans h

theorem isNamePart_of_isPunctuation {c : Char} (h : isPunctuation c) : isNamePart c = false := by
  have hmark := isPunctuation_iff.mp h
  rw [Bool.eq_false_iff, Ne, isNamePart_iff_of_ascii (by omega)]
  omega

theorem isNamePart_of_isBlank {c : Char} (h : isBlank c) : isNamePart c = false := by
  have hblank := toNat_of_isBlank h
  rw [Bool.eq_false_iff, Ne, isNamePart_iff_of_ascii (by omega)]
  omega

end ShapeLang
