import ShapeLang.Numeral.Literal
import ShapeLang.Proofs.Text.Delimited

/-! Numbers as they are written, in any radix: the digits have the number as their value, so they
tell it, also before more text that starts with no digit. -/

namespace ShapeLang.Radix

variable {radix : Radix} {m n : Nat} {r s : List Char}

theorem one_lt_base (radix : Radix) : 1 < radix.base := by
  cases radix <;> decide

theorem digit?_digitChar (h : n < radix.base) : radix.digit? n.digitChar = some n := by
  have hvalue : ∀ k < 16, digitValue? (Nat.digitChar k) = some k := by decide
  have hbase : radix.base ≤ 16 := by cases radix <;> decide
  rw [digit?, hvalue n (by omega)]
  simp [h]

theorem isDigit_digitChar (h : n < radix.base) : radix.isDigit n.digitChar := by
  rw [isDigit, digit?_digitChar h, Option.isSome_some]

theorem exists_digitChar_of_mem {c : Char} (h : c ∈ Nat.toDigits radix.base n) :
    ∃ k < radix.base, c = k.digitChar := by
  -- The digits before the last one are those of the quotient.
  induction n using Nat.strongRecOn with
  | ind n ih =>
    rw [Nat.toDigits_eq_if radix.one_lt_base] at h
    split at h
    · rename_i hsmall
      exact ⟨n, hsmall, List.mem_singleton.mp h⟩
    · rcases List.mem_append.mp h with hbefore | hlast
      · exact ih _ (Nat.div_lt_self (by have := radix.one_lt_base; omega) radix.one_lt_base) hbefore
      · exact ⟨_, Nat.mod_lt _ (by have := radix.one_lt_base; omega), List.mem_singleton.mp hlast⟩

theorem isDigit_of_mem_toDigits {c : Char} (h : c ∈ Nat.toDigits radix.base n) :
    radix.isDigit c := by
  obtain ⟨k, hk, rfl⟩ := exists_digitChar_of_mem h
  exact isDigit_digitChar hk

theorem not_mem_toDigits (radix : Radix) {c : Char} (hc : radix.isDigit c = false) (n : Nat) :
    c ∉ Nat.toDigits radix.base n := fun hmem =>
  Bool.false_ne_true (hc.symm.trans (isDigit_of_mem_toDigits hmem))

theorem value_append_digit (digits : List Char) (h : n < radix.base) :
    radix.value (digits ++ [n.digitChar]) = radix.value digits * radix.base + n := by
  simp [value, digit?_digitChar h]

theorem value_toDigits (radix : Radix) (n : Nat) :
    radix.value (Nat.toDigits radix.base n) = n := by
  induction n using Nat.strongRecOn with
  | ind n ih =>
    have hbase := radix.one_lt_base
    have hdivMod : n / radix.base * radix.base + n % radix.base = n := by
      rw [Nat.mul_comm]
      exact Nat.div_add_mod n radix.base
    rw [Nat.toDigits_eq_if hbase]
    split
    · rename_i hsmall
      simpa [value] using value_append_digit [] hsmall
    · rw [value_append_digit _ (Nat.mod_lt _ (by omega)),
        ih _ (Nat.div_lt_self (by omega) hbase), hdivMod]

theorem toDigits_append_inj (hr : ∀ c ∈ r.head?, radix.isDigit c = false)
    (hs : ∀ c ∈ s.head?, radix.isDigit c = false)
    (h : Nat.toDigits radix.base m ++ r = Nat.toDigits radix.base n ++ s) : m = n ∧ r = s := by
  obtain ⟨hdigits, htail⟩ := Text.run_append_inj (fun _ => isDigit_of_mem_toDigits)
    (fun _ => isDigit_of_mem_toDigits) hr hs h
  have hvalue := congrArg radix.value hdigits
  rw [value_toDigits, value_toDigits] at hvalue
  exact ⟨hvalue, htail⟩

theorem toString_append_inj {mark : Char} (hmark : Radix.decimal.isDigit mark = false)
    (h : (toString m).toList ++ mark :: r = (toString n).toList ++ mark :: s) :
    m = n ∧ r = s := by
  have hstop : ∀ t : List Char, ∀ c ∈ (mark :: t).head?, Radix.decimal.isDigit c = false := by
    rintro t c hc
    rwa [← Option.mem_some_iff.mp hc]
  have hdecimal : ∀ k : Nat, (toString k).toList = Nat.toDigits Radix.decimal.base k :=
    fun _ => Nat.toList_repr
  rw [hdecimal, hdecimal] at h
  obtain ⟨rfl, htail⟩ := toDigits_append_inj (hstop r) (hstop s) h
  exact ⟨rfl, (List.cons.inj htail).2⟩

end ShapeLang.Radix
