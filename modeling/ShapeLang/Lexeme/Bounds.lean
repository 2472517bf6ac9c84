import ShapeLang.Lexeme.Reading

/-! A lexeme does not reach beyond its text. -/

namespace ShapeLang.Reading

theorem runLength_le (p : Char → Bool) (text : List Char) : runLength p text ≤ text.length :=
  (List.takeWhile_sublist p).length_le

theorem signLength_le (text : List Char) : signLength text ≤ text.length := by
  cases text with
  | nil => exact Nat.le_refl 0
  | cons c text =>
    rw [signLength]
    split <;> simp

theorem exponentLength_le (text : List Char) : exponentLength text ≤ text.length := by
  cases text with
  | nil => exact Nat.le_refl 0
  | cons mark text =>
    have hsign := signLength_le text
    have hdigits := runLength_le Radix.decimal.isDigit (text.drop (signLength text))
    rw [List.length_drop] at hdigits
    simp only [exponentLength, List.length_cons]
    split <;> try split
    all_goals omega

theorem extra_marked?_le {first : Char} {text : List Char} {reading : Reading}
    (h : marked? first text = some reading) : reading.extra ≤ text.length := by
  cases text with
  | nil => cases h
  | cons mark text =>
    rw [marked?] at h
    split at h
    · obtain ⟨radix, -, h⟩ := Option.bind_eq_some_iff.mp h
      have hbody := runLength_le radix.isBody text
      dsimp only at h
      split at h
      · cases h
      · obtain rfl := Option.some.inj h
        simp only [List.length_cons]
        omega
    · cases h

theorem extra_decimal_le (text : List Char) : (decimal text).extra ≤ text.length := by
  have hwhole := runLength_le Radix.decimal.isBody text
  have hdrop : (text.drop (runLength Radix.decimal.isBody text)).length =
      text.length - runLength Radix.decimal.isBody text := List.length_drop
  unfold decimal
  dsimp only
  split
  · rename_i tail htail
    have hfraction := runLength_le Radix.decimal.isBody tail
    have hexponent := exponentLength_le (tail.drop (runLength Radix.decimal.isBody tail))
    rw [htail, List.length_cons] at hdrop
    rw [List.length_drop] at hexponent
    dsimp only
    omega
  · have hexponent := exponentLength_le (text.drop (runLength Radix.decimal.isBody text))
    split <;> dsimp only <;> omega

theorem extra_number_le (first : Char) (text : List Char) :
    (number first text).extra ≤ text.length := by
  unfold number
  cases h : marked? first text with
  | none => exact extra_decimal_le text
  | some reading => exact extra_marked?_le h

theorem closeLength?_le {text : List Char} {n : Nat} (h : closeLength? text = some n) :
    n ≤ text.length := by
  fun_induction closeLength? text generalizing n with
  | case1 => cases h
  | case2 text =>
    obtain rfl := Option.some.inj h
    simp
  | case3 c text _ ih =>
    obtain ⟨m, hm, rfl⟩ := Option.map_eq_some_iff.mp h
    exact Nat.succ_le_succ (ih hm)

theorem extra_slash_le (text : List Char) : (slash text).extra ≤ text.length := by
  unfold slash
  split
  · rename_i text
    have := runLength_le (· ≠ '\n') text
    simp only [List.length_cons]
    omega
  · split
    · rename_i h
      have := closeLength?_le h
      simp only [List.length_cons]
      omega
    · simp only [List.length_cons]
      omega
  · exact Nat.zero_le _

def Body.length : Body → Nat
  | .closed n | .unclosed n => n

theorem Body.length_grow (n : Nat) (body : Body) : (body.grow n).length = n + body.length := by
  cases body <;> rfl

theorem length_stringBody (text : List Char) :
    (stringBody text).length ≤ text.length ∧
      ∀ n, stringBody text = .closed n → n < text.length := by
  fun_induction stringBody text with
  | case1 => simp [Body.length]
  | case2 => simp [Body.length]
  | case3 => simp [Body.length]
  | case4 c text hc ih =>
    refine ⟨by rw [Body.length_grow]; simp only [List.length_cons]; omega, ?_⟩
    intro n hn
    cases hbody : stringBody text with
    | unclosed m => simp [hbody, Body.grow] at hn
    | closed m =>
      have := ih.2 m hbody
      simp only [hbody, Body.grow, Body.closed.injEq] at hn
      simp only [List.length_cons]
      omega
  | case5 => simp [Body.length]
  | case6 c text _ _ hc ih =>
    refine ⟨by rw [Body.length_grow]; simp only [List.length_cons]; omega, ?_⟩
    intro n hn
    cases hbody : stringBody text with
    | unclosed m => simp [hbody, Body.grow] at hn
    | closed m =>
      have := ih.2 m hbody
      simp only [hbody, Body.grow, Body.closed.injEq] at hn
      simp only [List.length_cons]
      omega

theorem extra_string_le (text : List Char) : (string text).extra ≤ text.length := by
  obtain ⟨hle, hclosed⟩ := length_stringBody text
  unfold string
  split
  · rename_i n h
    exact hclosed n h
  · exact Nat.zero_le _
  · rename_i n _ h
    simpa [h, Body.length] using hle

theorem extra_rawString_le (text : List Char) : (rawString text).extra ≤ text.length := by
  have := runLength_le (· ≠ '\x60') text
  simp only [rawString]
  split
  · dsimp only
    omega
  · split
    · exact Nat.zero_le _
    · exact this

theorem extra_character_le (text : List Char) : (character text).extra ≤ text.length := by
  unfold character
  split
  · split <;> simp
  · split <;> simp
  · exact Nat.zero_le _

theorem extra_longest_le (first : Char) (text : List Char) :
    (longest first text).extra ≤ text.length := by
  unfold longest
  repeat' split
  · exact extra_slash_le text
  · exact extra_string_le text
  · exact extra_rawString_le text
  · exact extra_character_le text
  · exact extra_number_le first text
  · exact runLength_le isNamePart text
  · exact Nat.zero_le _
  · exact Nat.zero_le _

end ShapeLang.Reading
