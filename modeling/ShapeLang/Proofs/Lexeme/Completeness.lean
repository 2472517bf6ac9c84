import ShapeLang.Lexeme.Soundness
import ShapeLang.Proofs.Text.Classes

/-! What the grammar allows is read. Where a text of a category stands, the reading takes it whole
and as that category, or goes on beyond it. -/

namespace ShapeLang.Reading

open Category (IsDecimal IsExponent IsItem Spells)
open Text (isPunctuation)

/-- Reads `n` more characters as the category, or more than that. -/
def Reaches (category : Category) (n : Nat) (reading : Reading) : Prop :=
  reading = ⟨some category, n⟩ ∨ n < reading.extra

theorem runLength_append {p : Char → Bool} {a : List Char} (h : ∀ c ∈ a, p c) (b : List Char) :
    runLength p (a ++ b) = a.length + runLength p b := by
  rw [runLength, List.takeWhile_append_of_pos h, List.length_append, runLength]

theorem runLength_cons_of_neg {p : Char → Bool} {c : Char} (h : p c = false) (text : List Char) :
    runLength p (c :: text) = 0 := by
  rw [runLength, List.takeWhile_cons_of_neg (by simp [h]), List.length_nil]

theorem runLength_append_of_not_mem {mark : Char} {a : List Char} (h : mark ∉ a) (b : List Char) :
    runLength (· ≠ mark) (a ++ b) = a.length + runLength (· ≠ mark) b := by
  refine runLength_append (fun c hc => ?_) b
  exact decide_eq_true fun heq => h (heq ▸ hc)

theorem reaches_add (category : Category) (n extra : Nat) :
    Reaches category n ⟨some category, n + extra⟩ := by
  rcases Nat.eq_zero_or_pos extra with hzero | hpos
  · exact Or.inl (by rw [hzero, Nat.add_zero])
  · exact Or.inr (Nat.lt_add_of_pos_right hpos)

theorem Reaches.shift {category : Category} {m : Nat} {reading : Reading}
    (h : Reaches category m reading) (n : Nat) :
    Reaches category (n + m) ⟨reading.category, n + reading.extra⟩ := by
  rcases h with rfl | hlt
  · exact Or.inl rfl
  · exact Or.inr (Nat.add_lt_add_left hlt n)

theorem closeLength?_append {body : List Char} (h : ¬ ['*', '/'] <:+: body ++ ['*'])
    (rest : List Char) :
    closeLength? (body ++ '*' :: '/' :: rest) = some (body.length + 2) := by
  induction body with
  | nil => rfl
  | cons c body ih =>
    rw [List.cons_append, List.infix_cons_iff, not_or] at h
    have hopen : ∀ text, c = '*' → body ++ '*' :: '/' :: rest = '/' :: text → False := by
      rintro text rfl heq
      cases body with
      | nil => simp at heq
      | cons d body =>
        obtain ⟨rfl, -⟩ := List.cons.inj heq
        exact h.1 ⟨body ++ ['*'], rfl⟩
    rw [List.cons_append, closeLength?.eq_3 _ _ hopen, ih h.2, Option.map_some, List.length_cons]

theorem reaches_lineComment {body : List Char} (h : '\n' ∉ body) (rest : List Char) :
    Reaches .lineComment (body.length + 1) (slash ('/' :: (body ++ rest))) := by
  rw [slash, runLength_append_of_not_mem h, ← Nat.add_assoc, Nat.add_comm 1]
  exact reaches_add _ _ _

theorem slash_blockComment {body : List Char} (h : ¬ ['*', '/'] <:+: body ++ ['*'])
    (rest : List Char) :
    slash ('*' :: (body ++ '*' :: '/' :: rest)) = ⟨some .blockComment, body.length + 3⟩ := by
  simp only [slash, closeLength?_append h, Nat.add_comm 1]

theorem reaches_slash (text : List Char) : Reaches (.punctuation '/') 0 (slash text) := by
  unfold slash
  split
  · exact Or.inr (Nat.lt_add_right _ Nat.one_pos)
  · split <;> exact Or.inr (Nat.lt_add_right _ Nat.one_pos)
  · exact Or.inl rfl

theorem signLength_append {sign digits : List Char}
    (hsign : sign = [] ∨ sign = ['+'] ∨ sign = ['-']) (hne : digits ≠ [])
    (hdigits : ∀ c ∈ digits, Radix.decimal.isDigit c) (rest : List Char) :
    signLength (sign ++ (digits ++ rest)) = sign.length := by
  rcases hsign with rfl | rfl | rfl
  · cases digits with
    | nil => exact absurd rfl hne
    | cons c digits =>
      have hc := hdigits c (List.mem_cons_self ..)
      have hplus : c ≠ '+' := by
        rintro rfl
        exact absurd hc (by decide)
      have hminus : c ≠ '-' := by
        rintro rfl
        exact absurd hc (by decide)
      simp [signLength, hplus, hminus]
  · rfl
  · rfl

theorem exponentLength_append {text : List Char} (h : IsExponent text) (rest : List Char) :
    exponentLength (text ++ rest) = text.length + runLength Radix.decimal.isDigit rest := by
  obtain ⟨mark, sign, digits, rfl, hmark, hsign, hne, hdigits⟩ := h
  have hlength : 0 < digits.length := List.length_pos_iff.mpr hne
  rw [List.cons_append, List.append_assoc, exponentLength, if_pos (by simpa using hmark)]
  dsimp only
  rw [signLength_append hsign hne hdigits, List.drop_left, runLength_append hdigits,
    if_neg (by omega), List.length_cons, List.length_append]
  omega

theorem decimal_append {body : List Char} (h : ∀ c ∈ body, Radix.decimal.isBody c)
    (text : List Char) :
    decimal (body ++ text) =
      ⟨(decimal text).category, body.length + (decimal text).extra⟩ := by
  unfold decimal
  dsimp only
  rw [runLength_append h, List.drop_length_add_append]
  split
  · simp only [Nat.add_assoc]
  · split <;> simp only [Nat.add_assoc]

theorem reaches_decimal (text : List Char) : Reaches (.integer .decimal) 0 (decimal text) := by
  unfold decimal
  dsimp only
  split
  · right
    dsimp only
    omega
  · split
    · simpa using reaches_add (.integer .decimal) 0 (runLength Radix.decimal.isBody text)
    · right
      dsimp only
      omega

theorem reaches_decimal_exponent {tail : List Char} (h : IsExponent tail) (rest : List Char) :
    Reaches .float tail.length (decimal (tail ++ rest)) := by
  have hlength := exponentLength_append h rest
  obtain ⟨mark, sign, digits, rfl, hmark, -⟩ := h
  have hbody : Radix.decimal.isBody mark = false := by
    rcases hmark with rfl | rfl <;> decide
  have hpoint : mark ≠ '.' := by
    rcases hmark with rfl | rfl <;> decide
  rw [List.cons_append] at hlength ⊢
  unfold decimal
  dsimp only
  rw [runLength_cons_of_neg hbody, List.drop_zero]
  split
  · rename_i heq
    exact absurd (List.cons.inj heq).1 hpoint
  · rw [hlength, if_neg (by simp), Nat.zero_add]
    exact reaches_add _ _ _

theorem decimal_point (tail : List Char) :
    decimal ('.' :: tail) =
      ⟨some .float, 1 + runLength Radix.decimal.isBody tail +
        exponentLength (tail.drop (runLength Radix.decimal.isBody tail))⟩ := by
  have hrun : runLength Radix.decimal.isBody ('.' :: tail) = 0 :=
    runLength_cons_of_neg (by decide) tail
  unfold decimal
  dsimp only
  rw [hrun, List.drop_zero, Nat.zero_add]
  rfl

theorem reaches_decimal_fraction {fraction exponent : List Char}
    (hfraction : ∀ c ∈ fraction, Radix.decimal.isBody c)
    (hexponent : exponent = [] ∨ IsExponent exponent) (rest : List Char) :
    Reaches .float (1 + fraction.length + exponent.length)
      (decimal ('.' :: (fraction ++ (exponent ++ rest)))) := by
  rw [decimal_point, runLength_append hfraction, List.drop_length_add_append]
  rcases hexponent with rfl | hexponent
  · rw [List.nil_append, List.length_nil, Nat.add_zero, ← Nat.add_assoc 1, Nat.add_assoc]
    exact reaches_add _ _ _
  · have hlength := exponentLength_append hexponent rest
    have hmark : runLength Radix.decimal.isBody (exponent ++ rest) = 0 := by
      obtain ⟨mark, sign, digits, rfl, hmark, -⟩ := hexponent
      exact runLength_cons_of_neg (by rcases hmark with rfl | rfl <;> decide) _
    rw [hmark, List.drop_zero, hlength, Nat.add_zero, ← Nat.add_assoc]
    exact reaches_add _ _ _

theorem exists_of_marked? {first : Char} {text : List Char} {reading : Reading}
    (h : marked? first text = some reading) :
    ∃ radix n, 0 < n ∧ reading = ⟨some (.integer radix), n⟩ := by
  cases text with
  | nil => cases h
  | cons mark text =>
    rw [marked?] at h
    split at h
    · obtain ⟨radix, -, h⟩ := Option.bind_eq_some_iff.mp h
      dsimp only at h
      split at h
      · cases h
      · exact ⟨radix, _, Nat.lt_add_right _ Nat.one_pos, (Option.some.inj h).symm⟩
    · cases h

theorem number_cons_of_ofMark?_eq_none {mark : Char} (h : Radix.ofMark? mark = none)
    (first : Char) (text : List Char) :
    number first (mark :: text) = decimal (mark :: text) := by
  have hmarked : marked? first (mark :: text) = none := by
    rw [marked?]
    split
    · rw [h, Option.bind_none]
    · rfl
  rw [number, hmarked, Option.getD_none]

theorem reaches_number_integer {first : Char} {body : List Char}
    (h : IsDecimal (first :: body)) (rest : List Char) :
    Reaches (.integer .decimal) body.length (number first (body ++ rest)) := by
  obtain ⟨_, _, heq, -, hbody⟩ := h
  obtain ⟨rfl, rfl⟩ := List.cons.inj heq
  cases body with
  | nil =>
    unfold number
    cases hmarked : marked? first rest with
    | none => simpa [hmarked] using reaches_decimal rest
    | some reading =>
      obtain ⟨radix, n, hpos, rfl⟩ := exists_of_marked? hmarked
      rw [List.nil_append, hmarked]
      exact Or.inr hpos
  | cons c body =>
    rw [List.cons_append,
      number_cons_of_ofMark?_eq_none (ofMark?_of_isBody (hbody c (List.mem_cons_self ..))),
      ← List.cons_append, decimal_append hbody]
    exact (reaches_decimal rest).shift _

theorem reaches_number_float {first : Char} {body : List Char}
    (h : Spells .float (first :: body)) (rest : List Char) :
    Reaches .float body.length (number first (body ++ rest)) := by
  obtain ⟨_, tail, heq, ⟨_, whole, rfl, -, hwhole⟩, htail⟩ := h
  rw [List.cons_append] at heq
  obtain ⟨rfl, rfl⟩ := List.cons.inj heq
  have hreaches : Reaches .float (whole ++ tail).length (decimal (whole ++ (tail ++ rest))) := by
    rw [decimal_append hwhole, List.length_append]
    refine Reaches.shift ?_ _
    rcases htail with hexponent | ⟨fraction, exponent, rfl, hfraction, hexponent⟩
    · exact reaches_decimal_exponent hexponent rest
    · have hreads := reaches_decimal_fraction hfraction hexponent rest
      rw [List.cons_append, List.append_assoc, List.length_cons, List.length_append,
        Nat.add_comm _ 1, ← Nat.add_assoc]
      exact hreads
  -- Neither a digit nor the point nor the exponent after the first digit marks a radix.
  have hnumber : number first (whole ++ (tail ++ rest)) = decimal (whole ++ (tail ++ rest)) := by
    cases whole with
    | cons c whole =>
      exact number_cons_of_ofMark?_eq_none
        (ofMark?_of_isBody (hwhole c (List.mem_cons_self ..))) _ _
    | nil =>
      rcases htail with ⟨mark, sign, digits, rfl, hmark, -⟩ | ⟨fraction, exponent, rfl, -⟩
      · exact number_cons_of_ofMark?_eq_none (by rcases hmark with rfl | rfl <;> decide) _ _
      · exact number_cons_of_ofMark?_eq_none (by decide) _ _
  rw [List.append_assoc, hnumber]
  exact hreaches

theorem reaches_number_marked {radix : Radix} {mark : Char} {body : List Char}
    (hmark : Radix.ofMark? mark = some radix) (hne : body ≠ [])
    (hbody : ∀ c ∈ body, radix.isBody c) (rest : List Char) :
    Reaches (.integer radix) (body.length + 1) (number '0' (mark :: (body ++ rest))) := by
  have hpos : 0 < body.length := List.length_pos_iff.mpr hne
  have hmarked : marked? '0' (mark :: (body ++ rest)) =
      some ⟨some (.integer radix), body.length + 1 + runLength radix.isBody rest⟩ := by
    rw [marked?, if_pos rfl, hmark, Option.bind_some]
    dsimp only
    rw [runLength_append hbody, if_neg (by omega), Nat.add_right_comm, Nat.add_comm 1]
  rw [number, hmarked, Option.getD_some]
  exact reaches_add _ _ _

theorem Body.grow_zero (body : Body) : body.grow 0 = body := by
  cases body <;> simp [grow]

theorem Body.grow_grow (body : Body) (m n : Nat) : (body.grow m).grow n = body.grow (n + m) := by
  cases body <;> simp [grow, Nat.add_assoc]

theorem stringBody_item {item : List Char} (h : IsItem '"' item) (text : List Char) :
    stringBody (item ++ text) = (stringBody text).grow item.length := by
  rcases h with ⟨c, rfl, hquote, hescape, hfeed, hreturn⟩ | ⟨c, rfl, hfeed⟩
  · rw [List.singleton_append, stringBody.eq_4 _ _ hquote (fun _ _ heq _ => hescape heq),
      if_neg (by simp [hescape, hfeed, hreturn]), List.length_singleton]
  · rw [List.cons_append, List.singleton_append, stringBody, if_neg hfeed]
    rfl

theorem stringBody_items {items : List (List Char)} (h : ∀ item ∈ items, IsItem '"' item)
    (text : List Char) :
    stringBody (items.flatten ++ text) = (stringBody text).grow items.flatten.length := by
  induction items with
  | nil => rw [List.flatten_nil, List.nil_append, List.length_nil, Body.grow_zero]
  | cons item items ih =>
    have hitems : ∀ item ∈ items, IsItem '"' item :=
      fun item hitem => h item (List.mem_cons_of_mem _ hitem)
    rw [List.flatten_cons, List.append_assoc, stringBody_item (h item (List.mem_cons_self ..)),
      ih hitems, Body.grow_grow, List.length_append]

theorem string_items {items : List (List Char)} (h : ∀ item ∈ items, IsItem '"' item)
    (rest : List Char) :
    string (items.flatten ++ '"' :: rest) = ⟨some .string, items.flatten.length + 1⟩ := by
  rw [string, stringBody_items h, stringBody]
  rfl

theorem reaches_string (text : List Char) : Reaches (.punctuation '"') 0 (string text) := by
  unfold string
  split
  · exact Or.inr (Nat.succ_pos _)
  · exact Or.inl rfl
  · rename_i n hn _
    exact Or.inr (Nat.pos_of_ne_zero fun hzero => hn hzero)

theorem rawString_append {body : List Char} (h : '\x60' ∉ body) (rest : List Char) :
    rawString (body ++ '\x60' :: rest) = ⟨some .rawString, body.length + 1⟩ := by
  have hlength : runLength (· ≠ '\x60') (body ++ '\x60' :: rest) = body.length := by
    rw [runLength_append_of_not_mem h, runLength_cons_of_neg (by decide), Nat.add_zero]
  simp only [rawString]
  rw [hlength, if_pos (by simp)]

theorem reaches_rawString (text : List Char) :
    Reaches (.punctuation '\x60') 0 (rawString text) := by
  unfold rawString
  dsimp only
  split
  · exact Or.inr (Nat.succ_pos _)
  · split
    · exact Or.inl rfl
    · rename_i hzero
      exact Or.inr (Nat.pos_of_ne_zero hzero)

theorem character_item {item : List Char} (h : IsItem '\'' item) (rest : List Char) :
    character (item ++ '\'' :: rest) = ⟨some .character, item.length + 1⟩ := by
  rcases h with ⟨c, rfl, hquote, hescape, hfeed, hreturn⟩ | ⟨c, rfl, hfeed⟩
  · rw [List.singleton_append, character.eq_2 _ _ (fun _ heq _ => hescape heq),
      if_neg (by simp [hquote, hescape, hfeed, hreturn])]
    rfl
  · rw [List.cons_append, List.singleton_append, character, if_neg hfeed]
    rfl

theorem reaches_character (text : List Char) :
    Reaches (.punctuation '\'') 0 (character text) := by
  unfold character
  split
  · split
    · exact Or.inl rfl
    · exact Or.inr (Nat.succ_pos _)
  · split
    · exact Or.inl rfl
    · exact Or.inr (Nat.succ_pos _)
  · exact Or.inl rfl

theorem longest_of_class {p : Char → Bool} (hmarks : ['/', '"', '\x60', '\''].all fun c => !p c)
    {first : Char} (hfirst : p first) (text : List Char) :
    longest first text =
      if Radix.decimal.isDigit first then number first text
      else if isNameStart first then ⟨some .identifier, runLength isNamePart text⟩
      else if isPunctuation first then ⟨some (.punctuation first), 0⟩
      else ⟨none, 0⟩ := by
  have hne : first ∉ ['/', '"', '\x60', '\''] := not_mem_of_all hmarks hfirst
  simp only [List.mem_cons, List.not_mem_nil, or_false, not_or] at hne
  rw [longest, if_neg hne.1, if_neg hne.2.1, if_neg hne.2.2.1, if_neg hne.2.2.2]

theorem longest_of_isDigit {first : Char} (h : Radix.decimal.isDigit first) (text : List Char) :
    longest first text = number first text := by
  rw [longest_of_class (p := Radix.decimal.isDigit) (by decide) h, if_pos h]

theorem longest_of_isNameStart {first : Char} (h : isNameStart first) (text : List Char) :
    longest first text = ⟨some .identifier, runLength isNamePart text⟩ := by
  have hdigit : ¬ Radix.decimal.isDigit first := fun hdigit =>
    absurd h (by simp [isNameStart_of_isDigit hdigit])
  rw [longest_of_class (p := isNameStart) (by decide) h, if_neg hdigit, if_pos h]

theorem reaches_longest_punctuation {mark : Char} (h : isPunctuation mark) (text : List Char) :
    Reaches (.punctuation mark) 0 (longest mark text) := by
  unfold longest
  split
  · rename_i hmark
    rw [hmark]
    exact reaches_slash text
  split
  · rename_i hmark
    rw [hmark]
    exact reaches_string text
  split
  · rename_i hmark
    rw [hmark]
    exact reaches_rawString text
  split
  · rename_i hmark
    rw [hmark]
    exact reaches_character text
  rw [isDigit_of_isPunctuation h, isNameStart_of_isPunctuation h]
  exact Or.inl rfl

theorem reaches_longest {category : Category} {first : Char} {body : List Char}
    (h : category.Spells (first :: body)) (rest : List Char) :
    Reaches category body.length (longest first (body ++ rest)) := by
  cases category with
  | lineComment =>
    obtain ⟨content, heq, hline⟩ := h
    obtain ⟨rfl, rfl⟩ := List.cons.inj heq
    exact reaches_lineComment hline rest
  | blockComment =>
    obtain ⟨content, heq, hearly⟩ := h
    obtain ⟨rfl, rfl⟩ := List.cons.inj heq
    left
    have hread := slash_blockComment hearly rest
    simpa [longest] using hread
  | identifier =>
    obtain ⟨_, _, heq, hfirst, hparts⟩ := h
    obtain ⟨rfl, rfl⟩ := List.cons.inj heq
    rw [longest_of_isNameStart hfirst, runLength_append hparts]
    exact reaches_add _ _ _
  | integer radix =>
    have hmarked : ∀ radix : Radix, (∃ mark content, first :: body = '0' :: mark :: content ∧
        Radix.ofMark? mark = some radix ∧ content ≠ [] ∧ ∀ c ∈ content, radix.isBody c) →
          Reaches (.integer radix) body.length (longest first (body ++ rest)) := by
      rintro radix ⟨mark, content, heq, hmark, hne, hcontent⟩
      obtain ⟨rfl, rfl⟩ := List.cons.inj heq
      rw [longest_of_isDigit (by decide)]
      exact reaches_number_marked hmark hne hcontent rest
    cases radix with
    | decimal =>
      obtain ⟨_, _, heq, hfirst, -⟩ := id h
      rw [longest_of_isDigit ((List.cons.inj heq).1 ▸ hfirst)]
      exact reaches_number_integer h rest
    | binary => exact hmarked .binary h
    | octal => exact hmarked .octal h
    | hexadecimal => exact hmarked .hexadecimal h
  | float =>
    obtain ⟨_, _, heq, ⟨_, _, rfl, hfirst, -⟩, -⟩ := id h
    rw [longest_of_isDigit ((List.cons.inj heq).1 ▸ hfirst)]
    exact reaches_number_float h rest
  | string =>
    obtain ⟨items, heq, hitems⟩ := h
    obtain ⟨rfl, rfl⟩ := List.cons.inj heq
    left
    have hread := string_items hitems rest
    simpa [longest] using hread
  | rawString =>
    obtain ⟨content, heq, hopen⟩ := h
    obtain ⟨rfl, rfl⟩ := List.cons.inj heq
    left
    have hread := rawString_append hopen rest
    simpa [longest] using hread
  | character =>
    obtain ⟨item, heq, hitem⟩ := h
    obtain ⟨rfl, rfl⟩ := List.cons.inj heq
    left
    have hread := character_item hitem rest
    simpa [longest] using hread
  | punctuation mark =>
    obtain ⟨heq, hmark⟩ := h
    obtain ⟨rfl, rfl⟩ := List.cons.inj heq
    exact reaches_longest_punctuation hmark rest

end ShapeLang.Reading
