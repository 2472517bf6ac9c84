import ShapeLang.Proofs.Token.Literals
import ShapeLang.Proofs.Token.Windows

/-! The size of an array is read twice: as a literal when it is scanned, and again from the text of
the brackets and what is between them when these are joined. Both readings are of the same digits
and agree on what these denote. Joining fails where the digits are no size, and nowhere else. -/

namespace ShapeLang.Token

variable {operators set : OperatorSet} {xs before after tokens : List Token} {a b c : Token}
  {n : Nat} {digits : List Char}

theorem isSize_of_isDigits (ha : a.text = "[") (hb : IsDigits b.text n) (hc : c.text = "]") :
    IsSize (a.text ++ b.text ++ c.text) n := by
  rw [ha, hc]
  exact isSize_iff.mpr hb

theorem AsScanned.triple?_eq (h : AsScanned set (a :: b :: c :: after)) (ha : a.text = "[")
    (hc : c.text = "]") (hdigits : IsDigits b.text n) :
    triple? a b c =
      if 1 ≤ n ∧ n < UInt64.size then
        .ok (some (arrayType (a.text ++ b.text ++ c.text) (.ofNat n)
          ⟨a.span.start, c.span.stop⟩ a.position))
      else
        .error ⟨.invalidArraySize (a.text ++ b.text ++ c.text), ⟨a.span.start, c.span.stop⟩,
          a.position⟩ := by
  rw [triple?_of_isSize (isSize_of_isDigits ha hdigits hc), h.hull_eq (by simp)]

theorem AsScanned.combine_window (h : AsScanned set (before ++ a :: b :: c :: after))
    (ha : a.text = "[") (hc : c.text = "]") (hdigits : IsDigits b.text n) :
    combine operators (before ++ a :: b :: c :: after) =
      (combine operators before).bind fun left => (triple? a b c).bind fun token =>
        (combine operators after).map (left ++ token.toList ++ ·) := by
  have hopener : a.text ∈ openingMarks := ha ▸ List.mem_cons_self ..
  have hclear : ¬ Straddled operators before (a :: b :: c :: after) :=
    h.not_straddled_of_opener hopener
  cases hbefore : combine operators before with
  | error error => exact combine_append_of_error hclear hbefore
  | ok left =>
    rw [combine_append_of_ok hclear hbefore]
    have htriple := h.right.triple?_eq ha hc hdigits
    by_cases hword : 1 ≤ n ∧ n < UInt64.size
    · rw [if_pos hword] at htriple
      rw [combine_triple htriple, htriple]
      cases combine operators after with
      | error error => rfl
      | ok right => exact congrArg Except.ok (List.append_assoc left [_] right).symm
    · rw [if_neg hword] at htriple
      rw [combine_triple_error htriple, htriple]
      rfl

/-- Brackets around digits that count nothing, or too much for a word. -/
def NoSize (a b c : Token) : Prop :=
  a.text = "[" ∧ (∃ n, IsDigits b.text n ∧ (n = 0 ∨ UInt64.size ≤ n)) ∧ c.text = "]"

def HasNoSize (tokens : List Token) : Prop :=
  ∃ before a b c after, tokens = before ++ a :: b :: c :: after ∧ NoSize a b c

theorem HasNoSize.append_right (h : HasNoSize xs) (ys : List Token) : HasNoSize (xs ++ ys) := by
  obtain ⟨before, a, b, c, after, rfl, hsize⟩ := h
  exact ⟨before, a, b, c, after ++ ys, by simp, hsize⟩

theorem HasNoSize.exists_first (h : HasNoSize tokens) :
    ∃ before a b c after, tokens = before ++ a :: b :: c :: after ∧ NoSize a b c ∧
      ¬ HasNoSize (before ++ [a, b]) := by
  -- From the end, since a size that is not the last three tokens is one of the tokens before them.
  induction tokens using List.reverseRecOn with
  | nil =>
    obtain ⟨before, a, b, c, after, hnil, -⟩ := h
    cases before <;> cases hnil
  | append_singleton tokens last ih =>
    by_cases hbefore : HasNoSize tokens
    · obtain ⟨before, a, b, c, after, rfl, hfirst⟩ := ih hbefore
      exact ⟨before, a, b, c, after ++ [last], by simp, hfirst⟩
    obtain ⟨before, a, b, c, after, heq, hsize⟩ := h
    rcases List.eq_nil_or_concat' after with rfl | ⟨after, other, rfl⟩
    · obtain ⟨rfl, -⟩ := List.append_inj' (heq.trans (by simp : _ = before ++ [a, b] ++ [c])) rfl
      exact ⟨before, a, b, c, [], heq, hsize, hbefore⟩
    · obtain ⟨rfl, -⟩ := List.append_inj'
        (heq.trans (by simp : _ = before ++ a :: b :: c :: after ++ [other])) rfl
      exact absurd ⟨before, a, b, c, after, rfl, hsize⟩ hbefore

theorem AsScanned.hasNoSize_of_combine_error (h : AsScanned set tokens) {error : LexError}
    (herror : combine operators tokens = .error error) : HasNoSize tokens := by
  obtain ⟨blocks, out, a, b, c, rest, n, hcut, hsize, hwrong, -⟩ :=
    exists_cut_of_combine_error herror
  have heq := hcut.tokens_eq
  have ha := h.primitive a (by simp [heq])
  have hc := h.primitive c (by simp [heq])
  obtain ⟨hopen, hclose⟩ := ha.eq_brackets hc (Or.inr ⟨n, hsize⟩)
  rw [hopen, hclose] at hsize
  exact ⟨_, a, b, c, rest, heq, hopen, ⟨n, isSize_iff.mp hsize, by omega⟩, hclose⟩

theorem AsScanned.combine_eq_error (h : AsScanned set (before ++ a :: b :: c :: after))
    (hsize : NoSize a b c) (hfirst : ¬ HasNoSize (before ++ [a, b])) :
    combine operators (before ++ a :: b :: c :: after) =
      .error ⟨.invalidArraySize (a.text ++ b.text ++ c.text), ⟨a.span.start, c.span.stop⟩,
        a.position⟩ := by
  obtain ⟨ha, ⟨n, hdigits, hwrong⟩, hc⟩ := hsize
  have htriple := h.right.triple?_eq ha hc hdigits
  rw [if_neg (by omega)] at htriple
  cases hbefore : combine operators before with
  | error error =>
    exact absurd ((h.left.hasNoSize_of_combine_error hbefore).append_right _) hfirst
  | ok left =>
    rw [h.combine_window ha hc hdigits, hbefore, htriple]
    rfl

theorem AsScanned.combine_eq_error_iff (h : AsScanned set tokens) {error : LexError} :
    combine operators tokens = .error error ↔
      ∃ before a b c after, tokens = before ++ a :: b :: c :: after ∧ NoSize a b c ∧
        ¬ HasNoSize (before ++ [a, b]) ∧
        error = ⟨.invalidArraySize (a.text ++ b.text ++ c.text), ⟨a.span.start, c.span.stop⟩,
          a.position⟩ := by
  constructor
  · intro herror
    obtain ⟨before, a, b, c, after, rfl, hsize, hfirst⟩ :=
      (h.hasNoSize_of_combine_error herror).exists_first
    have heq := herror.symm.trans (h.combine_eq_error hsize hfirst)
    exact ⟨before, a, b, c, after, rfl, hsize, hfirst, Except.error.inj heq⟩
  · rintro ⟨before, a, b, c, after, rfl, hsize, hfirst, rfl⟩
    exact h.combine_eq_error hsize hfirst

theorem IsDigits.spells {text : String} (h : IsDigits text n) :
    (Category.integer .decimal).Spells text.toList := by
  obtain ⟨hne, hdigits, -⟩ := h
  obtain ⟨first, body, htext⟩ := List.exists_cons_of_ne_nil (mt String.toList_eq_nil_iff.mp hne)
  rw [htext, List.forall_mem_cons] at hdigits
  have hbody : ∀ c ∈ body, Radix.decimal.isBody c := fun c hc => by
    simp [Radix.isBody, hdigits.2 c hc]
  exact ⟨first, body, htext, hdigits.1, hbody⟩

theorem IsDigits.number_eq {text : String} (h : IsDigits text n) :
    Radix.decimal.number text.toList = n := by
  obtain ⟨-, hdigits, hvalue⟩ := h
  rw [← hvalue, Radix.value_eq_ofDigits hdigits]
  rfl

theorem Primitive.number_of_isDigits (h : b.Primitive set) (hdigits : IsDigits b.text n) :
    b.kind = .number ∧ b.value = some (.exact n) := by
  obtain ⟨category, hspells, hmeaning⟩ := h
  obtain rfl := Reading.eq_of_spells hspells hdigits.spells
  have hne := Radix.digitValues_ne_nil_of_decimal hspells
  rw [Lexeme.meaning_of_integer rfl hspells, if_neg hne, hdigits.number_eq] at hmeaning
  obtain ⟨hkind, hvalue⟩ := Prod.mk.inj (Option.some.inj (Except.ok.inj hmeaning))
  exact ⟨hkind.symm, hvalue.symm⟩

theorem Primitive.kind_of_mark (h : a.Primitive set) {mark : Char} {kind : Kind}
    (hmark : Text.isPunctuation mark) (htext : a.text = String.ofList [mark])
    (hkind : set.mark? mark = some kind) : a.kind = kind :=
  Option.some.inj ((h.eq_mark_of_mem hmark (by simp [htext])).2.symm.trans hkind)

theorem IsDigits.not_mem_separator {text : String} (h : IsDigits text n) : '_' ∉ text.toList :=
  fun hmem => absurd (h.2.1 '_' hmem) (by decide)

theorem AsScanned.exists_isDigits (h : AsScanned set (a :: b :: c :: after))
    (hsize : sizeDigits? (a.text ++ b.text ++ c.text).toList = some digits) :
    a.text = "[" ∧ c.text = "]" ∧ b.text.toList = digits ∧ ∃ n, IsDigits b.text n := by
  obtain ⟨htext, hne, hdigits⟩ := sizeDigits?_eq_some_iff.mp hsize
  have hsized : IsSize (a.text ++ b.text ++ c.text) (Radix.decimal.value digits) :=
    ⟨digits, htext, hne, hdigits, rfl⟩
  have ha := h.primitive a (by simp)
  have hc := h.primitive c (by simp)
  obtain ⟨hopen, hclose⟩ := ha.eq_brackets hc (Or.inr ⟨_, hsized⟩)
  rw [hopen, hclose] at hsized htext
  have hsame : '[' :: (b.text.toList ++ [']']) = '[' :: (digits ++ [']']) := by
    rw [← htext]
    simp
  exact ⟨hopen, hclose, List.append_cancel_right (List.cons.inj hsame).2, _, isSize_iff.mp hsized⟩

theorem AsScanned.triple?_eq_of_value (h : AsScanned set (a :: b :: c :: after)) (ha : a.text = "[")
    (hc : c.text = "]") (hdigits : IsDigits b.text n) :
    (∀ token, triple? a b c = .ok (some token) ↔ ∃ size, 1 ≤ size ∧ b.value = some (.word size) ∧
      token = arrayType (a.text ++ b.text ++ c.text) size ⟨a.span.start, c.span.stop⟩
        a.position) ∧
    ∀ error, triple? a b c = .error error ↔
      (b.value = some (.word 0) ∨ b.value = some .overflow) ∧
        error = ⟨.invalidArraySize (a.text ++ b.text ++ c.text), ⟨a.span.start, c.span.stop⟩,
          a.position⟩ := by
  have hvalue := ((h.primitive b (by simp)).number_of_isDigits hdigits).2
  rw [h.triple?_eq ha hc hdigits, hvalue]
  simp only [Option.some.injEq, IntegerValue.exact_eq_word_iff, IntegerValue.exact_eq_overflow_iff,
    UInt64.le_iff_toNat_le, UInt64.toNat_one, UInt64.toNat_zero]
  by_cases hword : 1 ≤ n ∧ n < UInt64.size
  · rw [if_pos hword]
    refine ⟨fun token => ⟨fun heq => ?_, ?_⟩, fun error => iff_of_false nofun (by omega)⟩
    · have hn : (UInt64.ofNat n).toNat = n := UInt64.toNat_ofNat_of_lt' hword.2
      exact ⟨.ofNat n, hn.symm ▸ hword.1, hn.symm, (Option.some.inj (Except.ok.inj heq)).symm⟩
    · rintro ⟨size, -, rfl, rfl⟩
      rw [UInt64.ofNat_toNat]
  · have hwrong : n = 0 ∨ UInt64.size ≤ n := by omega
    rw [if_neg hword]
    refine ⟨fun token => iff_of_false nofun ?_, fun error => ?_⟩
    · rintro ⟨size, hpos, rfl, -⟩
      exact hword ⟨hpos, size.toNat_lt⟩
    · rw [Except.error.injEq, eq_comm, and_iff_right hwrong]

/-- Only brackets around a decimal literal without separators have the text of an array, and the
scanned value of the literal decides what becomes of them. The array has that value as its size, if
it is a word other than zero; else joining fails. -/
theorem scanned_size_iff_joined (operators : OperatorSet) (source : String)
    (before after : List Token) (a b c : Token) (digits : List Char)
    (hscan : scan operators source = .ok (before ++ a :: b :: c :: after))
    (hsize : sizeDigits? (a.text ++ b.text ++ c.text).toList = some digits) :
    (a.kind = .leftBracket ∧ b.kind = .number ∧ c.kind = .rightBracket) ∧
    ((Category.integer .decimal).Spells b.text.toList ∧ '_' ∉ b.text.toList ∧
      b.text.toList = digits) ∧
    (∀ token, triple? a b c = .ok (some token) ↔ ∃ size, 1 ≤ size ∧ b.value = some (.word size) ∧
      token = arrayType (a.text ++ b.text ++ c.text) size ⟨a.span.start, c.span.stop⟩
        a.position) ∧
    (∀ error, triple? a b c = .error error ↔
      (b.value = some (.word 0) ∨ b.value = some .overflow) ∧
        error = ⟨.invalidArraySize (a.text ++ b.text ++ c.text), ⟨a.span.start, c.span.stop⟩,
          a.position⟩) ∧
    lex operators source =
      (combine operators before).bind fun left => (triple? a b c).bind fun token =>
        (combine operators after).map (left ++ token.toList ++ ·) := by
  have hscanned := asScanned_of_scan hscan
  obtain ⟨ha, hc, hdigits, n, hcount⟩ := hscanned.right.exists_isDigits hsize
  obtain ⟨hjoined, hfails⟩ := hscanned.right.triple?_eq_of_value ha hc hcount
  have hopening : operators.mark? '[' = some .leftBracket := by cases operators <;> rfl
  have hclosing : operators.mark? ']' = some .rightBracket := by cases operators <;> rfl
  have hfirst := (hscanned.primitive a (by simp)).kind_of_mark (by decide) ha hopening
  have hmiddle := ((hscanned.primitive b (by simp)).number_of_isDigits hcount).1
  have hlast := (hscanned.primitive c (by simp)).kind_of_mark (by decide) hc hclosing
  refine ⟨⟨hfirst, hmiddle, hlast⟩, ⟨hcount.spells, hcount.not_mem_separator, hdigits⟩, hjoined,
    hfails, ?_⟩
  rw [lex_eq_bind, hscan]
  exact hscanned.combine_window ha hc hcount

theorem scanned_size_iff_joined_wide :
    ∃ a b c error, scan .core "[018446744073709551616]" = .ok [a, b, c] ∧ b.kind = .number ∧
      b.value = some .overflow ∧ triple? a b c = .error error ∧
      lex .core "[018446744073709551616]" = .error error := by
  obtain ⟨⟨-, hkind, -⟩, -, -, hfails, hlex⟩ :=
    scanned_size_iff_joined .core "[018446744073709551616]" [] [] _ _ _ _ rfl rfl
  have herror := (hfails _).mpr ⟨Or.inr rfl, rfl⟩
  rw [herror] at hlex
  exact ⟨_, _, _, _, rfl, hkind, rfl, herror, hlex⟩

end ShapeLang.Token
