import ShapeLang.Proofs.Numeral.Exact
import ShapeLang.Proofs.Token.Meaning

/-! Integer literals of a source. Each becomes a token with the number that it spells, and the scan
goes on behind it, unless the mark of a radix stands without a digit. Such a mark has to be held to
its zero by a separator, though: with nothing behind it, it is taken for a name. -/

namespace ShapeLang

open Text (byteLength isBlank)

/-- The mark of a radix, then separators, and then no digit of that radix. -/
structure DigitlessMark (radix : Radix) (mark : Char) (separators rest : List Char) : Prop where
  mark_eq : Radix.ofMark? mark = some radix
  separators_eq : ∀ c ∈ separators, c = '_'
  no_body : ∀ c ∈ rest.head?, radix.isBody c = false

section DigitlessMark

variable {radix : Radix} {mark : Char} {separators rest : List Char}

theorem DigitlessMark.runLength_eq (h : DigitlessMark radix mark separators rest) :
    Reading.runLength radix.isBody (separators ++ rest) = separators.length := by
  have hseparators : ∀ c ∈ separators, radix.isBody c := by
    intro c hc
    rw [h.separators_eq c hc]
    rfl
  have hrest : Reading.runLength radix.isBody rest = 0 := by
    cases rest with
    | nil => rfl
    | cons c rest => exact Reading.runLength_cons_of_neg (h.no_body c rfl) rest
  rw [Reading.runLength_append hseparators, hrest, Nat.add_zero]

theorem DigitlessMark.longest_eq (h : DigitlessMark radix mark separators rest) :
    Reading.longest '0' (mark :: (separators ++ rest)) =
      if separators = [] then ⟨some (.integer .decimal), 0⟩
      else ⟨some (.integer radix), 1 + separators.length⟩ := by
  rw [Reading.longest_of_isDigit (by decide), Reading.number, Reading.marked?, if_pos rfl,
    h.mark_eq, Option.bind_some]
  dsimp only
  rw [h.runLength_eq]
  by_cases hnil : separators = []
  · have hmarks : ['x', 'X', 'o', 'O', 'b', 'B'].all fun c =>
        !Radix.decimal.isBody c && c ≠ '.' && c ≠ 'e' && c ≠ 'E' := by
      decide
    have hmark := List.all_eq_true.mp hmarks mark (mem_of_ofMark? h.mark_eq)
    obtain ⟨⟨⟨hbody, hpoint⟩, hlower⟩, hupper⟩ : ((Radix.decimal.isBody mark = false ∧
        mark ≠ '.') ∧ mark ≠ 'e') ∧ mark ≠ 'E' := by
      simpa using hmark
    have hexponent : Reading.exponentLength (mark :: (separators ++ rest)) = 0 := by
      simp [Reading.exponentLength, hlower, hupper]
    rw [if_pos hnil, if_pos (List.length_eq_zero_iff.mpr hnil), Option.getD_none,
      Reading.decimal_cons hbody hpoint, if_pos hexponent]
  · have hlength : separators.length ≠ 0 := mt List.length_eq_zero_iff.mp hnil
    rw [if_neg hnil, if_neg hlength, Option.getD_some]

theorem DigitlessMark.digitValues_eq (h : DigitlessMark radix mark separators rest) :
    radix.digitValues ('0' :: mark :: separators) = [] := by
  have hmarked : radix ≠ .decimal := by
    rintro rfl
    exact Radix.ofMark?_ne_decimal mark h.mark_eq
  rw [Radix.digitValues, Radix.unmarked, if_neg hmarked]
  refine List.filterMap_eq_nil_iff.mpr fun c hc => ?_
  rw [h.separators_eq c hc]
  exact radix.digit?_separator

section Tiling

variable {before : List Char} {a b : List Lexeme} {l : Lexeme}

theorem DigitlessMark.lexeme_eq (h : DigitlessMark radix mark separators rest)
    (htiling : Tiling 0 (before ++ '0' :: mark :: (separators ++ rest)) (a ++ l :: b))
    (hstart : l.start = byteLength before) (hne : separators ≠ []) :
    l.category = some (.integer radix) ∧ l.text = '0' :: mark :: separators := by
  have hl := (htiling.lexeme_eq (by rw [hstart, Nat.zero_add])).1
  rw [h.longest_eq, if_neg hne, Nat.add_comm 1, List.take_succ_cons, List.take_left] at hl
  rw [hl]
  exact ⟨rfl, rfl⟩

theorem DigitlessMark.lexemes_eq (h : DigitlessMark radix mark [] rest)
    (htiling : Tiling 0 (before ++ '0' :: mark :: rest) (a ++ l :: b))
    (hstart : l.start = byteLength before) :
    (l.category = some (.integer .decimal) ∧ l.text = ['0']) ∧
      ∃ name others, b = name :: others ∧ name.category = some .identifier ∧
        name.text = mark :: rest.takeWhile isNamePart ∧ name.start = l.stop := by
  have hmarks : ['x', 'X', 'o', 'O', 'b', 'B'].all fun c => !isBlank c && isNameStart c := by decide
  have hmark := List.all_eq_true.mp hmarks mark (mem_of_ofMark? h.mark_eq)
  obtain ⟨hblank, hfirst⟩ : isBlank mark = false ∧ isNameStart mark := by simpa using hmark
  have hread : Reading.longest '0' (mark :: rest) = ⟨some (.integer .decimal), 0⟩ := h.longest_eq
  obtain ⟨hl, hb⟩ := htiling.lexeme_eq (by rw [hstart, Nat.zero_add])
  rw [hread] at hl hb
  have hsplit := Lexeme.splitFrom_of_tiling hb
  rw [List.drop_zero, Lexeme.splitFrom_of_not_blank hblank, Reading.longest_of_isNameStart hfirst,
    Reading.take_runLength] at hsplit
  refine ⟨?_, _, _, hsplit.symm, rfl, rfl, rfl⟩
  rw [hl]
  exact ⟨rfl, rfl⟩

end Tiling

end DigitlessMark

namespace Lexeme

variable {operators : OperatorSet} {lexeme : Lexeme} {radix : Radix}

theorem meaning_of_integer (h : lexeme.category = some (.integer radix))
    (hspells : (Category.integer radix).Spells lexeme.text) :
    lexeme.meaning operators =
      if radix.digitValues lexeme.text = [] then
        .error (.invalidNumber (String.ofList lexeme.text))
      else .ok (some (.number, some (.exact (radix.number lexeme.text)))) := by
  rw [meaning, h]
  simp only [Category.isTrivia, OperatorSet.kind?, Category.radix?, Radix.readLiteral?_eq hspells]
  by_cases hnil : radix.digitValues lexeme.text = [] <;> simp [hnil]

theorem toToken?_of_integer (h : lexeme.category = some (.integer radix))
    (hspells : (Category.integer radix).Spells lexeme.text) {lines : LineTable}
    {source : List Char} {span : Span} (hspan : Span.ofBounds lexeme.start lexeme.stop = .ok span) :
    lexeme.toToken? operators lines source =
      if radix.digitValues lexeme.text = [] then
        .error ⟨.invalidNumber (String.ofList lexeme.text), span, lines.position source span.start⟩
      else
        .ok (some (Token.number (String.ofList lexeme.text) (.exact (radix.number lexeme.text)) span
          (lines.position source span.start))) := by
  rw [toToken?_eq_placed hspan, meaning_of_integer h hspells]
  split <;> rfl

theorem meaning_of_identifier (h : lexeme.category = some .identifier) :
    lexeme.meaning operators = .ok (some (.symbol, none)) := by
  rw [meaning, h]
  rfl

end Lexeme

namespace Token

/-- An integer literal is its slice of the source, and behind its mark there are digits and
separators. A scan that comes to it ends there if it has no digit, as a decimal one always has. Else
the token denotes the number of the digits: a word as far as words go, and no word from there on. -/
theorem scan_literal_exact (operators : OperatorSet) (source : String) (radix : Radix)
    (a b : List Lexeme) (l : Lexeme) (hsplit : Lexeme.split source.toList = a ++ l :: b)
    (hradix : l.category = some (.integer radix)) :
    Text.slice? source.toList l.start l.stop = some l.text ∧
    (∀ c ∈ radix.unmarked l.text, c = '_' ∨ radix.isDigit c) ∧
    (radix = .decimal → radix.digitValues l.text ≠ []) ∧
    ∀ span, Span.ofBounds l.start l.stop = .ok span →
      let lines := LineTable.ofText source.toList
      let position := lines.position source.toList span.start
      let error : LexError := ⟨.invalidNumber (String.ofList l.text), span, position⟩
      let token := number (String.ofList l.text) (.exact (radix.number l.text)) span position
      (l.toToken? operators lines source.toList =
        if radix.digitValues l.text = [] then .error error else .ok (some token)) ∧
      ∀ before, ofLexemes operators lines source.toList a = .ok before →
        scan operators source =
          if radix.digitValues l.text = [] then .error error
          else (ofLexemes operators lines source.toList b).map (before ++ token :: ·) := by
  have htiling := Lexeme.tiling_split source.toList
  have hmem : l ∈ Lexeme.split source.toList := by simp [hsplit]
  obtain ⟨rest, hfits⟩ := htiling.fits l hmem
  rw [hradix] at hfits
  have hspells := hfits.spells
  obtain ⟨before, hfollows⟩ := htiling.follows_part l hmem
  refine ⟨?_, fun c hc => ?_, ?_, fun span hspan => ?_⟩
  · obtain ⟨after, hsource⟩ := hfollows.prefixed
    rw [hfollows.start_eq, hfollows.stop_eq, ← hsource]
    exact Text.slice?_append _ _ _
  · simpa [Radix.isBody] using Radix.isBody_of_mem_unmarked hspells c hc
  · rintro rfl
    exact Radix.digitValues_ne_nil_of_decimal hspells
  · intro lines position error token
    have hl : l.toToken? operators lines source.toList = _ :=
      Lexeme.toToken?_of_integer hradix hspells hspan
    refine ⟨hl, fun tokens htokens => ?_⟩
    rw [scan_eq_ofLexemes, hsplit]
    rw [ofLexemes_append_of_ok htokens, ofLexemes_cons, hl]
    by_cases hnil : radix.digitValues l.text = []
    · rw [if_pos hnil, if_pos hnil]
      rfl
    · rw [if_neg hnil, if_neg hnil]
      cases ofLexemes operators lines source.toList b <;> rfl

theorem scan_literal_exact_wide :
    ∃ l, Lexeme.split "0x1_0000_0000_0000_0000".toList = [l] ∧
      l.category = some (.integer .hexadecimal) ∧ Radix.hexadecimal.number l.text = 2 ^ 64 ∧
      scan .core "0x1_0000_0000_0000_0000" =
        .ok [number "0x1_0000_0000_0000_0000" .overflow ⟨0, 23⟩ ⟨1, 1⟩] := by
  obtain ⟨-, -, -, hscan⟩ :=
    scan_literal_exact .core "0x1_0000_0000_0000_0000" .hexadecimal [] [] _ rfl rfl
  exact ⟨_, rfl, rfl, by decide, (hscan _ rfl).2 _ rfl⟩

section DigitlessMark

variable {operators : OperatorSet} {source : String} {radix : Radix} {mark : Char}
  {before separators rest : List Char} {a b : List Lexeme} {l : Lexeme} {tokens : List Token}

theorem scan_separated_mark
    (hsource : source.toList = before ++ '0' :: mark :: (separators ++ rest))
    (hmark : DigitlessMark radix mark separators rest) (hne : separators ≠ [])
    (hsplit : Lexeme.split source.toList = a ++ l :: b) (hstart : l.start = byteLength before)
    (ha : ofLexemes operators (.ofText source.toList) source.toList a = .ok tokens) :
    l.text = '0' :: mark :: separators ∧
      ∃ error, scan operators source = .error error ∧ (l.stop < UInt32.size →
        error.cause = .invalidNumber (String.ofList l.text) ∧ error.Covers before l.text) := by
  have htiling := Lexeme.tiling_split source.toList
  rw [hsplit] at htiling
  obtain ⟨after, hfits⟩ := htiling.fits l (by simp)
  rw [hsource] at htiling
  obtain ⟨hcategory, htext⟩ := hmark.lexeme_eq htiling hstart hne
  rw [hcategory] at hfits
  have hmeaning : l.meaning operators = .error (.invalidNumber (String.ofList l.text)) := by
    rw [Lexeme.meaning_of_integer hcategory hfits.spells, if_pos]
    rw [htext, hmark.digitValues_eq]
  have hfollows : l.Follows before source.toList :=
    ⟨by simp [htext], hstart, rest, by simp [hsource, htext]⟩
  refine ⟨htext, ?_⟩
  rw [scan_eq_of_split hsplit ha, ofLexemes_cons]
  by_cases hstop : l.stop < UInt32.size
  · rw [hfollows.toToken?_eq_of_lt hstop, hmeaning]
    exact ⟨_, rfl, fun _ => ⟨rfl, hfollows.covers hstop _⟩⟩
  · obtain ⟨large, hlarge⟩ := Span.exists_ofBounds_eq_error (Nat.le_of_not_lt hstop)
    rw [Lexeme.toToken?_of_tooLarge hlarge]
    exact ⟨_, rfl, fun hlt => absurd hlt hstop⟩

theorem scan_bare_mark (hsource : source.toList = before ++ '0' :: mark :: rest)
    (hmark : DigitlessMark radix mark [] rest)
    (hsplit : Lexeme.split source.toList = a ++ l :: b) (hstart : l.start = byteLength before)
    (ha : ofLexemes operators (.ofText source.toList) source.toList a = .ok tokens) :
    l.text = ['0'] ∧ ∃ name others, b = name :: others ∧
      name.text = mark :: rest.takeWhile isNamePart ∧ name.start = l.stop ∧
      (name.stop < UInt32.size →
        let zero := number "0" (.word 0) (.over before ['0']) (.after before)
        let symbol := plain .symbol (String.ofList name.text)
          (.over (before ++ ['0']) name.text) (.after (before ++ ['0']))
        scan operators source =
          (ofLexemes operators (.ofText source.toList) source.toList others).map
            (tokens ++ zero :: symbol :: ·)) := by
  have htiling := Lexeme.tiling_split source.toList
  rw [hsplit, hsource] at htiling
  obtain ⟨⟨hzero, htext⟩, name, others, rfl, hname, hnameText, hnameStart⟩ :=
    hmark.lexemes_eq htiling hstart
  refine ⟨htext, name, others, rfl, hnameText, hnameStart, fun hstop => ?_⟩
  have hfollows : l.Follows before source.toList :=
    ⟨by simp [htext], hstart, mark :: rest, by simp [hsource, htext]⟩
  have hbehind : name.Follows (before ++ ['0']) source.toList := by
    refine ⟨by simp [hnameText], ?_, rest.dropWhile isNamePart, ?_⟩
    · rw [hnameStart, hfollows.stop_eq, htext]
    · simp [hsource, hnameText, List.takeWhile_append_dropWhile]
  have hle : l.stop ≤ name.stop := hnameStart ▸ Nat.le_add_right _ _
  have hmeaning : l.meaning operators = .ok (some (.number, some (.word 0))) := by
    rw [Lexeme.meaning, hzero, htext]
    rfl
  intro zero symbol
  have hfirst : l.toToken? operators (.ofText source.toList) source.toList = .ok (some zero) := by
    rw [hfollows.toToken?_eq_of_lt (Nat.lt_of_le_of_lt hle hstop), hmeaning, Lexeme.placed, htext]
    rfl
  have hsecond : name.toToken? operators (.ofText source.toList) source.toList =
      .ok (some symbol) := by
    rw [hbehind.toToken?_eq_of_lt hstop, Lexeme.meaning_of_identifier hname]
    rfl
  rw [scan_eq_of_split hsplit ha, ofLexemes_cons, ofLexemes_cons, hfirst, hsecond]
  cases ofLexemes operators (.ofText source.toList) source.toList others <;> rfl

/-- Without a digit the mark of a radix is an error at its zero, if a separator holds it there. With
none the zero is a number of its own, and the mark begins a name. -/
theorem scan_digitless_mark (operators : OperatorSet) (source : String) (radix : Radix)
    (mark : Char) (before separators rest : List Char)
    (hsource : source.toList = before ++ '0' :: mark :: (separators ++ rest))
    (hmark : DigitlessMark radix mark separators rest) (a b : List Lexeme) (l : Lexeme)
    (hsplit : Lexeme.split source.toList = a ++ l :: b) (hstart : l.start = byteLength before)
    (tokens : List Token)
    (ha : ofLexemes operators (.ofText source.toList) source.toList a = .ok tokens) :
    (separators ≠ [] → l.text = '0' :: mark :: separators ∧
      ∃ error, scan operators source = .error error ∧ (l.stop < UInt32.size →
        error.cause = .invalidNumber (String.ofList l.text) ∧ error.Covers before l.text)) ∧
    (separators = [] → l.text = ['0'] ∧ ∃ name others, b = name :: others ∧
      name.text = mark :: rest.takeWhile isNamePart ∧ name.start = l.stop ∧
      (name.stop < UInt32.size →
        let zero := number "0" (.word 0) (.over before ['0']) (.after before)
        let symbol := plain .symbol (String.ofList name.text)
          (.over (before ++ ['0']) name.text) (.after (before ++ ['0']))
        scan operators source =
          (ofLexemes operators (.ofText source.toList) source.toList others).map
            (tokens ++ zero :: symbol :: ·))) := by
  constructor
  · exact fun hne => scan_separated_mark hsource hmark hne hsplit hstart ha
  · rintro rfl
    exact scan_bare_mark hsource hmark hsplit hstart ha

theorem scan_digitless_mark_binary :
    (∃ error, scan .core "é 0b_2" = .error error ∧ error.cause = .invalidNumber "0b_" ∧
      error.Covers "é ".toList "0b_".toList ∧ error.span = ⟨3, 6⟩ ∧ error.position = ⟨1, 3⟩) ∧
    scan .extended "0Xg-" = .ok [number "0" (.word 0) ⟨0, 1⟩ ⟨1, 1⟩,
      plain .symbol "Xg" ⟨1, 3⟩ ⟨1, 2⟩, plain .subtract "-" ⟨3, 4⟩ ⟨1, 4⟩] := by
  have hbinary : DigitlessMark .binary 'b' ['_'] ['2'] :=
    ⟨rfl, by simp, fun c hc => Option.some.inj hc ▸ rfl⟩
  have hhexadecimal : DigitlessMark .hexadecimal 'X' [] ['g', '-'] :=
    ⟨rfl, by simp, fun c hc => Option.some.inj hc ▸ rfl⟩
  obtain ⟨hseparated, -⟩ := scan_digitless_mark .core "é 0b_2" _ _ "é ".toList _ _ rfl hbinary
    [⟨some .identifier, ['é'], 0⟩] _ _ rfl rfl _ rfl
  obtain ⟨-, hbare⟩ := scan_digitless_mark .extended "0Xg-" _ _ [] _ _ rfl hhexadecimal
    [] _ _ rfl rfl _ rfl
  obtain ⟨-, error, hscan, herror⟩ := hseparated (by simp)
  obtain ⟨hcause, hcovers⟩ := herror (by decide)
  obtain ⟨-, name, others, hb, -, -, hok⟩ := hbare rfl
  obtain ⟨rfl, rfl⟩ := List.cons.inj hb
  refine ⟨⟨error, hscan, hcause, hcovers, ?_⟩, (hok (by decide)).trans rfl⟩
  obtain rfl := Except.error.inj hscan
  exact ⟨rfl, rfl⟩

theorem scan_digitless_mark_accepted :
    scan .core "0x" = .ok [number "0" (.word 0) ⟨0, 1⟩ ⟨1, 1⟩, plain .symbol "x" ⟨1, 2⟩ ⟨1, 2⟩] :=
  rfl

end DigitlessMark

end Token
end ShapeLang
