import ShapeLang.Proofs.Token.Primitive
import ShapeLang.Token.Lex

/-! The extended operator set beside the core one. Lexeme by lexeme they agree, but for the marks
that only the extended set has a kind for; there the core set fails with a hint, and nowhere else.
The pairs that only the extended set joins have such a mark in them, which no token of the core set
has, so joining cannot tell the sets apart. -/

namespace ShapeLang

open Text (byteLength)
open LexError.Cause (extendedHint needsExtended)

theorem OperatorSet.mark?_extended (mark : Char) :
    extended.mark? mark = (core.mark? mark).or (extendedMark? mark) := rfl

theorem OperatorSet.pair?_extended (text : String) :
    extended.pair? text = (core.pair? text).or (extendedPair? text) := rfl

theorem OperatorSet.isSome_extendedMark? (mark : Char) :
    (extendedMark? mark).isSome = needsExtended mark := by
  unfold extendedMark? needsExtended
  repeat' split
  all_goals simp_all

theorem OperatorSet.needsExtended_iff {mark : Char} :
    needsExtended mark ↔ core.mark? mark = none ∧ ∃ kind, extended.mark? mark = some kind := by
  rw [← Option.isSome_iff_exists, mark?_extended, ← isSome_extendedMark?]
  constructor
  · intro h
    have hmark : mark ∈ ['&', '-', '/', '%', '^', '='] := by
      rw [isSome_extendedMark?] at h
      simpa [needsExtended, or_assoc] using h
    have hmarks : ['&', '-', '/', '%', '^', '='].all fun c => (core.mark? c).isNone := by decide
    have hcore := Option.isNone_iff_eq_none.mp (List.all_eq_true.mp hmarks mark hmark)
    exact ⟨hcore, by rwa [hcore, Option.none_or]⟩
  · rintro ⟨hcore, hextended⟩
    rwa [hcore, Option.none_or] at hextended

theorem LexError.Cause.extendedHint_mem_hints_iff {cause : LexError.Cause} :
    extendedHint ∈ cause.hints ↔
      ∃ mark text, cause = .unknownToken (some (.punctuation mark)) text ∧ needsExtended mark := by
  constructor
  · intro h
    cases cause with
    | invalidNumber | unterminatedComment | invalidArraySize | sourceTooLarge =>
      simp [hints, extendedHint] at h
    | unknownToken category text =>
      cases category with
      | none => simp [hints] at h
      | some category =>
        cases category with
        | punctuation mark =>
          cases hmark : needsExtended mark with
          | true => exact ⟨mark, text, rfl, hmark⟩
          | false => simp [hints, categoryHints, hmark] at h
        | _ => simp [hints, categoryHints, extendedHint] at h
  · rintro ⟨mark, text, rfl, hmark⟩
    simp [hints, categoryHints, hmark]

namespace Lexeme

variable {lexeme : Lexeme}

theorem meaning_congr {operators operators' : OperatorSet}
    (h : ∀ category, lexeme.category = some category →
      operators.kind? category = operators'.kind? category) :
    lexeme.meaning operators = lexeme.meaning operators' := by
  unfold meaning
  cases hcategory : lexeme.category with
  | none => rfl
  | some category => simp only [h category hcategory]

theorem meaning_extended (lexeme : Lexeme) :
    lexeme.meaning .extended = lexeme.meaning .core ∨
      ∃ mark text content, needsExtended mark ∧
        lexeme.meaning .core = .error (.unknownToken (some (.punctuation mark)) text) ∧
        lexeme.meaning .extended = .ok content := by
  by_cases hmark : ∃ mark, lexeme.category = some (.punctuation mark) ∧ needsExtended mark
  · obtain ⟨mark, hcategory, hmark⟩ := hmark
    obtain ⟨hcore, kind, hextended⟩ := OperatorSet.needsExtended_iff.mp hmark
    refine Or.inr ⟨mark, String.ofList lexeme.text, some (kind, none), hmark, ?_, ?_⟩
    · simp [meaning, hcategory, Category.isTrivia, OperatorSet.kind?, hcore]
    · simp [meaning, hcategory, Category.isTrivia, OperatorSet.kind?, hextended, Category.radix?]
  · refine Or.inl (meaning_congr fun category hcategory => ?_)
    cases category with
    | punctuation mark =>
      show OperatorSet.extended.mark? mark = OperatorSet.core.mark? mark
      have hnot : ¬ needsExtended mark := fun h => hmark ⟨mark, hcategory, h⟩
      rw [OperatorSet.needsExtended_iff] at hnot
      cases hcore : OperatorSet.core.mark? mark with
      | some kind => rw [OperatorSet.mark?_extended, hcore, Option.some_or]
      | none =>
        exact Option.eq_none_iff_forall_ne_some.mpr fun kind hkind => hnot ⟨hcore, kind, hkind⟩
    | _ => rfl

theorem toToken?_extended (lines : LineTable) (source : List Char) (lexeme : Lexeme) :
    lexeme.toToken? .extended lines source = lexeme.toToken? .core lines source ∨
      ∃ error result, lexeme.toToken? .core lines source = .error error ∧
        extendedHint ∈ error.hints ∧ lexeme.toToken? .extended lines source = .ok result := by
  cases hbounds : Span.ofBounds lexeme.start lexeme.stop with
  | error error => exact Or.inl (by rw [toToken?_of_tooLarge hbounds, toToken?_of_tooLarge hbounds])
  | ok span =>
    rw [toToken?_eq_placed hbounds, toToken?_eq_placed hbounds]
    rcases lexeme.meaning_extended with heq | ⟨mark, text, content, hmark, hcore, hextended⟩
    · rw [heq]
      exact Or.inl rfl
    · rw [hcore, hextended]
      refine Or.inr ⟨_, _, rfl, ?_, rfl⟩
      exact LexError.Cause.extendedHint_mem_hints_iff.mpr ⟨mark, text, rfl, hmark⟩

theorem extendedHint_not_mem_of_extended {lines : LineTable} {source : List Char}
    {error : LexError} (h : lexeme.toToken? .extended lines source = .error error) :
    extendedHint ∉ error.hints := by
  intro hhint
  obtain ⟨mark, text, hcause, hmark⟩ := LexError.Cause.extendedHint_mem_hints_iff.mp hhint
  obtain ⟨-, kind, hkind⟩ := OperatorSet.needsExtended_iff.mp hmark
  rcases meaning_of_toToken?_error h with hmeaning | ⟨other, hlarge⟩
  · rw [hcause] at hmeaning
    rcases cause_of_meaning hmeaning with ⟨-, hcause⟩ | ⟨category, -, -, hnone, hunknown⟩ | hnumber
    · rcases lexeme.faultCause_eq with hfault | ⟨_, hfault⟩ <;> cases hcause.trans hfault
    · cases hunknown
      cases hnone.symm.trans hkind
    · cases hnumber
  · cases hcause.symm.trans hlarge

end Lexeme

namespace Token

section Run

variable {lines : LineTable} {source : List Char} {lexemes : List Lexeme}

theorem ofLexemes_extended_of_ok {tokens : List Token}
    (h : ofLexemes .core lines source lexemes = .ok tokens) :
    ofLexemes .extended lines source lexemes = .ok tokens := by
  rw [← h]
  refine ofLexemes_congr fun l hl => ?_
  obtain ⟨result, hresult⟩ := exists_ok_of_mem h l hl
  rcases l.toToken?_extended lines source with heq | ⟨error, _, herror, -⟩
  · exact heq
  · cases herror.symm.trans hresult

theorem extendedHint_not_mem_of_ofLexemes {error : LexError}
    (h : ofLexemes .extended lines source lexemes = .error error) : extendedHint ∉ error.hints := by
  obtain ⟨a, l, b, tokens, -, -, hl⟩ := exists_of_ofLexemes_error h
  exact Lexeme.extendedHint_not_mem_of_extended hl

theorem ofLexemes_extended_of_error {error : LexError}
    (h : ofLexemes .core lines source lexemes = .error error) :
    (extendedHint ∉ error.hints ∧ ofLexemes .extended lines source lexemes = .error error) ∨
      ∃ a l b tokens, extendedHint ∈ error.hints ∧ lexemes = a ++ l :: b ∧
        l.toToken? .core lines source = .error error ∧
        ofLexemes .extended lines source lexemes =
          (ofLexemes .extended lines source b).map (tokens ++ ·) := by
  obtain ⟨a, l, b, tokens, rfl, ha, hl⟩ := exists_of_ofLexemes_error h
  have hbefore := ofLexemes_extended_of_ok ha
  rcases l.toToken?_extended lines source with heq | ⟨other, result, hother, hhint, hresult⟩
  · rw [hl] at heq
    refine Or.inl ⟨Lexeme.extendedHint_not_mem_of_extended heq, ?_⟩
    rw [ofLexemes_append_of_ok hbefore, ofLexemes_cons_eq_error_iff.mpr (Or.inl heq)]
    rfl
  · obtain rfl := Except.error.inj (hl.symm.trans hother)
    have hthrough : ofLexemes .extended lines source (a ++ [l]) =
        .ok (tokens ++ result.toList) := by
      rw [ofLexemes_append_of_ok hbefore, ofLexemes_single, hresult]
      rfl
    refine Or.inr ⟨a, l, b, tokens ++ result.toList, hhint, rfl, hl, ?_⟩
    rw [List.append_cons, ofLexemes_append_of_ok hthrough]

end Run

section Scan

variable {source : String} {error : LexError}

theorem scan_extended_of_ok {tokens : List Token} (h : scan .core source = .ok tokens) :
    scan .extended source = .ok tokens :=
  ofLexemes_extended_of_ok h

theorem scan_extended_of_no_hint (h : scan .core source = .error error)
    (hhint : extendedHint ∉ error.hints) : scan .extended source = .error error := by
  rcases ofLexemes_extended_of_error h with ⟨-, hextended⟩ | ⟨_, _, _, _, hmem, -⟩
  · exact hextended
  · exact absurd hmem hhint

theorem scan_extended_of_hint (hsize : byteLength source.toList < UInt32.size)
    (h : scan .core source = .error error) (hhint : extendedHint ∈ error.hints) :
    (∃ tokens, scan .extended source = .ok tokens) ∨
      ∃ other, scan .extended source = .error other ∧ error.span.stop ≤ other.span.start := by
  rcases ofLexemes_extended_of_error h with ⟨hnot, -⟩ | ⟨a, l, b, before, -, hsplit, hl, hscan⟩
  · exact absurd hhint hnot
  have hextended : scan .extended source =
      (ofLexemes .extended (.ofText source.toList) source.toList b).map (before ++ ·) := hscan
  rw [hextended]
  cases hb : ofLexemes .extended (.ofText source.toList) source.toList b with
  | ok tokens => exact Or.inl ⟨_, rfl⟩
  | error other =>
    refine Or.inr ⟨other, rfl, ?_⟩
    obtain ⟨c, x, d, _, rfl, -, hx⟩ := exists_of_ofLexemes_error hb
    have htiling := Lexeme.tiling_split source.toList
    rw [hsplit] at htiling
    have hlater : ∀ y ∈ c ++ x :: d, l.stop ≤ y.start :=
      (List.pairwise_cons.mp (List.pairwise_append.mp htiling.pairwise).2.1).1
    obtain ⟨part, hfollows⟩ := htiling.follows_part l (by simp)
    obtain ⟨part', hfollows'⟩ := htiling.follows_part x (by simp)
    have hstop := (hfollows.span_of_error hsize hl).2
    have hstart := (hfollows'.span_of_error hsize hx).1
    rw [UInt32.le_iff_toNat_le, hstop, hstart, ← hfollows.stop_eq, ← hfollows'.start_eq]
    exact hlater x (by simp)

end Scan

section Combine

variable {tokens : List Token}

theorem combine_congr {operators set : OperatorSet}
    (h : ∀ a ∈ tokens, ∀ b ∈ tokens,
      operators.pair? (a.text ++ b.text) = set.pair? (a.text ++ b.text)) :
    combine operators tokens = combine set tokens := by
  have hsets := (Builder.Maps.refl Builder.unchecked).combine_eq_mapError h
  rw [combine, combine, hsets]
  cases Builder.unchecked.combine operators tokens <;> rfl

theorem pair?_extended_of_not_mem {a b : Token} (ha : '=' ∉ a.text.toList)
    (hb : '=' ∉ b.text.toList) :
    OperatorSet.extended.pair? (a.text ++ b.text) = OperatorSet.core.pair? (a.text ++ b.text) := by
  have hnone : OperatorSet.extendedPair? (a.text ++ b.text) = none := by
    have hmem : '=' ∉ (a.text ++ b.text).toList := by simp [ha, hb]
    unfold OperatorSet.extendedPair?
    repeat' split
    case isFalse.isFalse.isFalse => rfl
    all_goals
      rename_i heq
      rw [heq] at hmem
      exact absurd hmem (by decide)
  rw [OperatorSet.pair?_extended, hnone, Option.or_none]

theorem not_mem_of_primitive_core {token : Token} (h : token.Primitive .core) :
    '=' ∉ token.text.toList :=
  h.not_mem_of_mark?_eq_none (by decide) rfl

theorem combine_extended_of_scan {source : String} (h : scan .core source = .ok tokens) :
    combine .extended tokens = combine .core tokens :=
  combine_congr fun a ha b hb => pair?_extended_of_not_mem
    (not_mem_of_primitive_core (primitive_of_scan h a ha))
    (not_mem_of_primitive_core (primitive_of_scan h b hb))

end Combine

/-- What the core set makes of a source, the extended set makes of it too, errors without a hint
included. An error with the hint is one that the extended set gets past, and it gives no such hint
itself. -/
theorem extended_extends_core (source : String) (hsize : source.utf8ByteSize < UInt32.size) :
    (∀ tokens, scan .core source = .ok tokens → scan .extended source = .ok tokens) ∧
    (∀ error, scan .core source = .error error → extendedHint ∉ error.hints →
      scan .extended source = .error error) ∧
    (∀ error, scan .core source = .error error → extendedHint ∈ error.hints →
      (∃ tokens, scan .extended source = .ok tokens) ∨
        ∃ other, scan .extended source = .error other ∧ error.span.stop ≤ other.span.start) ∧
    (∀ error, scan .extended source = .error error → extendedHint ∉ error.hints) ∧
    (∀ tokens, lex .core source = .ok tokens → lex .extended source = .ok tokens) ∧
    ∀ error text, lex .core source = .error error → error.cause = .invalidArraySize text →
      lex .extended source = .error error := by
  rw [← Text.byteLength_toList] at hsize
  -- Where the scan succeeds, both passes agree.
  have hlex : ∀ tokens, scan .core source = .ok tokens →
      lex .extended source = lex .core source := by
    intro tokens hscan
    rw [lex_eq_bind, lex_eq_bind, hscan, scan_extended_of_ok hscan]
    exact combine_extended_of_scan hscan
  refine ⟨fun _ => scan_extended_of_ok, fun _ => scan_extended_of_no_hint,
    fun _ => scan_extended_of_hint hsize, fun _ => extendedHint_not_mem_of_ofLexemes, ?_, ?_⟩
  · intro tokens h
    cases hscan : scan .core source with
    | error error =>
      rw [lex_eq_bind, hscan] at h
      cases h
    | ok scanned => rw [hlex scanned hscan, h]
  · intro error text h hcause
    cases hscan : scan .core source with
    | error other =>
      rw [lex_eq_bind, hscan] at h
      obtain rfl := Except.error.inj h
      exact absurd hcause (ne_invalidArraySize_of_ofLexemes hscan text)
    | ok scanned => rw [hlex scanned hscan, h]

theorem extended_extends_core_relation :
    (∃ error other, scan .core "a >= $" = .error error ∧ extendedHint ∈ error.hints ∧
      scan .extended "a >= $" = .error other ∧ extendedHint ∉ other.hints ∧
      error.span.stop ≤ other.span.start) ∧
    (∃ tokens, lex .core "[]|[7]" = .ok tokens ∧ lex .extended "[]|[7]" = .ok tokens) ∧
    ∃ error, lex .core "[]|[0]" = .error error ∧ lex .extended "[]|[0]" = .error error := by
  obtain ⟨-, -, hhint, hnone, -⟩ := extended_extends_core "a >= $" (by decide)
  obtain ⟨-, -, -, -, hok, -⟩ := extended_extends_core "[]|[7]" (by decide)
  obtain ⟨-, -, -, -, -, hsize⟩ := extended_extends_core "[]|[0]" (by decide)
  refine ⟨?_, ⟨_, rfl, hok _ rfl⟩, _, rfl, hsize _ "[0]" rfl rfl⟩
  obtain ⟨error, herror, hmem⟩ : ∃ error, scan .core "a >= $" = .error error ∧
      extendedHint ∈ error.hints := ⟨_, rfl, by decide⟩
  obtain ⟨other, hother⟩ : ∃ other, scan .extended "a >= $" = .error other := ⟨_, rfl⟩
  rcases hhint error herror hmem with ⟨tokens, htokens⟩ | ⟨_, hsecond, hle⟩
  · cases htokens.symm.trans hother
  · obtain rfl := Except.error.inj (hother.symm.trans hsecond)
    exact ⟨error, other, herror, hmem, hother, hnone other hother, hle⟩

end Token
end ShapeLang
