import ShapeLang.Proofs.Token.Joining
import ShapeLang.Proofs.Token.Layout
import ShapeLang.Proofs.Token.Scanning
import ShapeLang.Token.Lex

/-! Nothing of a source text gets lost on the way to tokens. A scan puts each token over the piece
that it reads; joining neighbours puts the joined token over their pieces and the gaps between
these. -/

namespace ShapeLang.Token

open Text (byteLength isBlank slice?)

section Plain

variable {operators : OperatorSet} {category : Category} {kind : Kind} {text rest : List Char}

theorem isPlain_of_forall {p : Char → Bool}
    (hmarks : [' ', '\t', '\r', '\n', '\x0c', '/'].all fun c => !p c)
    (htext : ∀ c ∈ text, p c) : IsPlain text := by
  intro c hc
  have hne := not_mem_of_all hmarks (htext c hc)
  simpa [isBlank, and_assoc] using hne

theorem isPlain_or_slash (h : category.Spells text) (hkind : operators.kind? category = some kind) :
    IsPlain text ∨ text = ['/'] := by
  rcases forall_isNamePart_or_mark h hkind with hparts | ⟨mark, -, rfl, hmark⟩
  · exact Or.inl (isPlain_of_forall (by decide) hparts)
  by_cases hslash : mark = '/'
  · exact Or.inr (hslash ▸ rfl)
  · have hblank : isBlank mark = false := by
      rw [Bool.eq_false_iff]
      intro hblank
      exact Bool.false_ne_true ((isPunctuation_of_isBlank hblank).symm.trans hmark)
    exact Or.inl (by simpa [IsPlain] using And.intro hblank hslash)

theorem withoutTrivia_piece (h : category.Spells text)
    (hkind : operators.kind? category = some kind) : withoutTrivia .code text = text := by
  rcases isPlain_or_slash h hkind with hplain | rfl
  · simpa [withoutTrivia] using hplain.withoutTrivia_eq []
  · rfl

theorem withoutTrivia_fits (h : Fits (some category) text rest)
    (hkind : operators.kind? category = some kind) :
    withoutTrivia .code (text ++ rest) = text ++ withoutTrivia .code rest := by
  rcases isPlain_or_slash h.spells hkind with hplain | rfl
  · exact hplain.withoutTrivia_eq rest
  · have hread := Reading.longest_of_fits h
    have hextra : (Reading.slash rest).extra = 0 := congrArg Reading.extra hread
    -- A slash or a star after it would have been read together with it.
    apply withoutTrivia_slash
    · intro hline
      obtain ⟨rest, rfl⟩ := List.head?_eq_some_iff.mp hline
      exact absurd hextra (by simp [Reading.slash])
    · intro hblock
      obtain ⟨rest, rfl⟩ := List.head?_eq_some_iff.mp hblock
      revert hextra
      simp only [Reading.slash]
      split <;> simp

end Plain

def Exact (token : Token) (piece : List Char) : Prop :=
  piece = token.text.toList ∧ withoutTrivia .code piece = piece

section Scan

variable {operators : OperatorSet} {lines : LineTable} {source text : List Char} {offset : Nat}
  {lexemes : List Lexeme} {tokens : List Token}

theorem spelled_of_denotes {span : Span} {position : Position} {lexeme : Lexeme} {token : Token}
    (h : lexeme.Denotes operators span position token) :
    token.text.toList = lexeme.text ∧ token.span = span ∧
      ∃ category kind, lexeme.category = some category ∧ operators.kind? category = some kind := by
  cases h with
  | plain hcategory hkind => exact ⟨String.toList_ofList, rfl, _, _, hcategory, hkind⟩
  | number hcategory => exact ⟨String.toList_ofList, rfl, _, .number, hcategory, rfl⟩

theorem withoutTrivia_eq_spelling (htiling : Tiling offset text lexemes)
    (hscanned : Scanned operators lines source lexemes tokens) :
    withoutTrivia .code text = spelling tokens := by
  induction htiling generalizing tokens with
  | blanks hblanks =>
    cases hscanned
    simpa [withoutTrivia, spelling] using (gap_of_blanks hblanks []).withoutTrivia_eq
  | lexeme hblanks hstart hne hfits htiling ih =>
    rw [(gap_of_blanks hblanks _).withoutTrivia_eq]
    cases hscanned with
    | comment hcategory htrivia hrest =>
      rw [hcategory] at hfits
      rw [(isComment_of_fits hfits htrivia).withoutTrivia_eq, ih hrest]
    | token hspan hdenotes hrest =>
      obtain ⟨htext, -, category, kind, hcategory, hkind⟩ := spelled_of_denotes hdenotes
      rw [hcategory] at hfits
      rw [withoutTrivia_fits hfits hkind, ih hrest, spelling_cons, htext]

theorem layout_of_tiling {before : List Char} (htiling : Tiling offset text lexemes)
    (hoffset : offset = byteLength before)
    (hscanned : Scanned operators lines source lexemes tokens) :
    Layout Exact before text tokens := by
  induction htiling generalizing before tokens with
  | blanks hblanks =>
    cases hscanned
    exact Layout.gap (gap_of_blanks hblanks [])
  | @lexeme offset blanks rest lexeme lexemes hblanks hstart hne hfits htiling ih =>
    have hbefore : lexeme.start = byteLength (before ++ blanks) := by
      rw [hstart, hoffset, Text.byteLength_append]
    have hafter : lexeme.stop = byteLength (before ++ blanks ++ lexeme.text) := by
      rw [Lexeme.stop, hbefore, Text.byteLength_append _ lexeme.text]
    cases hscanned with
    | comment hcategory htrivia hrest =>
      rw [hcategory] at hfits
      -- The comment goes to the gap of the token after it.
      have hcomment : IsComment lexeme.text ([] ++ rest) := isComment_of_fits hfits htrivia
      have hgap : Gap (lexeme.text ++ []) rest := Gap.comment hcomment Gap.nil
      rw [List.append_nil] at hgap
      refine Layout.gap_append (gap_of_blanks hblanks _) (Layout.gap_append hgap ?_)
      exact ih hafter hrest
    | token hspan hdenotes hrest =>
      obtain ⟨htext, rfl, category, kind, hcategory, hkind⟩ := spelled_of_denotes hdenotes
      rw [hcategory] at hfits
      obtain ⟨hlow, hhigh⟩ := Span.ofBounds_eq_ok hspan
      exact Layout.token (gap_of_blanks hblanks _) hne (hlow.trans hbefore) (hhigh.trans hafter)
        ⟨htext.symm, withoutTrivia_piece hfits.spells hkind⟩ (ih hafter hrest)

end Scan

def Stripped (token : Token) (piece : List Char) : Prop :=
  withoutTrivia .code piece = token.text.toList

section Join

variable {operators : OperatorSet} {before text : List Char} {tokens out : List Token}
  {blocks : List Block}

theorem IsTripleText.isPlain {text : String} (h : IsTripleText text) : IsPlain text.toList := by
  rcases h with rfl | ⟨n, digits, htext, -, hdigits, -⟩
  · decide
  · rw [htext]
    refine isPlain_of_forall (p := fun c => c = '[' || c = ']' || Radix.decimal.isDigit c)
      (by decide) fun c hc => ?_
    rcases List.mem_cons.mp hc with rfl | hc
    · rfl
    rcases List.mem_append.mp hc with hdigit | hclose
    · simp [hdigits c hdigit]
    · simp [List.mem_singleton.mp hclose]

theorem isPlain_of_mem_pairTable {entry : String × Kind} (h : entry ∈ pairTable operators) :
    IsPlain entry.1.toList := by
  revert entry
  cases operators <;> decide

theorem IsJoinedText.isPlain {text : String} (h : IsJoinedText operators text) :
    IsPlain text.toList := by
  rcases h with ⟨kind, hkind⟩ | htriple
  · exact isPlain_of_mem_pairTable hkind
  · exact htriple.isPlain

theorem isPlain_of_spelling (h : IsPlain (spelling tokens)) :
    ∀ t ∈ tokens, IsPlain t.text.toList :=
  fun t ht c hc => h c (List.mem_flatMap.mpr ⟨t, ht, hc⟩)

theorem Layout.window {first : Token} {window rest : List Token}
    (h : Layout Exact before text (first :: (window ++ rest)))
    (hplain : ∀ t ∈ first :: window, IsPlain t.text.toList) :
    ∃ gap piece after, text = gap ++ (piece ++ after) ∧ Gap gap (piece ++ after) ∧ piece ≠ [] ∧
      first.span.start.toNat = byteLength (before ++ gap) ∧
      ((first :: window).getLast (List.cons_ne_nil _ _)).span.stop.toNat =
        byteLength (before ++ gap ++ piece) ∧
      withoutTrivia .code piece = spelling (first :: window) ∧
      Layout Exact (before ++ gap ++ piece) after rest := by
  induction window generalizing first before text with
  | nil =>
    cases h with
    | @token _ gap piece rest _ tokens hgap hne hstart hstop hexact hrest =>
      refine ⟨gap, piece, rest, rfl, hgap, hne, hstart, hstop, ?_, hrest⟩
      rw [hexact.2, hexact.1]
      simp [spelling]
  | cons second window ih =>
    obtain ⟨hfirst, hwindow⟩ := List.forall_mem_cons.mp hplain
    cases h with
    | @token _ gap piece rest _ tokens hgap hne hstart hstop hexact hrest =>
      obtain ⟨gap', piece', after, rfl, hgap', hne', -, hstop', hleft, hafter⟩ := ih hrest hwindow
      -- The gap between the two pieces is now inside of one, so it must end with its own text.
      have hinner : Gap gap' piece' := hgap'.of_append
      refine ⟨gap, piece ++ (gap' ++ piece'), after, by simp, by simpa using hgap, by simp [hne],
        hstart, ?_, ?_, by simpa using hafter⟩
      · simpa using hstop'
      · rw [hexact.1, hfirst.withoutTrivia_eq, hinner.withoutTrivia_eq, hleft]
        rfl

theorem Layout.hull_of_cut {Reads : Token → List Char → Prop} {a b c : Token} {rest : List Token}
    (h : Layout Reads before text tokens)
    (hcut : Cut operators (a :: b :: c :: rest) tokens blocks out) :
    a.span.hull c.span = ⟨a.span.start, c.span.stop⟩ := by
  rw [hcut.tokens_eq] at h
  obtain ⟨_, _, hwindow⟩ := h.exists_of_append
  exact hwindow.hull_eq (by simp)

theorem Layout.of_cut (hcut : Cut operators [] tokens blocks out)
    (h : Layout Exact before text tokens) : Layout Stripped before text out := by
  induction hcut generalizing before text with
  | done =>
    cases h with
    | gap hgap => exact Layout.gap hgap
  | block hstands hbecomes hcut ih =>
    rcases hbecomes.eq_single_or_joined with rfl | hjoined
    · cases h with
      | token hgap hne hstart hstop hexact hrest =>
        exact Layout.token hgap hne hstart hstop (hexact.2.trans hexact.1) (ih hrest)
    · have hplain := hjoined.isPlain
      have htext := hbecomes.spelling_eq
      obtain ⟨first, window, htokens, -, hspan⟩ := hbecomes.place_eq
      rw [htokens] at h htext
      rw [htext] at hplain
      have hlast := List.getLast_mem (List.cons_ne_nil first window)
      rw [h.hull_eq (List.mem_append_left _ hlast)] at hspan
      obtain ⟨gap, piece, after, rfl, hgap, hne, hstart, hstop, hleft, hafter⟩ :=
        h.window (isPlain_of_spelling hplain)
      refine Layout.token hgap hne ?_ ?_ (hleft.trans htext.symm) (ih hafter)
      · rw [hspan, hstart]
      · rw [hspan, hstop]

end Join

/-- The tokens stand in order over disjoint parts of the source, nothing but blanks and whole
comments lies outside of them, and their texts are what is left of the source without those. -/
structure Covers (source : List Char) (tokens : List Token) : Prop where
  nonempty : ∀ t ∈ tokens, t.span.start < t.span.stop
  ordered : tokens.Pairwise fun a b => a.span.stop ≤ b.span.start
  outside : ∀ left c right, source = left ++ c :: right →
    (∀ t ∈ tokens, byteLength left < t.span.start.toNat ∨
      t.span.stop.toNat ≤ byteLength left) →
    isBlank c ∨ ∃ before comment after, source = before ++ (comment ++ after) ∧
      IsComment comment after ∧ before.length ≤ left.length ∧
      left.length < before.length + comment.length ∧
      ∀ t ∈ tokens, t.span.stop.toNat ≤ byteLength before ∨
        byteLength (before ++ comment) ≤ t.span.start.toNat
  kept : withoutTrivia .code source = spelling tokens

theorem Layout.covers {Reads : Token → List Char → Prop} {source : List Char}
    {tokens : List Token} (h : Layout Reads [] source tokens)
    (hkept : withoutTrivia .code source = spelling tokens) : Covers source tokens :=
  ⟨h.start_lt_stop, h.pairwise, fun _ _ _ => h.isBlank_or_comment, hkept⟩

theorem layout_of_scan {operators : OperatorSet} {source : String} {tokens : List Token}
    (h : scan operators source = .ok tokens) :
    Layout Exact [] source.toList tokens ∧
      withoutTrivia .code source.toList = spelling tokens := by
  have htiling := Lexeme.tiling_splitFrom 0 source.toList
  have hscanned := scanned_of_ofLexemes h
  exact ⟨layout_of_tiling htiling rfl hscanned, withoutTrivia_eq_spelling htiling hscanned⟩

/-- No character of a source is lost, moved or read twice. A scanned token has the source under its
span for its text, and a joined one what is left of that without blanks and comments. -/
theorem scan_and_lex_lossless (operators : OperatorSet) (source : String) :
    (∀ tokens, scan operators source = .ok tokens →
      Covers source.toList tokens ∧ ∀ t ∈ tokens,
        slice? source.toList t.span.start.toNat t.span.stop.toNat = some t.text.toList) ∧
    ∀ tokens, lex operators source = .ok tokens →
      Covers source.toList tokens ∧ ∀ t ∈ tokens, ∃ piece,
        slice? source.toList t.span.start.toNat t.span.stop.toNat = some piece ∧
          withoutTrivia .code piece = t.text.toList := by
  constructor
  · intro tokens hscan
    obtain ⟨hlayout, hkept⟩ := layout_of_scan hscan
    refine ⟨hlayout.covers hkept, fun t ht => ?_⟩
    obtain ⟨piece, hslice, -, rfl, -⟩ := hlayout.exists_slice t ht
    exact hslice
  · intro out hlex
    obtain ⟨tokens, hscan, hcombine⟩ := lex_eq_ok_iff.mp hlex
    obtain ⟨hlayout, hkept⟩ := layout_of_scan hscan
    obtain ⟨blocks, hcut⟩ := exists_cut_of_combine_ok hcombine
    have hspelling : spelling out = spelling tokens := by
      simpa [spelling] using hcut.spelling_eq
    have hjoined := hlayout.of_cut hcut
    refine ⟨hjoined.covers (hkept.trans hspelling.symm), fun t ht => ?_⟩
    obtain ⟨piece, hslice, -, hstripped⟩ := hjoined.exists_slice t ht
    exact ⟨piece, hslice, hstripped⟩

theorem scan_and_lex_lossless_array :
    (∃ scanned, scan .core "[ /*c*/ 3 ]" = .ok scanned ∧ scanned.length = 3 ∧
      Covers "[ /*c*/ 3 ]".toList scanned) ∧
    ∃ token, lex .core "[ /*c*/ 3 ]" = .ok [token] ∧ token.span = ⟨0, 11⟩ ∧
      Covers "[ /*c*/ 3 ]".toList [token] ∧
      ∃ piece, slice? "[ /*c*/ 3 ]".toList 0 11 = some piece ∧
        withoutTrivia .code piece = "[3]".toList := by
  obtain ⟨hscan, hlex⟩ := scan_and_lex_lossless .core "[ /*c*/ 3 ]"
  obtain ⟨hcovers, hpieces⟩ := hlex _ rfl
  exact ⟨⟨_, rfl, rfl, (hscan _ rfl).1⟩, _, rfl, rfl, hcovers,
    hpieces _ (List.mem_singleton_self _)⟩

end ShapeLang.Token
