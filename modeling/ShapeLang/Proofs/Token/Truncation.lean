import ShapeLang.Proofs.Token.Lossless
import ShapeLang.Proofs.Token.Meaning

/-! A source that is cut off where a lexeme starts or ends has the lexemes up to there, and they
mean what they did. So an error is found again in the source up to its end, and there is none in
the source up to its start. Joining looks ahead at two tokens at most, and what it does not see
there only lets more blocks stand. -/

namespace ShapeLang

open Text (byteLength cut?)

theorem Tiling.truncate {offset : Nat} {text : List Char} {a b : List Lexeme} {l : Lexeme}
    (h : Tiling offset text (a ++ l :: b)) :
    ∃ before after, text = before ++ (l.text ++ after) ∧ l.start = offset + byteLength before ∧
      l.text ≠ [] ∧ Tiling offset before a ∧ Tiling offset (before ++ l.text) (a ++ [l]) := by
  induction a generalizing offset text with
  | nil =>
    cases h with
    | @lexeme _ blanks rest _ _ hblanks hstart hne hfits htiling =>
      have hlast : Tiling l.stop [] [] := Tiling.blanks (by simp)
      have hsingle := Tiling.lexeme hblanks hstart hne hfits.alone hlast
      rw [List.append_nil] at hsingle
      exact ⟨blanks, rest, rfl, hstart, hne, Tiling.blanks hblanks, hsingle⟩
  | cons x a ih =>
    rw [List.cons_append] at h
    cases h with
    | @lexeme _ blanks rest _ _ hblanks hstart hne hfits htiling =>
      obtain ⟨before, after, rfl, hl, hlne, hbefore, hthrough⟩ := ih htiling
      rw [← List.append_assoc] at hfits
      refine ⟨blanks ++ (x.text ++ before), after, by simp only [List.append_assoc], ?_, hlne,
        Tiling.lexeme hblanks hstart hne hfits.of_append.of_append hbefore, ?_⟩
      · rw [hl, Lexeme.stop, hstart, Text.byteLength_append, Text.byteLength_append]
        omega
      · have hcons := Tiling.lexeme hblanks hstart hne hfits.of_append hthrough
        simp only [List.append_assoc, List.cons_append] at hcons ⊢
        exact hcons

namespace Token

variable {operators : OperatorSet}

section Scan

variable {source : String} {a b : List Lexeme} {l : Lexeme} {tokens : List Token}

theorem scan_truncated (hsize : byteLength source.toList < UInt32.size)
    (hsplit : Lexeme.split source.toList = a ++ l :: b)
    (ha : ofLexemes operators (.ofText source.toList) source.toList a = .ok tokens) :
    ∃ before, l.Follows before source.toList ∧
      scan operators (String.ofList before) = .ok tokens ∧
      scan operators (String.ofList (before ++ l.text)) =
        (l.toToken? operators (.ofText source.toList) source.toList).map
          fun result => tokens ++ result.toList := by
  have htiling := Lexeme.tiling_split source.toList
  rw [hsplit] at htiling
  obtain ⟨before, after, hsource, hstart, hne, hbefore, hthrough⟩ := htiling.truncate
  have hstarts : before ++ l.text <+: source.toList := ⟨after, by rw [hsource, List.append_assoc]⟩
  have hshorter : before <+: source.toList := (List.prefix_append _ _).trans hstarts
  refine ⟨before, ⟨hne, by rw [hstart, Nat.zero_add], hstarts⟩, ?_, ?_⟩
  · rw [scan_of_tiling hbefore hshorter hsize, ha]
  · rw [scan_of_tiling hthrough hstarts hsize, ofLexemes_append_of_ok ha, ofLexemes_single]
    cases l.toToken? operators (.ofText source.toList) source.toList <;> rfl

end Scan

theorem Block.Stands.of_prefix {block : Block} {rest rest' : List Token}
    (h : block.Stands operators rest) (hstarts : rest' <+: rest) :
    block.Stands operators rest' := by
  obtain ⟨unseen, rfl⟩ := hstarts
  cases block with
  | single a =>
    refine ⟨fun b hb => h.1 b ?_, fun b c after hrest => h.2 b c (after ++ unseen) ?_⟩
    · obtain ⟨after, rfl⟩ := List.head?_eq_some_iff.mp hb
      rfl
    · rw [hrest]
      rfl
  | pair a b =>
    refine ⟨h.1, fun c hc => h.2 c ?_⟩
    obtain ⟨after, rfl⟩ := List.head?_eq_some_iff.mp hc
    rfl
  | triple a b c => exact h

theorem Cut.of_prefix {tail tail' tokens out : List Token} {blocks : List Block}
    (h : Cut operators tail tokens blocks out) (hstarts : tail' <+: tail) :
    Cut operators tail' (blocks.flatMap Block.tokens ++ tail') blocks out := by
  induction h with
  | done => exact Cut.done
  | @block block rest blocks token out hstands hbecomes hcut ih =>
    have hrest : blocks.flatMap Block.tokens ++ tail' <+: rest := by
      rw [hcut.tokens_eq]
      exact (List.prefix_append_right_inj _).mpr hstarts
    rw [List.flatMap_cons, List.append_assoc]
    exact Cut.block (hstands.of_prefix hrest) hbecomes ih

/-- The source up to an offset, if it can be cut there. -/
def upTo? (source : String) (offset : UInt32) : Option String :=
  (cut? offset.toNat source.toList).map fun parts => String.ofList parts.1

theorem upTo?_of_prefix {source : String} {text : List Char} {offset : UInt32}
    (hstarts : text <+: source.toList) (hoffset : offset.toNat = byteLength text) :
    upTo? source offset = some (String.ofList text) := by
  obtain ⟨rest, hsource⟩ := hstarts
  rw [upTo?, hoffset, ← hsource, Text.cut?_append, Option.map_some]

section Prefixes

variable {source : String}

theorem scan_error_recurs (hsize : byteLength source.toList < UInt32.size) {error : LexError}
    (h : scan operators source = .error error) :
    (∃ before tokens, upTo? source error.span.start = some before ∧
      scan operators before = .ok tokens) ∧
    ∃ through, upTo? source error.span.stop = some through ∧
      scan operators through = .error error := by
  obtain ⟨a, l, b, tokens, hsplit, ha, hl⟩ := exists_of_ofLexemes_error h
  obtain ⟨before, hfollows, hbefore, hthrough⟩ := scan_truncated hsize hsplit ha
  obtain ⟨hstart, hstop⟩ := hfollows.span_of_error hsize hl
  have hshorter : before <+: source.toList := (List.prefix_append _ _).trans hfollows.prefixed
  refine ⟨⟨_, tokens, upTo?_of_prefix hshorter hstart, hbefore⟩,
    _, upTo?_of_prefix hfollows.prefixed hstop, ?_⟩
  rw [hthrough, hl]
  rfl

theorem scan_upTo_token (hsize : byteLength source.toList < UInt32.size)
    {before rest : List Token} {token : Token}
    (h : scan operators source = .ok (before ++ token :: rest)) :
    (∃ text, upTo? source token.span.start = some text ∧ scan operators text = .ok before) ∧
    ∃ text, upTo? source token.span.stop = some text ∧
      scan operators text = .ok (before ++ [token]) := by
  obtain ⟨a, l, b, hsplit, ha, hl⟩ := exists_of_ofLexemes_ok h
  obtain ⟨part, hfollows, hbefore, hthrough⟩ := scan_truncated hsize hsplit ha
  obtain ⟨hstart, hstop⟩ := hfollows.span_of_token hsize hl
  have hshorter : part <+: source.toList := (List.prefix_append _ _).trans hfollows.prefixed
  refine ⟨⟨_, upTo?_of_prefix hshorter hstart, hbefore⟩,
    _, upTo?_of_prefix hfollows.prefixed hstop, ?_⟩
  rw [hthrough, hl]
  rfl

theorem combine_error_recurs (hsize : byteLength source.toList < UInt32.size)
    {tokens : List Token} (hscan : scan operators source = .ok tokens) {error : LexError}
    (h : combine operators tokens = .error error) :
    (∃ before out, upTo? source error.span.start = some before ∧
      lex operators before = .ok out) ∧
    ∃ through, upTo? source error.span.stop = some through ∧
      lex operators through = .error error := by
  obtain ⟨blocks, out, a, b, c, rest, n, hcut, hn, hwrong, rfl⟩ := exists_cut_of_combine_error h
  have hspan := (layout_of_scan hscan).1.hull_of_cut hcut
  rw [hcut.tokens_eq] at hscan
  dsimp only
  rw [hspan]
  have hscanLast : scan operators source =
      .ok (blocks.flatMap Block.tokens ++ [a, b] ++ c :: rest) := by
    rw [hscan, List.append_assoc]
    rfl
  obtain ⟨⟨before, hbefore, hscanBefore⟩, -⟩ := scan_upTo_token hsize hscan
  obtain ⟨-, through, hthrough, hscanThrough⟩ := scan_upTo_token hsize hscanLast
  rw [List.append_assoc] at hscanThrough
  refine ⟨⟨before, out, hbefore, ?_⟩, through, hthrough, ?_⟩
  · have hshorter := hcut.of_prefix (List.nil_prefix)
    rw [List.append_nil] at hshorter
    exact lex_eq_ok_iff.mpr ⟨_, hscanBefore, hshorter.combine_ok⟩
  · have hwindow : [a, b, c] <+: a :: b :: c :: rest := List.prefix_append [a, b, c] rest
    rw [← hspan]
    exact lex_eq_error_iff.mpr
      (Or.inr ⟨_, hscanThrough, (hcut.of_prefix hwindow).combine_error hn hwrong⟩)

/-- An error is the error of the source up to where it ends. Up to where it starts the source can be
scanned, and joined too if the error is a size that no array has. -/
theorem errors_recur_in_prefixes (operators : OperatorSet) (source : String)
    (hsize : source.utf8ByteSize < UInt32.size) :
    (∀ error, scan operators source = .error error →
      (∃ before tokens, upTo? source error.span.start = some before ∧
        scan operators before = .ok tokens) ∧
      ∃ through, upTo? source error.span.stop = some through ∧
        scan operators through = .error error) ∧
    ∀ error, lex operators source = .error error →
      (∃ through, upTo? source error.span.stop = some through ∧
        lex operators through = .error error) ∧
      ∀ text, error.cause = .invalidArraySize text →
        ∃ before tokens, upTo? source error.span.start = some before ∧
          lex operators before = .ok tokens := by
  rw [← Text.byteLength_toList] at hsize
  refine ⟨fun error => scan_error_recurs hsize, fun error hlex => ?_⟩
  rcases lex_eq_error_iff.mp hlex with hscan | ⟨tokens, hscan, hcombine⟩
  · obtain ⟨-, through, hthrough, herror⟩ := scan_error_recurs hsize hscan
    refine ⟨⟨through, hthrough, lex_eq_error_iff.mpr (Or.inl herror)⟩, fun text htext => ?_⟩
    exact absurd htext (ne_invalidArraySize_of_ofLexemes hscan text)
  · obtain ⟨hbefore, hthrough⟩ := combine_error_recurs hsize hscan hcombine
    exact ⟨hthrough, fun _ _ => hbefore⟩

theorem errors_recur_in_prefixes_array :
    (∃ error, scan .core "a \"b\nc" = .error error ∧ error.span = ⟨2, 4⟩ ∧
      (∃ tokens, scan .core "a " = .ok tokens) ∧ scan .core "a \"b" = .error error) ∧
    ∃ error, lex .core "|| [ 0 ]]" = .error error ∧ error.span = ⟨3, 8⟩ ∧
      (∃ tokens, lex .core "|| " = .ok tokens) ∧ lex .core "|| [ 0 ]" = .error error := by
  obtain ⟨hscan, -⟩ := errors_recur_in_prefixes .core "a \"b\nc" (by decide)
  obtain ⟨-, hlex⟩ := errors_recur_in_prefixes .core "|| [ 0 ]]" (by decide)
  obtain ⟨⟨before, tokens, hbefore, hok⟩, through, hthrough, herror⟩ := hscan _ rfl
  obtain ⟨⟨through', hthrough', herror'⟩, harray⟩ := hlex _ rfl
  obtain ⟨before', tokens', hbefore', hok'⟩ := harray _ rfl
  obtain rfl := Option.some.inj hbefore
  obtain rfl := Option.some.inj hthrough
  obtain rfl := Option.some.inj hbefore'
  obtain rfl := Option.some.inj hthrough'
  exact ⟨⟨_, rfl, rfl, ⟨_, hok⟩, herror⟩, _, rfl, rfl, ⟨_, hok'⟩, herror'⟩

end Prefixes

end Token
end ShapeLang
