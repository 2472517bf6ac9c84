import Mathlib.Data.List.Forall2
import ShapeLang.Proofs.Token.Lossless
import ShapeLang.Proofs.Token.Meaning

/-! Where tokens and errors are said to be. The place of each is counted in the source before its
span. Joining takes the place over from the first of the tokens that it joins, so it stays exact,
and the places come in the order of the spans. -/

namespace ShapeLang

open Text (byteLength)

def Span.StartsAt (span : Span) (source : List Char) (position : Position) : Prop :=
  ∃ before, before <+: source ∧ span.start.toNat = byteLength before ∧ position.Counts before

theorem Span.StartsAt.before {source : List Char} {span later : Span} {position place : Position}
    (h : span.StartsAt source position) (hlater : later.StartsAt source place)
    (hstart : span.start < later.start) : position.Before place := by
  obtain ⟨a, ha, hstartA, hcounts⟩ := h
  obtain ⟨b, hb, hstartB, hcounts'⟩ := hlater
  rw [UInt32.lt_iff_toNat_lt, hstartA, hstartB] at hstart
  have hnot : ¬ b <+: a := by
    rintro ⟨rest, rfl⟩
    rw [Text.byteLength_append] at hstart
    omega
  obtain ⟨between, rfl⟩ := (List.prefix_or_prefix_of_prefix ha hb).resolve_right hnot
  have hne : between ≠ [] := by
    rintro rfl
    rw [List.append_nil] at hstart
    exact Nat.lt_irrefl _ hstart
  exact hcounts.before hcounts' hne

section Scan

variable {operators : OperatorSet} {source : List Char} {before : List Char} {l : Lexeme}

theorem Lexeme.Follows.startsAt (h : l.Follows before source)
    (hsize : byteLength source < UInt32.size) :
    (Span.over before l.text).StartsAt source (.after before) := by
  have hwhole : byteLength (before ++ l.text) < UInt32.size :=
    Nat.lt_of_le_of_lt h.byteLength_le hsize
  have hcounts : (Position.after before).Counts before :=
    Position.counts_after (Nat.lt_of_le_of_lt h.byteLength_lt hsize)
  exact ⟨before, (List.prefix_append _ _).trans h.prefixed, (Span.toNat_over hwhole).1, hcounts⟩

theorem Lexeme.Follows.startsAt_of_token (h : l.Follows before source)
    (hsize : byteLength source < UInt32.size) {token : Token}
    (htoken : l.toToken? operators (.ofText source) source = .ok (some token)) :
    token.span.StartsAt source token.position := by
  obtain ⟨hspan, hposition⟩ := h.place_of_token hsize htoken
  rw [hspan, hposition]
  exact h.startsAt hsize

theorem Lexeme.Follows.startsAt_of_error (h : l.Follows before source)
    (hsize : byteLength source < UInt32.size) {error : LexError}
    (herror : l.toToken? operators (.ofText source) source = .error error) :
    error.span.StartsAt source error.position := by
  obtain ⟨-, hspan, hposition⟩ := h.place_of_error hsize herror
  rw [hspan, hposition]
  exact h.startsAt hsize

theorem Lexeme.ne_sourceTooLarge_of_meaning {cause : LexError.Cause}
    (h : l.meaning operators = .error cause) (large : SpanError) :
    cause ≠ .sourceTooLarge large := by
  rintro rfl
  rcases cause_of_meaning h with ⟨-, hcause⟩ | ⟨_, -, -, -, hunknown⟩ | hnumber
  · rcases l.faultCause_eq with hfault | ⟨_, hfault⟩ <;> cases hcause.trans hfault
  · cases hunknown
  · cases hnumber

end Scan

namespace Token

def Block.StartsWith (block : Block) (token : Token) : Prop :=
  ∃ first window, block.tokens = first :: window ∧ token.position = first.position ∧
    token.span.start = first.span.start

section Join

variable {Reads : Token → List Char → Prop} {operators : OperatorSet}
  {before text source : List Char} {tokens rest out : List Token} {blocks : List Block}

theorem Layout.startsWith {block : Block} {token : Token} (hbecomes : block.Becomes operators token)
    (h : Layout Reads before text (block.tokens ++ rest)) : block.StartsWith token := by
  obtain ⟨first, window, htokens, hposition, hspan⟩ := hbecomes.place_eq
  rw [htokens, List.cons_append] at h
  have hlast : (first :: window).getLast (List.cons_ne_nil _ _) ∈ first :: (window ++ rest) :=
    List.mem_append_left rest (List.getLast_mem _)
  refine ⟨first, window, htokens, hposition, ?_⟩
  rw [hspan, h.hull_eq hlast]

theorem Layout.startsWith_of_cut (hcut : Cut operators [] tokens blocks out)
    (h : Layout Reads before text tokens)
    (hplaces : ∀ t ∈ tokens, t.span.StartsAt source t.position) :
    List.Forall₂ Block.StartsWith blocks out ∧
      ∀ t ∈ out, t.span.StartsAt source t.position := by
  induction hcut generalizing before text with
  | done => exact ⟨List.Forall₂.nil, by simp⟩
  | block hstands hbecomes hcut ih =>
    obtain ⟨hblock, hrest⟩ := List.forall_mem_append.mp hplaces
    obtain ⟨_, _, hlater⟩ := h.exists_of_append
    obtain ⟨hblocks, hout⟩ := ih hlater hrest
    have hfirst := h.startsWith hbecomes
    refine ⟨List.Forall₂.cons hfirst hblocks, List.forall_mem_cons.mpr ⟨?_, hout⟩⟩
    obtain ⟨first, window, htokens, hposition, hstart⟩ := hfirst
    obtain ⟨part, hpart, hbytes, hcounts⟩ := hblock first (by simp [htokens])
    exact ⟨part, hpart, hstart ▸ hbytes, hposition ▸ hcounts⟩

theorem Layout.pairwise_before (h : Layout Reads before text tokens)
    (hplaces : ∀ t ∈ tokens, t.span.StartsAt source t.position) :
    tokens.Pairwise fun a b => a.position.Before b.position := by
  refine h.pairwise.imp_of_mem fun {a b} ha hb hbetween => ?_
  have hstart : a.span.start < b.span.start :=
    UInt32.lt_of_lt_of_le (h.start_lt_stop a ha) hbetween
  exact (hplaces a ha).before (hplaces b hb) hstart

end Join

/-- All places of an outcome are counted in the source, the tokens come in the order of theirs, and
the source is not too large. -/
inductive Located (source : List Char) : Except LexError (List Token) → Prop where
  | ok {tokens : List Token} : (∀ t ∈ tokens, t.span.StartsAt source t.position) →
    (tokens.Pairwise fun a b => a.position.Before b.position) → Located source (.ok tokens)
  | error {error : LexError} : error.span.StartsAt source error.position →
    (∀ large, error.cause ≠ .sourceTooLarge large) → Located source (.error error)

section Both

variable {operators : OperatorSet} {source : String} {tokens : List Token} {error : LexError}

theorem startsAt_of_scan (hsize : byteLength source.toList < UInt32.size)
    (h : scan operators source = .ok tokens) :
    ∀ t ∈ tokens, t.span.StartsAt source.toList t.position := by
  intro t ht
  obtain ⟨before, rest, rfl⟩ := List.append_of_mem ht
  obtain ⟨a, l, b, hsplit, -, hl⟩ := exists_of_ofLexemes_ok h
  obtain ⟨part, hfollows⟩ :=
    (Lexeme.tiling_split source.toList).follows_part l (by simp [hsplit])
  exact hfollows.startsAt_of_token hsize hl

theorem located_scan (hsize : byteLength source.toList < UInt32.size) (operators : OperatorSet) :
    Located source.toList (scan operators source) := by
  cases h : scan operators source with
  | ok tokens =>
    have hplaces := startsAt_of_scan hsize h
    exact Located.ok hplaces ((layout_of_scan h).1.pairwise_before hplaces)
  | error error =>
    obtain ⟨a, l, b, _, hsplit, -, hl⟩ := exists_of_ofLexemes_error h
    obtain ⟨part, hfollows⟩ :=
      (Lexeme.tiling_split source.toList).follows_part l (by simp [hsplit])
    have hmeaning := (hfollows.place_of_error hsize hl).1
    exact Located.error (hfollows.startsAt_of_error hsize hl)
      (Lexeme.ne_sourceTooLarge_of_meaning hmeaning)

theorem located_combine (hsize : byteLength source.toList < UInt32.size)
    (hscan : scan operators source = .ok tokens) :
    Located source.toList (combine operators tokens) := by
  have hplaces := startsAt_of_scan hsize hscan
  have hlayout := (layout_of_scan hscan).1
  cases h : combine operators tokens with
  | ok out =>
    obtain ⟨blocks, hcut⟩ := exists_cut_of_combine_ok h
    have hout := (hlayout.startsWith_of_cut hcut hplaces).2
    exact Located.ok hout ((hlayout.of_cut hcut).pairwise_before hout)
  | error error =>
    obtain ⟨blocks, out, a, b, c, rest, n, hcut, -, -, rfl⟩ := exists_cut_of_combine_error h
    obtain ⟨part, hpart, hbytes, hcounts⟩ := hplaces a (by simp [hcut.tokens_eq])
    refine Located.error ⟨part, hpart, ?_, hcounts⟩ fun large hlarge => by cases hlarge
    rw [hlayout.hull_of_cut hcut]
    exact hbytes

/-- Every token and every error is where it is said to be, and the tokens come in the order of
their places. A joined token is at the place of the first one that it is joined from. -/
theorem locations_exact (operators : OperatorSet) (source : String)
    (hsize : source.utf8ByteSize < UInt32.size) :
    Located source.toList (scan operators source) ∧
    Located source.toList (lex operators source) ∧
    ∀ scanned tokens, scan operators source = .ok scanned → lex operators source = .ok tokens →
      ∃ blocks, Cut operators [] scanned blocks tokens ∧
        List.Forall₂ Block.StartsWith blocks tokens := by
  rw [← Text.byteLength_toList] at hsize
  have hscan := located_scan hsize operators
  refine ⟨hscan, ?_, fun scanned tokens hscanned hlex => ?_⟩
  · rw [lex_eq_bind]
    cases hscanned : scan operators source with
    | error error => rwa [hscanned] at hscan
    | ok scanned => exact located_combine hsize hscanned
  · rw [lex_eq_bind, hscanned] at hlex
    obtain ⟨blocks, hcut⟩ := exists_cut_of_combine_ok hlex
    have hplaces := startsAt_of_scan hsize hscanned
    exact ⟨blocks, hcut, ((layout_of_scan hscanned).1.startsWith_of_cut hcut hplaces).1⟩

theorem locations_exact_array :
    (∃ scanned tokens blocks, scan .core "/*é\n*/ [ 7 ]x" = .ok scanned ∧
      lex .core "/*é\n*/ [ 7 ]x" = .ok tokens ∧
      tokens.map Token.position = [⟨2, 4⟩, ⟨2, 9⟩] ∧
      Located "/*é\n*/ [ 7 ]x".toList (.ok tokens) ∧ Cut .core [] scanned blocks tokens ∧
      List.Forall₂ Block.StartsWith blocks tokens) ∧
    ∃ error, lex .core "é\n x[0]" = .error error ∧ error.position = ⟨2, 3⟩ ∧
      Located "é\n x[0]".toList (.error error) := by
  obtain ⟨-, hok, hjoined⟩ := locations_exact .core "/*é\n*/ [ 7 ]x" (by decide)
  obtain ⟨-, herror, -⟩ := locations_exact .core "é\n x[0]" (by decide)
  obtain ⟨blocks, hcut, hstarts⟩ := hjoined _ _ rfl rfl
  exact ⟨⟨_, _, blocks, rfl, rfl, rfl, hok, hcut, hstarts⟩, _, rfl, rfl, herror⟩

end Both

end Token
end ShapeLang
