import Mathlib.Data.List.Forall2
import ShapeLang.Proofs.Token.Lines
import ShapeLang.Proofs.Token.Relocation
import ShapeLang.Token.Lex

/-! Comments are blanks. If spaces stand in their place, line feeds apart, every other lexeme stays
on its line and in its column, and it is still read there: the text behind it either stays as it was
or has a space where it changes first, and of the lexemes that a scan lets through only comments go
on over a space. Only bytes can get lost, so what fits into words still does. -/

namespace ShapeLang

open Text (byteLength isBlank)

/-- The character, or a space in its place if it ends no line. -/
def Fades (c d : Char) : Prop :=
  d = c ∨ c ≠ '\n' ∧ d = ' '

section Fades

variable {a b : List Char}

theorem fades_refl (text : List Char) : List.Forall₂ Fades text text :=
  List.forall₂_same.mpr fun _ _ => Or.inl rfl

theorem Fades.feed_iff {c d : Char} (h : Fades c d) : c = '\n' ↔ d = '\n' := by
  rcases h with rfl | ⟨hc, rfl⟩
  · exact Iff.rfl
  · exact iff_of_false hc (by decide)

theorem Fades.utf8Size_le {c d : Char} (h : Fades c d) : d.utf8Size ≤ c.utf8Size := by
  rcases h with rfl | ⟨-, rfl⟩
  · exact Nat.le_refl _
  · exact c.utf8Size_pos

theorem byteLength_le_of_fades (h : List.Forall₂ Fades a b) : byteLength b ≤ byteLength a := by
  induction h with
  | nil => exact Nat.le_refl 0
  | cons hc _ ih => exact Nat.add_le_add hc.utf8Size_le ih

theorem feed_mem_iff_of_fades (h : List.Forall₂ Fades a b) : '\n' ∈ a ↔ '\n' ∈ b := by
  induction h with
  | nil => exact Iff.rfl
  | cons hc _ ih => simp only [List.mem_cons, ih, eq_comm (a := '\n'), hc.feed_iff]

theorem count_of_fades (h : List.Forall₂ Fades a b) : b.count '\n' = a.count '\n' := by
  induction h with
  | nil => rfl
  | cons hc _ ih => simp only [List.count_cons, ih, beq_iff_eq, hc.feed_iff]

theorem length_lastLine_of_fades (h : List.Forall₂ Fades a b) :
    (Text.lastLine b).length = (Text.lastLine a).length := by
  induction h with
  | nil => rfl
  | @cons c d a b hc hrest ih =>
    have hfeed := feed_mem_iff_of_fades (List.Forall₂.cons hc hrest)
    rw [Text.lastLine, Text.lastLine]
    by_cases hmem : '\n' ∈ c :: a
    · rw [if_pos hmem, if_pos (hfeed.mp hmem), ih]
    · rw [if_neg hmem, if_neg (mt hfeed.mpr hmem), List.length_cons, List.length_cons,
        hrest.length_eq]

theorem Position.after_of_fades (h : List.Forall₂ Fades a b) :
    Position.after b = Position.after a := by
  rw [after, after, count_of_fades h, length_lastLine_of_fades h]

theorem eq_or_space_of_fades (h : List.Forall₂ Fades a b) :
    b = a ∨ ∃ before c rest rest', a = before ++ c :: rest ∧ b = before ++ ' ' :: rest' := by
  induction h with
  | nil => exact Or.inl rfl
  | @cons c d a b hc _ ih =>
    rcases hc with rfl | ⟨-, rfl⟩
    · rcases ih with rfl | ⟨before, c, rest, rest', rfl, rfl⟩
      · exact Or.inl rfl
      · exact Or.inr ⟨d :: before, c, rest, rest', rfl, rfl⟩
    · exact Or.inr ⟨[], c, a, b, rfl, rfl⟩

theorem Fits.of_fades {operators : OperatorSet} {category : Category} {text : List Char}
    (h : Fits (some category) text a) (htakes : operators.Takes category)
    (hcomment : category.isTrivia = false) (hfades : List.Forall₂ Fades a b) :
    Fits (some category) text b := by
  rcases eq_or_space_of_fades hfades with rfl | ⟨before, c, rest, rest', rfl, rfl⟩
  · exact h
  · refine h.of_append.append_stop htakes (by decide) ?_ rest'
    rintro rfl
    cases hcomment

end Fades

namespace Lexeme

def isComment (l : Lexeme) : Bool :=
  l.category.any Category.isTrivia

def Holds (l : Lexeme) (offset : Nat) : Prop :=
  l.start ≤ offset ∧ offset < l.stop

instance (l : Lexeme) (offset : Nat) : Decidable (l.Holds offset) :=
  inferInstanceAs (Decidable (_ ∧ _))

/-- A text that starts at `offset`, with a space for every character that one of the lexemes holds.
Line feeds stay. -/
def blankOut (lexemes : List Lexeme) : Nat → List Char → List Char
  | _, [] => []
  | offset, c :: text =>
    (if c ≠ '\n' ∧ ∃ l ∈ lexemes, l.Holds offset then ' ' else c) ::
      blankOut lexemes (offset + c.utf8Size) text

section BlankOut

variable {offset : Nat} {text : List Char} {lexemes : List Lexeme} {l : Lexeme}

theorem fades_blankOut (lexemes : List Lexeme) (offset : Nat) (text : List Char) :
    List.Forall₂ Fades text (blankOut lexemes offset text) := by
  induction text generalizing offset with
  | nil => exact List.Forall₂.nil
  | cons c text ih =>
    refine List.Forall₂.cons ?_ (ih _)
    split
    · rename_i h
      exact Or.inr ⟨h.1, rfl⟩
    · exact Or.inl rfl

theorem blankOut_append (lexemes : List Lexeme) (offset : Nat) (a b : List Char) :
    blankOut lexemes offset (a ++ b) =
      blankOut lexemes offset a ++ blankOut lexemes (offset + byteLength a) b := by
  induction a generalizing offset with
  | nil => rfl
  | cons c a ih =>
    rw [List.cons_append, blankOut, ih, blankOut, Text.byteLength_cons, Nat.add_assoc,
      List.cons_append]

theorem blankOut_congr {others : List Lexeme}
    (h : ∀ n, offset ≤ n → n < offset + byteLength text →
      ((∃ l ∈ lexemes, l.Holds n) ↔ ∃ l ∈ others, l.Holds n)) :
    blankOut lexemes offset text = blankOut others offset text := by
  induction text generalizing offset with
  | nil => rfl
  | cons c text ih =>
    have hc := c.utf8Size_pos
    rw [Text.byteLength_cons] at h
    have hfirst := h offset (Nat.le_refl _) (by omega)
    have hrest : blankOut lexemes (offset + c.utf8Size) text =
        blankOut others (offset + c.utf8Size) text :=
      ih fun n hle hlt => h n (by omega) (by omega)
    simp only [blankOut, hfirst, hrest]

theorem blankOut_nil (offset : Nat) (text : List Char) : blankOut [] offset text = text := by
  induction text generalizing offset with
  | nil => rfl
  | cons c text ih => simp [blankOut, ih]

theorem isBlank_of_mem_blankOut (hl : l ∈ lexemes) (hstart : l.start ≤ offset)
    (hstop : offset + byteLength text ≤ l.stop) :
    ∀ c ∈ blankOut lexemes offset text, isBlank c := by
  induction text generalizing offset with
  | nil => simp [blankOut]
  | cons c text ih =>
    have hc := c.utf8Size_pos
    rw [Text.byteLength_cons] at hstop
    refine List.forall_mem_cons.mpr ⟨?_, ih (by omega) (by omega)⟩
    by_cases hfeed : c = '\n'
    · rw [if_neg (not_and_of_not_left _ (not_not.mpr hfeed)), hfeed]
      rfl
    · rw [if_pos ⟨hfeed, l, hl, hstart, by omega⟩]
      rfl

end BlankOut

def moveTo (start : Nat) (l : Lexeme) : Lexeme :=
  { l with start }

structure Stays (source faded : List Char) (l other : Lexeme) : Prop where
  category_eq : other.category = l.category
  text_eq : other.text = l.text
  follows : ∃ part part', l.Follows part source ∧ other.Follows part' faded ∧
    List.Forall₂ Fades part part'

end Lexeme

section Tiling

open Lexeme

variable {operators : OperatorSet} {offset : Nat} {blanks rest text before before' : List Char}
  {lexemes : List Lexeme} {l : Lexeme}

theorem Tiling.blankOut_cons (hstart : l.start = offset + byteLength blanks)
    (h : Tiling l.stop rest lexemes) :
    blankOut ((l :: lexemes).filter isComment) offset (blanks ++ (l.text ++ rest)) =
      blanks ++ (blankOut ([l].filter isComment) l.start l.text ++
        blankOut (lexemes.filter isComment) l.stop rest) := by
  have hlater := h.le_start
  have hstop : l.stop = l.start + byteLength l.text := rfl
  have hsplit : (l :: lexemes).filter isComment =
      [l].filter isComment ++ lexemes.filter isComment := List.filter_append [l] lexemes
  have hboth : ∀ n, (∃ x ∈ (l :: lexemes).filter isComment, x.Holds n) ↔
      (∃ x ∈ [l].filter isComment, x.Holds n) ∨ ∃ x ∈ lexemes.filter isComment, x.Holds n := by
    intro n
    simp only [hsplit, List.mem_append, or_and_right, exists_or]
  have hself : ∀ n, ¬ l.Holds n → ¬ ∃ x ∈ [l].filter isComment, x.Holds n := by
    rintro n hn ⟨x, hx, hheld⟩
    obtain rfl := List.mem_singleton.mp (List.mem_of_mem_filter hx)
    exact hn hheld
  have hahead : ∀ n < l.stop, ¬ ∃ x ∈ lexemes.filter isComment, x.Holds n := by
    rintro n hn ⟨x, hx, hheld, -⟩
    have hstart := hlater x (List.mem_of_mem_filter hx)
    omega
  have hblanks : Lexeme.blankOut ((l :: lexemes).filter isComment) offset blanks = blanks := by
    refine (blankOut_congr fun n hle hlt => ?_).trans (blankOut_nil offset blanks)
    have hn : ¬ l.Holds n := fun hheld => absurd hheld.1 (by omega)
    exact iff_of_false (mt (hboth n).mp (not_or.mpr ⟨hself n hn, hahead n (by omega)⟩)) (by simp)
  have htext : Lexeme.blankOut ((l :: lexemes).filter isComment) l.start l.text =
      Lexeme.blankOut ([l].filter isComment) l.start l.text :=
    blankOut_congr fun n hle hlt => (hboth n).trans (or_iff_left (hahead n (by omega)))
  have hrest : Lexeme.blankOut ((l :: lexemes).filter isComment) l.stop rest =
      Lexeme.blankOut (lexemes.filter isComment) l.stop rest :=
    blankOut_congr fun n hle hlt => (hboth n).trans
      (or_iff_right (hself n fun hheld => Nat.not_lt_of_le hle hheld.2))
  rw [blankOut_append, blankOut_append, ← hstart, ← hstop, hblanks, htext, hrest]

theorem Tiling.keep {rest' : List Char} {others : List Lexeme} (hblanks : ∀ c ∈ blanks, isBlank c)
    (hne : l.text ≠ []) (hfits : Fits l.category l.text rest)
    (htakes : ∃ category, l.category = some category ∧ operators.Takes category)
    (hcomment : l.isComment = false) (hrest : List.Forall₂ Fades rest rest')
    (h : Tiling (byteLength (before ++ (blanks ++ l.text))) rest' others) :
    Tiling (byteLength before) (blanks ++ (l.text ++ rest'))
      (l.moveTo (byteLength (before ++ blanks)) :: others) := by
  obtain ⟨category, hcategory, hl⟩ := htakes
  have htrivia : category.isTrivia = false := by simpa [isComment, hcategory] using hcomment
  rw [hcategory] at hfits
  have hkept := hfits.of_fades hl htrivia hrest
  rw [← hcategory] at hkept
  have hstop : (l.moveTo (byteLength (before ++ blanks))).stop =
      byteLength (before ++ (blanks ++ l.text)) := by
    rw [← List.append_assoc, Text.byteLength_append (before ++ blanks)]
    rfl
  rw [← hstop] at h
  exact @Tiling.lexeme _ _ _ (l.moveTo _) _ hblanks (Text.byteLength_append _ _) hne hkept h

theorem stays_moveTo {rest' : List Char} (hne : l.text ≠ [])
    (hstart : l.start = byteLength (before ++ blanks))
    (hbefore : List.Forall₂ Fades before before') :
    l.Stays (before ++ (blanks ++ (l.text ++ rest))) (before' ++ (blanks ++ (l.text ++ rest')))
      (l.moveTo (byteLength (before' ++ blanks))) := by
  refine ⟨rfl, rfl, before ++ blanks, before' ++ blanks, ?_, ?_,
    List.rel_append hbefore (fades_refl blanks)⟩
  · exact ⟨hne, hstart, rest, by simp only [List.append_assoc]⟩
  · exact ⟨hne, rfl, rest', by simp only [List.append_assoc, moveTo]⟩

theorem Tiling.exists_stays (h : Tiling offset text lexemes)
    (htakes : ∀ l ∈ lexemes, ∃ category, l.category = some category ∧ operators.Takes category)
    (hoffset : offset = byteLength before) (hbefore : List.Forall₂ Fades before before') :
    let faded := Lexeme.blankOut (lexemes.filter isComment) offset text
    ∃ others, Tiling (byteLength before') faded others ∧
      List.Forall₂ (Stays (before ++ text) (before' ++ faded))
        (lexemes.filter fun l => !l.isComment) others := by
  induction h generalizing before before' with
  | @blanks offset text hblanks =>
    rw [List.filter_nil, blankOut_nil]
    exact ⟨[], Tiling.blanks hblanks, List.Forall₂.nil⟩
  | @lexeme offset blanks rest l lexemes hblanks hstart hne hfits htiling ih =>
    obtain ⟨hl, hlexemes⟩ := List.forall_mem_cons.mp htakes
    have hbehind : l.start = byteLength (before ++ blanks) := by
      rw [hstart, hoffset, Text.byteLength_append]
    have hstop : l.stop = byteLength (before ++ (blanks ++ l.text)) := by
      rw [Lexeme.stop, hbehind, ← List.append_assoc, Text.byteLength_append (before ++ blanks)]
    have hfaded := fades_blankOut ([l].filter isComment) l.start l.text
    have hrest := fades_blankOut (lexemes.filter isComment) l.stop rest
    -- For the rest, the piece with the lexeme lies before it: as it was, and as it is left.
    obtain ⟨others, hothers, hstays⟩ := ih hlexemes hstop
      (List.rel_append hbefore (List.rel_append (fades_refl blanks) hfaded))
    rw [Tiling.blankOut_cons hstart htiling]
    simp only [List.append_assoc] at hstays ⊢
    cases hcomment : l.isComment with
    | true =>
      have hheld : l ∈ [l].filter isComment := by simp [hcomment]
      have hspaces := isBlank_of_mem_blankOut hheld (Nat.le_refl l.start) (Nat.le_refl l.stop)
      have hdropped : (l :: lexemes).filter (fun l => !l.isComment) =
          lexemes.filter fun l => !l.isComment := List.filter_cons_of_neg (by simp [hcomment])
      rw [Text.byteLength_append, Text.byteLength_append, ← Nat.add_assoc] at hothers
      rw [hdropped]
      exact ⟨others, Tiling.blanks_append hblanks (Tiling.blanks_append hspaces hothers), hstays⟩
    | false =>
      have hnone : [l].filter isComment = [] := by simp [hcomment]
      have hkept : (l :: lexemes).filter (fun l => !l.isComment) =
          l :: lexemes.filter fun l => !l.isComment := List.filter_cons_of_pos (by simp [hcomment])
      rw [hnone, blankOut_nil] at hothers hstays ⊢
      rw [hkept]
      exact ⟨_, Tiling.keep hblanks hne hfits hl hcomment hrest hothers,
        List.Forall₂.cons (stays_moveTo hne hbehind hbefore) hstays⟩

end Tiling

def Token.unspanned (token : Token) : Token :=
  { token with span := .origin }

theorem Lexeme.meaning_of_isComment {l : Lexeme} (h : l.isComment) (operators : OperatorSet) :
    l.meaning operators = .ok none := by
  obtain ⟨category, hcategory, htrivia⟩ := (Option.any_eq_true _ _).mp h
  simp only [meaning, hcategory, htrivia, if_true]

section Scan

variable {operators : OperatorSet} {source faded : List Char} {lexemes others : List Lexeme}
  {l other : Lexeme} {tokens : List Token}

theorem Lexeme.Stays.meaning_eq (h : l.Stays source faded other) :
    other.meaning operators = l.meaning operators := by
  rw [meaning, meaning, faultCause, faultCause, h.category_eq, h.text_eq]

theorem Lexeme.Stays.toToken?_eq (h : l.Stays source faded other) {result : Option Token}
    (hl : l.toToken? operators (.ofText source) source = .ok result) :
    ∃ again, other.toToken? operators (.ofText faded) faded = .ok again ∧
      again.map Token.unspanned = result.map Token.unspanned := by
  have hmeaning : other.meaning operators = l.meaning operators := h.meaning_eq
  obtain ⟨-, htext, part, part', hfollows, hother, hfades⟩ := h
  have hstop : l.stop < UInt32.size := by
    obtain ⟨span, -, hbounds, -⟩ := denotes_of_toToken? hl
    rw [← (Span.ofBounds_eq_ok hbounds).2]
    exact span.stop.toNat_lt
  have hle : other.stop ≤ l.stop := by
    rw [hother.stop_eq, hfollows.stop_eq, htext, Text.byteLength_append, Text.byteLength_append]
    exact Nat.add_le_add_right (byteLength_le_of_fades hfades) _
  rw [hfollows.toToken?_eq_of_lt hstop, placed_eq_ok_iff] at hl
  obtain ⟨content, hcontent, rfl⟩ := hl
  rw [hother.toToken?_eq_of_lt (Nat.lt_of_le_of_lt hle hstop), hmeaning, hcontent,
    Position.after_of_fades hfades, placed, htext]
  refine ⟨_, rfl, ?_⟩
  rw [Option.map_map, Option.map_map]
  rfl

namespace Token

theorem ofLexemes_of_stays
    (hstays : List.Forall₂ (Lexeme.Stays source faded) lexemes others)
    (h : ofLexemes operators (.ofText source) source lexemes = .ok tokens) :
    ∃ again, ofLexemes operators (.ofText faded) faded others = .ok again ∧
      again.map unspanned = tokens.map unspanned := by
  induction hstays generalizing tokens with
  | nil =>
    obtain rfl := Except.ok.inj h
    exact ⟨[], rfl, rfl⟩
  | cons hl _ ih =>
    obtain ⟨result, rest, hresult, hrest, rfl⟩ := ofLexemes_cons_eq_ok_iff.mp h
    obtain ⟨first, hfirst, hsame⟩ := hl.toToken?_eq hresult
    obtain ⟨again, hagain, heq⟩ := ih hrest
    refine ⟨_, ofLexemes_cons_eq_ok_iff.mpr ⟨first, again, hfirst, hagain, rfl⟩, ?_⟩
    have htoList : ∀ x : Option Token, x.toList.map unspanned = (x.map unspanned).toList := by
      rintro (_ | _) <;> rfl
    rw [List.map_append, List.map_append, htoList, htoList, hsame, heq]

theorem ofLexemes_filter {lines : LineTable}
    (h : ofLexemes operators lines source lexemes = .ok tokens) :
    ofLexemes operators lines source (lexemes.filter fun l => !l.isComment) = .ok tokens := by
  induction lexemes generalizing tokens with
  | nil => exact h
  | cons l lexemes ih =>
    obtain ⟨result, rest, hresult, hrest, rfl⟩ := ofLexemes_cons_eq_ok_iff.mp h
    cases hcomment : l.isComment with
    | true =>
      obtain ⟨span, content, hmeaning, rfl⟩ := Lexeme.exists_meaning_of_toToken? hresult
      rw [Lexeme.meaning_of_isComment hcomment operators] at hmeaning
      obtain rfl := Except.ok.inj hmeaning
      rw [List.filter_cons_of_neg (by simp [hcomment])]
      exact ih hrest
    | false =>
      rw [List.filter_cons_of_pos (by simp [hcomment])]
      exact ofLexemes_cons_eq_ok_iff.mpr ⟨result, rest, hresult, ih hrest, rfl⟩

/-- The source with a space for each character of a comment. Line feeds stay. -/
def blankComments (source : String) : String :=
  String.ofList
    (Lexeme.blankOut ((Lexeme.split source.toList).filter Lexeme.isComment) 0 source.toList)

theorem scan_blankComments {source : String} (h : scan operators source = .ok tokens) :
    ∃ again, scan operators (blankComments source) = .ok again ∧
      again.map unspanned = tokens.map unspanned := by
  have htiling := Lexeme.tiling_split source.toList
  obtain ⟨others, hothers, hstays⟩ :=
    htiling.exists_stays (takes_of_ofLexemes h) rfl (fades_refl [])
  have hsplit : Lexeme.split (blankComments source).toList = others := by
    rw [blankComments, String.toList_ofList]
    exact Lexeme.splitFrom_of_tiling hothers
  rw [scan_eq_ofLexemes, hsplit, blankComments, String.toList_ofList]
  exact ofLexemes_of_stays hstays (ofLexemes_filter h)

/-- Comments are blanks: if spaces stand in their place, a source has the same tokens on the same
lines and in the same columns. -/
theorem comments_are_blanks (operators : OperatorSet) (source : String) :
    (∀ tokens, scan operators source = .ok tokens →
      ∃ again, scan operators (blankComments source) = .ok again ∧
        again.map unspanned = tokens.map unspanned) ∧
    ∀ tokens, lex operators source = .ok tokens →
      ∃ again, lex operators (blankComments source) = .ok again ∧
        again.map unspanned = tokens.map unspanned := by
  refine ⟨fun tokens => scan_blankComments, fun tokens hlex => ?_⟩
  obtain ⟨scanned, hscan, hcombine⟩ := lex_eq_ok_iff.mp hlex
  obtain ⟨others, hothers, hsame⟩ := scan_blankComments hscan
  have hrelocate : unspanned = relocate (fun _ => .origin) id := rfl
  rw [hrelocate] at hsame ⊢
  obtain ⟨again, hagain, heq⟩ :=
    combine_of_relocate_eq (fun _ _ => (Span.hull_self _).symm) hsame hcombine
  exact ⟨again, lex_eq_ok_iff.mpr ⟨others, hothers, hagain⟩, heq⟩

theorem comments_are_blanks_map :
    (∃ tokens again, scan .extended "a/*é\n\"*/b" = .ok tokens ∧ tokens.length = 2 ∧
      blankComments "a/*é\n\"*/b" = "a   \n   b" ∧
      scan .extended (blankComments "a/*é\n\"*/b") = .ok again ∧
      again.map unspanned = tokens.map unspanned) ∧
    ∃ tokens again, lex .core "[/* // [map] */map//]é/*\n]" = .ok tokens ∧ tokens.length = 1 ∧
      lex .core (blankComments "[/* // [map] */map//]é/*\n]") = .ok again ∧
      again.map unspanned = tokens.map unspanned := by
  obtain ⟨hscan, -⟩ := comments_are_blanks .extended "a/*é\n\"*/b"
  obtain ⟨-, hlex⟩ := comments_are_blanks .core "[/* // [map] */map//]é/*\n]"
  obtain ⟨again, hagain, hsame⟩ := hscan _ rfl
  obtain ⟨again', hagain', hsame'⟩ := hlex _ rfl
  exact ⟨⟨_, again, rfl, rfl, rfl, hagain, hsame⟩, _, again', rfl, rfl, hagain', hsame'⟩

end Token

end Scan

end ShapeLang
