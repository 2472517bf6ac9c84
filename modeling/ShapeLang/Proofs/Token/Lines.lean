import Mathlib.Data.List.Forall2
import ShapeLang.Proofs.Token.Meaning

/-! A source is scanned line by line. Nothing that a scan lets through goes on over the end of its
line unless it is closed behind it, so what comes after a line feed is scanned as if it stood
alone, and only its places are further on. -/

namespace ShapeLang

open Text (byteLength isBlank)

def Lexeme.shift (n : Nat) (l : Lexeme) : Lexeme :=
  ⟨l.category, l.text, l.start + n⟩

theorem Tiling.shift {offset : Nat} {text : List Char} {lexemes : List Lexeme}
    (h : Tiling offset text lexemes) (n : Nat) :
    Tiling (offset + n) text (lexemes.map (Lexeme.shift n)) := by
  induction h with
  | blanks hblanks => exact Tiling.blanks hblanks
  | @lexeme offset blanks rest l lexemes hblanks hstart hne hfits htiling ih =>
    have hmoved : (l.shift n).start = offset + n + byteLength blanks := by
      rw [Lexeme.shift, hstart, Nat.add_right_comm]
    have hstop : (l.shift n).stop = l.stop + n := by
      rw [Lexeme.stop, Lexeme.stop, Lexeme.shift]
      dsimp only
      omega
    rw [← hstop] at ih
    exact Tiling.lexeme hblanks hmoved hne hfits ih

theorem Tiling.blanks_append {offset : Nat} {blanks text : List Char} {lexemes : List Lexeme}
    (hblanks : ∀ c ∈ blanks, isBlank c) (h : Tiling (offset + byteLength blanks) text lexemes) :
    Tiling offset (blanks ++ text) lexemes := by
  induction blanks generalizing offset with
  | nil => exact h
  | cons c blanks ih =>
    obtain ⟨hc, hrest⟩ := List.forall_mem_cons.mp hblanks
    rw [Text.byteLength_cons, ← Nat.add_assoc] at h
    exact Tiling.blank hc (ih hrest h)

theorem Tiling.append_feed {operators : OperatorSet} {offset : Nat} {a b : List Char}
    {lexemes rest : List Lexeme} (h : Tiling offset a lexemes)
    (htakes : ∀ l ∈ lexemes, ∃ category, l.category = some category ∧ operators.Takes category)
    (hrest : Tiling (offset + byteLength (a ++ ['\n'])) b rest) :
    Tiling offset (a ++ '\n' :: b) (lexemes ++ rest) := by
  induction h with
  | blanks hblanks =>
    have hfeed : ∀ c ∈ _ ++ ['\n'], isBlank c :=
      List.forall_mem_append.mpr ⟨hblanks, List.forall_mem_singleton.mpr rfl⟩
    have htiling := Tiling.blanks_append hfeed hrest
    rw [List.append_assoc] at htiling
    exact htiling
  | @lexeme offset blanks after l lexemes hblanks hstart hne hfits htiling ih =>
    obtain ⟨⟨category, hcategory, hl⟩, hlexemes⟩ := List.forall_mem_cons.mp htakes
    rw [hcategory] at hfits
    have hfeed := hfits.append_stop hl (d := '\n') (by decide) (fun _ => rfl) b
    rw [← hcategory] at hfeed
    have hoffset : offset + byteLength (blanks ++ (l.text ++ after) ++ ['\n']) =
        l.stop + byteLength (after ++ ['\n']) := by
      rw [Lexeme.stop, hstart]
      simp only [Text.byteLength_append]
      omega
    rw [hoffset] at hrest
    have hcons := Tiling.lexeme hblanks hstart hne hfeed (ih hlexemes hrest)
    simp only [List.append_assoc]
    exact hcons

structure Span.Moved (bytes : Nat) (span moved : Span) : Prop where
  start_eq : moved.start.toNat = span.start.toNat + bytes
  stop_eq : moved.stop.toNat = span.stop.toNat + bytes

structure Position.Moved (lines : Nat) (position moved : Position) : Prop where
  line_eq : moved.line.toNat = position.line.toNat + lines
  column_eq : moved.column = position.column

structure Token.Moved (bytes lines : Nat) (token moved : Token) : Prop where
  text_eq : moved.text = token.text
  kind_eq : moved.kind = token.kind
  value_eq : moved.value = token.value
  span : token.span.Moved bytes moved.span
  position : token.position.Moved lines moved.position

structure LexError.Moved (bytes lines : Nat) (error moved : LexError) : Prop where
  cause_eq : moved.cause = error.cause
  span : error.span.Moved bytes moved.span
  position : error.position.Moved lines moved.position

/-- The same outcome, with all of its places further on. -/
inductive Outcome.Moved (bytes lines : Nat) :
    Except LexError (List Token) → Except LexError (List Token) → Prop where
  | ok {tokens moved : List Token} : List.Forall₂ (Token.Moved bytes lines) tokens moved →
    Moved bytes lines (.ok tokens) (.ok moved)
  | error {error moved : LexError} : error.Moved bytes lines moved →
    Moved bytes lines (.error error) (.error moved)

theorem Outcome.Moved.append {bytes lines : Nat} {x x' y y' : Except LexError (List Token)}
    (hx : Moved bytes lines x x') (hy : Moved bytes lines y y') :
    Moved bytes lines (x.bind fun tokens => y.map (tokens ++ ·))
      (x'.bind fun tokens => y'.map (tokens ++ ·)) := by
  cases hx with
  | error herror => exact Moved.error herror
  | ok htokens =>
    cases hy with
    | error herror => exact Moved.error herror
    | ok hrest => exact Moved.ok (List.rel_append htokens hrest)

theorem Outcome.Moved.in_front {bytes lines : Nat} {x y : Except LexError (List Token)}
    (h : Moved bytes lines x y) (before : List Token) :
    (∀ tokens, x = .ok tokens → ∃ moved, y.map (before ++ ·) = .ok (before ++ moved) ∧
      List.Forall₂ (Token.Moved bytes lines) tokens moved) ∧
    ∀ error, x = .error error → ∃ moved, y.map (before ++ ·) = .error moved ∧
      error.Moved bytes lines moved := by
  cases h with
  | ok hmoved =>
    refine ⟨fun tokens htokens => ?_, fun error herror => by cases herror⟩
    obtain rfl := Except.ok.inj htokens
    exact ⟨_, rfl, hmoved⟩
  | error hmoved =>
    refine ⟨fun tokens htokens => (by cases htokens), fun error herror => ?_⟩
    obtain rfl := Except.error.inj herror
    exact ⟨_, rfl, hmoved⟩

section Moved

variable {a b part : List Char} {l : Lexeme}

theorem Span.moved_over {text : List Char}
    (hsize : byteLength (a ++ '\n' :: part ++ text) < UInt32.size) :
    (Span.over part text).Moved (byteLength a + 1) (Span.over (a ++ '\n' :: part) text) := by
  have hfeed : '\n'.utf8Size = 1 := rfl
  obtain ⟨hstart, hstop⟩ := Span.toNat_over hsize
  simp only [Text.byteLength_append, Text.byteLength_cons, hfeed] at hsize hstart hstop
  have hpart : byteLength (part ++ text) < UInt32.size := by
    rw [Text.byteLength_append]
    omega
  obtain ⟨hstart', hstop'⟩ := Span.toNat_over hpart
  rw [Text.byteLength_append] at hstop'
  constructor
  · rw [hstart, hstart']
    omega
  · rw [hstop, hstop']
    omega

theorem Position.moved_after (hsize : byteLength (a ++ '\n' :: part) + 1 < UInt32.size) :
    (Position.after part).Moved (1 + a.count '\n') (Position.after (a ++ '\n' :: part)) := by
  have hcount : (a ++ '\n' :: part).count '\n' = a.count '\n' + (part.count '\n' + 1) := by
    rw [List.count_append, List.count_cons_self]
  have hle := Text.count_le_byteLength '\n' (a ++ '\n' :: part)
  constructor
  · rw [Position.after, Position.after, LineTable.toNat_oneBased (by omega),
      LineTable.toNat_oneBased (by omega)]
    omega
  · rw [Position.after, Position.after, Text.lastLine_append_feed]

theorem Lexeme.Follows.shift (h : l.Follows part b) (a : List Char) :
    (l.shift (byteLength a + 1)).Follows (a ++ '\n' :: part) (a ++ '\n' :: b) := by
  have hfeed : '\n'.utf8Size = 1 := rfl
  refine ⟨h.nonempty, ?_, ?_⟩
  · show l.start + (byteLength a + 1) = _
    rw [h.start_eq, Text.byteLength_append, Text.byteLength_cons, hfeed]
    omega
  · rw [List.append_assoc, List.cons_append, List.prefix_append_right_inj, List.cons_prefix_cons]
    exact ⟨rfl, h.prefixed⟩

theorem Lexeme.meaning_shift (operators : OperatorSet) (l : Lexeme) (n : Nat) :
    (l.shift n).meaning operators = l.meaning operators := rfl

theorem Lexeme.Follows.moved (h : l.Follows part b) (operators : OperatorSet)
    (hsize : byteLength (a ++ '\n' :: b) < UInt32.size) :
    Outcome.Moved (byteLength a + 1) (1 + a.count '\n')
      (Token.ofLexemes operators (.ofText b) b [l])
      (Token.ofLexemes operators (.ofText (a ++ '\n' :: b)) (a ++ '\n' :: b)
        [l.shift (byteLength a + 1)]) := by
  have hbehind := h.shift a
  have hsmall : byteLength b < UInt32.size := by
    rw [Text.byteLength_append, Text.byteLength_cons] at hsize
    omega
  have hover : byteLength (a ++ '\n' :: part ++ l.text) < UInt32.size :=
    Nat.lt_of_le_of_lt hbehind.byteLength_le hsize
  have hspan := Span.moved_over hover
  have hposition : (Position.after part).Moved (1 + a.count '\n') (.after (a ++ '\n' :: part)) :=
    Position.moved_after (Nat.lt_of_le_of_lt hbehind.byteLength_lt hsize)
  rw [Token.ofLexemes_single, Token.ofLexemes_single, h.toToken?_eq hsmall,
    hbehind.toToken?_eq hsize, Lexeme.meaning_shift]
  cases l.meaning operators with
  | error cause => exact Outcome.Moved.error ⟨rfl, hspan, hposition⟩
  | ok content =>
    apply Outcome.Moved.ok
    cases content with
    | none => exact List.Forall₂.nil
    | some content => exact List.Forall₂.cons ⟨rfl, rfl, rfl, hspan, hposition⟩ List.Forall₂.nil

theorem Token.moved_ofLexemes {lexemes : List Lexeme} (operators : OperatorSet)
    (hsize : byteLength (a ++ '\n' :: b) < UInt32.size)
    (h : ∀ l ∈ lexemes, ∃ part, l.Follows part b) :
    Outcome.Moved (byteLength a + 1) (1 + a.count '\n')
      (ofLexemes operators (.ofText b) b lexemes)
      (ofLexemes operators (.ofText (a ++ '\n' :: b)) (a ++ '\n' :: b)
        (lexemes.map (Lexeme.shift (byteLength a + 1)))) := by
  induction lexemes with
  | nil => exact Outcome.Moved.ok List.Forall₂.nil
  | cons l lexemes ih =>
    obtain ⟨⟨part, hfollows⟩, hrest⟩ := List.forall_mem_cons.mp h
    have hcons := (hfollows.moved operators hsize).append (ih hrest)
    rw [← ofLexemes_append, ← ofLexemes_append] at hcons
    exact hcons

end Moved

namespace Token

/-- A source behind the end of a line is scanned as it is alone, by bytes and lines further on and
in the same columns, with what comes before it in front. -/
theorem scan_append_line (operators : OperatorSet) (a b : String)
    (hsize : a.utf8ByteSize + 1 + b.utf8ByteSize < UInt32.size) (before : List Token)
    (ha : scan operators a = .ok before) :
    (∀ tokens, scan operators b = .ok tokens → ∃ moved,
      scan operators (a ++ "\n" ++ b) = .ok (before ++ moved) ∧
        List.Forall₂ (Token.Moved (a.utf8ByteSize + 1) (1 + a.toList.count '\n')) tokens moved) ∧
    ∀ error, scan operators b = .error error → ∃ moved,
      scan operators (a ++ "\n" ++ b) = .error moved ∧
        error.Moved (a.utf8ByteSize + 1) (1 + a.toList.count '\n') moved := by
  have hfeed : '\n'.utf8Size = 1 := rfl
  rw [← Text.byteLength_toList, ← Text.byteLength_toList] at hsize
  rw [← Text.byteLength_toList]
  have hwhole : (a ++ "\n" ++ b).toList = a.toList ++ '\n' :: b.toList := by
    rw [String.toList_append, String.toList_append, List.append_assoc]
    rfl
  have hbytes : byteLength (a.toList ++ '\n' :: b.toList) < UInt32.size := by
    rw [Text.byteLength_append, Text.byteLength_cons, hfeed]
    omega
  have htiling : Tiling 0 (a.toList ++ '\n' :: b.toList)
      (Lexeme.split a.toList ++
        (Lexeme.split b.toList).map (.shift (byteLength a.toList + 1))) := by
    refine (Lexeme.tiling_split a.toList).append_feed (takes_of_ofLexemes ha) ?_
    rw [Text.byteLength_append, Text.byteLength_cons, hfeed]
    exact (Lexeme.tiling_split b.toList).shift _
  have hfirst := ofLexemes_of_prefix (Lexeme.tiling_split a.toList)
    (List.prefix_append _ _) hbytes operators
  have hsecond : Outcome.Moved (byteLength a.toList + 1) (1 + a.toList.count '\n')
      (scan operators b) _ :=
    moved_ofLexemes operators hbytes (Lexeme.tiling_split b.toList).follows_part
  have hscan := scan_of_tiling htiling (List.prefix_refl _) hbytes operators
  rw [ofLexemes_append_of_ok (hfirst.symm.trans ha), ← hwhole, String.ofList_toList, hwhole]
    at hscan
  rw [hscan]
  exact hsecond.in_front before

theorem scan_append_line_array :
    (∃ before tokens moved, scan .core "x [ // é" = .ok before ∧ scan .core " 3]" = .ok tokens ∧
      tokens.length = 2 ∧ scan .core ("x [ // é" ++ "\n" ++ " 3]") = .ok (before ++ moved) ∧
      List.Forall₂ (Token.Moved 10 1) tokens moved) ∧
    ∃ error moved, scan .core "\n -" = .error error ∧ error.position = ⟨2, 2⟩ ∧
      scan .core ("x [ // é" ++ "\n" ++ "\n -") = .error moved ∧ error.Moved 10 1 moved := by
  obtain ⟨hok, -⟩ := scan_append_line .core "x [ // é" " 3]" (by decide) _ rfl
  obtain ⟨-, herror⟩ := scan_append_line .core "x [ // é" "\n -" (by decide) _ rfl
  obtain ⟨moved, hscan, hmoved⟩ := hok _ rfl
  obtain ⟨moved', hscan', hmoved'⟩ := herror _ rfl
  exact ⟨⟨_, _, moved, rfl, rfl, rfl, hscan, hmoved⟩, _, moved', rfl, rfl, hscan', hmoved'⟩

end Token
end ShapeLang
