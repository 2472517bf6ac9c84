import ShapeLang.Proofs.Token.Truncation

/-! Faults and the errors that come of them. A comment without an end is told by the two characters
that open it, as no other fault begins with them. Any other fault is named by its first character
alone. That is all of it if the character begins no category, but quoted text without an end is a
fault too, and then the quote stands for more. -/

namespace ShapeLang

open Text (byteLength isBlank isPunctuation slice?)

/-- A control character, or one beyond ASCII. -/
def IsUnclassified (c : Char) : Prop :=
  c.toNat < 32 ∨ 127 ≤ c.toNat

instance (c : Char) : Decidable (IsUnclassified c) :=
  inferInstanceAs (Decidable (_ ∨ _))

section Fault

variable {text rest : List Char}

theorem Fault.exists_of_opens (h : Fault text rest) (hopens : ['/', '*'] <+: text) :
    ∃ body, text = '/' :: '*' :: body ∧ ¬ ['*', '/'] <:+: body ∧ rest = [] := by
  cases h with
  | @comment body hopen => exact ⟨body, rfl, hopen, rfl⟩
  | string => cases (List.cons_prefix_cons.mp hopens).1
  | rawString => cases (List.cons_prefix_cons.mp hopens).1
  | stray => cases List.prefix_nil.mp (List.cons_prefix_cons.mp hopens).2

theorem isUnclassified_of_spells_nothing {c : Char} (hblank : isBlank c = false)
    (h : ∀ (category : Category) body, ¬ category.Spells (c :: body)) : IsUnclassified c := by
  refine Decidable.byContradiction fun hc => ?_
  rw [IsUnclassified, not_or, Nat.not_lt, Nat.not_le] at hc
  have hspace : c.toNat ≠ 32 := by
    intro hspace
    obtain rfl : c = ' ' := Char.toNat_inj.mp hspace
    cases hblank
  have hpunctuation : ¬ isPunctuation c := fun hmark => h (.punctuation c) [] ⟨rfl, hmark⟩
  have hdigit : ¬ Radix.decimal.isDigit c := fun hdigit =>
    h (.integer .decimal) [] ⟨c, [], rfl, hdigit, by simp⟩
  have hname : ¬ isNameStart c := fun hname => h .identifier [] ⟨c, [], rfl, hname, by simp⟩
  rw [isPunctuation_iff] at hpunctuation
  rw [isDigit_decimal_iff] at hdigit
  rw [isNameStart_iff_of_ascii (by omega)] at hname
  omega

theorem Fault.cases_first (h : Fault text rest) (hopens : ¬ ['/', '*'] <+: text) :
    ∃ c body, text = c :: body ∧
      (IsUnclassified c ∧ body = [] ∨ (c = '"' ∨ c = '\x60') ∧ body ≠ []) := by
  cases h with
  | @comment body => exact absurd (List.prefix_append ['/', '*'] body) hopens
  | @string items _ hne hitems =>
    refine ⟨'"', _, rfl, Or.inr ⟨Or.inl rfl, ?_⟩⟩
    obtain ⟨item, items, rfl⟩ := List.exists_cons_of_ne_nil hne
    rcases hitems item (List.mem_cons_self ..) with ⟨c, rfl, -⟩ | ⟨c, rfl, -⟩ <;> simp
  | @rawString body hne => exact ⟨'\x60', body, rfl, Or.inr ⟨Or.inr rfl, hne⟩⟩
  | @stray c _ hblank hnothing =>
    exact ⟨c, [], rfl, Or.inl ⟨isUnclassified_of_spells_nothing hblank hnothing, rfl⟩⟩

end Fault

namespace Lexeme

variable {l : Lexeme}

theorem faultCause_of_opens (h : ['/', '*'] <+: l.text) : l.faultCause = .unterminatedComment := by
  rw [faultCause, if_pos (List.isPrefixOf_iff_prefix.mpr h)]

theorem faultCause_of_not_opens (h : ¬ ['/', '*'] <+: l.text) :
    l.faultCause = .unknownToken none (String.ofList (l.text.take 1)) := by
  rw [faultCause, if_neg (mt List.isPrefixOf_iff_prefix.mp h)]

theorem faultCause_eq_unterminatedComment_iff :
    l.faultCause = .unterminatedComment ↔ ['/', '*'] <+: l.text := by
  refine ⟨fun h => Decidable.byContradiction fun hopens => ?_, faultCause_of_opens⟩
  cases h.symm.trans (faultCause_of_not_opens hopens)

end Lexeme

namespace Token

section Scan

variable {operators : OperatorSet} {source : String} {error : LexError}

theorem exists_fault_of_scan_error (h : scan operators source = .error error)
    (hcause : error.cause = .unterminatedComment ∨ ∃ text, error.cause = .unknownToken none text) :
    ∃ a l b tokens before rest, Lexeme.split source.toList = a ++ l :: b ∧
      ofLexemes operators (.ofText source.toList) source.toList a = .ok tokens ∧
      source.toList = before ++ (l.text ++ rest) ∧ l.start = byteLength before ∧
      Fault l.text rest ∧ error.cause = l.faultCause ∧ error.Covers before l.text := by
  obtain ⟨a, l, b, tokens, hsplit, ha, hl⟩ := exists_of_ofLexemes_error h
  have htiling := Lexeme.tiling_split source.toList
  rw [hsplit] at htiling
  obtain ⟨before, rest, hsource, hstart, hne, hfits, -⟩ := htiling.exists_context
  rw [Nat.zero_add] at hstart
  have hfollows : l.Follows before source.toList :=
    ⟨hne, hstart, rest, by rw [hsource, List.append_assoc]⟩
  have hsmall : ∀ large, error.cause ≠ .sourceTooLarge large := by
    rintro large hlarge
    rcases hcause with hcause | ⟨_, hcause⟩ <;> cases hlarge.symm.trans hcause
  obtain ⟨hmeaning, hcovers⟩ := hfollows.covers_of_error hl hsmall
  rcases Lexeme.cause_of_meaning hmeaning with ⟨hcategory, hfault⟩ | ⟨_, -, -, -, hother⟩ | hother
  · rw [hcategory] at hfits
    cases hfits with
    | fault hlexeme =>
      exact ⟨a, l, b, tokens, before, rest, hsplit, ha, hsource, hstart, hlexeme, hfault, hcovers⟩
  · rcases hcause with hcause | ⟨_, hcause⟩ <;> cases hother.symm.trans hcause
  · rcases hcause with hcause | ⟨_, hcause⟩ <;> cases hother.symm.trans hcause

/-- Where an error names a fault by one character, either that character is the fault, or it is the
quote that opens it. -/
theorem unknown_names_fault (operators : OperatorSet) (source : String) (error : LexError)
    (h : scan operators source = .error error) (text : String)
    (hcause : error.cause = .unknownToken none text) :
    ∃ before c body rest, source.toList = before ++ (c :: body ++ rest) ∧
      Fault (c :: body) rest ∧ text = String.ofList [c] ∧ error.Covers before (c :: body) ∧
      slice? source.toList error.span.start.toNat error.span.stop.toNat = some (c :: body) ∧
      (IsUnclassified c ∧ body = [] ∨ (c = '"' ∨ c = '\x60') ∧ body ≠ []) := by
  obtain ⟨a, l, b, _, before, rest, -, -, hsource, -, hfault, hl, hcovers⟩ :=
    exists_fault_of_scan_error h (Or.inr ⟨text, hcause⟩)
  rw [hcause] at hl
  have hopens : ¬ ['/', '*'] <+: l.text := by
    intro hopens
    cases hl.trans (Lexeme.faultCause_of_opens hopens)
  rw [Lexeme.faultCause_of_not_opens hopens] at hl
  obtain ⟨c, body, htext, hfirst⟩ := hfault.cases_first hopens
  rw [htext] at hsource hfault hcovers hl
  refine ⟨before, c, body, rest, hsource, hfault, ?_, hcovers, ?_, hfirst⟩
  · cases hl
    rfl
  · rw [hcovers.start_eq, hcovers.stop_eq, hsource, ← List.append_assoc]
    exact Text.slice?_append _ _ _

theorem unknown_names_fault_bell :
    (∃ error before, scan .core "x \x07y" = .error error ∧
      error.cause = .unknownToken none "\x07" ∧ error.Covers before ['\x07'] ∧
      IsUnclassified '\x07') ∧
    ∃ error before, scan .core "é \x60y\n" = .error error ∧
      error.cause = .unknownToken none "\x60" ∧ error.Covers before "\x60y\n".toList := by
  obtain ⟨before, c, body, _, -, -, -, hcovers, hslice, hfirst⟩ :=
    unknown_names_fault .core "x \x07y" _ rfl _ rfl
  obtain ⟨before', c', body', _, -, -, -, hcovers', hslice', -⟩ :=
    unknown_names_fault .core "é \x60y\n" _ rfl _ rfl
  have hbell : c :: body = ['\x07'] := (Option.some.inj hslice).symm.trans rfl
  have haccent : c' :: body' = "\x60y\n".toList := (Option.some.inj hslice').symm.trans rfl
  rw [hbell] at hcovers
  rw [haccent] at hcovers'
  obtain ⟨rfl, rfl⟩ := List.cons.inj hbell
  have hunclassified := (hfirst.resolve_right (by simp)).1
  exact ⟨⟨_, before, rfl, rfl, hcovers, hunclassified⟩, _, before', rfl, rfl, hcovers'⟩

theorem unclosed_quote_is_unknown :
    scan .core "\"a" = .error ⟨.unknownToken none "\"", ⟨0, 2⟩, ⟨1, 1⟩⟩ ∧ ¬ IsUnclassified '"' :=
  ⟨rfl, by decide⟩

/-- A comment opens behind `before`, where no lexeme goes on and all is well so far, and nothing
closes it. -/
structure OpensComment (operators : OperatorSet) (source : String) (before : List Char) : Prop where
  boundary : ∀ l ∈ Lexeme.split source.toList,
    l.start < byteLength before → l.stop ≤ byteLength before
  scanned : ∃ tokens, scan operators (String.ofList before) = .ok tokens
  opens : ∃ body, source.toList = before ++ '/' :: '*' :: body ∧ ¬ ['*', '/'] <:+: body

theorem opensComment_of_scan_error (hsize : byteLength source.toList < UInt32.size)
    (h : scan operators source = .error error) (hcause : error.cause = .unterminatedComment) :
    ∃ before, OpensComment operators source before := by
  obtain ⟨a, l, b, tokens, before, rest, hsplit, ha, hsource, hstart, hfault, hl, hcovers⟩ :=
    exists_fault_of_scan_error h (Or.inl hcause)
  rw [hcause] at hl
  obtain ⟨body, htext, hopen, rfl⟩ :=
    hfault.exists_of_opens (Lexeme.faultCause_eq_unterminatedComment_iff.mp hl.symm)
  refine ⟨before, ?_, ⟨tokens, ?_⟩, body, ?_, hopen⟩
  · have htiling := Lexeme.tiling_split source.toList
    rw [hsplit] at htiling ⊢
    rw [← hstart]
    exact htiling.stop_le
  · obtain ⟨part, hfollows, hpart, -⟩ := scan_truncated hsize hsplit ha
    have hbytes : byteLength part = byteLength before := hfollows.start_eq.symm.trans hstart
    have hstarts : part <+: source.toList := (List.prefix_append _ _).trans hfollows.prefixed
    rwa [Text.eq_of_byteLength_eq hstarts ⟨_, hsource.symm⟩ hbytes] at hpart
  · rw [hsource, htext, List.append_nil]

theorem OpensComment.exists_split {before : List Char} (h : OpensComment operators source before)
    (hsize : byteLength source.toList < UInt32.size) :
    ∃ a l tokens, Lexeme.split source.toList = a ++ [l] ∧
      ofLexemes operators (.ofText source.toList) source.toList a = .ok tokens ∧
      l.category = none ∧ ['/', '*'] <+: l.text ∧ l.start = byteLength before ∧
      source.toList = before ++ l.text := by
  obtain ⟨hboundary, ⟨tokens, hscanned⟩, body, hsource, hopen⟩ := h
  have htiling := Lexeme.tiling_split source.toList
  rw [hsource] at htiling
  obtain ⟨a, b, hsplit, ha, hb⟩ := htiling.cut (by simpa [hsource] using hboundary)
  have hcomment : Tiling (0 + byteLength before) ('/' :: '*' :: body)
      [⟨none, '/' :: '*' :: body, 0 + byteLength before⟩] := by
    have hnothing : Tiling (0 + byteLength before + byteLength ('/' :: '*' :: body)) [] [] :=
      Tiling.blanks (by simp)
    have hhead := Tiling.head (Fits.fault (Fault.comment hopen)) hnothing
    rwa [List.append_nil] at hhead
  rw [← Lexeme.splitFrom_of_tiling hb, Lexeme.splitFrom_of_tiling hcomment, ← hsource] at hsplit
  have hopens : ['/', '*'] <+: '/' :: '*' :: body := List.prefix_append _ _
  refine ⟨a, _, tokens, hsplit, ?_, rfl, hopens, Nat.zero_add _, hsource⟩
  rw [← scan_of_tiling ha ⟨_, hsource.symm⟩ hsize]
  exact hscanned

theorem OpensComment.scan_eq {before : List Char} (h : OpensComment operators source before)
    (hsize : byteLength source.toList < UInt32.size) :
    ∃ error, scan operators source = .error error ∧ error.cause = .unterminatedComment ∧
      error.span.start.toNat = byteLength before ∧
      error.span.stop.toNat = byteLength source.toList ∧ error.position.Counts before := by
  obtain ⟨a, l, tokens, hsplit, ha, hcategory, hopens, hstart, hsource⟩ := h.exists_split hsize
  have hne : l.text ≠ [] := fun hnil => by simp [hnil] at hopens
  have hfollows : l.Follows before source.toList :=
    ⟨hne, hstart, [], by rw [hsource, List.append_nil]⟩
  have hstop : l.stop < UInt32.size := by rwa [hfollows.stop_eq, ← hsource]
  have hcovers := hfollows.covers hstop .unterminatedComment
  have hmeaning : l.meaning operators = .error .unterminatedComment := by
    rw [Lexeme.meaning, hcategory, ← Lexeme.faultCause_of_opens hopens]
  refine ⟨_, ?_, rfl, hcovers.start_eq, by rw [hcovers.stop_eq, ← hsource], hcovers.counts⟩
  rw [scan_eq_of_split hsplit ha, ofLexemes_cons, hfollows.toToken?_eq_of_lt hstop, hmeaning]
  rfl

theorem faultCause_iff_of_mem_split {text : List Char} {l : Lexeme} (hl : l ∈ Lexeme.split text)
    (hcategory : l.category = none) :
    l.faultCause = .unterminatedComment ↔
      ∃ body, l.text = '/' :: '*' :: body ∧ ¬ ['*', '/'] <:+: body ∧ l.stop = byteLength text := by
  rw [Lexeme.faultCause_eq_unterminatedComment_iff]
  constructor
  · intro hopens
    obtain ⟨a, b, hsplit⟩ := List.append_of_mem hl
    have htiling := Lexeme.tiling_split text
    rw [hsplit] at htiling
    obtain ⟨before, rest, htext, hstart, -, hfits, -⟩ := htiling.exists_context
    rw [hcategory] at hfits
    cases hfits with
    | fault hfault =>
      obtain ⟨body, hbody, hopen, rfl⟩ := hfault.exists_of_opens hopens
      refine ⟨body, hbody, hopen, ?_⟩
      rw [Lexeme.stop, hstart, htext, List.append_nil, Text.byteLength_append, Nat.zero_add]
  · rintro ⟨body, hbody, -⟩
    rw [hbody]
    exact List.prefix_append ['/', '*'] body

/-- A scan ends at a comment without an end exactly if one opens where no lexeme goes on, and all is
well up to there. The error covers the comment, which is all that is left of the source. No other
fault is taken for one. -/
theorem unterminated_comment_iff (operators : OperatorSet) (source : String)
    (hsize : source.utf8ByteSize < UInt32.size) :
    ((∃ error, scan operators source = .error error ∧ error.cause = .unterminatedComment) ↔
      ∃ before, OpensComment operators source before) ∧
    (∀ before, OpensComment operators source before →
      ∀ error, scan operators source = .error error →
        error.cause = .unterminatedComment ∧ error.span.start.toNat = byteLength before ∧
        error.span.stop.toNat = source.utf8ByteSize ∧ error.position.Counts before) ∧
    ∀ l ∈ Lexeme.split source.toList, l.category = none →
      (l.faultCause = .unterminatedComment ↔
        ∃ body, l.text = '/' :: '*' :: body ∧ ¬ ['*', '/'] <:+: body ∧
          l.stop = source.utf8ByteSize) := by
  rw [← Text.byteLength_toList] at hsize ⊢
  refine ⟨⟨?_, ?_⟩, ?_, ?_⟩
  · rintro ⟨error, hscan, hcause⟩
    exact opensComment_of_scan_error hsize hscan hcause
  · rintro ⟨before, hopens⟩
    obtain ⟨error, hscan, hcause, -⟩ := hopens.scan_eq hsize
    exact ⟨error, hscan, hcause⟩
  · intro before hopens error hscan
    obtain ⟨other, hother, hplace⟩ := hopens.scan_eq hsize
    obtain rfl := Except.error.inj (hscan.symm.trans hother)
    exact hplace
  · exact fun l hl => faultCause_iff_of_mem_split hl

theorem unterminated_comment_iff_slash :
    OpensComment .core "a // /*\n/*/" "a // /*\n".toList ∧
    ∃ error, scan .core "a // /*\n/*/" = .error error ∧ error.cause = .unterminatedComment ∧
      error.span.start.toNat = 8 ∧ error.span.stop.toNat = 11 ∧
      error.position.Counts "a // /*\n".toList := by
  have hopens : OpensComment .core "a // /*\n/*/" "a // /*\n".toList :=
    ⟨by decide, ⟨_, rfl⟩, ['/'], rfl, by decide⟩
  obtain ⟨⟨-, hfails⟩, hplace, -⟩ := unterminated_comment_iff .core "a // /*\n/*/" (by decide)
  obtain ⟨error, hscan, hcause⟩ := hfails ⟨_, hopens⟩
  obtain ⟨-, hstart, hstop, hcounts⟩ := hplace _ hopens error hscan
  exact ⟨hopens, error, hscan, hcause, hstart, hstop, hcounts⟩

end Scan

end Token
end ShapeLang
