import ShapeLang.Proofs.Lexeme.Context
import ShapeLang.Proofs.Source.Place
import ShapeLang.Proofs.Token.Scanning

/-! What a lexeme stands for is decided by its category and its text. The place where it lies only
goes into the token or the error that comes of it, and that place is counted in the text before it.
A scan is therefore known from the lexemes and from what stands before each of them. -/

namespace ShapeLang

open Text (byteLength isBlank)

def OperatorSet.Takes (operators : OperatorSet) (category : Category) : Prop :=
  category.isTrivia ∨ (operators.kind? category).isSome

def Span.over (before text : List Char) : Span :=
  ⟨.ofNat (byteLength before), .ofNat (byteLength (before ++ text))⟩

theorem Span.toNat_over {before text : List Char}
    (hsize : byteLength (before ++ text) < UInt32.size) :
    (Span.over before text).start.toNat = byteLength before ∧
      (Span.over before text).stop.toNat = byteLength (before ++ text) := by
  have hle := Text.byteLength_le_of_prefix (List.prefix_append before text)
  exact ⟨UInt32.toNat_ofNat_of_lt' (Nat.lt_of_le_of_lt hle hsize),
    UInt32.toNat_ofNat_of_lt' hsize⟩

/-- The error covers the text behind `before`, and its place is counted up to there. -/
structure LexError.Covers (error : LexError) (before text : List Char) : Prop where
  start_eq : error.span.start.toNat = byteLength before
  stop_eq : error.span.stop.toNat = byteLength (before ++ text)
  counts : error.position.Counts before

namespace Lexeme

/-- A kind and its value, or nothing for a comment. -/
def meaning (operators : OperatorSet) (lexeme : Lexeme) :
    Except LexError.Cause (Option (Token.Kind × Option IntegerValue)) :=
  match lexeme.category with
  | none => .error lexeme.faultCause
  | some category =>
    if category.isTrivia then .ok none
    else
      match operators.kind? category, category.radix? with
      | none, _ => .error (.unknownToken (some category) (String.ofList lexeme.text))
      | some _, some radix =>
        match radix.readLiteral? lexeme.text with
        | some value => .ok (some (.number, some value))
        | none => .error (.invalidNumber (String.ofList lexeme.text))
      | some kind, none => .ok (some (kind, none))

def placed (lexeme : Lexeme) (span : Span) (position : Position) :
    Except LexError.Cause (Option (Token.Kind × Option IntegerValue)) →
      Except LexError (Option Token)
  | .error cause => .error ⟨cause, span, position⟩
  | .ok meaning =>
    .ok (meaning.map fun (kind, value) =>
      ⟨String.ofList lexeme.text, span, position, kind, value⟩)

structure Follows (lexeme : Lexeme) (before source : List Char) : Prop where
  nonempty : lexeme.text ≠ []
  start_eq : lexeme.start = byteLength before
  prefixed : before ++ lexeme.text <+: source

variable {operators : OperatorSet} {lines : LineTable} {source : List Char} {lexeme : Lexeme}

theorem toToken?_eq_placed {span : Span}
    (hbounds : Span.ofBounds lexeme.start lexeme.stop = .ok span) :
    lexeme.toToken? operators lines source =
      lexeme.placed span (lines.position source span.start) (lexeme.meaning operators) := by
  rw [toToken?, Token.Builder.toToken?, hbounds, meaning]
  cases lexeme.category with
  | none => rfl
  | some category =>
    dsimp only
    split
    · rfl
    rw [Token.Builder.classify]
    cases hkind : operators.kind? category with
    | none => rfl
    | some kind =>
      have hnumber := OperatorSet.eq_number_iff_of_kind? hkind
      dsimp only
      cases hradix : category.radix? with
      | none =>
        rw [hradix] at hnumber
        rw [if_neg fun h => Bool.false_ne_true (hnumber.mp h)]
        rfl
      | some radix =>
        rw [hradix] at hnumber
        rw [if_pos (hnumber.mpr rfl), Option.bind_some]
        dsimp only
        cases radix.readLiteral? lexeme.text <;> rfl

theorem placed_eq_error_iff {span : Span} {position : Position}
    {meaning : Except LexError.Cause (Option (Token.Kind × Option IntegerValue))}
    {error : LexError} :
    lexeme.placed span position meaning = .error error ↔
      meaning = .error error.cause ∧ error.span = span ∧ error.position = position := by
  cases meaning with
  | ok meaning => simp [placed]
  | error cause =>
    cases error
    simp [placed, eq_comm]

theorem placed_eq_ok_iff {span : Span} {position : Position}
    {meaning : Except LexError.Cause (Option (Token.Kind × Option IntegerValue))}
    {result : Option Token} :
    lexeme.placed span position meaning = .ok result ↔
      ∃ content, meaning = .ok content ∧ result = content.map fun (kind, value) =>
        ⟨String.ofList lexeme.text, span, position, kind, value⟩ := by
  cases meaning with
  | ok content => simp [placed, eq_comm]
  | error cause => simp [placed]

theorem Follows.of_prefix {before source' : List Char} (h : lexeme.Follows before source)
    (hstarts : source <+: source') : lexeme.Follows before source' :=
  ⟨h.nonempty, h.start_eq, h.prefixed.trans hstarts⟩

theorem Follows.byteLength_le {before : List Char} (h : lexeme.Follows before source) :
    byteLength (before ++ lexeme.text) ≤ byteLength source :=
  Text.byteLength_le_of_prefix h.prefixed

theorem Follows.byteLength_lt {before : List Char} (h : lexeme.Follows before source) :
    byteLength before < byteLength source := by
  have hpos := Text.byteLength_pos h.nonempty
  have hle := h.byteLength_le
  rw [Text.byteLength_append] at hle
  omega

theorem Follows.stop_eq {before : List Char} (h : lexeme.Follows before source) :
    lexeme.stop = byteLength (before ++ lexeme.text) := by
  rw [stop, h.start_eq, Text.byteLength_append]

theorem Follows.ofBounds_eq {before : List Char} (h : lexeme.Follows before source)
    (hstop : lexeme.stop < UInt32.size) :
    Span.ofBounds lexeme.start lexeme.stop = .ok (Span.over before lexeme.text) := by
  have hle : lexeme.start ≤ lexeme.stop := Nat.le_add_right _ _
  rw [Span.ofBounds_of_lt (Nat.lt_of_le_of_lt hle hstop) hstop, h.stop_eq, h.start_eq, Span.over]

theorem Follows.toToken?_eq_of_lt {before : List Char} (h : lexeme.Follows before source)
    (hstop : lexeme.stop < UInt32.size) :
    lexeme.toToken? operators (LineTable.ofText source) source =
      lexeme.placed (Span.over before lexeme.text) (Position.after before)
        (lexeme.meaning operators) := by
  have hposition : (LineTable.ofText source).position source
      (Span.over before lexeme.text).start = Position.after before := by
    obtain ⟨after, rfl⟩ := h.prefixed
    have hpos := Text.byteLength_pos h.nonempty
    rw [h.stop_eq, Text.byteLength_append] at hstop
    rw [List.append_assoc]
    exact LineTable.position_ofText (by omega)
  rw [toToken?_eq_placed (h.ofBounds_eq hstop), hposition]

theorem Follows.toToken?_eq {before : List Char} (h : lexeme.Follows before source)
    (hsize : byteLength source < UInt32.size) :
    lexeme.toToken? operators (LineTable.ofText source) source =
      lexeme.placed (Span.over before lexeme.text) (Position.after before)
        (lexeme.meaning operators) := by
  apply h.toToken?_eq_of_lt
  rw [h.stop_eq]
  exact Nat.lt_of_le_of_lt h.byteLength_le hsize

theorem meaning_of_toToken?_error {error : LexError}
    (h : lexeme.toToken? operators lines source = .error error) :
    lexeme.meaning operators = .error error.cause ∨
      ∃ other, error.cause = .sourceTooLarge other := by
  cases hbounds : Span.ofBounds lexeme.start lexeme.stop with
  | error other =>
    rw [toToken?_of_tooLarge hbounds] at h
    obtain rfl := Except.error.inj h
    exact Or.inr ⟨other, rfl⟩
  | ok span =>
    rw [toToken?_eq_placed hbounds, placed_eq_error_iff] at h
    exact Or.inl h.1

theorem Follows.covers {before : List Char} (h : lexeme.Follows before source)
    (hstop : lexeme.stop < UInt32.size) (cause : LexError.Cause) :
    LexError.Covers ⟨cause, Span.over before lexeme.text, Position.after before⟩ before
      lexeme.text := by
  have hpos := Text.byteLength_pos h.nonempty
  rw [h.stop_eq] at hstop
  obtain ⟨hstart, hend⟩ := Span.toNat_over hstop
  rw [Text.byteLength_append] at hstop
  exact ⟨hstart, hend, Position.counts_after (by omega)⟩

theorem Follows.covers_of_error {before : List Char} (h : lexeme.Follows before source)
    {error : LexError}
    (herror : lexeme.toToken? operators (LineTable.ofText source) source = .error error)
    (hfits : ∀ large, error.cause ≠ .sourceTooLarge large) :
    lexeme.meaning operators = .error error.cause ∧ error.Covers before lexeme.text := by
  cases hbounds : Span.ofBounds lexeme.start lexeme.stop with
  | error large =>
    rw [toToken?_of_tooLarge hbounds] at herror
    obtain rfl := Except.error.inj herror
    exact absurd rfl (hfits large)
  | ok span =>
    have hstop : lexeme.stop < UInt32.size := by
      rw [← (Span.ofBounds_eq_ok hbounds).2]
      exact span.stop.toNat_lt
    rw [h.toToken?_eq_of_lt hstop, placed_eq_error_iff] at herror
    obtain ⟨hmeaning, hspan, hposition⟩ := herror
    refine ⟨hmeaning, ?_⟩
    have hcovers := h.covers hstop error.cause
    rwa [← hspan, ← hposition] at hcovers

theorem Follows.place_of_error {before : List Char} (h : lexeme.Follows before source)
    (hsize : byteLength source < UInt32.size) {error : LexError}
    (herror : lexeme.toToken? operators (LineTable.ofText source) source = .error error) :
    lexeme.meaning operators = .error error.cause ∧
      error.span = Span.over before lexeme.text ∧ error.position = Position.after before := by
  rwa [h.toToken?_eq hsize, placed_eq_error_iff] at herror

theorem Follows.place_of_token {before : List Char} (h : lexeme.Follows before source)
    (hsize : byteLength source < UInt32.size) {token : Token}
    (htoken : lexeme.toToken? operators (LineTable.ofText source) source = .ok (some token)) :
    token.span = Span.over before lexeme.text ∧ token.position = Position.after before := by
  rw [h.toToken?_eq hsize, placed_eq_ok_iff] at htoken
  obtain ⟨content, -, hcontent⟩ := htoken
  obtain ⟨_, -, rfl⟩ := Option.map_eq_some_iff.mp hcontent.symm
  exact ⟨rfl, rfl⟩

theorem Follows.span_of_error {before : List Char} (h : lexeme.Follows before source)
    (hsize : byteLength source < UInt32.size) {error : LexError}
    (herror : lexeme.toToken? operators (LineTable.ofText source) source = .error error) :
    error.span.start.toNat = byteLength before ∧
      error.span.stop.toNat = byteLength (before ++ lexeme.text) := by
  rw [(h.place_of_error hsize herror).2.1]
  exact Span.toNat_over (Nat.lt_of_le_of_lt h.byteLength_le hsize)

theorem Follows.span_of_token {before : List Char} (h : lexeme.Follows before source)
    (hsize : byteLength source < UInt32.size) {token : Token}
    (htoken : lexeme.toToken? operators (LineTable.ofText source) source = .ok (some token)) :
    token.span.start.toNat = byteLength before ∧
      token.span.stop.toNat = byteLength (before ++ lexeme.text) := by
  rw [(h.place_of_token hsize htoken).1]
  exact Span.toNat_over (Nat.lt_of_le_of_lt h.byteLength_le hsize)

theorem exists_meaning_of_toToken? {result : Option Token}
    (h : lexeme.toToken? operators lines source = .ok result) :
    ∃ span content, lexeme.meaning operators = .ok content ∧
      result = content.map fun (kind, value) =>
        ⟨String.ofList lexeme.text, span, lines.position source span.start, kind, value⟩ := by
  obtain ⟨span, -, hbounds, -⟩ := denotes_of_toToken? h
  rw [toToken?_eq_placed hbounds] at h
  exact ⟨span, placed_eq_ok_iff.mp h⟩

theorem exists_category_of_meaning {content : Option (Token.Kind × Option IntegerValue)}
    (h : lexeme.meaning operators = .ok content) :
    ∃ category, lexeme.category = some category ∧ operators.Takes category := by
  unfold Lexeme.meaning at h
  split at h
  · cases h
  · rename_i category hcategory
    refine ⟨category, hcategory, ?_⟩
    split at h
    · rename_i htrivia
      exact Or.inl htrivia
    split at h
    · cases h
    · rename_i hkind _
      exact Or.inr (by rw [hkind]; rfl)
    · rename_i hkind _
      exact Or.inr (by rw [hkind]; rfl)

theorem faultCause_eq (lexeme : Lexeme) :
    lexeme.faultCause = .unterminatedComment ∨
      ∃ text, lexeme.faultCause = .unknownToken none text := by
  rw [faultCause]
  split
  · exact Or.inl rfl
  · exact Or.inr ⟨_, rfl⟩

theorem cause_of_meaning {cause : LexError.Cause} (h : lexeme.meaning operators = .error cause) :
    (lexeme.category = none ∧ cause = lexeme.faultCause) ∨
      (∃ category, lexeme.category = some category ∧ category.isTrivia = false ∧
        operators.kind? category = none ∧
        cause = .unknownToken (some category) (String.ofList lexeme.text)) ∨
      cause = .invalidNumber (String.ofList lexeme.text) := by
  unfold meaning at h
  split at h
  · rename_i hcategory
    exact Or.inl ⟨hcategory, (Except.error.inj h).symm⟩
  · rename_i category hcategory
    split at h
    · cases h
    · rename_i htrivia
      split at h
      · rename_i hkind
        exact Or.inr (Or.inl ⟨category, hcategory, Bool.eq_false_iff.mpr htrivia, hkind,
          (Except.error.inj h).symm⟩)
      · split at h
        · cases h
        · exact Or.inr (Or.inr (Except.error.inj h).symm)
      · cases h

theorem ne_invalidArraySize_of_toToken?_error {error : LexError}
    (h : lexeme.toToken? operators lines source = .error error) (text : String) :
    error.cause ≠ .invalidArraySize text := by
  intro htext
  rcases meaning_of_toToken?_error h with hmeaning | ⟨other, hlarge⟩
  · rw [htext] at hmeaning
    rcases cause_of_meaning hmeaning with ⟨-, hcause⟩ | ⟨category, -, -, -, hcause⟩ | hcause
    · rcases lexeme.faultCause_eq with hfault | ⟨_, hfault⟩ <;> cases hcause.trans hfault
    · cases hcause
    · cases hcause
  · cases htext.symm.trans hlarge

end Lexeme

theorem Tiling.follows {offset : Nat} {before text : List Char} {lexemes : List Lexeme}
    (h : Tiling offset text lexemes) (hoffset : offset = byteLength before) :
    ∀ l ∈ lexemes, ∃ part, l.Follows part (before ++ text) := by
  induction h generalizing before with
  | blanks => simp
  | @lexeme offset blanks rest l lexemes hblanks hstart hne hfits htiling ih =>
    have hbefore : l.start = byteLength (before ++ blanks) := by
      rw [hstart, hoffset, Text.byteLength_append]
    have hstop : l.stop = byteLength (before ++ blanks ++ l.text) := by
      rw [Lexeme.stop, hbefore, Text.byteLength_append _ l.text]
    have hwhole : before ++ (blanks ++ (l.text ++ rest)) = before ++ blanks ++ l.text ++ rest := by
      simp only [List.append_assoc]
    rw [hwhole]
    exact List.forall_mem_cons.mpr
      ⟨⟨before ++ blanks, hne, hbefore, List.prefix_append _ _⟩, ih hstop⟩

theorem Tiling.follows_part {text : List Char} {lexemes : List Lexeme}
    (h : Tiling 0 text lexemes) : ∀ l ∈ lexemes, ∃ part, l.Follows part text := by
  have hfollows : ∀ l ∈ lexemes, ∃ part, l.Follows part ([] ++ text) := h.follows rfl
  exact hfollows

section Takes

variable {operators : OperatorSet} {category : Category} {text rest : List Char}

open Reading

theorem OperatorSet.Takes.not_quote {first : Char} {body : List Char}
    (h : operators.Takes category) (hspells : category.Spells (first :: body)) :
    first ∉ ['"', '\x60', '\''] := by
  have hquotes : ∀ p : Char → Bool, (['"', '\x60', '\''].all fun c => !p c) → p first →
      first ∉ ['"', '\x60', '\''] := fun p hmarks hfirst => not_mem_of_all hmarks hfirst
  cases category with
  | lineComment =>
    obtain ⟨_, heq, -⟩ := hspells
    rw [(List.cons.inj heq).1]
    decide
  | blockComment =>
    obtain ⟨_, heq, -⟩ := hspells
    rw [(List.cons.inj heq).1]
    decide
  | identifier =>
    obtain ⟨_, _, heq, hfirst, -⟩ := hspells
    exact hquotes isNameStart (by decide) ((List.cons.inj heq).1 ▸ hfirst)
  | integer radix =>
    refine hquotes Radix.decimal.isDigit (by decide) ?_
    cases radix with
    | decimal =>
      obtain ⟨_, _, heq, hfirst, -⟩ := hspells
      exact (List.cons.inj heq).1 ▸ hfirst
    | binary | octal | hexadecimal =>
      obtain ⟨_, _, heq, -⟩ := hspells
      rw [(List.cons.inj heq).1]
      decide
  | float | string | rawString | character => rcases h with htrivia | hkind <;> contradiction
  | punctuation mark =>
    obtain ⟨heq, -⟩ := hspells
    rw [(List.cons.inj heq).1]
    rcases h with htrivia | hkind
    · cases htrivia
    · refine not_mem_of_all (p := fun c => (operators.mark? c).isSome) ?_ hkind
      cases operators <;> decide

theorem Fits.append_stop {d : Char} (h : Fits (some category) text rest)
    (htakes : operators.Takes category) (hd : IsStop d)
    (hline : category = .lineComment → d = '\n') (more : List Char) :
    Fits (some category) text (rest ++ d :: more) := by
  obtain ⟨first, body, rfl⟩ := exists_cons_of_spells h.spells
  have hread := longest_of_fits h
  have hfirst := htakes.not_quote h.spells
  have hstop := longest_append_stop hd (body ++ rest) more hfirst
    (congrArg Reading.category hread) hline
  refine fits_of_longest (isBlank_of_fits h) ?_
  rw [← List.append_assoc, hstop, hread]

end Takes

namespace Token

section Run

variable {operators : OperatorSet} {lines : LineTable} {source : List Char}

theorem ofLexemes_congr {operators' : OperatorSet} {lines' : LineTable} {source' : List Char}
    {lexemes : List Lexeme}
    (h : ∀ l ∈ lexemes, l.toToken? operators lines source = l.toToken? operators' lines' source') :
    ofLexemes operators lines source lexemes = ofLexemes operators' lines' source' lexemes := by
  induction lexemes with
  | nil => rfl
  | cons l lexemes ih =>
    obtain ⟨hl, hrest⟩ := List.forall_mem_cons.mp h
    rw [ofLexemes_cons, ofLexemes_cons, hl, ih hrest]

theorem ofLexemes_cons_eq_ok_iff {l : Lexeme} {lexemes : List Lexeme} {tokens : List Token} :
    ofLexemes operators lines source (l :: lexemes) = .ok tokens ↔
      ∃ result rest, l.toToken? operators lines source = .ok result ∧
        ofLexemes operators lines source lexemes = .ok rest ∧ tokens = result.toList ++ rest := by
  rw [ofLexemes_cons]
  cases l.toToken? operators lines source with
  | error error => simp
  | ok result =>
    cases ofLexemes operators lines source lexemes with
    | error error => simp [Except.map]
    | ok rest => simp [Except.map, eq_comm]

theorem ofLexemes_cons_eq_error_iff {l : Lexeme} {lexemes : List Lexeme} {error : LexError} :
    ofLexemes operators lines source (l :: lexemes) = .error error ↔
      l.toToken? operators lines source = .error error ∨
        ∃ result, l.toToken? operators lines source = .ok result ∧
          ofLexemes operators lines source lexemes = .error error := by
  rw [ofLexemes_cons]
  cases l.toToken? operators lines source with
  | error error => simp
  | ok result => cases ofLexemes operators lines source lexemes <;> simp [Except.map]

theorem ofLexemes_append (a b : List Lexeme) :
    ofLexemes operators lines source (a ++ b) =
      (ofLexemes operators lines source a).bind fun tokens =>
        (ofLexemes operators lines source b).map (tokens ++ ·) := by
  induction a with
  | nil =>
    cases hb : ofLexemes operators lines source b <;> simp [hb, Except.bind, Except.map]
  | cons l a ih =>
    rw [List.cons_append, ofLexemes_cons, ofLexemes_cons, ih]
    cases l.toToken? operators lines source with
    | error error => rfl
    | ok result =>
      cases ofLexemes operators lines source a with
      | error error => rfl
      | ok tokens =>
        cases ofLexemes operators lines source b with
        | error error => rfl
        | ok rest => simp [Except.bind, Except.map]

theorem ofLexemes_append_of_ok {a b : List Lexeme} {tokens : List Token}
    (h : ofLexemes operators lines source a = .ok tokens) :
    ofLexemes operators lines source (a ++ b) =
      (ofLexemes operators lines source b).map (tokens ++ ·) := by
  rw [ofLexemes_append, h]
  rfl

theorem ofLexemes_single (l : Lexeme) :
    ofLexemes operators lines source [l] =
      (l.toToken? operators lines source).map Option.toList := by
  rw [ofLexemes_cons, ofLexemes_nil]
  cases l.toToken? operators lines source <;> simp [Except.map]

theorem exists_ok_of_mem {lexemes : List Lexeme} {tokens : List Token}
    (h : ofLexemes operators lines source lexemes = .ok tokens) :
    ∀ l ∈ lexemes, ∃ result, l.toToken? operators lines source = .ok result := by
  induction lexemes generalizing tokens with
  | nil => simp
  | cons l lexemes ih =>
    obtain ⟨result, rest, hl, hrest, -⟩ := ofLexemes_cons_eq_ok_iff.mp h
    exact List.forall_mem_cons.mpr ⟨⟨result, hl⟩, ih hrest⟩

theorem takes_of_ofLexemes {lexemes : List Lexeme} {tokens : List Token}
    (h : ofLexemes operators lines source lexemes = .ok tokens) :
    ∀ l ∈ lexemes, ∃ category, l.category = some category ∧ operators.Takes category := by
  intro l hl
  obtain ⟨result, hresult⟩ := exists_ok_of_mem h l hl
  obtain ⟨span, content, hmeaning, -⟩ := Lexeme.exists_meaning_of_toToken? hresult
  exact Lexeme.exists_category_of_meaning hmeaning

theorem exists_of_ofLexemes_error {lexemes : List Lexeme} {error : LexError}
    (h : ofLexemes operators lines source lexemes = .error error) :
    ∃ a l b tokens, lexemes = a ++ l :: b ∧
      ofLexemes operators lines source a = .ok tokens ∧
      l.toToken? operators lines source = .error error := by
  induction lexemes with
  | nil => cases h
  | cons l lexemes ih =>
    rcases ofLexemes_cons_eq_error_iff.mp h with hl | ⟨result, hl, hrest⟩
    · exact ⟨[], l, lexemes, [], rfl, rfl, hl⟩
    · obtain ⟨a, l', b, tokens, rfl, ha, hl'⟩ := ih hrest
      exact ⟨l :: a, l', b, _, rfl, ofLexemes_cons_eq_ok_iff.mpr ⟨_, _, hl, ha, rfl⟩, hl'⟩

theorem ne_invalidArraySize_of_ofLexemes {lexemes : List Lexeme} {error : LexError}
    (h : ofLexemes operators lines source lexemes = .error error) (text : String) :
    error.cause ≠ .invalidArraySize text := by
  obtain ⟨a, l, b, tokens, -, -, hl⟩ := exists_of_ofLexemes_error h
  exact Lexeme.ne_invalidArraySize_of_toToken?_error hl text

theorem exists_of_ofLexemes_ok {lexemes : List Lexeme} {before rest : List Token} {token : Token}
    (h : ofLexemes operators lines source lexemes = .ok (before ++ token :: rest)) :
    ∃ a l b, lexemes = a ++ l :: b ∧ ofLexemes operators lines source a = .ok before ∧
      l.toToken? operators lines source = .ok (some token) := by
  induction lexemes generalizing before with
  | nil =>
    have hnil := Except.ok.inj h
    cases before <;> cases hnil
  | cons l lexemes ih =>
    obtain ⟨result, tokens, hl, htokens, heq⟩ := ofLexemes_cons_eq_ok_iff.mp h
    -- The lexeme gives nothing, the token itself or one of those before it.
    cases result with
    | none =>
      obtain rfl := heq
      obtain ⟨a, l', b, rfl, ha, hl'⟩ := ih htokens
      exact ⟨l :: a, l', b, rfl, ofLexemes_cons_eq_ok_iff.mpr ⟨_, _, hl, ha, rfl⟩, hl'⟩
    | some other =>
      cases before with
      | nil =>
        obtain ⟨rfl, -⟩ := List.cons.inj heq
        exact ⟨[], l, lexemes, rfl, rfl, hl⟩
      | cons first before =>
        obtain ⟨rfl, rfl⟩ := List.cons.inj heq
        obtain ⟨a, l', b, rfl, ha, hl'⟩ := ih htokens
        exact ⟨l :: a, l', b, rfl, ofLexemes_cons_eq_ok_iff.mpr ⟨_, _, hl, ha, rfl⟩, hl'⟩

end Run

theorem scan_eq_of_split {operators : OperatorSet} {source : String} {a b : List Lexeme}
    {tokens : List Token} (hsplit : Lexeme.split source.toList = a ++ b)
    (ha : ofLexemes operators (.ofText source.toList) source.toList a = .ok tokens) :
    scan operators source =
      (ofLexemes operators (.ofText source.toList) source.toList b).map (tokens ++ ·) := by
  rw [← ofLexemes_append_of_ok ha, ← hsplit]
  rfl

theorem ofLexemes_of_prefix {text source : List Char} {lexemes : List Lexeme}
    (htiling : Tiling 0 text lexemes) (hstarts : text <+: source)
    (hsize : byteLength source < UInt32.size) (operators : OperatorSet) :
    ofLexemes operators (.ofText text) text lexemes =
      ofLexemes operators (.ofText source) source lexemes := by
  have hle := Text.byteLength_le_of_prefix hstarts
  refine ofLexemes_congr fun l hl => ?_
  obtain ⟨before, hfollows⟩ := htiling.follows_part l hl
  rw [hfollows.toToken?_eq (Nat.lt_of_le_of_lt hle hsize),
    (hfollows.of_prefix hstarts).toToken?_eq hsize]

theorem scan_of_tiling {text source : List Char} {lexemes : List Lexeme}
    (htiling : Tiling 0 text lexemes) (hstarts : text <+: source)
    (hsize : byteLength source < UInt32.size) (operators : OperatorSet) :
    scan operators (String.ofList text) = ofLexemes operators (.ofText source) source lexemes := by
  rw [scan_eq_ofLexemes, String.toList_ofList, Lexeme.split, Lexeme.splitFrom_of_tiling htiling]
  exact ofLexemes_of_prefix htiling hstarts hsize operators

end Token
end ShapeLang
