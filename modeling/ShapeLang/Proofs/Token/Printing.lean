import Mathlib.Data.List.Forall2
import ShapeLang.Proofs.Token.Relocation
import ShapeLang.Proofs.Token.Windows

/-! Tokens written out with blanks between them are lexed to themselves. A scan takes the text of
each one apart into the tokens that it was joined from: the marks of a joined text stand alone, and
what stands between brackets ends at the one that closes them. These tokens lie elsewhere than
before, but joining looks at texts only. -/

namespace ShapeLang

open Text (byteLength isBlank isPunctuation)

def Token.unplaced (token : Token) : Token :=
  { token with span := .origin, position := .start }

namespace Token

theorem combine_of_unplaced_eq {operators : OperatorSet} {tokens others out : List Token}
    (heq : others.map unplaced = tokens.map unplaced)
    (h : combine operators tokens = .ok out) :
    ∃ out', combine operators others = .ok out' ∧ out'.map unplaced = out.map unplaced := by
  have hrelocate : unplaced = relocate (fun _ => .origin) fun _ => .start := rfl
  rw [hrelocate] at heq ⊢
  exact combine_of_relocate_eq (fun _ _ => (Span.hull_self _).symm) heq h

def IsPlainMark (c : Char) : Prop :=
  isPunctuation c ∧ c ∉ ['/', '"', '\x60', '\'']

instance (c : Char) : Decidable (IsPlainMark c) :=
  inferInstanceAs (Decidable (_ ∧ _))

def Ends (text rest : List Char) : Prop :=
  (∀ d ∈ rest.head?, IsStop d) ∨ ∃ mark, text = [mark] ∧ IsPlainMark mark

inductive Written (operators : OperatorSet) : List Token → List Char → Prop where
  | nil : Written operators [] []
  | blank {c : Char} {tokens : List Token} {text : List Char} : isBlank c →
    Written operators tokens text → Written operators tokens (c :: text)
  | token {token : Token} {tokens : List Token} {rest : List Char} :
    token.Primitive operators → Ends token.text.toList rest → Written operators tokens rest →
      Written operators (token :: tokens) (token.text.toList ++ rest)

def ReadAs (operators : OperatorSet) (l : Lexeme) (token : Token) : Prop :=
  l.text = token.text.toList ∧ l.meaning operators = .ok (some (token.kind, token.value))

section Written

variable {operators : OperatorSet} {token : Token} {tokens : List Token} {text rest : List Char}

theorem fits_of_ends {category : Category} {kind : Kind} (hspells : category.Spells text)
    (hkind : operators.kind? category = some kind) (h : Ends text rest) :
    Fits (some category) text rest := by
  obtain ⟨first, body, rfl⟩ := Reading.exists_cons_of_spells hspells
  have hblank := Reading.isBlank_of_spells hspells
  rcases h with hstop | ⟨mark, htext, hmark, hplain⟩
  · have halone : Fits (some category) (first :: body) [] := by
      apply fits_of_longest hblank
      rw [List.append_nil]
      exact Reading.longest_of_spells hspells
    cases rest with
    | nil => exact halone
    | cons d more =>
      refine halone.append_stop (Or.inr (Option.isSome_of_eq_some hkind)) (hstop d rfl) ?_ more
      rintro rfl
      cases hkind
  · obtain ⟨rfl, rfl⟩ := List.cons.inj htext
    obtain ⟨rfl, -⟩ := eq_punctuation_of_mem hspells hkind hmark (List.mem_singleton_self _)
    exact fits_of_longest hblank (Reading.longest_of_mark hmark hplain rest)

theorem Written.blanks_append {blanks : List Char} (hblanks : ∀ c ∈ blanks, isBlank c)
    (h : Written operators tokens text) : Written operators tokens (blanks ++ text) := by
  induction blanks with
  | nil => exact h
  | cons c blanks ih =>
    obtain ⟨hc, hrest⟩ := List.forall_mem_cons.mp hblanks
    exact Written.blank hc (ih hrest)

theorem Written.exists_tiling (h : Written operators tokens text) (offset : Nat) :
    ∃ lexemes, Tiling offset text lexemes ∧
      List.Forall₂ (ReadAs operators) lexemes tokens := by
  induction h generalizing offset with
  | nil => exact ⟨[], Tiling.blanks (by simp), List.Forall₂.nil⟩
  | @blank c tokens text hc hwritten ih =>
    obtain ⟨lexemes, htiling, hread⟩ := ih (offset + c.utf8Size)
    exact ⟨lexemes, Tiling.blank hc htiling, hread⟩
  | @token token tokens rest hprimitive hends hwritten ih =>
    obtain ⟨category, hspells, hmeaning⟩ := hprimitive
    have hkind := kind_of_meaning hmeaning
    have hfits := fits_of_ends hspells hkind hends
    obtain ⟨lexemes, htiling, hread⟩ := ih (offset + byteLength token.text.toList)
    obtain ⟨first, body, htext⟩ := Reading.exists_cons_of_spells hspells
    rw [htext] at hfits htiling ⊢
    refine ⟨_, Tiling.head hfits htiling, List.Forall₂.cons ⟨htext.symm, ?_⟩ hread⟩
    rw [← htext]
    exact hmeaning

theorem ofLexemes_of_readAs {source : List Char} {lexemes : List Lexeme}
    (hsize : byteLength source < UInt32.size)
    (hfollows : ∀ l ∈ lexemes, ∃ part, l.Follows part source)
    (h : List.Forall₂ (ReadAs operators) lexemes tokens) :
    ∃ out, ofLexemes operators (.ofText source) source lexemes = .ok out ∧
      out.map unplaced = tokens.map unplaced := by
  induction h with
  | nil => exact ⟨[], rfl, rfl⟩
  | @cons l t lexemes tokens hl hrest ih =>
    obtain ⟨⟨part, hpart⟩, hlexemes⟩ := List.forall_mem_cons.mp hfollows
    obtain ⟨out, hout, heq⟩ := ih hlexemes
    obtain ⟨htext, hmeaning⟩ := hl
    have hresult : l.toToken? operators (.ofText source) source = _ := hpart.toToken?_eq hsize
    rw [hmeaning] at hresult
    refine ⟨_, ofLexemes_cons_eq_ok_iff.mpr ⟨_, out, hresult, hout, rfl⟩, ?_⟩
    rw [htext, String.ofList_toList]
    show _ :: out.map unplaced = _ :: tokens.map unplaced
    rw [heq]
    rfl

theorem Written.scan_eq (h : Written operators tokens text)
    (hsize : byteLength text < UInt32.size) :
    ∃ out, scan operators (String.ofList text) = .ok out ∧
      out.map unplaced = tokens.map unplaced := by
  obtain ⟨lexemes, htiling, hread⟩ := h.exists_tiling 0
  rw [scan_of_tiling htiling (List.prefix_refl _) hsize]
  exact ofLexemes_of_readAs hsize htiling.follows_part hread

end Written

section Joined

variable {operators : OperatorSet} {a b c token : Token} {tokens : List Token} {rest : List Char}

theorem isPlainMark_of_mem_pairTable {entry : String × Kind} (h : entry ∈ pairTable operators) :
    ∀ c ∈ entry.1.toList, IsPlainMark c := by
  have hmarks : ∀ entry ∈ pairTable operators,
      entry.1.toList.all fun c => decide (IsPlainMark c) := by
    cases operators <;> decide
  simpa using hmarks entry h

theorem Primitive.ends_of_marks (h : token.Primitive operators)
    (hmarks : ∀ c ∈ token.text.toList, IsPlainMark c) (rest : List Char) :
    Ends token.text.toList rest := by
  obtain ⟨c, body, htext⟩ := List.exists_cons_of_ne_nil h.ne_nil
  have hmem : c ∈ token.text.toList := by simp [htext]
  exact Or.inr ⟨c, (h.eq_mark_of_mem (hmarks c hmem).1 hmem).1, hmarks c hmem⟩

theorem written_pair {kind : Kind} (ha : a.Primitive operators) (hb : b.Primitive operators)
    (hkind : (a.text ++ b.text, kind) ∈ pairTable operators)
    (hrest : Written operators tokens rest) :
    Written operators (a :: b :: tokens) ((a.text ++ b.text).toList ++ rest) := by
  have hmarks := isPlainMark_of_mem_pairTable hkind
  rw [String.toList_append, List.forall_mem_append] at hmarks
  rw [String.toList_append, List.append_assoc]
  exact Written.token ha (ha.ends_of_marks hmarks.1 _)
    (Written.token hb (hb.ends_of_marks hmarks.2 _) hrest)

theorem written_triple (ha : a.Primitive operators) (hb : b.Primitive operators)
    (hc : c.Primitive operators) (htriple : IsTripleText (a.text ++ b.text ++ c.text))
    (hrest : Written operators tokens rest) :
    Written operators (a :: b :: c :: tokens) ((a.text ++ b.text ++ c.text).toList ++ rest) := by
  obtain ⟨hfirst, hlast⟩ := ha.eq_brackets hc htriple
  have hopen : a.text.toList = ['['] := by
    rw [hfirst]
    rfl
  have hclose : c.text.toList = [']'] := by
    rw [hlast]
    rfl
  have hend : ∀ d ∈ (c.text.toList ++ rest).head?, IsStop d := by
    rw [hclose]
    rintro d hd
    obtain rfl := Option.some.inj hd
    decide
  rw [String.toList_append, String.toList_append, List.append_assoc, List.append_assoc]
  exact Written.token ha (Or.inr ⟨'[', hopen, by decide⟩)
    (Written.token hb (Or.inl hend) (Written.token hc (Or.inr ⟨']', hclose, by decide⟩) hrest))

theorem Block.Becomes.written {block : Block} (h : block.Becomes operators token)
    (hprimitive : ∀ t ∈ block.tokens, t.Primitive operators) (hstop : ∀ d ∈ rest.head?, IsStop d)
    (hrest : Written operators tokens rest) :
    Written operators (block.tokens ++ tokens) (token.text.toList ++ rest) := by
  cases h with simp only [Block.tokens, List.forall_mem_cons] at hprimitive
  | single =>
    obtain ⟨ha, -⟩ := hprimitive
    exact Written.token ha (Or.inl hstop) hrest
  | pair hkind =>
    obtain ⟨ha, hb, -⟩ := hprimitive
    exact written_pair ha hb hkind hrest
  | map hmap =>
    obtain ⟨ha, hb, hc, -⟩ := hprimitive
    exact written_triple ha hb hc (Or.inl hmap) hrest
  | array hsize =>
    obtain ⟨ha, hb, hc, -⟩ := hprimitive
    exact written_triple ha hb hc (Or.inr ⟨_, hsize⟩) hrest

end Joined

/-- The texts of tokens with blanks between them. -/
inductive Printed : List Token → List Char → Prop where
  | nil : Printed [] []
  | last {token : Token} : Printed [token] token.text.toList
  | next {token next : Token} {tokens : List Token} {blanks text : List Char} : blanks ≠ [] →
    (∀ c ∈ blanks, isBlank c) → Printed (next :: tokens) text →
      Printed (token :: next :: tokens) (token.text.toList ++ (blanks ++ text))

theorem Printed.written {operators : OperatorSet} {tokens out : List Token} {blocks : List Block}
    {text : List Char} (h : Printed out text) (hcut : Cut operators [] tokens blocks out)
    (hprimitive : ∀ t ∈ tokens, t.Primitive operators) : Written operators tokens text := by
  induction h generalizing tokens blocks with
  | nil =>
    cases hcut
    exact Written.nil
  | @last token =>
    cases hcut with
    | @block block rest blocks _ _ hstands hbecomes hcut =>
      cases hcut
      obtain ⟨hblock, -⟩ := List.forall_mem_append.mp hprimitive
      have hwritten : Written operators (block.tokens ++ []) (token.text.toList ++ []) :=
        hbecomes.written hblock (by simp) Written.nil
      rwa [List.append_nil token.text.toList] at hwritten
  | @next token next out blanks text hne hblanks hprinted ih =>
    cases hcut with
    | @block block rest blocks _ _ hstands hbecomes hcut =>
      obtain ⟨hblock, hrest⟩ := List.forall_mem_append.mp hprimitive
      refine hbecomes.written hblock (fun d hd => ?_) ((ih hcut hrest).blanks_append hblanks)
      obtain ⟨first, blanks, rfl⟩ := List.exists_cons_of_ne_nil hne
      obtain rfl := Option.some.inj hd
      exact isStop_of_isBlank (hblanks first (List.mem_cons_self ..))

/-- Tokens that are printed with any blanks between them are lexed to the same tokens, apart from
where these lie. -/
theorem lex_printed (operators : OperatorSet) (source : String) (tokens : List Token)
    (h : lex operators source = .ok tokens) (text : String) (hprinted : Printed tokens text.toList)
    (hsize : text.utf8ByteSize < UInt32.size) :
    ∃ again, lex operators text = .ok again ∧ again.map unplaced = tokens.map unplaced := by
  obtain ⟨scanned, hscan, hcombine⟩ := lex_eq_ok_iff.mp h
  obtain ⟨blocks, hcut⟩ := exists_cut_of_combine_ok hcombine
  rw [← Text.byteLength_toList] at hsize
  obtain ⟨others, hothers, heq⟩ := (hprinted.written hcut (primitive_of_scan hscan)).scan_eq hsize
  rw [String.ofList_toList] at hothers
  obtain ⟨again, hagain, hsame⟩ := combine_of_unplaced_eq heq hcombine
  exact ⟨again, lex_eq_ok_iff.mpr ⟨others, hothers, hagain⟩, hsame⟩

theorem lex_printed_array :
    ∃ tokens again, lex .core "[ /*c*/ 3 ]x||" = .ok tokens ∧ tokens.length = 3 ∧
      Printed tokens "[3]\tx\n ||".toList ∧ lex .core "[3]\tx\n ||" = .ok again ∧
      again.map unplaced = tokens.map unplaced := by
  obtain ⟨tokens, hlex, hlength, hprinted⟩ : ∃ tokens, lex .core "[ /*c*/ 3 ]x||" = .ok tokens ∧
      tokens.length = 3 ∧
      Printed tokens
        ("[3]".toList ++ (['\t'] ++ ("x".toList ++ (['\n', ' '] ++ "||".toList)))) := by
    refine ⟨[⟨"[3]", ⟨0, 11⟩, ⟨1, 1⟩, .arrayType, some (.word 3)⟩,
      ⟨"x", ⟨11, 12⟩, ⟨1, 12⟩, .symbol, none⟩, ⟨"||", ⟨12, 14⟩, ⟨1, 13⟩, .logicalOr, none⟩],
      rfl, rfl, ?_⟩
    exact Printed.next (by simp) (by simp [isBlank])
      (Printed.next (by simp) (by simp [isBlank]) Printed.last)
  obtain ⟨again, hagain, hsame⟩ := lex_printed .core _ _ hlex "[3]\tx\n ||" hprinted (by decide)
  exact ⟨tokens, again, hlex, hlength, hprinted, hagain, hsame⟩

end Token
end ShapeLang
