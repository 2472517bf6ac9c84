import ShapeLang.Lexeme.Grammar
import ShapeLang.Proofs.Text.Classes
import ShapeLang.Token.Scan

/-! What a scan that succeeds has made of each lexeme: nothing of a comment, and of any other one a
token with its text, its bounds and the kind of its category. Few texts have a kind: those that are
written like names, and single marks. -/

namespace ShapeLang

open Text (isPunctuation)

theorem Span.ofBounds_eq_ok {start stop : Nat} {span : Span}
    (h : Span.ofBounds start stop = .ok span) :
    span.start.toNat = start ∧ span.stop.toNat = stop := by
  unfold Span.ofBounds at h
  split at h
  · rename_i hstart
    split at h
    · rename_i hstop
      obtain rfl := Except.ok.inj h
      exact ⟨UInt32.toNat_ofNat_of_lt' hstart, UInt32.toNat_ofNat_of_lt' hstop⟩
    · cases h
  · cases h

theorem Span.exists_ofBounds_eq_error {start stop : Nat} (h : UInt32.size ≤ stop) :
    ∃ large, Span.ofBounds start stop = .error large := by
  cases hbounds : Span.ofBounds start stop with
  | error large => exact ⟨large, rfl⟩
  | ok span =>
    rw [← (Span.ofBounds_eq_ok hbounds).2] at h
    exact absurd span.stop.toNat_lt (Nat.not_lt_of_le h)

section Spelling

variable {operators : OperatorSet} {category : Category} {kind : Token.Kind} {text : List Char}

theorem forall_isNamePart_or_mark (hspells : category.Spells text)
    (hkind : operators.kind? category = some kind) :
    (∀ c ∈ text, isNamePart c) ∨
      ∃ mark, category = .punctuation mark ∧ text = [mark] ∧ isPunctuation mark := by
  cases category with
  | lineComment | blockComment | float | string | rawString | character => cases hkind
  | identifier =>
    obtain ⟨first, body, rfl, hfirst, hbody⟩ := hspells
    exact Or.inl (List.forall_mem_cons.mpr ⟨by simp [isNamePart, hfirst], hbody⟩)
  | integer radix =>
    cases radix with
    | decimal =>
      obtain ⟨first, body, rfl, hfirst, hbody⟩ := hspells
      have hdigit : Radix.decimal.isBody first := by simp [Radix.isBody, hfirst]
      have hdigits : ∀ c ∈ first :: body, Radix.decimal.isBody c :=
        List.forall_mem_cons.mpr ⟨hdigit, hbody⟩
      exact Or.inl fun c hc => isNamePart_of_isBody (hdigits c hc)
    | binary | octal | hexadecimal =>
      obtain ⟨mark, body, rfl, hmark, -, hbody⟩ := hspells
      exact Or.inl (List.forall_mem_cons.mpr ⟨by decide, List.forall_mem_cons.mpr
        ⟨isNamePart_of_ofMark? hmark, fun c hc => isNamePart_of_isBody (hbody c hc)⟩⟩)
  | punctuation mark =>
    obtain ⟨rfl, hmark⟩ := hspells
    exact Or.inr ⟨mark, rfl, rfl, hmark⟩

theorem eq_punctuation_of_mem {c : Char} (hspells : category.Spells text)
    (hkind : operators.kind? category = some kind) (hc : isPunctuation c) (hmem : c ∈ text) :
    category = .punctuation c ∧ text = [c] := by
  rcases forall_isNamePart_or_mark hspells hkind with hparts | ⟨mark, rfl, rfl, -⟩
  · exact absurd ((isNamePart_of_isPunctuation hc).symm.trans (hparts c hmem)) Bool.false_ne_true
  · obtain rfl := List.mem_singleton.mp hmem
    exact ⟨rfl, rfl⟩

end Spelling

inductive Lexeme.Denotes (operators : OperatorSet) (span : Span) (position : Position) :
    Lexeme → Token → Prop where
  | plain {lexeme : Lexeme} {category : Category} {kind : Token.Kind} :
    lexeme.category = some category → operators.kind? category = some kind →
      category.radix? = none →
      Denotes operators span position lexeme
        (Token.plain kind (String.ofList lexeme.text) span position)
  | number {lexeme : Lexeme} {radix : Radix} {value : IntegerValue} :
    lexeme.category = some (.integer radix) → radix.readLiteral? lexeme.text = some value →
      Denotes operators span position lexeme
        (Token.number (String.ofList lexeme.text) value span position)

theorem Lexeme.denotes_of_classify {operators : OperatorSet} {category : Category}
    {lexeme : Lexeme} {span : Span} {position : Position} {token : Token}
    (hcategory : lexeme.category = some category)
    (h : Token.Builder.unchecked.classify operators category lexeme span position = .ok token) :
    lexeme.Denotes operators span position token := by
  rw [Token.Builder.classify] at h
  cases hkind : operators.kind? category with
  | none =>
    rw [hkind] at h
    cases h
  | some kind =>
    rw [hkind] at h
    dsimp only at h
    split at h
    · rename_i hnumber
      obtain ⟨radix, hradix⟩ := Option.isSome_iff_exists.mp
        ((OperatorSet.eq_number_iff_of_kind? hkind).mp hnumber)
      rw [hradix, Option.bind_some] at h
      cases hvalue : radix.readLiteral? lexeme.text with
      | none =>
        rw [hvalue] at h
        cases h
      | some value =>
        rw [hvalue] at h
        obtain rfl := Except.ok.inj h
        rw [Category.radix?_eq_some_iff.mp hradix] at hcategory
        exact Denotes.number hcategory hvalue
    · rename_i hnumber
      obtain rfl := Except.ok.inj h
      rw [OperatorSet.eq_number_iff_of_kind? hkind, Option.not_isSome_iff_eq_none] at hnumber
      exact Denotes.plain hcategory hkind hnumber

theorem Lexeme.denotes_of_toToken? {operators : OperatorSet} {lines : LineTable}
    {source : List Char} {lexeme : Lexeme} {result : Option Token}
    (h : lexeme.toToken? operators lines source = .ok result) :
    ∃ span category, Span.ofBounds lexeme.start lexeme.stop = .ok span ∧
      lexeme.category = some category ∧
      ((category.isTrivia ∧ result = none) ∨ ∃ token, result = some token ∧
        lexeme.Denotes operators span (lines.position source span.start) token) := by
  rw [Lexeme.toToken?, Token.Builder.toToken?] at h
  cases hbounds : Span.ofBounds lexeme.start lexeme.stop with
  | error error =>
    rw [hbounds] at h
    cases h
  | ok span =>
    cases hcategory : lexeme.category with
    | none =>
      rw [hbounds, hcategory] at h
      cases h
    | some category =>
      rw [hbounds, hcategory] at h
      dsimp only at h
      refine ⟨span, category, rfl, rfl, ?_⟩
      split at h
      · rename_i htrivia
        exact Or.inl ⟨htrivia, (Except.ok.inj h).symm⟩
      · cases hclassify : Token.Builder.unchecked.classify operators category lexeme span
            (lines.position source span.start) with
        | error error =>
          rw [hclassify] at h
          cases h
        | ok token =>
          rw [hclassify] at h
          exact Or.inr ⟨token, (Except.ok.inj h).symm, denotes_of_classify hcategory hclassify⟩

namespace Token

inductive Scanned (operators : OperatorSet) (lines : LineTable) (source : List Char) :
    List Lexeme → List Token → Prop where
  | nil : Scanned operators lines source [] []
  | comment {lexeme : Lexeme} {category : Category} {lexemes : List Lexeme}
    {tokens : List Token} : lexeme.category = some category → category.isTrivia →
      Scanned operators lines source lexemes tokens →
      Scanned operators lines source (lexeme :: lexemes) tokens
  | token {lexeme : Lexeme} {span : Span} {token : Token} {lexemes : List Lexeme}
    {tokens : List Token} : Span.ofBounds lexeme.start lexeme.stop = .ok span →
      lexeme.Denotes operators span (lines.position source span.start) token →
      Scanned operators lines source lexemes tokens →
      Scanned operators lines source (lexeme :: lexemes) (token :: tokens)

theorem scanned_of_ofLexemes {operators : OperatorSet} {lines : LineTable} {source : List Char}
    {lexemes : List Lexeme} {tokens : List Token}
    (h : ofLexemes operators lines source lexemes = .ok tokens) :
    Scanned operators lines source lexemes tokens := by
  induction lexemes generalizing tokens with
  | nil =>
    obtain rfl := Except.ok.inj h
    exact Scanned.nil
  | cons lexeme lexemes ih =>
    rw [ofLexemes_cons] at h
    cases hlexeme : lexeme.toToken? operators lines source with
    | error error =>
      rw [hlexeme] at h
      cases h
    | ok result =>
      cases hrest : ofLexemes operators lines source lexemes with
      | error error =>
        rw [hlexeme, hrest] at h
        cases h
      | ok rest =>
        rw [hlexeme, hrest] at h
        obtain rfl := Except.ok.inj h
        obtain ⟨span, category, hspan, hcategory, ⟨htrivia, rfl⟩ | ⟨token, rfl, hdenotes⟩⟩ :=
          Lexeme.denotes_of_toToken? hlexeme
        · exact Scanned.comment hcategory htrivia (ih hrest)
        · exact Scanned.token hspan hdenotes (ih hrest)

end Token
end ShapeLang
