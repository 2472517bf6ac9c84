import Mathlib.Data.List.Forall2
import ShapeLang.Proofs.Token.Joining
import ShapeLang.Proofs.Token.Scanning
import ShapeLang.Proofs.Token.Vocabulary
import ShapeLang.Token.Lex

/-! Values and kinds. Every kind that a pass builds a token of without a value asks for none: the
tables have no other kinds. So the check on kinds stops no pass, and a pass gives tokens that are
built as tokens can be, with a value where the kind asks for one and nowhere else. -/

namespace ShapeLang.Token

/-- What tokens can be built to be. -/
inductive Built : Token → Prop where
  | ofKind {kind : Kind} {text : String} {span : Span} {position : Position} {token : Token} :
    ofKind kind text span position = .ok token → Built token
  | number (text : String) (value : IntegerValue) (span : Span) (position : Position) :
    Built (number text value span position)
  | arrayType (text : String) (size : UInt64) (span : Span) (position : Position) :
    Built (arrayType text size span position)

def IsSizedArray (token : Token) : Prop :=
  ∃ n, IsSize token.text n ∧ 1 ≤ n ∧ n < UInt64.size ∧ token.value = some (.word (.ofNat n))

variable {operators : OperatorSet} {token : Token}

theorem Built.wellValued (h : token.Built) : token.WellValued := by
  cases h with
  | ofKind h =>
    obtain ⟨hkind, rfl⟩ := ofKind_eq_ok_iff.mp h
    exact wellValued_plain hkind _ _ _
  | number => exact wellValued_number _ _ _ _
  | arrayType => exact wellValued_arrayType _ _ _ _

theorem Kind.carriesValue_iff {kind : Kind} :
    kind.carriesValue ↔ kind = .number ∨ kind = .arrayType := by
  cases kind <;> decide

theorem Built.isSome_value_iff (h : token.Built) :
    token.value.isSome ↔ token.kind = .number ∨ token.kind = .arrayType := by
  rw [h.wellValued, Kind.carriesValue_iff]

namespace Builder

theorem checked_classify (operators : OperatorSet) (category : Category) (lexeme : Lexeme)
    (span : Span) (position : Position) :
    checked.classify operators category lexeme span position =
      (unchecked.classify operators category lexeme span position).mapError .failed := by
  rw [classify, classify]
  cases hkind : operators.kind? category with
  | none => rfl
  | some kind =>
    dsimp only
    split
    · cases category.radix?.bind (·.readLiteral? lexeme.text) <;> rfl
    · rename_i hnumber
      rw [checked_bare (OperatorSet.carriesValue_of_kind? hkind hnumber)]
      rfl

theorem checked_toToken? (operators : OperatorSet) (lines : LineTable) (source : List Char)
    (lexeme : Lexeme) :
    checked.toToken? operators lines source lexeme =
      (unchecked.toToken? operators lines source lexeme).mapError .failed := by
  rw [toToken?, toToken?]
  cases Span.ofBounds lexeme.start lexeme.stop with
  | error error => rfl
  | ok span =>
    cases lexeme.category with
    | none => rfl
    | some category =>
      dsimp only
      split
      · rfl
      · rw [checked_classify]
        cases unchecked.classify operators category lexeme span _ <;> rfl

theorem checked_ofLexemes (operators : OperatorSet) (lines : LineTable) (source : List Char)
    (lexemes : List Lexeme) :
    checked.ofLexemes operators lines source lexemes =
      (unchecked.ofLexemes operators lines source lexemes).mapError .failed := by
  induction lexemes with
  | nil => rfl
  | cons lexeme lexemes ih =>
    rw [ofLexemes, ofLexemes, checked_toToken?, ih]
    cases unchecked.toToken? operators lines source lexeme with
    | error error => rfl
    | ok token => cases unchecked.ofLexemes operators lines source lexemes <;> rfl

theorem maps_checked : unchecked.Maps checked id .failed where
  text_eq _ := rfl
  joined_eq h text a b := by
    rw [joined, checked_bare h]
    rfl
  sized_eq _ _ _ _ := rfl
  failed_eq _ _ _ := rfl

theorem checked_combine (operators : OperatorSet) (tokens : List Token) :
    checked.combine operators tokens = (unchecked.combine operators tokens).mapError .failed :=
  maps_checked.combine_eq_mapError fun _ _ _ _ => rfl

theorem checked_lex (operators : OperatorSet) (source : String) :
    checked.lex operators source = (unchecked.lex operators source).mapError .failed := by
  rw [lex, lex, scan, checked_ofLexemes, ← scan]
  cases unchecked.scan operators source with
  | error error => rfl
  | ok tokens => exact checked_combine operators tokens

end Builder

theorem built_of_denotes {lexeme : Lexeme} {span : Span} {position : Position}
    (h : lexeme.Denotes operators span position token) : token.Built := by
  cases h with
  | plain _ hkind hradix =>
    have hnumber := (OperatorSet.eq_number_iff_of_kind? hkind).not
    rw [hradix] at hnumber
    have hcarries := OperatorSet.carriesValue_of_kind? hkind (hnumber.mpr Bool.false_ne_true)
    exact Built.ofKind (ofKind_eq_ok_iff.mpr ⟨hcarries, rfl⟩)
  | number => exact Built.number _ _ _ _

theorem Scanned.built {lines : LineTable} {source : List Char} {lexemes : List Lexeme}
    {tokens : List Token} (h : Scanned operators lines source lexemes tokens) :
    ∀ t ∈ tokens, t.Built := by
  induction h with
  | nil => simp
  | comment _ _ _ ih => exact ih
  | token _ hdenotes _ ih => exact List.forall_mem_cons.mpr ⟨built_of_denotes hdenotes, ih⟩

theorem Block.Becomes.built {block : Block} (h : block.Becomes operators token)
    (hblock : ∀ t ∈ block.tokens, t.Built) : token.Built := by
  cases h with
  | single => exact hblock token (List.mem_singleton_self _)
  | pair hkind =>
    have hcarries := OperatorSet.carriesValue_of_pair? (mem_pairTable_iff.mp hkind)
    exact Built.ofKind (ofKind_eq_ok_iff.mpr ⟨hcarries, rfl⟩)
  | map =>
    have hkind : Kind.mapType.carriesValue = false := rfl
    exact Built.ofKind (ofKind_eq_ok_iff.mpr ⟨hkind, rfl⟩)
  | array => exact Built.arrayType _ _ _ _

theorem Cut.built {tokens out : List Token} {blocks : List Block}
    (h : Cut operators [] tokens blocks out) (htokens : ∀ t ∈ tokens, t.Built) :
    ∀ t ∈ out, t.Built := by
  induction h with
  | done => exact htokens
  | block _ hbecomes _ ih =>
    obtain ⟨hblock, hrest⟩ := List.forall_mem_append.mp htokens
    exact List.forall_mem_cons.mpr ⟨hbecomes.built hblock, ih hrest⟩

theorem built_of_scan {source : String} {tokens : List Token}
    (h : scan operators source = .ok tokens) : ∀ t ∈ tokens, t.Built :=
  (scanned_of_ofLexemes h).built

theorem built_of_combine {tokens out : List Token} (h : combine operators tokens = .ok out)
    (htokens : ∀ t ∈ tokens, t.Built) : ∀ t ∈ out, t.Built := by
  obtain ⟨blocks, hcut⟩ := exists_cut_of_combine_ok h
  exact hcut.built htokens

theorem built_of_lex {source : String} {tokens : List Token}
    (h : lex operators source = .ok tokens) : ∀ t ∈ tokens, t.Built := by
  obtain ⟨scanned, hscan, hcombine⟩ := lex_eq_ok_iff.mp h
  exact built_of_combine hcombine (built_of_scan hscan)

theorem Block.Becomes.isSizedArray {block : Block} (h : block.Becomes operators token) :
    block = .single token ∨ (token.kind = .arrayType → token.IsSizedArray) := by
  cases h with
  | single => exact Or.inl rfl
  | @pair _ _ kind hkind =>
    have hcarries := OperatorSet.carriesValue_of_pair? (mem_pairTable_iff.mp hkind)
    refine Or.inr fun (harray : kind = .arrayType) => ?_
    rw [harray] at hcarries
    cases hcarries
  | map => exact Or.inr fun harray => Kind.noConfusion harray
  | array hsize hpos hword => exact Or.inr fun _ => ⟨_, hsize, hpos, hword, rfl⟩

theorem Cut.forall₂_becomes {tail tokens out : List Token} {blocks : List Block}
    (h : Cut operators tail tokens blocks out) :
    List.Forall₂ (Block.Becomes operators) blocks out := by
  induction h with
  | done => exact List.Forall₂.nil
  | block _ hbecomes _ ih => exact List.Forall₂.cons hbecomes ih

/-- No kind is refused, in no pass and over no text or tokens: a pass with the check is the pass
without it, and stops for no other reasons. The tokens of a text have a value exactly where their
kind asks for one, and so have tokens joined from tokens that are built as tokens can be. An array
type that is joined, from whatever tokens, has the size that its text spells. -/
theorem unrefused_and_valued_by_kind (operators : OperatorSet) :
    (∀ source, Builder.checked.scan operators source = (scan operators source).mapError .failed ∧
      Builder.checked.lex operators source = (lex operators source).mapError .failed ∧
      ∀ tokens, scan operators source = .ok tokens ∨ lex operators source = .ok tokens →
        ∀ t ∈ tokens, t.value.isSome ↔ t.kind = .number ∨ t.kind = .arrayType) ∧
    ∀ tokens,
      Builder.checked.combine operators tokens = (combine operators tokens).mapError .failed ∧
      ∀ out, combine operators tokens = .ok out →
        ((∀ t ∈ tokens, t.Built) →
          ∀ t ∈ out, t.value.isSome ↔ t.kind = .number ∨ t.kind = .arrayType) ∧
        ∃ blocks, Cut operators [] tokens blocks out ∧
          List.Forall₂ (fun block token => block = .single token ∨
            (token.kind = .arrayType → token.IsSizedArray)) blocks out := by
  refine ⟨fun source => ⟨Builder.checked_ofLexemes .., Builder.checked_lex operators source, ?_⟩,
    fun tokens => ⟨Builder.checked_combine operators tokens, fun out hout => ⟨?_, ?_⟩⟩⟩
  · rintro tokens (hscan | hlex) t ht
    · exact (built_of_scan hscan t ht).isSome_value_iff
    · exact (built_of_lex hlex t ht).isSome_value_iff
  · exact fun htokens t ht => (built_of_combine hout htokens t ht).isSome_value_iff
  · obtain ⟨blocks, hcut⟩ := exists_cut_of_combine_ok hout
    exact ⟨blocks, hcut, hcut.forall₂_becomes.imp fun _ _ hbecomes => hbecomes.isSizedArray⟩

theorem unrefused_and_valued_by_kind_array :
    let tokens := [plain .add "[" ⟨0, 1⟩ ⟨1, 1⟩, number "07" .overflow ⟨1, 3⟩ ⟨1, 2⟩,
      arrayType "]" 5 ⟨3, 4⟩ ⟨1, 4⟩, plain .symbol "x" ⟨4, 5⟩ ⟨1, 5⟩]
    let out := [arrayType "[07]" 7 ⟨0, 4⟩ ⟨1, 1⟩, plain .symbol "x" ⟨4, 5⟩ ⟨1, 5⟩]
    (∃ scanned, scan .core "[07]x" = .ok scanned ∧
      ∀ t ∈ scanned, t.value.isSome ↔ t.kind = .number ∨ t.kind = .arrayType) ∧
    (∀ t ∈ tokens, t.Built) ∧ combine .extended tokens = .ok out ∧
      (∀ t ∈ out, t.value.isSome ↔ t.kind = .number ∨ t.kind = .arrayType) ∧
      ∃ blocks, Cut .extended [] tokens blocks out ∧
        List.Forall₂ (fun block token => block = .single token ∨
          (token.kind = .arrayType → token.IsSizedArray)) blocks out := by
  intro tokens out
  have hbuilt : ∀ t ∈ tokens, t.Built := by
    simp only [tokens, List.forall_mem_cons]
    exact ⟨.ofKind (ofKind_eq_ok_iff.mpr ⟨rfl, rfl⟩), .number .., .arrayType ..,
      .ofKind (ofKind_eq_ok_iff.mpr ⟨rfl, rfl⟩), by simp⟩
  have hcombine : combine .extended tokens = .ok out := rfl
  have hscanned := ((unrefused_and_valued_by_kind .core).1 "[07]x").2.2 _ (Or.inl rfl)
  obtain ⟨hvalued, hcut⟩ := ((unrefused_and_valued_by_kind .extended).2 tokens).2 out hcombine
  exact ⟨⟨_, rfl, hscanned⟩, hbuilt, hcombine, hvalued hbuilt, hcut⟩

end ShapeLang.Token
