import ShapeLang.Proofs.Token.Meaning

/-! Tokens as a scan finds them. The text of such a token is of one category, and it has its kind
and its value by what it means there. -/

namespace ShapeLang

open Text (isPunctuation)

section Meaning

variable {operators : OperatorSet} {category : Category} {text : List Char}

theorem kind_of_meaning {kind : Token.Kind} {value : Option IntegerValue} {start : Nat}
    (h : (⟨some category, text, start⟩ : Lexeme).meaning operators = .ok (some (kind, value))) :
    operators.kind? category = some kind := by
  unfold Lexeme.meaning at h
  dsimp only at h
  split at h
  · cases h
  split at h
  · cases h
  · rename_i radix hkind hradix
    split at h
    · obtain rfl : Token.Kind.number = kind := congrArg Prod.fst (Option.some.inj (Except.ok.inj h))
      cases category <;> simp_all [Category.radix?, OperatorSet.kind?]
    · cases h
  · rename_i hkind _
    obtain rfl := congrArg Prod.fst (Option.some.inj (Except.ok.inj h))
    exact hkind

end Meaning

namespace Token

/-- A token with the kind and the value that its text has in a category. -/
def Primitive (operators : OperatorSet) (token : Token) : Prop :=
  ∃ category : Category, category.Spells token.text.toList ∧
    (⟨some category, token.text.toList, 0⟩ : Lexeme).meaning operators =
      .ok (some (token.kind, token.value))

section Primitive

variable {operators : OperatorSet} {token : Token}

theorem Primitive.exists_category (h : token.Primitive operators) :
    ∃ category : Category, category.Spells token.text.toList ∧
      operators.kind? category = some token.kind := by
  obtain ⟨category, hspells, hmeaning⟩ := h
  exact ⟨category, hspells, kind_of_meaning hmeaning⟩

theorem Primitive.ne_nil (h : token.Primitive operators) : token.text.toList ≠ [] := by
  obtain ⟨category, hspells, -⟩ := h
  obtain ⟨first, body, htext⟩ := Reading.exists_cons_of_spells hspells
  simp [htext]

theorem Primitive.eq_mark_of_mem (h : token.Primitive operators) {c : Char}
    (hc : isPunctuation c) (hmem : c ∈ token.text.toList) :
    token.text.toList = [c] ∧ operators.mark? c = some token.kind := by
  obtain ⟨category, hspells, hkind⟩ := h.exists_category
  obtain ⟨rfl, htext⟩ := eq_punctuation_of_mem hspells hkind hc hmem
  exact ⟨htext, hkind⟩

theorem Primitive.not_mem_of_mark?_eq_none (h : token.Primitive operators) {c : Char}
    (hc : isPunctuation c) (hnone : operators.mark? c = none) : c ∉ token.text.toList := by
  intro hmem
  cases hnone.symm.trans (h.eq_mark_of_mem hc hmem).2

theorem primitive_of_scan {source : String} {tokens : List Token}
    (h : scan operators source = .ok tokens) : ∀ t ∈ tokens, t.Primitive operators := by
  intro token htoken
  obtain ⟨before, rest, rfl⟩ := List.append_of_mem htoken
  obtain ⟨a, l, b, hsplit, -, hl⟩ := exists_of_ofLexemes_ok h
  obtain ⟨span, content, hmeaning, hcontent⟩ := Lexeme.exists_meaning_of_toToken? hl
  obtain ⟨category, hcategory, -⟩ := Lexeme.exists_category_of_meaning hmeaning
  obtain ⟨rest, hfits⟩ := (Lexeme.tiling_split source.toList).fits l (by simp [hsplit])
  obtain ⟨⟨kind, value⟩, rfl, rfl⟩ := Option.map_eq_some_iff.mp hcontent.symm
  obtain ⟨_, text, start⟩ := l
  obtain rfl := hcategory
  refine ⟨category, ?_, ?_⟩
  · rw [String.toList_ofList]
    exact hfits.spells
  · rw [String.toList_ofList]
    exact hmeaning

end Primitive

end Token
end ShapeLang
