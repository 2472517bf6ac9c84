import ShapeLang.Proofs.Token.Idempotence
import ShapeLang.Proofs.Token.Operators

/-! What a token is, told from its text. A scanned text is of one category and means one thing
there, a joined text is in the tables of joined texts, and no text is both. The operator sets do
not disagree on a text; they differ in which texts they let through. -/

namespace ShapeLang.Token

open Text (isPunctuation)

def Kind.extendedOnly : List Kind :=
  [.equals, .greaterOrEqual, .lessOrEqual, .subtract, .divide, .mod, .exponent, .bitwiseAnd,
    .logicalAnd]

inductive Joined (operators : OperatorSet) : String → Kind → Option IntegerValue → Prop where
  | pair {text : String} {kind : Kind} : (text, kind) ∈ pairTable operators →
    Joined operators text kind none
  | map : Joined operators "[map]" .mapType none
  | array {text : String} {n : Nat} : IsSize text n →
    Joined operators text .arrayType (some (.word (.ofNat n)))

def Lexed (operators : OperatorSet) (token : Token) : Prop :=
  ∃ block : Block, (∀ t ∈ block.tokens, t.Primitive operators) ∧ block.Becomes operators token

variable {operators : OperatorSet} {token other : Token}

theorem Cut.lexed {tokens out : List Token} {blocks : List Block}
    (h : Cut operators [] tokens blocks out) (hprimitive : ∀ t ∈ tokens, t.Primitive operators) :
    ∀ t ∈ out, t.Lexed operators := by
  induction h with
  | done => simp
  | block hstands hbecomes hcut ih =>
    obtain ⟨hblock, hrest⟩ := List.forall_mem_append.mp hprimitive
    exact List.forall_mem_cons.mpr ⟨⟨_, hblock, hbecomes⟩, ih hrest⟩

theorem lexed_of_lex {source : String} {tokens : List Token}
    (h : lex operators source = .ok tokens) : ∀ t ∈ tokens, t.Lexed operators := by
  obtain ⟨scanned, hscan, hcombine⟩ := lex_eq_ok_iff.mp h
  obtain ⟨blocks, hcut⟩ := exists_cut_of_combine_ok hcombine
  exact hcut.lexed (primitive_of_scan hscan)

theorem Lexed.primitive_or_joined (h : token.Lexed operators) :
    token.Primitive operators ∨ Joined operators token.text token.kind token.value := by
  obtain ⟨block, hprimitive, hbecomes⟩ := h
  cases hbecomes with
  | single => exact Or.inl (hprimitive token (List.mem_singleton_self _))
  | pair hkind => exact Or.inr (Joined.pair hkind)
  | map hmap =>
    rw [hmap]
    exact Or.inr Joined.map
  | array hsize => exact Or.inr (Joined.array hsize)

theorem Joined.extended {text : String} {kind : Kind} {value : Option IntegerValue}
    (h : Joined operators text kind value) : Joined .extended text kind value := by
  cases h with
  | pair hkind => exact Joined.pair (mem_pairTable_extended hkind)
  | map => exact Joined.map
  | array hsize => exact Joined.array hsize

theorem Primitive.extended (h : token.Primitive operators) : token.Primitive .extended := by
  obtain ⟨category, hspells, hmeaning⟩ := h
  refine ⟨category, hspells, ?_⟩
  cases operators with
  | extended => exact hmeaning
  | core =>
    rcases Lexeme.meaning_extended ⟨some category, token.text.toList, 0⟩ with
      heq | ⟨_, _, _, -, hcore, -⟩
    · exact heq.trans hmeaning
    · cases hcore.symm.trans hmeaning

theorem Joined.isJoinedText {text : String} {kind : Kind} {value : Option IntegerValue}
    (h : Joined operators text kind value) : IsJoinedText operators text := by
  cases h with
  | pair hkind => exact Or.inl ⟨kind, hkind⟩
  | map => exact Or.inr (Or.inl rfl)
  | array hsize => exact Or.inr (Or.inr ⟨_, hsize⟩)

theorem Primitive.not_isInert (h : token.Primitive operators) : ¬ IsInert token.text := by
  rintro ⟨first, body, htext, hfirst, hbody, -⟩
  have hmarks : openers.all isPunctuation := by decide
  have hmark := List.all_eq_true.mp hmarks first hfirst
  have halone := (h.eq_mark_of_mem hmark (by simp [htext])).1
  rw [htext] at halone
  exact hbody (List.cons.inj halone).2

theorem IsTripleText.two_lt_length {text : String} (h : IsTripleText text) :
    2 < text.toList.length := by
  rcases h with rfl | ⟨n, digits, htext, hne, -⟩
  · decide
  · have hpos : 0 < digits.length := List.length_pos_iff.mpr hne
    rw [htext, List.length_cons, List.length_append, List.length_singleton]
    omega

theorem not_isTripleText_of_mem_pairTable {text : String} {kind : Kind}
    (h : (text, kind) ∈ pairTable operators) : ¬ IsTripleText text := by
  intro htriple
  have hlength : text.toList.length = 2 := length_of_mem_pairTable h
  have hlong := htriple.two_lt_length
  omega

theorem Joined.unique {text : String} {kind kind' : Kind} {value value' : Option IntegerValue}
    (h : Joined operators text kind value) (h' : Joined operators text kind' value') :
    kind = kind' ∧ value = value' := by
  cases h with
  | pair hkind =>
    have hnot := not_isTripleText_of_mem_pairTable hkind
    cases h' with
    | pair hkind' =>
      rw [mem_pairTable_iff] at hkind hkind'
      exact ⟨Option.some.inj (hkind.symm.trans hkind'), rfl⟩
    | map => exact absurd (Or.inl rfl) hnot
    | array hsize => exact absurd (Or.inr ⟨_, hsize⟩) hnot
  | map =>
    cases h' with
    | pair hkind' => exact absurd (Or.inl rfl) (not_isTripleText_of_mem_pairTable hkind')
    | map => exact ⟨rfl, rfl⟩
    | array hsize => exact absurd hsize (not_isSize_map _)
  | array hsize =>
    cases h' with
    | pair hkind' => exact absurd (Or.inr ⟨_, hsize⟩) (not_isTripleText_of_mem_pairTable hkind')
    | map => exact absurd hsize (not_isSize_map _)
    | array hsize' =>
      rw [hsize.unique hsize']
      exact ⟨rfl, rfl⟩

theorem Primitive.unique (h : token.Primitive operators) (hother : other.Primitive operators)
    (htext : token.text = other.text) : token.kind = other.kind ∧ token.value = other.value := by
  obtain ⟨category, hspells, hmeaning⟩ := h
  obtain ⟨category', hspells', hmeaning'⟩ := hother
  rw [← htext] at hspells' hmeaning'
  obtain rfl := Reading.eq_of_spells hspells hspells'
  have hcontent := Option.some.inj (Except.ok.inj (hmeaning.symm.trans hmeaning'))
  exact ⟨congrArg Prod.fst hcontent, congrArg Prod.snd hcontent⟩

theorem Lexed.unique {set : OperatorSet} (h : token.Lexed operators) (hother : other.Lexed set)
    (htext : token.text = other.text) : token.kind = other.kind ∧ token.value = other.value := by
  rcases h.primitive_or_joined with hscanned | hjoined
  · rcases hother.primitive_or_joined with hscanned' | hjoined'
    · exact hscanned.extended.unique hscanned'.extended htext
    · exact absurd (htext ▸ hjoined'.isJoinedText.isInert) hscanned.not_isInert
  · rcases hother.primitive_or_joined with hscanned' | hjoined'
    · exact absurd (htext ▸ hjoined.isJoinedText.isInert) hscanned'.not_isInert
    · rw [← htext] at hjoined'
      exact hjoined.extended.unique hjoined'.extended

def markTable : OperatorSet → List (Char × Kind)
  | .core =>
    [('(', .leftParen), (')', .rightParen), ('*', .multiply), ('+', .add), ('<', .lessThan),
      ('>', .greaterThan), ('[', .leftBracket), (']', .rightBracket), ('|', .bitwiseOr)]
  | .extended =>
    [('(', .leftParen), (')', .rightParen), ('*', .multiply), ('+', .add), ('<', .lessThan),
      ('>', .greaterThan), ('[', .leftBracket), (']', .rightBracket), ('|', .bitwiseOr),
      ('-', .subtract), ('/', .divide), ('%', .mod), ('^', .exponent), ('&', .bitwiseAnd),
      ('=', .equals)]

theorem mem_markTable {mark : Char} {kind : Kind} (h : operators.mark? mark = some kind) :
    (mark, kind) ∈ markTable operators := by
  have hcore : ∀ kind, OperatorSet.coreMark? mark = some kind →
      (mark, kind) ∈ markTable .core := by
    intro kind hkind
    unfold OperatorSet.coreMark? at hkind
    repeat' split at hkind
    all_goals cases hkind
    all_goals subst_vars; decide
  have hgrows : ∀ entry ∈ markTable .core, entry ∈ markTable .extended := by decide
  cases operators with
  | core => exact hcore kind h
  | extended =>
    rcases Option.or_eq_some_iff.mp h with hkind | ⟨-, hkind⟩
    · exact hgrows _ (hcore kind hkind)
    · unfold OperatorSet.extendedMark? at hkind
      repeat' split at hkind
      all_goals cases hkind
      all_goals subst_vars; decide

theorem Primitive.symbol_or_number_or_mark (h : token.Primitive operators) :
    token.kind = .symbol ∨ token.kind = .number ∨
      ∃ mark, token.text = String.ofList [mark] ∧ (mark, token.kind) ∈ markTable operators := by
  obtain ⟨category, hspells, hkind⟩ := h.exists_category
  cases category with
  | lineComment | blockComment | float | string | rawString | character => cases hkind
  | identifier => exact Or.inl (Option.some.inj hkind).symm
  | integer => exact Or.inr (Or.inl (Option.some.inj hkind).symm)
  | punctuation mark =>
    obtain ⟨htext, -⟩ := hspells
    have hlist : token.text = String.ofList [mark] := by rw [← htext, String.ofList_toList]
    exact Or.inr (Or.inr ⟨mark, hlist, mem_markTable hkind⟩)

theorem Joined.mem_pairTable_or {text : String} {kind : Kind} {value : Option IntegerValue}
    (h : Joined operators text kind value) :
    (text, kind) ∈ pairTable operators ∨ kind = .mapType ∨ kind = .arrayType := by
  cases h with
  | pair hkind => exact Or.inl hkind
  | map => exact Or.inr (Or.inl rfl)
  | array => exact Or.inr (Or.inr rfl)

theorem Lexed.ne_notEquals (h : token.Lexed operators) : token.kind ≠ .notEquals := by
  have hmarks : ∀ entry ∈ markTable operators, entry.2 ≠ .notEquals := by
    cases operators <;> decide
  have hpairs : ∀ entry ∈ pairTable operators, entry.2 ≠ .notEquals := by
    cases operators <;> decide
  rcases h.primitive_or_joined with hscanned | hjoined
  · rcases hscanned.symbol_or_number_or_mark with hkind | hkind | ⟨mark, -, hmark⟩
    · simp [hkind]
    · simp [hkind]
    · exact hmarks _ hmark
  · rcases hjoined.mem_pairTable_or with hkind | hkind | hkind
    · exact hpairs _ hkind
    · simp [hkind]
    · simp [hkind]

theorem Lexed.not_mem_extendedOnly (h : token.Lexed .core) : token.kind ∉ Kind.extendedOnly := by
  have hmarks : ∀ entry ∈ markTable .core, entry.2 ∉ Kind.extendedOnly := by decide
  -- The table has the logical and, but no scanned token has the mark that this is joined from.
  have hpairs : ∀ entry ∈ pairTable .core,
      entry.2 ∉ Kind.extendedOnly ∨ '&' ∈ entry.1.toList := by decide
  have hprimitive : ∀ t : Token, t.Primitive .core → '&' ∉ t.text.toList :=
    fun t ht => ht.not_mem_of_mark?_eq_none (by decide) rfl
  obtain ⟨block, hblock, hbecomes⟩ := h
  cases hbecomes with
  | single =>
    have hscanned := hblock token (List.mem_singleton_self _)
    rcases hscanned.symbol_or_number_or_mark with hkind | hkind | ⟨mark, -, hmark⟩
    · rw [hkind]
      decide
    · rw [hkind]
      decide
    · exact hmarks _ hmark
  | @pair a b kind hkind =>
    refine (hpairs _ hkind).resolve_right fun hmem => ?_
    rw [String.toList_append] at hmem
    rcases List.mem_append.mp hmem with hleft | hright
    · exact hprimitive a (hblock a (by simp [Block.tokens])) hleft
    · exact hprimitive b (hblock b (by simp [Block.tokens])) hright
  | map =>
    show Kind.mapType ∉ Kind.extendedOnly
    decide
  | array =>
    show Kind.arrayType ∉ Kind.extendedOnly
    decide

/-- Whatever is lexed with whatever operators, tokens of one text have one kind and one value. Some
kinds are never met, and more of them with the core operators. -/
theorem kind_and_value_of_text (operators set : OperatorSet) (source other : String)
    (tokens others : List Token) (h : lex operators source = .ok tokens)
    (hother : lex set other = .ok others) :
    (∀ t ∈ tokens, ∀ u ∈ others, t.text = u.text → t.kind = u.kind ∧ t.value = u.value) ∧
    ∀ t ∈ tokens, t.kind ≠ .notEquals ∧
      (operators = .core → t.kind ∉ Kind.extendedOnly) := by
  refine ⟨fun t ht u hu htext => ?_, fun t ht => ⟨(lexed_of_lex h t ht).ne_notEquals, ?_⟩⟩
  · exact (lexed_of_lex h t ht).unique (lexed_of_lex hother u hu) htext
  · rintro rfl
    exact (lexed_of_lex h t ht).not_mem_extendedOnly

theorem kind_and_value_of_text_array :
    ∃ tokens others, lex .core "x [ 007 ]" = .ok tokens ∧ lex .extended "[007]==" = .ok others ∧
      (∀ t ∈ tokens, ∀ u ∈ others, t.text = u.text → t.kind = u.kind ∧ t.value = u.value) ∧
      tokens.map Token.text = ["x", "[007]"] ∧ others.map Token.text = ["[007]", "=="] ∧
      ∀ t ∈ tokens, t.kind ∉ Kind.extendedOnly := by
  obtain ⟨hunique, hkinds⟩ :=
    kind_and_value_of_text .core .extended "x [ 007 ]" "[007]==" _ _ rfl rfl
  exact ⟨_, _, rfl, rfl, hunique, rfl, rfl, fun t ht => (hkinds t ht).2 rfl⟩

theorem Primitive.text_eq_lexeme (h : token.Primitive operators) {lexeme : String}
    (hlexeme : token.kind.lexeme? = some lexeme) :
    token.text = lexeme ∨ operators = .extended ∧ token.kind = .equals ∧ token.text = "=" := by
  have hmarks : ∀ entry ∈ markTable operators,
      entry.2.lexeme? = some (String.ofList [entry.1]) ∨
        operators = .extended ∧ entry = ('=', .equals) := by
    cases operators <;> decide
  rcases h.symbol_or_number_or_mark with hkind | hkind | ⟨mark, htext, hmark⟩
  · rw [hkind] at hlexeme
    cases hlexeme
  · rw [hkind] at hlexeme
    cases hlexeme
  · rcases hmarks _ hmark with hsome | ⟨hset, hentry⟩
    · exact Or.inl (htext.trans (Option.some.inj (hsome.symm.trans hlexeme)))
    · obtain ⟨rfl, hkind⟩ := Prod.mk.inj hentry
      exact Or.inr ⟨hset, hkind, htext⟩

theorem Joined.text_eq_lexeme {text lexeme : String} {kind : Kind} {value : Option IntegerValue}
    (h : Joined operators text kind value) (hlexeme : kind.lexeme? = some lexeme) :
    text = lexeme := by
  have hpairs : ∀ entry ∈ pairTable operators, entry.2.lexeme? = some entry.1 := by
    cases operators <;> decide
  cases h with
  | pair hkind => exact Option.some.inj ((hpairs _ hkind).symm.trans hlexeme)
  | map => exact Option.some.inj hlexeme
  | array => cases hlexeme

/-- A token of a kind with a documented text has that text. The extended set makes one exception:
a single equals sign is of the kind that is documented by two. -/
theorem text_eq_lexeme_or_equals (operators : OperatorSet) (source : String) (tokens : List Token)
    (h : lex operators source = .ok tokens) :
    ∀ t ∈ tokens, ∀ lexeme, t.kind.lexeme? = some lexeme →
      t.text = lexeme ∨ operators = .extended ∧ t.kind = .equals ∧ t.text = "=" := by
  intro t ht lexeme hlexeme
  rcases (lexed_of_lex h t ht).primitive_or_joined with hscanned | hjoined
  · exact hscanned.text_eq_lexeme hlexeme
  · exact Or.inl (hjoined.text_eq_lexeme hlexeme)

theorem text_eq_lexeme_or_equals_relation :
    ∃ tokens, lex .extended "[map]>==" = .ok tokens ∧
      tokens.map (fun t => t.kind.lexeme?) = [some "[map]", some ">=", some "=="] ∧
      ∀ t ∈ tokens, ∀ lexeme, t.kind.lexeme? = some lexeme →
        t.text = lexeme ∨ OperatorSet.extended = .extended ∧ t.kind = .equals ∧ t.text = "=" := by
  have htext := text_eq_lexeme_or_equals .extended "[map]>==" _ rfl
  exact ⟨_, rfl, rfl, htext⟩

theorem single_equals_has_other_lexeme :
    ∃ token, lex .extended "=" = .ok [token] ∧ token.kind.lexeme? = some "==" ∧
      token.text ≠ "==" :=
  ⟨⟨"=", ⟨0, 1⟩, ⟨1, 1⟩, .equals, none⟩, rfl, rfl, by decide⟩

end ShapeLang.Token
