import ShapeLang.Proofs.Token.Cut

/-! Joining as replacing the blocks of a cut. Every list of tokens has a cut that goes to its end
or up to a size that no array has, and what joining yields is read off that cut. -/

namespace ShapeLang.Token

variable {operators : OperatorSet} {tail tokens out : List Token} {blocks : List Block}

def spelling (tokens : List Token) : List Char :=
  tokens.flatMap fun token => token.text.toList

theorem spelling_cons (token : Token) (tokens : List Token) :
    spelling (token :: tokens) = token.text.toList ++ spelling tokens :=
  List.flatMap_cons

theorem spelling_append (tokens rest : List Token) :
    spelling (tokens ++ rest) = spelling tokens ++ spelling rest :=
  List.flatMap_append

theorem Block.Becomes.spelling_eq {block : Block} {token : Token}
    (h : block.Becomes operators token) : token.text.toList = spelling block.tokens := by
  cases h <;> simp [Block.tokens, spelling]

theorem Cut.combine_eq (h : Cut operators tail tokens blocks out) :
    combine operators tokens = (combine operators tail).map (out ++ ·) := by
  induction h with
  | done => cases combine operators tail <;> rfl
  | @block block rest blocks token out hstands hbecomes hcut ih =>
    obtain ⟨other, hother, hcombine⟩ := hstands.combine_eq
    rw [hcombine, ih, hbecomes.unique hother]
    cases combine operators tail <;> rfl

theorem Cut.tokens_eq (h : Cut operators tail tokens blocks out) :
    tokens = blocks.flatMap Block.tokens ++ tail := by
  induction h with
  | done => rfl
  | block hstands hbecomes hcut ih =>
    rw [List.flatMap_cons, List.append_assoc, ← ih]

theorem Cut.spelling_eq (h : Cut operators tail tokens blocks out) :
    spelling out ++ spelling tail = spelling tokens := by
  induction h with
  | done => rfl
  | block hstands hbecomes hcut ih =>
    rw [spelling_cons, hbecomes.spelling_eq, List.append_assoc, ih, spelling_append]

theorem Block.tokens_ne_nil (block : Block) : block.tokens ≠ [] := by
  cases block <;> exact List.cons_ne_nil _ _

theorem Block.tokens_append_ne_nil (block : Block) (rest : List Token) :
    block.tokens ++ rest ≠ [] :=
  List.append_ne_nil_of_left_ne_nil block.tokens_ne_nil rest

theorem Cut.eq_nil (h : Cut operators [] tokens blocks out) (hnil : tokens = []) :
    blocks = [] ∧ out = [] := by
  cases h with
  | done => exact ⟨rfl, rfl⟩
  | block => exact absurd hnil (Block.tokens_append_ne_nil _ _)

theorem Cut.unique {other : List Block} {out' : List Token}
    (h : Cut operators [] tokens blocks out) (hother : Cut operators [] tokens other out') :
    blocks = other ∧ out = out' := by
  induction h generalizing other out' with
  | done =>
    obtain ⟨rfl, rfl⟩ := hother.eq_nil rfl
    exact ⟨rfl, rfl⟩
  | @block block rest blocks token out hstands hbecomes hcut ih =>
    generalize htokens : block.tokens ++ rest = tokens at hother
    cases hother with
    | done => exact absurd htokens (Block.tokens_append_ne_nil _ _)
    | block hstands' hbecomes' hcut' =>
      obtain ⟨rfl, rfl⟩ := hstands.unique hstands' htokens
      obtain ⟨rfl, rfl⟩ := ih hcut'
      obtain rfl := hbecomes.unique hbecomes'
      exact ⟨rfl, rfl⟩

theorem exists_cut (operators : OperatorSet) (tokens : List Token) :
    (∃ blocks out, Cut operators [] tokens blocks out) ∨
    ∃ blocks out a b c rest n, Cut operators (a :: b :: c :: rest) tokens blocks out ∧
      IsSize (a.text ++ b.text ++ c.text) n ∧ ¬ (1 ≤ n ∧ n < UInt64.size) := by
  -- By recursion on what is left after the first block.
  by_cases hnil : tokens = []
  · subst hnil
    exact Or.inl ⟨[], [], Cut.done⟩
  rcases exists_stands_or_wrong_size operators hnil with
    ⟨block, rest, rfl, hstands⟩ | ⟨a, b, c, rest, n, rfl, hsize, hwrong⟩
  · obtain ⟨token, hbecomes, -⟩ := hstands.combine_eq
    have hlength : rest.length < (block.tokens ++ rest).length := by
      rw [List.length_append]
      exact Nat.lt_add_of_pos_left (List.length_pos_iff.mpr block.tokens_ne_nil)
    rcases exists_cut operators rest with
      ⟨blocks, out, hcut⟩ | ⟨blocks, out, a, b, c, after, n, hcut, hsize⟩
    · exact Or.inl ⟨_, _, hcut.block hstands hbecomes⟩
    · exact Or.inr ⟨_, _, a, b, c, after, n, hcut.block hstands hbecomes, hsize⟩
  · exact Or.inr ⟨[], [], a, b, c, rest, n, Cut.done, hsize, hwrong⟩
termination_by tokens.length

theorem Cut.combine_ok (h : Cut operators [] tokens blocks out) :
    combine operators tokens = .ok out := by
  rw [h.combine_eq, combine_nil, Except.map, List.append_nil]

theorem Cut.combine_error {a b c : Token} {rest : List Token} {n : Nat}
    (h : Cut operators (a :: b :: c :: rest) tokens blocks out)
    (hsize : IsSize (a.text ++ b.text ++ c.text) n) (hwrong : ¬ (1 ≤ n ∧ n < UInt64.size)) :
    combine operators tokens =
      .error ⟨.invalidArraySize (a.text ++ b.text ++ c.text), a.span.hull c.span,
        a.position⟩ := by
  have htriple := triple?_of_isSize hsize
  rw [if_neg hwrong] at htriple
  rw [h.combine_eq, combine_triple_error htriple, Except.map]

theorem exists_cut_of_combine_ok (h : combine operators tokens = .ok out) :
    ∃ blocks, Cut operators [] tokens blocks out := by
  rcases exists_cut operators tokens with
    ⟨blocks, other, hcut⟩ | ⟨blocks, other, a, b, c, rest, n, hcut, hsize, hwrong⟩
  · obtain rfl := Except.ok.inj (hcut.combine_ok.symm.trans h)
    exact ⟨blocks, hcut⟩
  · cases (hcut.combine_error hsize hwrong).symm.trans h

theorem exists_cut_of_combine_error {error : LexError}
    (h : combine operators tokens = .error error) :
    ∃ blocks out a b c rest n, Cut operators (a :: b :: c :: rest) tokens blocks out ∧
      IsSize (a.text ++ b.text ++ c.text) n ∧ ¬ (1 ≤ n ∧ n < UInt64.size) ∧
      error = ⟨.invalidArraySize (a.text ++ b.text ++ c.text), a.span.hull c.span,
        a.position⟩ := by
  rcases exists_cut operators tokens with
    ⟨blocks, out, hcut⟩ | ⟨blocks, out, a, b, c, rest, n, hcut, hsize, hwrong⟩
  · cases hcut.combine_ok.symm.trans h
  · have herror := (hcut.combine_error hsize hwrong).symm.trans h
    exact ⟨blocks, out, a, b, c, rest, n, hcut, hsize, hwrong, (Except.error.inj herror).symm⟩

/-- Joining succeeds with `out` exactly when the tokens have a cut whose blocks become `out`, and
such a cut is the only one. It fails exactly where a cut runs into a size that no array has. No
text gets lost. -/
theorem combine_iff_cut (operators : OperatorSet) (tokens : List Token) :
    (∀ out, combine operators tokens = .ok out ↔
      ∃ blocks, Cut operators [] tokens blocks out) ∧
    (∀ blocks other out out', Cut operators [] tokens blocks out →
      Cut operators [] tokens other out' → blocks = other) ∧
    (∀ error, combine operators tokens = .error error ↔
      ∃ blocks out a b c rest n, Cut operators (a :: b :: c :: rest) tokens blocks out ∧
        IsSize (a.text ++ b.text ++ c.text) n ∧ ¬ (1 ≤ n ∧ n < UInt64.size) ∧
        error = ⟨.invalidArraySize (a.text ++ b.text ++ c.text), a.span.hull c.span,
          a.position⟩) ∧
    ∀ out, combine operators tokens = .ok out → spelling out = spelling tokens := by
  refine ⟨fun out => ⟨exists_cut_of_combine_ok, fun ⟨_, hcut⟩ => hcut.combine_ok⟩,
    fun blocks other out out' hcut hother => (hcut.unique hother).1, fun error => ⟨?_, ?_⟩, ?_⟩
  · intro herror
    rcases exists_cut operators tokens with
      ⟨blocks, out, hcut⟩ | ⟨blocks, out, a, b, c, rest, n, hcut, hsize, hwrong⟩
    · cases hcut.combine_ok.symm.trans herror
    · have heq := (hcut.combine_error hsize hwrong).symm.trans herror
      exact ⟨blocks, out, a, b, c, rest, n, hcut, hsize, hwrong, (Except.error.inj heq).symm⟩
  · rintro ⟨blocks, out, a, b, c, rest, n, hcut, hsize, hwrong, rfl⟩
    exact hcut.combine_error hsize hwrong
  · intro out hout
    obtain ⟨blocks, hcut⟩ := exists_cut_of_combine_ok hout
    simpa [spelling] using hcut.spelling_eq

theorem combine_iff_cut_array :
    ∃ tokens out blocks, combine .core tokens = .ok out ∧ Cut .core [] tokens blocks out ∧
      (∀ other out', Cut .core [] tokens other out' → blocks = other) ∧ out.length = 1 ∧
      spelling out = "[7]".toList := by
  obtain ⟨hok, hunique, -, hspelling⟩ := combine_iff_cut .core
    [⟨"[", .origin, ⟨1, 1⟩, .leftBracket, none⟩, ⟨"7", .origin, ⟨1, 2⟩, .number, some (.word 7)⟩,
      ⟨"]", .origin, ⟨1, 3⟩, .rightBracket, none⟩]
  obtain ⟨blocks, hcut⟩ := (hok _).mp rfl
  exact ⟨_, _, blocks, rfl, hcut, fun other out' => hunique blocks other _ out' hcut, rfl,
    hspelling _ rfl⟩

end ShapeLang.Token
