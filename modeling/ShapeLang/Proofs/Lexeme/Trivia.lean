import ShapeLang.Proofs.Lexeme.Tiling

/-! What carries no token: blanks and whole comments. They are told apart from the rest of a text
twice, as a relation and as a function that deletes them, and neither asks how a lexeme is read. -/

namespace ShapeLang

open Text (isBlank)

/-- A whole comment before `rest`. A line comment is whole when its line ends there. -/
def IsComment (text rest : List Char) : Prop :=
  (Category.lineComment.Spells text ∧ ∀ c ∈ rest.head?, c = '\n') ∨
    Category.blockComment.Spells text

/-- Blanks and whole comments before `rest`. -/
inductive Gap : List Char → List Char → Prop where
  | nil {rest : List Char} : Gap [] rest
  | blank {c : Char} {gap rest : List Char} : isBlank c → Gap gap rest → Gap (c :: gap) rest
  | comment {comment gap rest : List Char} :
    IsComment comment (gap ++ rest) → Gap gap rest → Gap (comment ++ gap) rest

inductive Region where
  | code
  | lineComment
  | blockComment

/-- The text without its blanks and comments. -/
def withoutTrivia : Region → List Char → List Char
  | _, [] => []
  | .code, '/' :: '/' :: text => withoutTrivia .lineComment text
  | .code, '/' :: '*' :: text => withoutTrivia .blockComment text
  | .code, c :: text =>
    if isBlank c then withoutTrivia .code text else c :: withoutTrivia .code text
  | .lineComment, c :: text => withoutTrivia (if c = '\n' then .code else .lineComment) text
  | .blockComment, '*' :: '/' :: text => withoutTrivia .code text
  | .blockComment, _ :: text => withoutTrivia .blockComment text

theorem IsComment.of_append {text a b : List Char} (h : IsComment text (a ++ b)) :
    IsComment text a := by
  rcases h with ⟨hspells, hend⟩ | hspells
  · refine Or.inl ⟨hspells, fun c hc => hend c ?_⟩
    cases a with
    | nil => cases hc
    | cons d a => exact hc
  · exact Or.inr hspells

theorem Gap.of_append {gap a b : List Char} (h : Gap gap (a ++ b)) : Gap gap a := by
  generalize hrest : a ++ b = rest at h
  induction h with
  | nil => exact Gap.nil
  | blank hc _ ih => exact Gap.blank hc (ih hrest)
  | comment hcomment _ ih =>
    rw [← hrest, ← List.append_assoc] at hcomment
    exact Gap.comment hcomment.of_append (ih hrest)

theorem Gap.append {gap gap' rest : List Char} (h : Gap gap (gap' ++ rest))
    (h' : Gap gap' rest) : Gap (gap ++ gap') rest := by
  generalize hrest : gap' ++ rest = after at h
  induction h with
  | nil => exact h'
  | blank hc _ ih => exact Gap.blank hc (ih hrest)
  | comment hcomment _ ih =>
    rw [← hrest, ← List.append_assoc] at hcomment
    rw [List.append_assoc]
    exact Gap.comment hcomment (ih hrest)

theorem gap_of_blanks {blanks : List Char} (h : ∀ c ∈ blanks, isBlank c) (rest : List Char) :
    Gap blanks rest := by
  induction blanks with
  | nil => exact Gap.nil
  | cons c blanks ih =>
    exact Gap.blank (h c (List.mem_cons_self ..)) (ih fun d hd => h d (List.mem_cons_of_mem _ hd))

theorem isComment_of_fits {category : Category} {text rest : List Char}
    (h : Fits (some category) text rest) (htrivia : category.isTrivia) : IsComment text rest := by
  cases h with
  | @longest category _ _ hspells hlongest hnofault =>
    cases category with
    | lineComment =>
      refine Or.inl ⟨hspells, fun c hc => ?_⟩
      obtain ⟨rest, rfl⟩ := List.head?_eq_some_iff.mp hc
      obtain ⟨body, rfl, hbody⟩ := hspells
      by_cases hfeed : c = '\n'
      · exact hfeed
      -- Otherwise the comment goes on by one more character, and was not the longest.
      have hlonger : Category.lineComment.Spells ('/' :: '/' :: (body ++ [c])) := by
        refine ⟨body ++ [c], rfl, ?_⟩
        simp [hbody, Ne.symm hfeed]
      refine absurd hlonger (hlongest _ ⟨rest, by simp⟩ ?_ _)
      simp
    | blockComment => exact Or.inr hspells
    | identifier | integer | float | string | rawString | character | punctuation => cases htrivia

theorem split_append_eq {a b left right : List Char} {c : Char}
    (h : a ++ b = left ++ c :: right) :
    (∃ after, a = left ++ c :: after) ∨
      ∃ before, left = a ++ before ∧ b = before ++ c :: right := by
  rcases List.append_eq_append_iff.mp h with ⟨before, hleft, hb⟩ | ⟨after, ha, hright⟩
  · exact Or.inr ⟨before, hleft, hb⟩
  · cases after with
    | nil => exact Or.inr ⟨[], by simpa using ha.symm, hright.symm⟩
    | cons d after =>
      obtain ⟨rfl, -⟩ := List.cons.inj hright
      exact Or.inl ⟨after, ha⟩

theorem Gap.isBlank_or_comment {gap rest left right : List Char} {c : Char} (h : Gap gap rest)
    (hgap : gap = left ++ c :: right) :
    isBlank c ∨ ∃ before comment after, gap = before ++ (comment ++ after) ∧
      IsComment comment (after ++ rest) ∧ before.length ≤ left.length ∧
      left.length < before.length + comment.length := by
  induction h generalizing left with
  | nil => cases left <;> cases hgap
  | @blank d gap rest hd _ ih =>
    cases left with
    | nil =>
      obtain ⟨rfl, -⟩ := List.cons.inj hgap
      exact Or.inl hd
    | cons e left =>
      obtain ⟨rfl, htail⟩ := List.cons.inj hgap
      rcases ih htail with hc | ⟨before, comment, after, rfl, hcomment, hlow, hhigh⟩
      · exact Or.inl hc
      · refine Or.inr ⟨d :: before, comment, after, rfl, hcomment, ?_⟩
        simp only [List.length_cons]
        omega
  | @comment comment gap rest hcomment _ ih =>
    rcases split_append_eq hgap with ⟨after, rfl⟩ | ⟨left, rfl, htail⟩
    · exact Or.inr ⟨[], left ++ c :: after, gap, rfl, hcomment, Nat.zero_le _, by simp⟩
    · rcases ih htail with hc | ⟨before, other, after, rfl, hother, hlow, hhigh⟩
      · exact Or.inl hc
      · refine Or.inr ⟨comment ++ before, other, after, by simp, hother, ?_⟩
        simp only [List.length_append]
        omega

theorem withoutTrivia_cons {c : Char} (hslash : c ≠ '/') (text : List Char) :
    withoutTrivia .code (c :: text) =
      if isBlank c then withoutTrivia .code text else c :: withoutTrivia .code text := by
  rw [withoutTrivia]
  · exact fun _ hc => absurd hc hslash
  · exact fun _ hc => absurd hc hslash

theorem withoutTrivia_blank {c : Char} (hc : isBlank c) (text : List Char) :
    withoutTrivia .code (c :: text) = withoutTrivia .code text := by
  have hslash : c ≠ '/' := by
    rintro rfl
    exact absurd hc (by decide)
  rw [withoutTrivia_cons hslash, if_pos hc]

theorem withoutTrivia_lineComment {body rest : List Char} (hbody : '\n' ∉ body)
    (hrest : ∀ c ∈ rest.head?, c = '\n') :
    withoutTrivia .lineComment (body ++ rest) = withoutTrivia .code rest := by
  induction body with
  | nil =>
    cases rest with
    | nil => rfl
    | cons c rest =>
      obtain rfl := hrest c rfl
      rw [withoutTrivia_blank (by decide)]
      rfl
  | cons c body ih =>
    rw [List.mem_cons, not_or] at hbody
    rw [List.cons_append, withoutTrivia, if_neg (Ne.symm hbody.1), ih hbody.2]

theorem withoutTrivia_of_closeLength {text : List Char} {n : Nat}
    (h : Reading.closeLength? text = some n) :
    withoutTrivia .blockComment text = withoutTrivia .code (text.drop n) := by
  fun_induction Reading.closeLength? text generalizing n with
  | case1 => cases h
  | case2 text =>
    obtain rfl := Option.some.inj h
    rfl
  | case3 c text hopen ih =>
    obtain ⟨m, hm, rfl⟩ := Option.map_eq_some_iff.mp h
    rw [withoutTrivia, ih hm, List.drop_succ_cons]
    exact hopen

theorem IsComment.withoutTrivia_eq {comment rest : List Char} (h : IsComment comment rest) :
    withoutTrivia .code (comment ++ rest) = withoutTrivia .code rest := by
  rcases h with ⟨⟨body, rfl, hbody⟩, hrest⟩ | ⟨body, rfl, hbody⟩
  · exact withoutTrivia_lineComment hbody hrest
  · have hclose := Reading.closeLength?_append hbody rest
    rw [List.cons_append, List.cons_append, List.append_assoc]
    show withoutTrivia .blockComment (body ++ '*' :: '/' :: rest) = _
    rw [withoutTrivia_of_closeLength hclose, List.drop_length_add_append]
    rfl

theorem Gap.withoutTrivia_eq {gap rest : List Char} (h : Gap gap rest) :
    withoutTrivia .code (gap ++ rest) = withoutTrivia .code rest := by
  induction h with
  | nil => rfl
  | blank hc _ ih => rw [List.cons_append, withoutTrivia_blank hc, ih]
  | comment hcomment _ ih => rw [List.append_assoc, hcomment.withoutTrivia_eq, ih]

def IsPlain (text : List Char) : Prop :=
  ∀ c ∈ text, isBlank c = false ∧ c ≠ '/'

instance (text : List Char) : Decidable (IsPlain text) :=
  List.decidableBAll _ text

theorem IsPlain.withoutTrivia_eq {text : List Char} (h : IsPlain text) (rest : List Char) :
    withoutTrivia .code (text ++ rest) = text ++ withoutTrivia .code rest := by
  induction text with
  | nil => rfl
  | cons c text ih =>
    obtain ⟨⟨hblank, hslash⟩, htext⟩ := List.forall_mem_cons.mp h
    rw [List.cons_append, withoutTrivia_cons hslash, if_neg (by simp [hblank]), ih htext,
      List.cons_append]

theorem withoutTrivia_slash {rest : List Char} (hline : rest.head? ≠ some '/')
    (hblock : rest.head? ≠ some '*') :
    withoutTrivia .code ('/' :: rest) = '/' :: withoutTrivia .code rest := by
  rw [withoutTrivia, if_neg (by decide)]
  · rintro rest - rfl
    exact hline rfl
  · rintro rest - rfl
    exact hblock rfl

end ShapeLang
