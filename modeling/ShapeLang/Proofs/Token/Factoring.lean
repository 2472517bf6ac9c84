import ShapeLang.Proofs.Token.Idempotence

/-! Joining with the extended set is joining with the core set first and with the extended set
after it. The pairs that the extended set adds are of relation marks, which nothing else is joined
from: the core set leaves both marks where they are, and they are still neighbours when their turn
comes. -/

namespace ShapeLang.Token

variable {tokens rest out tail : List Token} {blocks : List Block} {block : Block}
  {a b token : Token}

def relationMarks : List Char := ['=', '>', '<']

def IsRelation (text : String) : Prop :=
  ∃ mark ∈ relationMarks, text.toList.head? = some mark

theorem IsRelation.append {text : String} (h : IsRelation text) (other : String) :
    IsRelation (text ++ other) := by
  obtain ⟨mark, hmark, hhead⟩ := h
  exact ⟨mark, hmark, by rw [String.toList_append, List.head?_append, hhead, Option.some_or]⟩

theorem IsRelation.not_isTripleText {text : String} (h : IsRelation text) :
    ¬ IsTripleText text := by
  obtain ⟨mark, hmark, hhead⟩ := h
  intro htriple
  obtain ⟨middle, htext, -⟩ := htriple.exists_middle
  rw [htext, List.head?_cons] at hhead
  cases hhead
  exact absurd hmark (by decide)

theorem IsRelation.not_mem_pairTable {text : String} (h : IsRelation text) (kind : Kind) :
    (text, kind) ∉ pairTable .core := by
  have hheads : ∀ entry ∈ pairTable .core, ∀ mark ∈ relationMarks,
      entry.1.toList.head? ≠ some mark := by
    simp [pairTable, relationMarks]
  obtain ⟨mark, hmark, hhead⟩ := h
  exact fun hkind => hheads _ hkind mark hmark hhead

theorem isRelation_of_forall_mem {text : String} (hne : text ≠ "")
    (h : ∀ c ∈ text.toList, c ∈ relationMarks) : IsRelation text := by
  obtain ⟨mark, body, htext⟩ := List.exists_cons_of_ne_nil (mt String.toList_eq_nil_iff.mp hne)
  exact ⟨mark, h mark (by simp [htext]), by rw [htext, List.head?_cons]⟩

theorem mem_pairTable_core_or_isRelation {kind : Kind} (ha : a.text ≠ "") (hb : b.text ≠ "")
    (h : (a.text ++ b.text, kind) ∈ pairTable .extended) :
    (a.text ++ b.text, kind) ∈ pairTable .core ∨ IsRelation a.text ∧ IsRelation b.text := by
  have hadded : ∀ entry ∈ pairTable .extended, entry ∈ pairTable .core ∨
      ∀ c ∈ entry.1.toList, c ∈ relationMarks := by
    simp [pairTable, relationMarks]
  refine (hadded _ h).imp_right fun hmarks => ?_
  rw [String.toList_append] at hmarks
  obtain ⟨hleft, hright⟩ := List.forall_mem_append.mp hmarks
  exact ⟨isRelation_of_forall_mem ha hleft, isRelation_of_forall_mem hb hright⟩

theorem Block.Stands.single_core (h : (single a).Stands .extended rest) :
    (single a).Stands .core rest :=
  ⟨fun b hb kind hkind => h.1 b hb kind (mem_pairTable_extended hkind), h.2⟩

theorem IsRelation.stands_core (h : IsRelation a.text) : (Block.single a).Stands .core rest :=
  ⟨fun b _ kind => (h.append b.text).not_mem_pairTable kind,
    fun b c _ _ => ((h.append b.text).append c.text).not_isTripleText⟩

theorem Block.Stands.core_or_isRelation (hstands : block.Stands .extended rest)
    (hbecomes : block.Becomes .extended token) (hne : ∀ t ∈ block.tokens, t.text ≠ "") :
    (block.Stands .core rest ∧ block.Becomes .core token) ∨
      ∃ a b, block = .pair a b ∧ IsRelation a.text ∧ IsRelation b.text := by
  cases hbecomes with
  | single => exact Or.inl ⟨hstands.single_core, .single⟩
  | @pair a b kind hkind =>
    have ha := hne a (by simp [tokens])
    have hb := hne b (by simp [tokens])
    rcases mem_pairTable_core_or_isRelation ha hb hkind with hcore | hmarks
    · exact Or.inl ⟨⟨⟨kind, hcore⟩, hstands.2⟩, .pair hcore⟩
    · exact Or.inr ⟨a, b, rfl, hmarks⟩
  | map hmap => exact Or.inl ⟨hstands, .map hmap⟩
  | array hsize hpos hword => exact Or.inl ⟨hstands, .array hsize hpos hword⟩

theorem Cut.core_of_single (h : Cut .extended tail tokens blocks out)
    (hsingle : ∀ block ∈ blocks, ∃ a, block = .single a) : Cut .core tail tokens blocks out := by
  induction h with
  | done => exact Cut.done
  | block hstands hbecomes _ ih =>
    obtain ⟨⟨a, rfl⟩, hrest⟩ := List.forall_mem_cons.mp hsingle
    cases hbecomes with
    | single => exact Cut.block hstands.single_core .single (ih hrest)

theorem Cut.core_then_extended (h : Cut .extended tail tokens blocks out)
    (hne : ∀ t ∈ tokens, t.text ≠ "") :
    ∃ finer mid, Cut .core tail tokens finer mid ∧
      (tail = [] → ∃ coarser, Cut .extended [] mid coarser out) := by
  induction h with
  | done => exact ⟨[], [], .done, fun _ => ⟨[], .done⟩⟩
  | @block block rest blocks token out hstands hbecomes hcut ih =>
    obtain ⟨hblock, hrest⟩ := List.forall_mem_append.mp hne
    obtain ⟨finer, mid, hfiner, hcoarser⟩ := ih hrest
    rcases hstands.core_or_isRelation hbecomes hblock with
      ⟨hcore, hbecomes'⟩ | ⟨a, b, rfl, ha, hb⟩
    · have hcut' := hfiner.block hcore hbecomes'
      refine ⟨_, _, hcut', ?_⟩
      rintro rfl
      obtain ⟨coarser, hcoarser⟩ := hcoarser rfl
      obtain ⟨htoken, hmid⟩ := List.forall_mem_cons.mp (hcut'.ne_empty hne)
      have hsingle := hstands.single_of_cut hbecomes hfiner htoken hmid
      exact ⟨_, Cut.block hsingle .single hcoarser⟩
    -- The marks stay apart at first, and what they are joined to does not depend on what follows.
    · have hright : Cut .core tail (b :: rest) (.single b :: finer) (b :: mid) :=
        Cut.block hb.stands_core .single hfiner
      have hleft : Cut .core tail (a :: b :: rest) (.single a :: .single b :: finer)
          (a :: b :: mid) := Cut.block ha.stands_core .single hright
      refine ⟨_, _, hleft, ?_⟩
      rintro rfl
      obtain ⟨coarser, hcoarser⟩ := hcoarser rfl
      have hpair : (Block.pair a b).Stands .extended mid :=
        ⟨hstands.1, fun c _ => ((ha.append b.text).append c.text).not_isTripleText⟩
      exact ⟨_, Cut.block hpair hbecomes hcoarser⟩

/-- Joining with the extended set is joining with the core set and then with the extended set,
where all texts have something in them. After it the core set has nothing to join. -/
theorem combine_extended_factors (tokens : List Token) (hne : ∀ t ∈ tokens, t.text ≠ "") :
    combine .extended tokens = (combine .core tokens).bind (combine .extended) ∧
      ∀ out, combine .extended tokens = .ok out → combine .core out = .ok out := by
  constructor
  · rcases exists_cut .extended tokens with
      ⟨blocks, out, hcut⟩ | ⟨blocks, out, a, b, c, rest, n, hcut, hsize, hwrong⟩
    · obtain ⟨finer, mid, hfiner, hcoarser⟩ := hcut.core_then_extended hne
      obtain ⟨coarser, hcoarser⟩ := hcoarser rfl
      rw [hcut.combine_ok, hfiner.combine_ok, Except.bind, hcoarser.combine_ok]
    · obtain ⟨finer, mid, hfiner, -⟩ := hcut.core_then_extended hne
      rw [hcut.combine_error hsize hwrong, hfiner.combine_error hsize hwrong, Except.bind]
  · intro out hout
    obtain ⟨blocks, hcut⟩ := exists_cut_of_combine_ok hout
    exact ((hcut.of_out hne).core_of_single (by simp)).combine_ok

theorem combine_extended_factors_relations :
    ∃ tokens mid out, scan .extended ">=||[map]==" = .ok tokens ∧
      (∀ t ∈ tokens, t.text ≠ "") ∧ combine .core tokens = .ok mid ∧
      combine .extended mid = .ok out ∧ combine .extended tokens = .ok out ∧
      combine .core out = .ok out ∧ [tokens.length, mid.length, out.length] = [9, 6, 4] := by
  have hne := @ne_empty_of_scan .extended _ ">=||[map]==" rfl
  obtain ⟨hfactors, hcore⟩ := combine_extended_factors _ hne
  exact ⟨_, _, _, rfl, hne, rfl, rfl, hfactors, hcore _ rfl, rfl⟩

end ShapeLang.Token
