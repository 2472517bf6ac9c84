import ShapeLang.Proofs.Token.Lossless

/-! Joining leaves joined tokens as they are. A joined text has a mark in it that no window with
something around it can have, and the other tokens have been let through before. This needs texts
that are not empty, as those of a scan are. -/

namespace ShapeLang.Token

variable {operators : OperatorSet} {tokens rest out : List Token} {blocks : List Block}

def openers : List Char := ['[', '|', '&', '=', '>', '<']

/-- A text that is no part of a window of three, unless it is all of it. -/
def IsInert (text : String) : Prop :=
  ∃ first body, text.toList = first :: body ∧ first ∈ openers ∧ body ≠ [] ∧
    (first = '[' → ']' ∈ body)

theorem IsTripleText.exists_middle {text : String} (h : IsTripleText text) :
    ∃ middle, text.toList = '[' :: (middle ++ [']']) ∧
      ∀ c ∈ middle, c ≠ ']' ∧ c ∉ openers := by
  rcases h with rfl | ⟨n, digits, htext, -, hdigits, -⟩
  · exact ⟨['m', 'a', 'p'], rfl, by simp [openers]⟩
  · have hmarks : (']' :: openers).all fun mark => !Radix.decimal.isDigit mark := by decide
    refine ⟨digits, htext, fun c hc => ?_⟩
    simpa using not_mem_of_all hmarks (hdigits c hc)

theorem IsTripleText.isInert {text : String} (h : IsTripleText text) : IsInert text := by
  obtain ⟨middle, htext, -⟩ := h.exists_middle
  exact ⟨'[', middle ++ [']'], htext, by decide, by simp, by simp⟩

theorem isInert_of_mem_pairTable {entry : String × Kind} (h : entry ∈ pairTable operators) :
    IsInert entry.1 := by
  have hextended : ∀ entry ∈ pairTable .extended, IsInert entry.1 := by
    simp only [pairTable, List.forall_mem_cons]
    refine ⟨?_, ?_, ?_, ?_, ?_, ?_, by simp⟩
    all_goals exact ⟨_, _, rfl, by decide, by decide, by decide⟩
  exact hextended entry (mem_pairTable_extended h)

theorem IsJoinedText.isInert {text : String} (h : IsJoinedText operators text) : IsInert text := by
  rcases h with ⟨kind, hkind⟩ | htriple
  · exact isInert_of_mem_pairTable hkind
  · exact htriple.isInert

theorem length_of_mem_pairTable {entry : String × Kind} (h : entry ∈ pairTable operators) :
    entry.1.toList.length = 2 := by
  revert entry
  cases operators <;> decide

theorem IsInert.ne_empty {text : String} (h : IsInert text) : text ≠ "" := by
  obtain ⟨first, body, htext, -⟩ := h
  rintro rfl
  cases htext

theorem IsInert.one_lt_length {text : String} (h : IsInert text) : 1 < text.toList.length := by
  obtain ⟨first, body, htext, -, hbody, -⟩ := h
  have hpos := List.length_pos_iff.mpr hbody
  rw [htext, List.length_cons]
  omega

theorem length_pos_of_ne_empty {text : String} (h : text ≠ "") : 0 < text.toList.length :=
  List.length_pos_iff.mpr fun hnil => h (String.toList_eq_nil_iff.mp hnil)

theorem not_mem_pairTable_of_isInert {a b : String} (ha : a ≠ "") (hb : b ≠ "")
    (h : IsInert a ∨ IsInert b) (kind : Kind) : (a ++ b, kind) ∉ pairTable operators := by
  intro hmem
  have hlength := length_of_mem_pairTable hmem
  have hapos := length_pos_of_ne_empty ha
  have hbpos := length_pos_of_ne_empty hb
  rw [String.toList_append, List.length_append] at hlength
  rcases h with h | h
  · have hlong := h.one_lt_length
    omega
  · have hlong := h.one_lt_length
    omega

theorem mem_of_append_eq_concat {p q middle : List Char} {last : Char} (hq : q ≠ [])
    (h : p ++ q = middle ++ [last]) : ∀ c ∈ p, c ∈ middle := by
  have hmiddle := congrArg List.dropLast h
  rw [List.dropLast_append_of_ne_nil hq, List.dropLast_concat] at hmiddle
  intro c hc
  rw [← hmiddle]
  exact List.mem_append_left _ hc

theorem not_isTripleText_of_isInert {a b c : String} (ha : a ≠ "") (hc : c ≠ "")
    (h : IsInert a ∨ IsInert b ∨ IsInert c) : ¬ IsTripleText (a ++ b ++ c) := by
  intro htriple
  obtain ⟨middle, htext, hmiddle⟩ := htriple.exists_middle
  obtain ⟨bracket, body, habody⟩ :=
    List.exists_cons_of_ne_nil (mt String.toList_eq_nil_iff.mp ha)
  have hcne : c.toList ≠ [] := mt String.toList_eq_nil_iff.mp hc
  rw [String.toList_append, String.toList_append, habody, List.cons_append,
    List.cons_append] at htext
  obtain ⟨rfl, htail⟩ := List.cons.inj htext
  rcases h with ⟨first, inner, hinert, -, -, hclose⟩ | ⟨first, inner, hinert, hmark, -⟩ |
    ⟨first, inner, hinert, hmark, hinner, -⟩
  -- The bracket that closes the joined text is not the last one.
  · obtain ⟨rfl, rfl⟩ := List.cons.inj (habody.symm.trans hinert)
    rw [List.append_assoc] at htail
    have hmem := mem_of_append_eq_concat (by simp [hcne]) htail _ (hclose rfl)
    exact (hmiddle _ hmem).1 rfl
  -- The mark that opens the joined text stands in the middle.
  · have hmem := mem_of_append_eq_concat hcne htail first (by simp [hinert])
    exact (hmiddle _ hmem).2 hmark
  · rw [hinert, ← List.singleton_append, ← List.append_assoc] at htail
    have hmem := mem_of_append_eq_concat hinner htail first (by simp)
    exact (hmiddle _ hmem).2 hmark

theorem Cut.head {token : Token} (h : Cut operators [] tokens blocks (token :: out)) :
    IsInert token.text ∨ ∃ rest blocks', tokens = token :: rest ∧
      Cut operators [] rest blocks' out := by
  cases h with
  | block hstands hbecomes hcut =>
    rcases hbecomes.eq_single_or_joined with rfl | hjoined
    · exact Or.inr ⟨_, _, rfl, hcut⟩
    · exact Or.inl hjoined.isInert

theorem Cut.ne_empty (h : Cut operators [] tokens blocks out) (hne : ∀ t ∈ tokens, t.text ≠ "") :
    ∀ t ∈ out, t.text ≠ "" := by
  induction h with
  | done => simp
  | block hstands hbecomes hcut ih =>
    obtain ⟨hblock, hrest⟩ := List.forall_mem_append.mp hne
    refine List.forall_mem_cons.mpr ⟨?_, ih hrest⟩
    rcases hbecomes.eq_single_or_joined with rfl | hjoined
    · exact hblock _ (List.mem_singleton_self _)
    · exact hjoined.isInert.ne_empty

theorem Block.Stands.single_of_cut {set : OperatorSet} {block : Block} {token : Token}
    (hstands : block.Stands operators rest) (hbecomes : block.Becomes operators token)
    (hcut : Cut set [] rest blocks out) (htoken : token.text ≠ "")
    (hout : ∀ t ∈ out, t.text ≠ "") : (single token).Stands operators out := by
  constructor
  · intro b hb kind
    obtain ⟨after, rfl⟩ := List.head?_eq_some_iff.mp hb
    have hbne := hout b (List.mem_cons_self ..)
    rcases hbecomes.eq_single_or_joined with rfl | hjoined
    · rcases hcut.head with hinert | ⟨rest, blocks, rfl, -⟩
      · exact not_mem_pairTable_of_isInert htoken hbne (Or.inr hinert) kind
      -- Both tokens have been neighbours before, and were not joined then.
      · exact hstands.1 b rfl kind
    · exact not_mem_pairTable_of_isInert htoken hbne (Or.inl hjoined.isInert) kind
  · rintro b c after rfl
    have hcne := hout c (by simp)
    rcases hbecomes.eq_single_or_joined with rfl | hjoined
    · rcases hcut.head with hinert | ⟨rest, blocks, rfl, hrest⟩
      · exact not_isTripleText_of_isInert htoken hcne (Or.inr (Or.inl hinert))
      rcases hrest.head with hinert | ⟨rest, blocks, rfl, -⟩
      · exact not_isTripleText_of_isInert htoken hcne (Or.inr (Or.inr hinert))
      · exact hstands.2 b c rest rfl
    · exact not_isTripleText_of_isInert htoken hcne (Or.inl hjoined.isInert)

theorem Cut.of_out (h : Cut operators [] tokens blocks out) (hne : ∀ t ∈ tokens, t.text ≠ "") :
    Cut operators [] out (out.map .single) out := by
  have hout := h.ne_empty hne
  induction h with
  | done => exact Cut.done
  | @block block rest blocks token out hstands hbecomes hcut ih =>
    obtain ⟨htoken, hafter⟩ := List.forall_mem_cons.mp hout
    have hrest := (List.forall_mem_append.mp hne).2
    have hsingle := hstands.single_of_cut hbecomes hcut htoken hafter
    exact Cut.block hsingle Block.Becomes.single (ih hrest hafter)

theorem ne_empty_of_scan {source : String} (h : scan operators source = .ok tokens) :
    ∀ t ∈ tokens, t.text ≠ "" := by
  intro t ht hempty
  obtain ⟨piece, -, hne, rfl, -⟩ := (layout_of_scan h).1.exists_slice t ht
  exact hne (String.toList_eq_nil_iff.mpr hempty)

/-- Joining twice is joining once, on all tokens whose texts are not empty. Those of a scan are
not, whatever the operators that the source is read with. -/
theorem combine_idempotent (operators : OperatorSet) :
    (∀ (tokens out : List Token), (∀ t ∈ tokens, t.text ≠ "") →
      combine operators tokens = .ok out → combine operators out = .ok out) ∧
    ∀ (set : OperatorSet) (source : String) (scanned : List Token),
      scan set source = .ok scanned → ∀ t ∈ scanned, t.text ≠ "" := by
  refine ⟨fun tokens out hne hout => ?_, fun set source scanned => ne_empty_of_scan⟩
  obtain ⟨blocks, hcut⟩ := exists_cut_of_combine_ok hout
  exact (hcut.of_out hne).combine_ok

theorem combine_idempotent_array :
    ∃ scanned out, scan .core "[3]||" = .ok scanned ∧ (∀ t ∈ scanned, t.text ≠ "") ∧
      combine .core scanned = .ok out ∧ out.length = 2 ∧ combine .core out = .ok out := by
  obtain ⟨htwice, hscan⟩ := combine_idempotent .core
  have hne := hscan .core "[3]||" _ rfl
  exact ⟨_, _, rfl, hne, rfl, rfl, htwice _ _ hne rfl⟩

end ShapeLang.Token
