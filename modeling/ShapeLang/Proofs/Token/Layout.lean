import ShapeLang.Proofs.Lexeme.Trivia
import ShapeLang.Token.Basic

/-! Where tokens lie in a text. Each one has a piece of the text under its span, and there are gaps
between the pieces. Bounds, order and what lies outside of the spans follow from that, whatever a
token makes of its piece. -/

namespace ShapeLang

open Text (byteLength isBlank slice?)

namespace Token

/-- Tokens over pieces of `text`, which stands after `before`. -/
inductive Layout (Reads : Token → List Char → Prop) :
    List Char → List Char → List Token → Prop where
  | gap {before text : List Char} : Gap text [] → Layout Reads before text []
  | token {before gap piece rest : List Char} {token : Token} {tokens : List Token} :
    Gap gap (piece ++ rest) → piece ≠ [] →
      token.span.start.toNat = byteLength (before ++ gap) →
      token.span.stop.toNat = byteLength (before ++ gap ++ piece) → Reads token piece →
      Layout Reads (before ++ gap ++ piece) rest tokens →
      Layout Reads before (gap ++ (piece ++ rest)) (token :: tokens)

section Bounds

variable {Reads : Token → List Char → Prop} {before text : List Char} {tokens : List Token}

theorem Layout.exists_slice (h : Layout Reads before text tokens) :
    ∀ t ∈ tokens, ∃ piece,
      slice? (before ++ text) t.span.start.toNat t.span.stop.toNat = some piece ∧
        piece ≠ [] ∧ Reads t piece := by
  induction h with
  | gap => simp
  | @token before gap piece rest token tokens _ hne hstart hstop hreads _ ih =>
    have hwhole : before ++ (gap ++ (piece ++ rest)) = before ++ gap ++ piece ++ rest := by
      simp only [List.append_assoc]
    rw [hwhole]
    refine List.forall_mem_cons.mpr ⟨⟨piece, ?_, hne, hreads⟩, ih⟩
    rw [hstart, hstop]
    exact Text.slice?_append _ _ _

theorem Layout.start_lt_stop (h : Layout Reads before text tokens) :
    ∀ t ∈ tokens, t.span.start < t.span.stop := by
  induction h with
  | gap => simp
  | token _ hne hstart hstop _ _ ih =>
    refine List.forall_mem_cons.mpr ⟨?_, ih⟩
    rw [UInt32.lt_iff_toNat_lt, hstart, hstop, Text.byteLength_append (_ ++ _)]
    exact Nat.lt_add_of_pos_right (Text.byteLength_pos hne)

theorem Layout.le_start (h : Layout Reads before text tokens) :
    ∀ t ∈ tokens, byteLength before ≤ t.span.start.toNat := by
  induction h with
  | gap => simp
  | token _ _ hstart _ _ _ ih =>
    refine List.forall_mem_cons.mpr ⟨?_, fun t ht => Nat.le_trans ?_ (ih t ht)⟩
    · rw [hstart, Text.byteLength_append]
      exact Nat.le_add_right _ _
    · rw [List.append_assoc, Text.byteLength_append]
      exact Nat.le_add_right _ _

theorem Layout.pairwise (h : Layout Reads before text tokens) :
    tokens.Pairwise fun a b => a.span.stop ≤ b.span.start := by
  induction h with
  | gap => exact List.Pairwise.nil
  | token _ _ _ hstop _ hrest ih =>
    refine List.Pairwise.cons (fun t ht => ?_) ih
    rw [UInt32.le_iff_toNat_le, hstop]
    exact hrest.le_start t ht

theorem Layout.hull_eq {first : Token} (h : Layout Reads before text (first :: tokens))
    {last : Token} (hlast : last ∈ first :: tokens) :
    first.span.hull last.span = ⟨first.span.start, last.span.stop⟩ := by
  rcases List.mem_cons.mp hlast with rfl | hrest
  · exact Span.hull_self _
  · have hfirst := h.start_lt_stop first (List.mem_cons_self ..)
    have hbetween := (List.pairwise_cons.mp h.pairwise).1 last hrest
    have hpast := h.start_lt_stop last hlast
    simp only [UInt32.lt_iff_toNat_lt, UInt32.le_iff_toNat_le] at hfirst hbetween hpast
    apply Span.hull_of_le
    · rw [UInt32.le_iff_toNat_le]
      omega
    · rw [UInt32.le_iff_toNat_le]
      omega

theorem Layout.exists_of_append {a : List Token} (h : Layout Reads before text (a ++ tokens)) :
    ∃ before' text', Layout Reads before' text' tokens := by
  induction a generalizing before text with
  | nil => exact ⟨before, text, h⟩
  | cons t a ih =>
    cases h with
    | token _ _ _ _ _ hrest => exact ih hrest

theorem Layout.isBlank_or_comment (h : Layout Reads before text tokens) {left right : List Char}
    {c : Char} (htext : text = left ++ c :: right)
    (houtside : ∀ t ∈ tokens, byteLength (before ++ left) < t.span.start.toNat ∨
      t.span.stop.toNat ≤ byteLength (before ++ left)) :
    isBlank c ∨ ∃ a comment b, text = a ++ (comment ++ b) ∧ IsComment comment b ∧
      a.length ≤ left.length ∧ left.length < a.length + comment.length ∧
      ∀ t ∈ tokens, t.span.stop.toNat ≤ byteLength (before ++ a) ∨
        byteLength (before ++ a ++ comment) ≤ t.span.start.toNat := by
  induction h generalizing left with
  | gap hgap =>
    rcases hgap.isBlank_or_comment htext with hc | ⟨a, comment, b, rfl, hcomment, hlow, hhigh⟩
    · exact Or.inl hc
    · rw [List.append_nil] at hcomment
      exact Or.inr ⟨a, comment, b, rfl, hcomment, hlow, hhigh, by simp⟩
  | @token before gap piece rest token tokens hgap hne hstart hstop hreads hrest ih =>
    obtain ⟨htoken, htokens⟩ := List.forall_mem_cons.mp houtside
    rw [hstart, hstop] at htoken
    rcases split_append_eq htext with ⟨after, rfl⟩ | ⟨left, rfl, htail⟩
    · rcases hgap.isBlank_or_comment rfl with hc | ⟨a, comment, b, heq, hcomment, hlow, hhigh⟩
      · exact Or.inl hc
      -- The comment ends within the gap, and no token starts before the gap has ended.
      · have hends : byteLength (before ++ a ++ comment) ≤
            byteLength (before ++ (left ++ c :: after)) := by
          rw [heq]
          simp only [Text.byteLength_append]
          omega
        refine Or.inr ⟨a, comment, b ++ (piece ++ rest), by rw [heq]; simp, hcomment, hlow, hhigh,
          List.forall_mem_cons.mpr ⟨Or.inr (hstart ▸ hends), fun t ht => Or.inr ?_⟩⟩
        refine Nat.le_trans hends (Nat.le_trans ?_ (hrest.le_start t ht))
        rw [Text.byteLength_append _ piece]
        exact Nat.le_add_right _ _
    rcases split_append_eq htail with ⟨after, rfl⟩ | ⟨left, rfl, hafter⟩
    -- In the piece it would be under the span of the token.
    · exfalso
      have hc : 0 < c.utf8Size := c.utf8Size_pos
      simp only [Text.byteLength_append, Text.byteLength_cons] at htoken
      omega
    · simp only [← List.append_assoc] at htokens
      rcases ih hafter htokens with hc | ⟨a, comment, b, rfl, hcomment, hlow, hhigh, hclear⟩
      · exact Or.inl hc
      · refine Or.inr ⟨gap ++ (piece ++ a), comment, b, by simp, hcomment, ?_, ?_,
          List.forall_mem_cons.mpr ⟨Or.inl ?_, ?_⟩⟩
        · simp only [List.length_append]
          omega
        · simp only [List.length_append]
          omega
        · rw [hstop]
          simp only [Text.byteLength_append]
          omega
        · simpa only [List.append_assoc] using hclear

theorem Layout.gap_append {gap : List Char} (hgap : Gap gap text)
    (h : Layout Reads (before ++ gap) text tokens) : Layout Reads before (gap ++ text) tokens := by
  cases h with
  | gap htext =>
    refine Layout.gap (Gap.append ?_ htext)
    rwa [List.append_nil]
  | @token _ gap' piece rest token tokens hgap' hne hstart hstop hreads hrest =>
    rw [← List.append_assoc]
    rw [List.append_assoc before] at hstart hstop hrest
    exact Layout.token (hgap.append hgap') hne hstart hstop hreads hrest

end Bounds

end Token
end ShapeLang
