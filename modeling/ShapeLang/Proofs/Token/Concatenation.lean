import Mathlib.Data.List.Infix
import ShapeLang.Proofs.Token.Joining
import ShapeLang.Token.Scan

/-! Joining tokens with more tokens behind them. To let a block stand, joining looks at the two
tokens behind its first one at most. Where no window has tokens of both lists in it, the blocks of
the first list stand as they do without the second, and the lists are joined one after the other. -/

namespace ShapeLang.Token

variable {operators : OperatorSet} {xs ys before rest tail tokens out : List Token}
  {blocks : List Block} {block : Block}

/-- Neighbours that read together as one, whether or not the size of an array is one it can have. -/
def IsWindow (operators : OperatorSet) : List Token → Prop
  | [a, b] => ∃ kind, (a.text ++ b.text, kind) ∈ pairTable operators
  | [a, b, c] => IsTripleText (a.text ++ b.text ++ c.text)
  | _ => False

/-- Some window has the last token of `xs` and the first one of `ys` in it. -/
def Straddled (operators : OperatorSet) (xs ys : List Token) : Prop :=
  ∃ left right, left <:+ xs ∧ right <+: ys ∧ left ≠ [] ∧ right ≠ [] ∧
    IsWindow operators (left ++ right)

theorem isTripleText_iff {text : String} :
    IsTripleText text ↔ text = "[map]" ∨ (sizeDigits? text.toList).isSome := by
  rw [IsTripleText, Option.isSome_iff_exists]
  refine or_congr_right ⟨?_, ?_⟩
  · rintro ⟨n, digits, htext, hne, hdigits, -⟩
    exact ⟨digits, sizeDigits?_eq_some_iff.mpr ⟨htext, hne, hdigits⟩⟩
  · rintro ⟨digits, hsome⟩
    obtain ⟨htext, hne, hdigits⟩ := sizeDigits?_eq_some_iff.mp hsome
    exact ⟨_, digits, htext, hne, hdigits, rfl⟩

instance (text : String) : Decidable (IsTripleText text) :=
  decidable_of_iff _ isTripleText_iff.symm

theorem isWindow_pair_iff {a b : Token} :
    IsWindow operators [a, b] ↔ (operators.pair? (a.text ++ b.text)).isSome := by
  rw [IsWindow, Option.isSome_iff_exists]
  exact exists_congr fun _ => mem_pairTable_iff

instance : DecidablePred (IsWindow operators)
  | [_, _] => decidable_of_iff _ isWindow_pair_iff.symm
  | [a, b, c] => inferInstanceAs (Decidable (IsTripleText (a.text ++ b.text ++ c.text)))
  | [] | [_] | _ :: _ :: _ :: _ :: _ => inferInstanceAs (Decidable False)

theorem straddled_iff_tails_inits :
    Straddled operators xs ys ↔ ∃ left ∈ xs.tails, ∃ right ∈ ys.inits,
      left ≠ [] ∧ right ≠ [] ∧ IsWindow operators (left ++ right) := by
  simp only [Straddled, List.mem_tails, List.mem_inits, exists_and_left]

instance : Decidable (Straddled operators xs ys) :=
  decidable_of_iff _ straddled_iff_tails_inits.symm

theorem Straddled.of_suffix (h : Straddled operators rest ys) (hrest : rest <:+ xs) :
    Straddled operators xs ys := by
  obtain ⟨left, right, hleft, hright, hwindow⟩ := h
  exact ⟨left, right, hleft.trans hrest, hright, hwindow⟩

theorem Block.Stands.append (h : block.Stands operators rest)
    (hclear : ¬ Straddled operators (block.tokens ++ rest) ys) :
    block.Stands operators (rest ++ ys) := by
  have hwindow : ∀ left right, left <:+ block.tokens ++ rest → right <+: ys → left ≠ [] →
      right ≠ [] → ¬ IsWindow operators (left ++ right) :=
    fun left right hleft hright hne hne' hw => hclear ⟨left, right, hleft, hright, hne, hne', hw⟩
  cases block with
  | triple a b c => exact h
  | pair a b =>
    refine ⟨h.1, fun c hc => ?_⟩
    cases rest with
    | cons => exact h.2 c hc
    | nil =>
      obtain ⟨after, rfl⟩ := List.head?_eq_some_iff.mp hc
      exact hwindow [a, b] [c] (List.suffix_refl _) (List.prefix_append [c] after) (by simp)
        (by simp)
  | single a =>
    refine ⟨fun b hb kind hkind => ?_, fun b c after hafter => ?_⟩
    · cases rest with
      | cons => exact h.1 b hb kind hkind
      | nil =>
        obtain ⟨after, rfl⟩ := List.head?_eq_some_iff.mp hb
        exact hwindow [a] [b] (List.suffix_refl _) (List.prefix_append [b] after) (by simp)
          (by simp) ⟨kind, hkind⟩
    -- The window of three can have one or two of its tokens in `ys`, or none.
    · match rest, hafter with
      | [], hafter =>
        obtain rfl : ys = b :: c :: after := hafter
        exact hwindow [a] [b, c] (List.suffix_refl _) (List.prefix_append [b, c] after) (by simp)
          (by simp)
      | [d], hafter =>
        obtain ⟨rfl, rfl⟩ := List.cons.inj (show d :: ys = b :: c :: after from hafter)
        exact hwindow [a, d] [c] (List.suffix_refl _) (List.prefix_append [c] after) (by simp)
          (by simp)
      | d :: e :: rest, hafter =>
        obtain ⟨rfl, hnext⟩ := List.cons.inj hafter
        obtain ⟨rfl, -⟩ := List.cons.inj hnext
        exact h.2 d e rest rfl

theorem Cut.append (h : Cut operators tail tokens blocks out)
    (hclear : ¬ Straddled operators tokens ys) :
    Cut operators (tail ++ ys) (tokens ++ ys) blocks out := by
  induction h with
  | done => exact Cut.done
  | block hstands hbecomes hcut ih =>
    have hrest := ih fun hrest => hclear (hrest.of_suffix (List.suffix_append _ _))
    rw [List.append_assoc]
    exact Cut.block (hstands.append hclear) hbecomes hrest

theorem combine_append_of_ok (hclear : ¬ Straddled operators xs ys)
    (h : combine operators xs = .ok out) :
    combine operators (xs ++ ys) = (combine operators ys).map (out ++ ·) := by
  obtain ⟨blocks, hcut⟩ := exists_cut_of_combine_ok h
  exact (hcut.append hclear).combine_eq

theorem combine_append_of_error {error : LexError} (hclear : ¬ Straddled operators xs ys)
    (h : combine operators xs = .error error) : combine operators (xs ++ ys) = .error error := by
  obtain ⟨blocks, out, a, b, c, rest, n, hcut, hsize, hwrong, rfl⟩ := exists_cut_of_combine_error h
  exact (hcut.append hclear).combine_error hsize hwrong

theorem exists_of_map_append_eq_ok {result : Except LexError (List Token)}
    (h : result.map (xs ++ ·) = .ok out) : ∃ ys, result = .ok ys ∧ out = xs ++ ys := by
  cases result with
  | error error => cases h
  | ok ys => exact ⟨ys, rfl, (Except.ok.inj h).symm⟩

theorem exists_of_combine_append (hclear : ¬ Straddled operators xs ys)
    (h : combine operators (xs ++ ys) = .ok out) :
    ∃ left right, combine operators xs = .ok left ∧ combine operators ys = .ok right ∧
      out = left ++ right := by
  cases hxs : combine operators xs with
  | error error => cases (combine_append_of_error hclear hxs).symm.trans h
  | ok left =>
    rw [combine_append_of_ok hclear hxs] at h
    obtain ⟨right, hright, rfl⟩ := exists_of_map_append_eq_ok h
    exact ⟨left, right, rfl, hright, rfl⟩

/-- Where no window straddles, joining all tokens is joining those before and then those after: both
results one after the other, or the first of the two errors. -/
theorem combine_append_of_not_straddled (operators : OperatorSet) (xs ys : List Token)
    (hclear : ¬ Straddled operators xs ys) :
    combine operators (xs ++ ys) = (combine operators xs).bind fun out =>
      (combine operators ys).map (out ++ ·) := by
  cases h : combine operators xs with
  | ok out => exact combine_append_of_ok hclear h
  | error error => exact combine_append_of_error hclear h

theorem combine_append_of_not_straddled_bars :
    ∃ xs ys error, scan .core "|||" = .ok xs ∧ scan .core "[0]" = .ok ys ∧
      ¬ Straddled .core xs ys ∧ combine .core ys = .error error ∧
      combine .core (xs ++ ys) = .error error := by
  have hclear : ∀ xs ys, scan .core "|||" = .ok xs → scan .core "[0]" = .ok ys →
      ¬ Straddled .core xs ys := by
    intro xs ys hxs hys
    obtain rfl := Except.ok.inj hxs
    obtain rfl := Except.ok.inj hys
    decide
  have hbars := hclear _ _ rfl rfl
  exact ⟨_, _, _, rfl, rfl, hbars, rfl, combine_append_of_not_straddled .core _ _ hbars⟩

end ShapeLang.Token
