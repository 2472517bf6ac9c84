import Mathlib.Data.List.Forall2

/-! Texts that can be told from what is written behind them. A run of characters of one class ends
at the first character outside of the class, and a sequence of pieces that are known one by one is
known as a whole. -/

namespace ShapeLang.Text

theorem run_append_inj {p : Char → Bool} {a b r s : List Char} (ha : ∀ c ∈ a, p c)
    (hb : ∀ c ∈ b, p c) (hr : ∀ c ∈ r.head?, p c = false) (hs : ∀ c ∈ s.head?, p c = false)
    (h : a ++ r = b ++ s) : a = b ∧ r = s := by
  have hstop : ∀ t : List Char, (∀ c ∈ t.head?, p c = false) → t.takeWhile p = [] := by
    intro t ht
    cases t with
    | nil => rfl
    | cons c t => simp [ht c rfl]
  have hrun := congrArg (List.takeWhile p) h
  rw [List.takeWhile_append_of_pos ha, List.takeWhile_append_of_pos hb, hstop r hr, hstop s hs,
    List.append_nil, List.append_nil] at hrun
  subst hrun
  exact ⟨rfl, List.append_cancel_left h⟩

theorem append_mark_inj {mark : Char} {a b r s : List Char} (ha : mark ∉ a) (hb : mark ∉ b)
    (h : a ++ mark :: r = b ++ mark :: s) : a = b ∧ r = s := by
  have hother : ∀ t : List Char, mark ∉ t → ∀ c ∈ t, (c != mark) = true := by
    rintro t ht c hc
    simpa using ne_of_mem_of_not_mem hc ht
  obtain ⟨rfl, htail⟩ := run_append_inj (hother a ha) (hother b hb) (by simp) (by simp) h
  exact ⟨rfl, (List.cons.inj htail).2⟩

theorem flatMap_append_inj {α : Type} {write : α → List Char} {R : α → α → Prop}
    (hwrite : ∀ x y r s, write x ++ r = write y ++ s → R x y ∧ r = s) {xs ys : List α}
    {r s : List Char} (hr : ∀ x t, r ≠ write x ++ t) (hs : ∀ x t, s ≠ write x ++ t)
    (h : xs.flatMap write ++ r = ys.flatMap write ++ s) : List.Forall₂ R xs ys ∧ r = s := by
  induction xs generalizing ys with
  | nil =>
    cases ys with
    | nil => exact ⟨List.Forall₂.nil, h⟩
    | cons y ys => exact absurd (h.trans (by simp)) (hr y (ys.flatMap write ++ s))
  | cons x xs ih =>
    cases ys with
    | nil => exact absurd (h.symm.trans (by simp)) (hs x (xs.flatMap write ++ r))
    | cons y ys =>
      simp only [List.flatMap_cons, List.append_assoc] at h
      obtain ⟨hxy, htail⟩ := hwrite x y _ _ h
      obtain ⟨hrest, hend⟩ := ih htail
      exact ⟨List.Forall₂.cons hxy hrest, hend⟩

end ShapeLang.Text
