import ShapeLang.Source.LineTable

/-! A binary search counts. Among ascending words it ends at the last one that is not beyond the
word sought, so the line that a table finds for an offset is known from the number of starts that
are not beyond it. -/

namespace ShapeLang

namespace Slot

variable {words : List UInt32} {word : UInt32}

theorem lt_countP_iff (h : words.Pairwise (· ≤ ·)) (word : UInt32) {i : Nat} {found : UInt32}
    (hfound : words[i]? = some found) : i < words.countP (· ≤ word) ↔ found ≤ word := by
  induction words generalizing i with
  | nil => cases hfound
  | cons first words ih =>
    obtain ⟨hfirst, hrest⟩ := List.pairwise_cons.mp h
    rw [List.countP_cons]
    cases i with
    | zero =>
      obtain rfl : first = found := Option.some.inj hfound
      by_cases hle : first ≤ word
      · simp [hle]
      · have hnone : words.countP (· ≤ word) = 0 := by
          rw [List.countP_eq_zero]
          intro later hlater
          rw [decide_eq_true_iff]
          exact fun hword => hle (UInt32.le_trans (hfirst later hlater) hword)
        simp [hle, hnone]
    | succ i =>
      rw [List.getElem?_cons_succ] at hfound
      have hmem : found ∈ words := List.mem_of_getElem? hfound
      have hi := ih hrest hfound
      by_cases hle : first ≤ word
      · simp [hle, hi]
      · have hbeyond : ¬ found ≤ word := fun hword => hle (UInt32.le_trans (hfirst _ hmem) hword)
        have hnone : ¬ i < words.countP (· ≤ word) := mt hi.mp hbeyond
        simp only [hle, decide_false, Bool.false_eq_true, if_false]
        exact iff_of_false (by omega) hbeyond

/-- The window keeps the last word that is not beyond the word sought, and ends as that word alone.
Where there is none, it keeps the first word. -/
theorem narrow_eq (h : words.Pairwise (· ≤ ·)) {base size : Nat} (hsize : 0 < size)
    (hfits : base + size ≤ words.length) (hlow : base ≤ words.countP (· ≤ word) - 1)
    (hhigh : words.countP (· ≤ word) - 1 < base + size) :
    narrow words word base size = words.countP (· ≤ word) - 1 := by
  fun_induction narrow words word base size with
  | case1 base size hone => omega
  | case2 base size hmany half beyond ih =>
    have hmiddle : base + half < words.length := by omega
    have hfound : words[base + half]? = some words[base + half] :=
      List.getElem?_eq_getElem hmiddle
    have hcount := lt_countP_iff h word hfound
    have hbeyond : beyond = true ↔ ¬ base + half < words.countP (· ≤ word) := by
      rw [hcount, UInt32.not_le]
      simp [beyond, hfound]
    apply ih
    · omega
    · split <;> omega
    · split
      · exact hlow
      · rename_i hkept
        have hkept := Decidable.not_not.mp (mt hbeyond.mpr hkept)
        omega
    · split
      · rename_i hdropped
        have hdropped := hbeyond.mp hdropped
        omega
      · omega

theorem find_eq (h : words.Pairwise (· ≤ ·)) {last : Nat} {found : UInt32}
    (hlast : words.countP (· ≤ word) - 1 = last) (hfound : words[last]? = some found) :
    find words word =
      if found = word then held last
      else if found < word then missing (last + 1)
      else missing last := by
  obtain ⟨hbound, -⟩ := List.getElem?_eq_some_iff.mp hfound
  have hnarrow : narrow words word 0 words.length = last :=
    hlast ▸ narrow_eq h (by omega) (by omega) (Nat.zero_le _) (by omega)
  rw [find, hnarrow, hfound]

end Slot

namespace LineTable

theorem index_eq_countP {table : LineTable} (h : table.starts.Pairwise (· ≤ ·))
    (offset : UInt32) : table.index offset = table.starts.countP (· ≤ offset) - 1 := by
  generalize hlast : table.starts.countP (· ≤ offset) - 1 = last
  rw [index]
  cases hfound : table.starts[last]? with
  | none =>
    have hle : table.starts.countP (· ≤ offset) ≤ table.starts.length := List.countP_le_length
    have hnil : table.starts = [] := by
      rw [List.getElem?_eq_none_iff] at hfound
      exact List.length_eq_zero_iff.mp (by omega)
    rw [← hlast, hnil]
    rfl
  | some found =>
    have hcount := Slot.lt_countP_iff h offset hfound
    rw [Slot.find_eq h hlast hfound]
    by_cases heq : found = offset
    · rw [if_pos heq]
    rw [if_neg heq]
    by_cases hlt : found < offset
    · rw [if_pos hlt]
      exact Nat.add_sub_cancel ..
    · -- A last start that is beyond the offset is the first one of all.
      have hbeyond : ¬ found ≤ offset :=
        fun hword => heq (UInt32.le_antisymm hword (UInt32.not_lt.mp hlt))
      have hnone := mt hcount.mp hbeyond
      rw [if_neg hlt]
      dsimp only
      omega

end LineTable
end ShapeLang
