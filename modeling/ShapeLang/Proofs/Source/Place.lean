import ShapeLang.Proofs.Source.Search

/-! The place of an offset is counted in the text before it: the line by its line feeds, and the
column by the characters after the last of them. The table of lines finds it without looking at
that text again, and what comes after the offset has no part in it. -/

namespace ShapeLang

open Text (byteLength slice?)

namespace Text

/-- What comes after the last line feed; all of a text that has none. -/
def lastLine : List Char → List Char
  | [] => []
  | c :: text => if '\n' ∈ c :: text then lastLine text else c :: text

theorem lastLine_of_not_mem {text : List Char} (h : '\n' ∉ text) : lastLine text = text := by
  cases text with
  | nil => rfl
  | cons c text => rw [lastLine, if_neg h]

theorem lastLine_append_feed (a b : List Char) : lastLine (a ++ '\n' :: b) = lastLine b := by
  induction a with
  | nil =>
    rw [List.nil_append, lastLine]
    exact if_pos (List.mem_cons_self ..)
  | cons c a ih =>
    have hmem : '\n' ∈ c :: (a ++ '\n' :: b) := by simp
    rw [List.cons_append, lastLine, if_pos hmem, ih]

theorem exists_lastLine {text : List Char} (h : '\n' ∈ text) :
    ∃ lines, text = lines ++ '\n' :: lastLine text ∧ '\n' ∉ lastLine text := by
  induction text with
  | nil => cases h
  | cons c text ih =>
    rw [lastLine, if_pos h]
    by_cases hmem : '\n' ∈ text
    · obtain ⟨lines, heq, hlast⟩ := ih hmem
      exact ⟨c :: lines, by rw [List.cons_append, ← heq], hlast⟩
    · have hc : c = '\n' := ((List.mem_cons.mp h).resolve_right hmem).symm
      rw [lastLine_of_not_mem hmem, hc]
      exact ⟨[], rfl, hmem⟩

theorem lastLine_suffix (text : List Char) : lastLine text <:+ text := by
  by_cases hmem : '\n' ∈ text
  · obtain ⟨lines, heq, -⟩ := exists_lastLine hmem
    exact ⟨lines ++ ['\n'], by rw [List.append_assoc]; exact heq.symm⟩
  · exact ⟨[], lastLine_of_not_mem hmem⟩

theorem lastLine_append_of_not_mem {b : List Char} (h : '\n' ∉ b) (a : List Char) :
    lastLine (a ++ b) = lastLine a ++ b := by
  induction a with
  | nil => exact lastLine_of_not_mem h
  | cons c a ih =>
    have hmem : '\n' ∈ c :: (a ++ b) ↔ '\n' ∈ c :: a := by simp [h]
    rw [List.cons_append, lastLine, lastLine, ih]
    by_cases hfeed : '\n' ∈ c :: a
    · rw [if_pos hfeed, if_pos (hmem.mpr hfeed)]
    · rw [if_neg hfeed, if_neg (mt hmem.mp hfeed), List.cons_append]

theorem length_le_byteLength (text : List Char) : text.length ≤ byteLength text := by
  induction text with
  | nil => exact Nat.le_refl 0
  | cons c text ih =>
    have hc : 0 < c.utf8Size := c.utf8Size_pos
    rw [byteLength_cons, List.length_cons]
    omega

theorem count_le_byteLength (c : Char) (text : List Char) : text.count c ≤ byteLength text :=
  Nat.le_trans List.count_le_length (length_le_byteLength text)

end Text

namespace LineTable

theorem toNat_offsetWord {n : Nat} (h : n < UInt32.size) : (offsetWord n).toNat = n := by
  rw [offsetWord, if_pos h, UInt32.toNat_ofNat_of_lt' h]

theorem offsetWord_mono {m n : Nat} (h : m ≤ n) : offsetWord m ≤ offsetWord n := by
  by_cases hn : n < UInt32.size
  · rw [UInt32.le_iff_toNat_le, toNat_offsetWord hn, toNat_offsetWord (Nat.lt_of_le_of_lt h hn)]
    exact h
  · have hmost : offsetWord n = 0xFFFFFFFF := if_neg hn
    rw [hmost, UInt32.le_iff_toNat_le]
    exact Nat.le_of_lt_succ (offsetWord m).toNat_lt

theorem toNat_oneBased {n : Nat} (h : n + 1 < UInt32.size) : (oneBased n).toNat = n + 1 := by
  have hn : n < UInt32.size := Nat.lt_of_succ_lt h
  have hone : (1 : UInt32).toNat = 1 := rfl
  rw [oneBased, if_pos hn, UInt32.toNat_add, UInt32.toNat_ofNat_of_lt' hn, hone]
  exact Nat.mod_eq_of_lt h

theorem startsAfter_append (offset : Nat) (a b : List Char) :
    startsAfter offset (a ++ b) =
      startsAfter offset a ++ startsAfter (offset + byteLength a) b := by
  induction a generalizing offset with
  | nil => rfl
  | cons c a ih =>
    rw [List.cons_append, startsAfter, startsAfter, Text.byteLength_cons]
    split
    · rename_i hc
      have hone : c.utf8Size = 1 := by rw [hc]; rfl
      rw [ih, List.cons_append, hone, Nat.add_assoc]
    · rw [ih, Nat.add_assoc]

theorem length_startsAfter (offset : Nat) (text : List Char) :
    (startsAfter offset text).length = text.count '\n' := by
  induction text generalizing offset with
  | nil => rfl
  | cons c text ih =>
    rw [startsAfter]
    split
    · rename_i hc
      rw [List.length_cons, ih, hc, List.count_cons_self]
    · rename_i hc
      rw [ih, List.count_cons_of_ne hc]

theorem bounds_of_mem_startsAfter {offset : Nat} {text : List Char} {start : UInt32}
    (hsize : offset + byteLength text < UInt32.size) (h : start ∈ startsAfter offset text) :
    offset < start.toNat ∧ start.toNat ≤ offset + byteLength text := by
  induction text generalizing offset with
  | nil => cases h
  | cons c text ih =>
    have hc : 0 < c.utf8Size := c.utf8Size_pos
    rw [Text.byteLength_cons] at hsize ⊢
    rw [startsAfter] at h
    split at h
    · rcases List.mem_cons.mp h with rfl | hrest
      · rw [toNat_offsetWord (by omega)]
        omega
      · have hbounds := ih (by omega) hrest
        omega
    · have hbounds := ih (by omega) h
      omega

theorem lt_of_mem_startsAfter {n offset : Nat} {text : List Char} {start : UInt32}
    (hn : n + 1 < UInt32.size) (hle : n ≤ offset) (h : start ∈ startsAfter offset text) :
    n < start.toNat := by
  induction text generalizing offset with
  | nil => cases h
  | cons c text ih =>
    have hc : 0 < c.utf8Size := c.utf8Size_pos
    rw [startsAfter] at h
    split at h
    · rcases List.mem_cons.mp h with rfl | hrest
      · by_cases hword : offset + 1 < UInt32.size
        · rw [toNat_offsetWord hword]
          omega
        · rw [offsetWord, if_neg hword]
          exact Nat.lt_of_succ_lt_succ hn
      · exact ih (by omega) hrest
    · exact ih (by omega) h

theorem offsetWord_le_of_mem_startsAfter {offset : Nat} {text : List Char} {start : UInt32}
    (h : start ∈ startsAfter offset text) : offsetWord (offset + 1) ≤ start := by
  induction text generalizing offset with
  | nil => cases h
  | cons c text ih =>
    have hc : 0 < c.utf8Size := c.utf8Size_pos
    rw [startsAfter] at h
    split at h
    · rcases List.mem_cons.mp h with rfl | hrest
      · exact UInt32.le_refl _
      · exact UInt32.le_trans (offsetWord_mono (by omega)) (ih hrest)
    · exact UInt32.le_trans (offsetWord_mono (by omega)) (ih h)

theorem pairwise_startsAfter (offset : Nat) (text : List Char) :
    (startsAfter offset text).Pairwise (· ≤ ·) := by
  induction text generalizing offset with
  | nil => exact List.Pairwise.nil
  | cons c text ih =>
    rw [startsAfter]
    split
    · refine List.Pairwise.cons (fun start hstart => ?_) (ih _)
      exact UInt32.le_trans (offsetWord_mono (by omega)) (offsetWord_le_of_mem_startsAfter hstart)
    · exact ih _

theorem pairwise_starts_ofText (text : List Char) : (ofText text).starts.Pairwise (· ≤ ·) :=
  List.Pairwise.cons (fun start _ => UInt32.le_iff_toNat_le.mpr (Nat.zero_le start.toNat))
    (pairwise_startsAfter 0 text)

section Offset

variable {before after : List Char}

theorem index_ofText (hsize : byteLength before + 1 < UInt32.size) :
    (ofText (before ++ after)).index (.ofNat (byteLength before)) = before.count '\n' := by
  have hword : (UInt32.ofNat (byteLength before)).toNat = byteLength before :=
    UInt32.toNat_ofNat_of_lt' (Nat.lt_of_succ_lt hsize)
  have hpast : (startsAfter 0 before).countP (· ≤ UInt32.ofNat (byteLength before)) =
      (startsAfter 0 before).length := by
    rw [List.countP_eq_length]
    intro start hstart
    have hbounds := bounds_of_mem_startsAfter (by omega) hstart
    refine decide_eq_true (UInt32.le_iff_toNat_le.mpr ?_)
    omega
  have hahead : (startsAfter (0 + byteLength before) after).countP
      (· ≤ UInt32.ofNat (byteLength before)) = 0 := by
    rw [List.countP_eq_zero]
    intro start hstart
    have hpast := lt_of_mem_startsAfter hsize (by omega) hstart
    rw [decide_eq_true_iff, UInt32.le_iff_toNat_le]
    omega
  have hfirst : decide (0 ≤ UInt32.ofNat (byteLength before)) = true :=
    decide_eq_true (UInt32.le_iff_toNat_le.mpr (Nat.zero_le _))
  have hstarts : (ofText (before ++ after)).starts =
      0 :: (startsAfter 0 before ++ startsAfter (0 + byteLength before) after) := by
    rw [ofText, startsAfter_append]
  rw [index_eq_countP (pairwise_starts_ofText _), hstarts, List.countP_cons, if_pos hfirst,
    List.countP_append, hpast, hahead, length_startsAfter]
  rfl

theorem starts_ofText (before after : List Char) :
    (ofText (before ++ after)).starts[before.count '\n']? =
      some (offsetWord (byteLength before - byteLength (Text.lastLine before))) := by
  rw [ofText]
  by_cases hmem : '\n' ∈ before
  · obtain ⟨lines, heq, hlast⟩ := Text.exists_lastLine hmem
    generalize Text.lastLine before = last at heq hlast ⊢
    subst heq
    have hcount : (lines ++ '\n' :: last).count '\n' = (startsAfter 0 lines).length + 1 := by
      rw [List.count_append, List.count_cons_self, length_startsAfter,
        List.count_eq_zero_of_not_mem hlast]
    have hone : '\n'.utf8Size = 1 := rfl
    have hstart : byteLength (lines ++ '\n' :: last) - byteLength last =
        0 + byteLength lines + 1 := by
      rw [Text.byteLength_append, Text.byteLength_cons, hone]
      omega
    dsimp only
    rw [hcount, hstart, List.getElem?_cons_succ, List.append_assoc, startsAfter_append,
      List.getElem?_append_right (Nat.le_refl _), Nat.sub_self, List.cons_append, startsAfter,
      if_pos rfl, List.getElem?_cons_zero]
  · rw [List.count_eq_zero_of_not_mem hmem, Text.lastLine_of_not_mem hmem, Nat.sub_self]
    rfl

end Offset

end LineTable

def Position.after (before : List Char) : Position :=
  ⟨LineTable.oneBased (before.count '\n'), LineTable.oneBased (Text.lastLine before).length⟩

namespace LineTable

theorem lineStart_of_index {table : LineTable} {offset : UInt32} {n : Nat}
    (h : table.index offset = n) (hn : n < UInt32.size) :
    table.lineStart (table.line offset) = (table.starts[n]?).getD 0 := by
  rw [line, h, lineStart, oneBased, if_pos hn, UInt32.add_sub_cancel,
    UInt32.toNat_ofNat_of_lt' hn]

theorem lineStart_line {before : List Char} (hsize : byteLength before + 1 < UInt32.size)
    (after : List Char) :
    let table := ofText (before ++ after)
    table.lineStart (table.line (.ofNat (byteLength before))) =
      offsetWord (byteLength before - byteLength (Text.lastLine before)) := by
  have hcount : before.count '\n' < UInt32.size := by
    have hle := Text.count_le_byteLength '\n' before
    omega
  dsimp only
  rw [lineStart_of_index (index_ofText hsize) hcount, starts_ofText, Option.getD_some]

theorem position_ofText {before after : List Char} (hsize : byteLength before + 1 < UInt32.size) :
    (ofText (before ++ after)).position (before ++ after) (.ofNat (byteLength before)) =
      Position.after before := by
  obtain ⟨lines, hsuffix⟩ := Text.lastLine_suffix before
  have hlines : before = lines ++ Text.lastLine before := hsuffix.symm
  have hlength := congrArg byteLength hlines
  have hwhole := Text.byteLength_append before after
  rw [Text.byteLength_append] at hlength
  have hstart : byteLength before - byteLength (Text.lastLine before) = byteLength lines := by
    omega
  have hword : (UInt32.ofNat (byteLength before)).toNat = byteLength before :=
    UInt32.toNat_ofNat_of_lt' (by omega)
  have hslice : slice? (before ++ after) (byteLength lines) (byteLength before) =
      some (Text.lastLine before) := by
    have hslice := Text.slice?_append lines (Text.lastLine before) after
    rwa [← hlines] at hslice
  have hline := lineStart_line hsize after
  dsimp only at hline
  unfold position
  dsimp only
  rw [hline, hstart, toNat_offsetWord (by omega), hword, Nat.min_eq_left (by omega), hslice, line,
    index_ofText hsize]
  rfl

end LineTable

namespace Position

/-- One line more than there are line feeds in the text before, and one column more than there are
characters after the last of them. -/
structure Counts (position : Position) (before : List Char) : Prop where
  line_eq : position.line.toNat = before.count '\n' + 1
  column_eq : position.column.toNat = (Text.lastLine before).length + 1

theorem counts_after {before : List Char} (hsize : byteLength before + 1 < UInt32.size) :
    (after before).Counts before := by
  have hlines := Text.count_le_byteLength '\n' before
  have hcolumns : (Text.lastLine before).length ≤ byteLength before :=
    Nat.le_trans (Text.lastLine_suffix before).length_le (Text.length_le_byteLength before)
  constructor
  · exact LineTable.toNat_oneBased (by omega)
  · exact LineTable.toNat_oneBased (by omega)

/-- The order of reading: line by line, and from left to right in a line. -/
def Before (position later : Position) : Prop :=
  position.line < later.line ∨ position.line = later.line ∧ position.column < later.column

theorem not_before_self (position : Position) : ¬ position.Before position := by
  rintro (hline | ⟨-, hcolumn⟩)
  · exact UInt32.lt_irrefl _ hline
  · exact UInt32.lt_irrefl _ hcolumn

theorem Counts.before {position later : Position} {a b : List Char} (h : position.Counts a)
    (hlater : later.Counts (a ++ b)) (hb : b ≠ []) : position.Before later := by
  have hline : later.line.toNat = position.line.toNat + b.count '\n' := by
    rw [hlater.line_eq, h.line_eq, List.count_append]
    omega
  by_cases hfeed : '\n' ∈ b
  · left
    have hpos : 0 < b.count '\n' := List.count_pos_iff.mpr hfeed
    rw [UInt32.lt_iff_toNat_lt]
    omega
  · right
    have hcolumn : later.column.toNat = position.column.toNat + b.length := by
      rw [hlater.column_eq, h.column_eq, Text.lastLine_append_of_not_mem hfeed,
        List.length_append]
      omega
    have hpos : 0 < b.length := List.length_pos_iff.mpr hb
    rw [List.count_eq_zero_of_not_mem hfeed, Nat.add_zero] at hline
    refine ⟨UInt32.toNat_inj.mp hline.symm, ?_⟩
    rw [UInt32.lt_iff_toNat_lt]
    omega

end Position
end ShapeLang
