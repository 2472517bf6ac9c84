import ShapeLang.Proofs.Source.Lookup

/-! Where the number of a line or of a column leaves the words. A count becomes a number by adding
one, and a count that is no word is lowered first, so that the sum is a word. The largest word is
not lowered, and its sum is zero. A text that has spans can reach that count, but only if it is of
the largest size: at its end, with nothing but line feeds for the line, and with nothing but
characters of one byte and no line feed for the column. -/

namespace ShapeLang

open Text (byteLength bytes slice?)

theorem Text.byteLength_replicate (n : Nat) (c : Char) :
    byteLength (List.replicate n c) = n * c.utf8Size := by
  induction n with
  | zero => simp
  | succ n ih => rw [List.replicate_succ, byteLength_cons, ih, Nat.succ_mul, Nat.add_comm]

theorem Text.eq_nil_of_byteLength_eq_zero {text : List Char} (h : byteLength text = 0) :
    text = [] :=
  Decidable.byContradiction fun hne => Nat.ne_of_gt (byteLength_pos hne) h

namespace LineTable

theorem oneBased_eq_zero_iff {n : Nat} : oneBased n = 0 ↔ n + 1 = UInt32.size := by
  have hsize : UInt32.size = 4294967296 := rfl
  by_cases hn : n < UInt32.size
  · have hone : (1 : UInt32).toNat = 1 := rfl
    have hzero : (0 : UInt32).toNat = 0 := rfl
    rw [oneBased, if_pos hn, ← UInt32.toNat_inj, UInt32.toNat_add, UInt32.toNat_ofNat_of_lt' hn,
      hone, hzero]
    omega
  · have hlargest : (0xFFFFFFFE + 1 : UInt32) ≠ 0 := by decide
    rw [oneBased, if_neg hn]
    exact iff_of_false hlargest (by omega)

theorem eq_largest_iff {offset : UInt32} :
    offset = 0xFFFFFFFF ↔ offset.toNat + 1 = UInt32.size := by
  have hlargest : (0xFFFFFFFF : UInt32).toNat + 1 = UInt32.size := rfl
  rw [← UInt32.toNat_inj]
  omega

section End

variable {text : List Char} {offset : UInt32}

theorem index_of_past (hsize : byteLength text < UInt32.size)
    (hpast : byteLength text ≤ offset.toNat) : (ofText text).index offset = text.count '\n' := by
  have hcount := Text.count_take_bytes text []
  rw [List.append_nil, List.take_of_length_le (Nat.le_of_eq (Text.length_bytes text))] at hcount
  rw [index_eq_count hsize, List.take_of_length_le (by rwa [Text.length_bytes]), hcount]

theorem lineStart_of_past (hsize : byteLength text < UInt32.size)
    (hpast : byteLength text ≤ offset.toNat) :
    (ofText text).lineStart ((ofText text).line offset) =
      offsetWord (byteLength text - byteLength (Text.lastLine text)) := by
  have hcount : text.count '\n' < UInt32.size :=
    Nat.lt_of_le_of_lt (Text.count_le_byteLength '\n' text) hsize
  have hstarts := starts_ofText text []
  rw [List.append_nil] at hstarts
  rw [lineStart_of_index (index_of_past hsize hpast) hcount, hstarts, Option.getD_some]

theorem line_eq_zero_iff (hsize : byteLength text < UInt32.size) :
    (ofText text).line offset = 0 ↔
      offset = 0xFFFFFFFF ∧ text = List.replicate (UInt32.size - 1) '\n' := by
  have hword : offset.toNat < UInt32.size := offset.toNat_lt
  have hlength := Text.length_le_byteLength text
  have hcount : text.count '\n' ≤ text.length := List.count_le_length
  rw [line, oneBased_eq_zero_iff, eq_largest_iff]
  constructor
  · intro hindex
    have hle := index_le_byteLength hsize offset
    have hpast : byteLength text ≤ offset.toNat := by omega
    have hfeeds := index_of_past hsize hpast
    have hall : text.count '\n' = text.length := by omega
    rw [List.count_eq_length] at hall
    refine ⟨by omega, List.eq_replicate_iff.mpr ⟨by omega, fun c hc => (hall c hc).symm⟩⟩
  · rintro ⟨hoffset, htext⟩
    have hpast : byteLength text ≤ offset.toNat := by omega
    rw [index_of_past hsize hpast, htext, List.count_replicate_self]
    rfl

theorem column_eq_zero_iff (hsize : byteLength text < UInt32.size) :
    ((ofText text).position text offset).column = 0 ↔
      offset = 0xFFFFFFFF ∧ text.length + 1 = UInt32.size ∧ '\n' ∉ text := by
  have hword : offset.toNat < UInt32.size := offset.toNat_lt
  have hlength := Text.length_le_byteLength text
  rw [position]
  dsimp only
  rw [oneBased_eq_zero_iff, eq_largest_iff]
  constructor
  · intro hcount
    cases hslice : slice? text ((ofText text).lineStart ((ofText text).line offset)).toNat
      (min offset.toNat (byteLength text)) with
    | none =>
      rw [hslice] at hcount
      cases hcount
    | some line =>
      rw [hslice, Option.elim_some] at hcount
      obtain ⟨a, b, htext, hstart, hstop⟩ := Text.append_of_slice? hslice
      have hline := Text.length_le_byteLength line
      have hwhole := congrArg byteLength htext
      rw [Text.byteLength_append] at hwhole hstop
      rw [Text.byteLength_append] at hwhole
      have ha : a = [] := Text.eq_nil_of_byteLength_eq_zero (by omega)
      have hb : b = [] := Text.eq_nil_of_byteLength_eq_zero (by omega)
      rw [ha, hb, List.nil_append, List.append_nil] at htext
      have hpast : byteLength text ≤ offset.toNat := by omega
      refine ⟨by omega, by rw [htext, hcount], fun hmem => ?_⟩
      -- The line of the end would start behind a line feed, but it starts with the text.
      obtain ⟨lines, heq, -⟩ := Text.exists_lastLine hmem
      have hbytes := congrArg byteLength heq
      have hone : '\n'.utf8Size = 1 := rfl
      rw [Text.byteLength_append, Text.byteLength_cons, hone] at hbytes
      rw [lineStart_of_past hsize hpast, toNat_offsetWord (by omega), ha, Text.byteLength_nil]
        at hstart
      omega
  · rintro ⟨hoffset, hchars, hfree⟩
    have hpast : byteLength text ≤ offset.toNat := by omega
    have hslice := Text.slice?_append [] text []
    rw [List.nil_append, List.append_nil, Text.byteLength_nil] at hslice
    rw [lineStart_of_past hsize hpast, Text.lastLine_of_not_mem hfree, Nat.sub_self,
      toNat_offsetWord (by decide), Nat.min_eq_right hpast, hslice]
    exact hchars

end End

/-- A sum that leaves the words is zero. Apart from the two texts of the largest size that reach it
at their end, every offset of a text that has spans has a line and a column in the words. -/
theorem line_or_column_leaves_words_iff (source : String)
    (hsize : source.utf8ByteSize < UInt32.size) (offset : UInt32) :
    ((ofText source.toList).line offset = 0 ↔
      offset = 0xFFFFFFFF ∧ source.toList = List.replicate (UInt32.size - 1) '\n') ∧
    (((ofText source.toList).position source.toList offset).column = 0 ↔
      offset = 0xFFFFFFFF ∧ source.toList.length + 1 = UInt32.size ∧ '\n' ∉ source.toList) := by
  rw [← Text.byteLength_toList] at hsize
  exact ⟨line_eq_zero_iff hsize, column_eq_zero_iff hsize⟩

theorem line_or_column_leaves_words_iff_short :
    "é\n".utf8ByteSize < UInt32.size ∧ (ofText "é\n".toList).line 0xFFFFFFFF ≠ 0 ∧
      ((ofText "é\n".toList).position "é\n".toList 0xFFFFFFFF).column ≠ 0 := by
  obtain ⟨hline, hcolumn⟩ := line_or_column_leaves_words_iff "é\n" (by decide) 0xFFFFFFFF
  refine ⟨by decide, fun hzero => ?_, fun hzero => ?_⟩
  · have hlength := congrArg List.length (hline.mp hzero).2
    rw [List.length_replicate] at hlength
    exact absurd hlength (by decide)
  · exact absurd (hcolumn.mp hzero).2.1 (by decide)

theorem largest_texts_leave_words :
    ((String.ofList (List.replicate (UInt32.size - 1) '\n')).utf8ByteSize < UInt32.size ∧
      (ofText (List.replicate (UInt32.size - 1) '\n')).line 0xFFFFFFFF = 0) ∧
    (String.ofList (List.replicate (UInt32.size - 1) 'a')).utf8ByteSize < UInt32.size ∧
      ((ofText (List.replicate (UInt32.size - 1) 'a')).position
        (List.replicate (UInt32.size - 1) 'a') 0xFFFFFFFF).column = 0 := by
  have hbytes : ∀ c : Char, c.utf8Size = 1 →
      byteLength (List.replicate (UInt32.size - 1) c) < UInt32.size := by
    intro c hc
    rw [Text.byteLength_replicate, hc]
    decide
  have hfree : '\n' ∉ List.replicate (UInt32.size - 1) 'a' := by
    rw [List.mem_replicate]
    decide
  have hlength : (List.replicate (UInt32.size - 1) 'a').length + 1 = UInt32.size := by
    rw [List.length_replicate]
    rfl
  rw [← Text.byteLength_toList, ← Text.byteLength_toList, String.toList_ofList,
    String.toList_ofList]
  exact ⟨⟨hbytes '\n' rfl, (line_eq_zero_iff (hbytes '\n' rfl)).mpr ⟨rfl, rfl⟩⟩,
    hbytes 'a' rfl, (column_eq_zero_iff (hbytes 'a' rfl)).mpr ⟨rfl, hlength, hfree⟩⟩

end LineTable
end ShapeLang
