import ShapeLang.Proofs.Source.Place
import ShapeLang.Proofs.Text.Encoding

/-! Looking up any offset in the table of a text, also one inside a character or past the end. The
line is counted in the bytes before the offset. Where the text can be cut there, the column is
counted in the characters before it, so that a later place in the text has a later position. -/

namespace ShapeLang

open Text (byteLength bytes)

def Text.IsBoundary (text : List Char) (offset : Nat) : Prop :=
  ∃ before, before <+: text ∧ byteLength before = offset

namespace LineTable

variable {text : List Char} {offset : UInt32}

theorem countP_startsAfter {start : Nat} (hsize : start + byteLength text < UInt32.size)
    (offset : UInt32) :
    (startsAfter start text).countP (· ≤ offset) =
      ((bytes text).take (offset.toNat - start)).count 10 := by
  induction text generalizing start with
  | nil => simp [startsAfter]
  | cons c text ih =>
    rw [Text.byteLength_cons] at hsize
    have hrest : start + c.utf8Size + byteLength text < UInt32.size := by omega
    rw [startsAfter, Text.count_take_bytes_cons, Nat.sub_sub, ← ih hrest]
    by_cases hc : c = '\n'
    · have hone : c.utf8Size = 1 := by rw [hc]; rfl
      have hword : offsetWord (start + 1) ≤ offset ↔ 0 < offset.toNat - start := by
        rw [UInt32.le_iff_toNat_le, toNat_offsetWord (by omega)]
        omega
      rw [if_pos hc, List.countP_cons, hone, Nat.add_comm]
      simp only [hc, hword, true_and, decide_eq_true_eq]
    · rw [if_neg hc, if_neg (fun h => hc h.1), Nat.zero_add]

theorem index_eq_count (hsize : byteLength text < UInt32.size) (offset : UInt32) :
    (ofText text).index offset = ((bytes text).take offset.toNat).count 10 := by
  have hfirst : decide (0 ≤ offset) = true :=
    decide_eq_true (UInt32.le_iff_toNat_le.mpr (Nat.zero_le _))
  have hwhole : 0 + byteLength text < UInt32.size := by rwa [Nat.zero_add]
  rw [index_eq_countP (pairwise_starts_ofText text), ofText]
  dsimp only
  rw [List.countP_cons, if_pos hfirst, Nat.add_sub_cancel,
    countP_startsAfter hwhole, Nat.sub_zero]

theorem index_le_byteLength (hsize : byteLength text < UInt32.size) (offset : UInt32) :
    (ofText text).index offset ≤ min offset.toNat (byteLength text) := by
  rw [index_eq_count hsize, ← Text.length_bytes, ← List.length_take]
  exact List.count_le_length

theorem position_eq_after (hsize : byteLength text + 1 < UInt32.size) {before : List Char}
    (hstarts : before <+: text)
    (hbytes : byteLength before = min offset.toNat (byteLength text)) :
    (ofText text).position text offset = .after before := by
  obtain ⟨after, rfl⟩ := hstarts
  have hwhole := Text.byteLength_append before after
  have hplace : (ofText (before ++ after)).position (before ++ after)
      (.ofNat (byteLength before)) = .after before := position_ofText (by omega)
  have hword : (UInt32.ofNat (byteLength before)).toNat = byteLength before :=
    UInt32.toNat_ofNat_of_lt' (by omega)
  by_cases hinside : offset.toNat ≤ byteLength (before ++ after)
  · have hoffset : offset = .ofNat (byteLength before) := by
      rw [← UInt32.toNat_inj, hword]
      omega
    rwa [hoffset]
  · -- Past the end there is no further line feed and nothing more to cut off.
    have hline : (ofText (before ++ after)).line offset =
        (ofText (before ++ after)).line (.ofNat (byteLength before)) := by
      have hlength := Text.length_bytes (before ++ after)
      rw [line, line, index_eq_count (by omega), index_eq_count (by omega), hword,
        List.take_of_length_le (by omega), List.take_of_length_le (by omega)]
    have hstop : min offset.toNat (byteLength (before ++ after)) =
        min (UInt32.ofNat (byteLength before)).toNat (byteLength (before ++ after)) := by
      omega
    rw [← hplace, position, position, hline, hstop]

theorem position_before (hsize : byteLength text + 1 < UInt32.size) {later : UInt32}
    (hcut : Text.IsBoundary text offset.toNat) (hcut' : Text.IsBoundary text later.toNat)
    (hlt : offset < later) :
    ((ofText text).position text offset).Before ((ofText text).position text later) := by
  obtain ⟨before, hbefore, hbytes⟩ := hcut
  obtain ⟨longer, hlonger, hbytes'⟩ := hcut'
  have hle := Text.byteLength_le_of_prefix hbefore
  have hle' := Text.byteLength_le_of_prefix hlonger
  rw [UInt32.lt_iff_toNat_lt] at hlt
  obtain ⟨between, rfl⟩ := Text.prefix_of_byteLength_le hbefore hlonger (by omega)
  have hne : between ≠ [] := by
    rintro rfl
    rw [List.append_nil] at hbytes'
    omega
  rw [position_eq_after hsize hbefore (by omega), position_eq_after hsize hlonger (by omega)]
  exact (Position.counts_after (by omega)).before (Position.counts_after (by omega)) hne

theorem not_lt_of_position_eq (hsize : byteLength text + 1 < UInt32.size) {later : UInt32}
    (hcut : Text.IsBoundary text offset.toNat) (hcut' : Text.IsBoundary text later.toNat)
    (h : (ofText text).position text offset = (ofText text).position text later) :
    ¬ offset < later := by
  intro hlt
  have hbefore := position_before hsize hcut hcut' hlt
  rw [h] at hbefore
  exact Position.not_before_self _ hbefore

/-- The line of any offset is counted in the bytes before it, and its position in the characters if
it is a boundary; past the end it is that of the end. Positions come in the order of the boundaries,
and no two boundaries share one. -/
theorem lookup_counts (source : String) (hsize : source.utf8ByteSize < 0xFFFFFFFF) :
    (∀ offset : UInt32, ((ofText source.toList).line offset).toNat =
      (source.toUTF8.data.toList.take (min offset.toNat source.utf8ByteSize)).count 10 + 1) ∧
    (∀ (offset : UInt32) (before : List Char), before <+: source.toList →
      byteLength before = min offset.toNat source.utf8ByteSize →
      ((ofText source.toList).position source.toList offset).line =
        (ofText source.toList).line offset ∧
      ((ofText source.toList).position source.toList offset).Counts before) ∧
    ∀ offset later : UInt32, Text.IsBoundary source.toList offset.toNat →
      Text.IsBoundary source.toList later.toNat →
      (offset < later →
        ((ofText source.toList).position source.toList offset).Before
          ((ofText source.toList).position source.toList later)) ∧
      ((ofText source.toList).position source.toList offset =
        (ofText source.toList).position source.toList later → offset = later) := by
  rw [← Text.byteLength_toList] at hsize ⊢
  rw [Text.toList_toUTF8]
  generalize source.toList = text at hsize ⊢
  have hwords : byteLength text + 1 < UInt32.size := Nat.succ_lt_succ hsize
  refine ⟨fun offset => ?_, fun offset before hstarts hbytes => ⟨rfl, ?_⟩,
    fun offset later hcut hcut' => ⟨position_before hwords hcut hcut', fun hsame => ?_⟩⟩
  · have hle := index_le_byteLength (Nat.lt_of_succ_lt hwords) offset
    have htake : (bytes text).take (min offset.toNat (byteLength text)) =
        (bytes text).take offset.toNat := by
      rw [← Text.length_bytes, ← List.take_eq_take_min]
    rw [line, toNat_oneBased (by omega), index_eq_count (by omega), htake]
  · rw [position_eq_after hwords hstarts hbytes]
    exact Position.counts_after (by omega)
  · exact UInt32.le_antisymm
      (UInt32.not_lt.mp (not_lt_of_position_eq hwords hcut' hcut hsame.symm))
      (UInt32.not_lt.mp (not_lt_of_position_eq hwords hcut hcut' hsame))

theorem lookup_counts_accent :
    "é\nb".utf8ByteSize < 0xFFFFFFFF ∧
    ((ofText "é\nb".toList).line 1).toNat = 1 ∧
    ((ofText "é\nb".toList).position "é\nb".toList 2).Before
      ((ofText "é\nb".toList).position "é\nb".toList 3) ∧
    ((ofText "é\nb".toList).position "é\nb".toList 9).Counts "é\nb".toList := by
  obtain ⟨hline, hplace, horder⟩ := lookup_counts "é\nb" (by decide)
  have hcut : Text.IsBoundary "é\nb".toList 2 := ⟨"é".toList, ⟨"\nb".toList, rfl⟩, rfl⟩
  have hcut' : Text.IsBoundary "é\nb".toList 3 := ⟨"é\n".toList, ⟨"b".toList, rfl⟩, rfl⟩
  exact ⟨by decide, hline 1, (horder 2 3 hcut hcut').1 (by decide),
    (hplace 9 "é\nb".toList (List.prefix_refl _) rfl).2⟩

end LineTable
end ShapeLang
