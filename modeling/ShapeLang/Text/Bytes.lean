/-! Byte offsets into a text. A text is cut at the offsets where a character starts, and nowhere
else. -/

namespace ShapeLang.Text

def byteLength : List Char → Nat
  | [] => 0
  | c :: text => c.utf8Size + byteLength text

/-- The first `n` bytes and what follows them, unless `n` falls inside a character or beyond the
end. -/
def cut? : Nat → List Char → Option (List Char × List Char)
  | 0, text => some ([], text)
  | _ + 1, [] => none
  | n + 1, c :: text =>
    if c.utf8Size ≤ n + 1 then
      (cut? (n + 1 - c.utf8Size) text).map fun parts => (c :: parts.1, parts.2)
    else none

def slice? (text : List Char) (start stop : Nat) : Option (List Char) :=
  if start ≤ stop then
    (cut? start text).bind fun parts => (cut? (stop - start) parts.2).map Prod.fst
  else none

@[simp] theorem byteLength_nil : byteLength [] = 0 := rfl

@[simp] theorem byteLength_cons (c : Char) (text : List Char) :
    byteLength (c :: text) = c.utf8Size + byteLength text := rfl

@[simp] theorem byteLength_append (a b : List Char) :
    byteLength (a ++ b) = byteLength a + byteLength b := by
  induction a with
  | nil => simp
  | cons c a ih => simp [ih, Nat.add_assoc]

theorem byteLength_pos {text : List Char} (h : text ≠ []) : 0 < byteLength text := by
  obtain ⟨c, body, rfl⟩ := List.exists_cons_of_ne_nil h
  exact Nat.lt_of_lt_of_le c.utf8Size_pos (Nat.le_add_right _ _)

theorem byteLength_le_of_prefix {a text : List Char} (h : a <+: text) :
    byteLength a ≤ byteLength text := by
  obtain ⟨rest, rfl⟩ := h
  rw [byteLength_append]
  exact Nat.le_add_right _ _

theorem prefix_of_byteLength_le {a b text : List Char} (ha : a <+: text) (hb : b <+: text)
    (h : byteLength a ≤ byteLength b) : a <+: b := by
  rcases List.prefix_or_prefix_of_prefix ha hb with hab | ⟨rest, rfl⟩
  · exact hab
  · have hrest : rest = [] := by
      apply Classical.byContradiction
      intro hne
      have hpos := byteLength_pos hne
      rw [byteLength_append] at h
      omega
    exact ⟨[], by rw [hrest, List.append_nil, List.append_nil]⟩

theorem eq_of_byteLength_eq {a b text : List Char} (ha : a <+: text) (hb : b <+: text)
    (h : byteLength a = byteLength b) : a = b := by
  have hab := prefix_of_byteLength_le ha hb (Nat.le_of_eq h)
  have hba := prefix_of_byteLength_le hb ha (Nat.le_of_eq h.symm)
  exact hab.eq_of_length (Nat.le_antisymm hab.length_le hba.length_le)

theorem byteLength_toList (s : String) : byteLength s.toList = s.utf8ByteSize := by
  suffices h : ∀ text, (String.ofList text).utf8ByteSize = byteLength text by
    rw [← h, String.ofList_toList]
  intro text
  induction text with
  | nil => simp
  | cons c text ih =>
    have hcons : String.ofList (c :: text) = String.singleton c ++ String.ofList text := by
      rw [String.singleton_eq_ofList, ← String.ofList_append]
      rfl
    rw [hcons, String.utf8ByteSize_append, String.utf8ByteSize_singleton, ih, byteLength_cons]

theorem cut?_append (a b : List Char) : cut? (byteLength a) (a ++ b) = some (a, b) := by
  induction a with
  | nil => simp [cut?]
  | cons c a ih =>
    have hc : 0 < c.utf8Size := c.utf8Size_pos
    obtain ⟨n, hn⟩ : ∃ n, byteLength (c :: a) = n + 1 := ⟨c.utf8Size + byteLength a - 1, by
      rw [byteLength_cons]; omega⟩
    have hrest : n + 1 - c.utf8Size = byteLength a := by rw [← hn, byteLength_cons]; omega
    have hfits : c.utf8Size ≤ n + 1 := by rw [← hn, byteLength_cons]; omega
    rw [hn, List.cons_append, cut?, if_pos hfits, hrest, ih, Option.map_some]

theorem cut?_eq_some_iff {n : Nat} {text a b : List Char} :
    cut? n text = some (a, b) ↔ text = a ++ b ∧ byteLength a = n := by
  refine ⟨fun h => ?_, fun ⟨htext, hbytes⟩ => by rw [htext, ← hbytes, cut?_append]⟩
  fun_induction cut? n text generalizing a b with
  | case1 text =>
    obtain ⟨rfl, rfl⟩ := Prod.mk.inj (Option.some.inj h)
    exact ⟨rfl, rfl⟩
  | case2 => cases h
  | case3 n c text hfits ih =>
    obtain ⟨⟨front, rest⟩, hcut, heq⟩ := Option.map_eq_some_iff.mp h
    obtain ⟨rfl, rfl⟩ := Prod.mk.inj heq
    obtain ⟨rfl, hbytes⟩ := ih hcut
    refine ⟨rfl, ?_⟩
    rw [byteLength_cons, hbytes]
    omega
  | case4 => cases h

theorem slice?_append (a b c : List Char) :
    slice? (a ++ b ++ c) (byteLength a) (byteLength (a ++ b)) = some b := by
  have hsub : byteLength (a ++ b) - byteLength a = byteLength b := by
    rw [byteLength_append]; omega
  have hle : byteLength a ≤ byteLength (a ++ b) := by rw [byteLength_append]; omega
  rw [slice?, if_pos hle, List.append_assoc, cut?_append, Option.bind_some, hsub, cut?_append,
    Option.map_some]

theorem append_of_slice? {text slice : List Char} {start stop : Nat}
    (h : slice? text start stop = some slice) :
    ∃ a b, text = a ++ slice ++ b ∧ byteLength a = start ∧ byteLength (a ++ slice) = stop := by
  rw [slice?] at h
  split at h
  · obtain ⟨⟨a, rest⟩, hstart, hstop⟩ := Option.bind_eq_some_iff.mp h
    obtain ⟨⟨slice, b⟩, hcut, rfl⟩ := Option.map_eq_some_iff.mp hstop
    obtain ⟨rfl, ha⟩ := cut?_eq_some_iff.mp hstart
    obtain ⟨rfl, hslice⟩ := cut?_eq_some_iff.mp hcut
    refine ⟨a, b, (List.append_assoc ..).symm, ha, ?_⟩
    rw [byteLength_append, ha, hslice]
    omega
  · cases h

end ShapeLang.Text
