import ShapeLang.Text.Bytes

/-! Texts as bytes. No character but the line feed has the byte of a line feed in its code, and
codes stand in the order of their characters, so that names come in the same order by characters and
by bytes. -/

namespace ShapeLang.Text

def bytes (text : List Char) : List UInt8 :=
  text.flatMap String.utf8EncodeChar

@[simp] theorem bytes_nil : bytes [] = [] := rfl

@[simp] theorem bytes_cons (c : Char) (text : List Char) :
    bytes (c :: text) = String.utf8EncodeChar c ++ bytes text := rfl

@[simp] theorem length_bytes (text : List Char) : (bytes text).length = byteLength text := by
  induction text with
  | nil => rfl
  | cons c text ih => rw [bytes_cons, List.length_append, String.length_utf8EncodeChar, ih,
      byteLength_cons]

theorem toList_toUTF8 (s : String) : s.toUTF8.data.toList = bytes s.toList := by
  have hencode : s.toUTF8 = s.toList.utf8Encode := by
    rw [String.toUTF8_eq_toByteArray, ← String.toByteArray_ofList, String.ofList_toList]
  rw [hencode, List.utf8Encode, List.toList_data_toByteArray]
  rfl

theorem feed_not_mem_utf8EncodeChar {c : Char} (h : c ≠ '\n') : 10 ∉ String.utf8EncodeChar c := by
  have hne : c.val.toNat ≠ 10 := fun hten => h (Char.toNat_inj.mp hten)
  have hten : ∀ n : Nat, 10 = UInt8.ofNat n ↔ 10 = n % 256 := by
    intro n
    rw [← UInt8.toNat_inj, UInt8.toNat_ofNat']
    rfl
  simp only [String.utf8EncodeChar]
  generalize c.val.toNat = n at hne
  repeat' split
  all_goals simp only [List.mem_cons, List.not_mem_nil, or_false, hten]
  all_goals omega

theorem count_take_utf8EncodeChar (c : Char) (n : Nat) :
    ((String.utf8EncodeChar c).take n).count 10 = if c = '\n' ∧ 0 < n then 1 else 0 := by
  by_cases hc : c = '\n'
  · rw [hc]
    cases n with
    | zero => rfl
    | succ n => simp [String.utf8EncodeChar]
  · have hnone : 10 ∉ (String.utf8EncodeChar c).take n :=
      fun hmem => feed_not_mem_utf8EncodeChar hc (List.mem_of_mem_take hmem)
    rw [List.count_eq_zero_of_not_mem hnone, if_neg (fun h => hc h.1)]

theorem count_take_bytes_cons (c : Char) (text : List Char) (n : Nat) :
    ((bytes (c :: text)).take n).count 10 =
      (if c = '\n' ∧ 0 < n then 1 else 0) + ((bytes text).take (n - c.utf8Size)).count 10 := by
  rw [bytes_cons, List.take_append, List.count_append, String.length_utf8EncodeChar,
    count_take_utf8EncodeChar]

theorem count_take_bytes (before after : List Char) :
    ((bytes (before ++ after)).take (byteLength before)).count 10 = before.count '\n' := by
  induction before with
  | nil => simp
  | cons c before ih =>
    have hpos : 0 < c.utf8Size + byteLength before := Nat.add_pos_left c.utf8Size_pos _
    rw [List.cons_append, count_take_bytes_cons, byteLength_cons, Nat.add_sub_cancel_left, ih]
    by_cases hfeed : c = '\n'
    · rw [if_pos ⟨hfeed, hpos⟩, hfeed, List.count_cons_self, Nat.add_comm]
    · rw [if_neg (fun h => hfeed h.1), List.count_cons_of_ne hfeed, Nat.zero_add]

theorem utf8EncodeChar_append_lt {c d : Char} (h : c < d) (a b : List UInt8) :
    String.utf8EncodeChar c ++ a < String.utf8EncodeChar d ++ b := by
  have hlt : c.val.toNat < d.val.toNat := h
  have hmax : d.val.toNat < 0x110000 := by
    rcases d.valid with hd | ⟨-, hd⟩ <;> omega
  have hbyte : ∀ m n : Nat, UInt8.ofNat m < UInt8.ofNat n ↔ m % 256 < n % 256 := by
    intro m n
    rw [UInt8.lt_iff_toNat_lt, UInt8.toNat_ofNat', UInt8.toNat_ofNat']
  have hsame : ∀ m n : Nat, UInt8.ofNat m = UInt8.ofNat n ↔ m % 256 = n % 256 := by
    intro m n
    rw [← UInt8.toNat_inj, UInt8.toNat_ofNat', UInt8.toNat_ofNat']
  have hsixes : ∀ n : Nat, n / 4096 = n / 64 / 64 ∧ n / 262144 = n / 64 / 64 / 64 := by
    intro n
    simp only [Nat.div_div_eq_div_mul, and_self]
  simp only [String.utf8EncodeChar, hsixes]
  generalize c.val.toNat = m at hlt
  generalize d.val.toNat = n at hlt hmax
  -- A longer code starts with a greater byte. Codes of one length differ first at a digit to base
  -- 64 that decides which character is the greater one.
  repeat' split
  all_goals simp only [List.cons_append, List.cons_lt_cons_iff, hbyte, hsame]
  all_goals omega

theorem bytes_lt_of_lt {a b : List Char} (h : a < b) : bytes a < bytes b := by
  induction h with
  | @nil d b =>
    rw [bytes_cons]
    obtain ⟨first, code, hcode⟩ := List.exists_cons_of_ne_nil (@String.utf8EncodeChar_ne_nil d)
    rw [hcode]
    exact List.Lex.nil
  | rel h => exact utf8EncodeChar_append_lt h _ _
  | cons _ ih => exact List.append_left_lt ih

theorem lt_iff_toUTF8_lt {a b : String} :
    a < b ↔ a.toUTF8.data.toList < b.toUTF8.data.toList := by
  rw [toList_toUTF8, toList_toUTF8, String.lt_iff]
  refine ⟨bytes_lt_of_lt, fun h => ?_⟩
  rcases Std.lt_trichotomy a.toList b.toList with hlt | heq | hgt
  · exact hlt
  · rw [heq] at h
    exact absurd h (List.lt_irrefl _)
  · exact absurd h (List.lt_asymm (bytes_lt_of_lt hgt))

end ShapeLang.Text
