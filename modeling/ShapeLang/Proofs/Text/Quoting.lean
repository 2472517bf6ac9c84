import ShapeLang.Proofs.Numeral.Written
import ShapeLang.Text.Quoted

/-! Quoted text tells the text between its quotes and where it ends, whatever stands behind it and
whichever characters are hidden. It has no control character of ASCII, so it stays on its line. -/

namespace ShapeLang.Text

/-- Free of control characters of ASCII. -/
def ControlFree (text : List Char) : Prop :=
  ∀ c ∈ text, Quoted.isControl c = false

instance (text : List Char) : Decidable (ControlFree text) :=
  decidable_of_iff (text.all fun c => !Quoted.isControl c) (by simp [ControlFree])

@[simp] theorem controlFree_nil : ControlFree [] :=
  List.forall_mem_nil _

@[simp] theorem controlFree_cons {c : Char} {text : List Char} :
    ControlFree (c :: text) ↔ Quoted.isControl c = false ∧ ControlFree text :=
  List.forall_mem_cons

@[simp] theorem controlFree_append {a b : List Char} :
    ControlFree (a ++ b) ↔ ControlFree a ∧ ControlFree b :=
  List.forall_mem_append

theorem ControlFree.feed_not_mem {text : List Char} (h : ControlFree text) : '\n' ∉ text :=
  fun hmem => absurd (h '\n' hmem) (by decide)

theorem controlFree_toDigits (radix : Radix) (n : Nat) :
    ControlFree (Nat.toDigits radix.base n) ∧
      ControlFree ((Nat.toDigits radix.base n).map Char.toUpper) := by
  have hbase : radix.base ≤ 16 := by cases radix <;> decide
  have hdigits : ∀ k < 16, Quoted.isControl (Nat.digitChar k) = false ∧
      Quoted.isControl (Nat.digitChar k).toUpper = false := by decide
  refine ⟨fun c hc => ?_, List.forall_mem_map.mpr fun c hc => ?_⟩
  · obtain ⟨k, hk, rfl⟩ := Radix.exists_digitChar_of_mem hc
    exact (hdigits k (by omega)).1
  · obtain ⟨k, hk, rfl⟩ := Radix.exists_digitChar_of_mem hc
    exact (hdigits k (by omega)).2

namespace Quoted

def letterTable : List (Char × Char) :=
  [('"', '"'), ('\\', '\\'), ('\x00', '0'), ('\t', 't'), ('\n', 'n'), ('\r', 'r')]

inductive Form (c : Char) : List Char → Prop where
  | letter {letter : Char} : (c, letter) ∈ letterTable → Form c ['\\', letter]
  | codePoint : Form c (codePoint c)
  | raw : (∀ entry ∈ letterTable, c ≠ entry.1) → isControl c = false → Form c [c]

theorem form_escape (hidden : Char → Bool) (c : Char) : Form c (escape hidden c) := by
  by_cases hletter : ∀ entry ∈ letterTable, c ≠ entry.1
  · have hne : c ≠ '"' ∧ c ≠ '\\' ∧ c ≠ '\x00' ∧ c ≠ '\t' ∧ c ≠ '\n' ∧ c ≠ '\r' := by
      simpa [letterTable] using hletter
    simp only [escape, hne, if_false]
    split
    · exact Form.codePoint
    · rename_i hshown
      have hclear : isControl c = false ∧ hidden c = false := by simpa using hshown
      exact Form.raw hletter hclear.1
  · have hentry : ∃ entry ∈ letterTable, c = entry.1 := by simpa using hletter
    have hescape : ∀ entry ∈ letterTable, escape hidden entry.1 = ['\\', entry.2] := by
      simp [letterTable, escape]
    obtain ⟨entry, hmem, rfl⟩ := hentry
    rw [hescape entry hmem]
    exact Form.letter hmem

theorem codePoint_append_inj {c d : Char} {r s : List Char}
    (h : codePoint c ++ r = codePoint d ++ s) : c = d ∧ r = s := by
  have hcode : ∀ (c : Char) (t : List Char), codePoint c ++ t =
      '\\' :: 'u' :: '\x7b' :: (Nat.toDigits Radix.hexadecimal.base c.toNat ++ '\x7d' :: t) := by
    intro c t
    simp [codePoint, lowerHex, Radix.base]
  have hstop : ∀ t : List Char, ∀ e ∈ ('\x7d' :: t).head?,
      Radix.hexadecimal.isDigit e = false := by
    rintro t e he
    rw [← Option.mem_some_iff.mp he]
    decide
  rw [hcode, hcode] at h
  obtain ⟨hvalue, htail⟩ := Radix.toDigits_append_inj (hstop r) (hstop s)
    (List.cons.inj (List.cons.inj (List.cons.inj h).2).2).2
  exact ⟨Char.toNat_inj.mp hvalue, (List.cons.inj htail).2⟩

theorem Form.append_inj {c d : Char} {a b r s : List Char} (ha : Form c a) (hb : Form d b)
    (h : a ++ r = b ++ s) : c = d ∧ r = s := by
  have hslash : ('\\', '\\') ∈ letterTable := by decide
  have hcode : ∀ entry ∈ letterTable, entry.2 ≠ 'u' := by decide
  have hletters : ∀ entry ∈ letterTable, ∀ entry' ∈ letterTable,
      entry.2 = entry'.2 → entry.1 = entry'.1 := by decide
  cases ha with
  | @letter letter hc =>
    cases hb with
    | @letter letter' hd =>
      obtain ⟨-, htail⟩ := List.cons.inj h
      obtain ⟨hsame, hrest⟩ := List.cons.inj htail
      exact ⟨hletters _ hc _ hd hsame, hrest⟩
    | codePoint => exact absurd (List.cons.inj (List.cons.inj h).2).1 (hcode _ hc)
    | raw hraw _ => exact absurd (List.cons.inj h).1.symm (hraw _ hslash)
  | codePoint =>
    cases hb with
    | letter hd => exact absurd (List.cons.inj (List.cons.inj h).2).1.symm (hcode _ hd)
    | codePoint => exact codePoint_append_inj h
    | raw hraw _ => exact absurd (List.cons.inj h).1.symm (hraw _ hslash)
  | raw hraw _ =>
    cases hb with
    | letter => exact absurd (List.cons.inj h).1 (hraw _ hslash)
    | codePoint => exact absurd (List.cons.inj h).1 (hraw _ hslash)
    | raw => exact List.cons.inj h

theorem Form.ne_quote {c : Char} {a r s : List Char} (h : Form c a) : '"' :: r ≠ a ++ s := by
  intro heq
  cases h with
  | letter => exact absurd (List.cons.inj heq).1 (by decide)
  | codePoint => exact absurd (List.cons.inj heq).1 (by decide)
  | raw hraw _ => exact absurd (List.cons.inj heq).1.symm (hraw ('"', '"') (by decide))

theorem Form.controlFree {c : Char} {a : List Char} (h : Form c a) : ControlFree a := by
  cases h with
  | @letter letter hc =>
    have hletters : ∀ entry ∈ letterTable, ControlFree ['\\', entry.2] := by decide
    exact hletters _ hc
  | codePoint =>
    have hopen : ControlFree ['\\', 'u', '\x7b'] := by decide
    have hclose : ControlFree ['\x7d'] := by decide
    have hdigits : ControlFree (lowerHex c.toNat).toList := by
      rw [lowerHex, String.toList_ofList]
      exact (controlFree_toDigits .hexadecimal c.toNat).1
    rw [Quoted.codePoint, controlFree_append, controlFree_append]
    exact ⟨⟨hopen, hdigits⟩, hclose⟩
  | raw _ hshown => exact controlFree_cons.mpr ⟨hshown, controlFree_nil⟩

end Quoted

variable {hidden : Char → Bool} {a b : String} {r s : List Char}

theorem toList_quoted (text : String) (hidden : Char → Bool) :
    (quoted text hidden).toList = '"' :: (text.toList.flatMap (Quoted.escape hidden) ++ ['"']) := by
  simp [quoted]

theorem quoted_append_inj (h : (quoted a hidden).toList ++ r = (quoted b hidden).toList ++ s) :
    a = b ∧ r = s := by
  have hbody : a.toList.flatMap (Quoted.escape hidden) ++ '"' :: r =
      b.toList.flatMap (Quoted.escape hidden) ++ '"' :: s := by
    simpa [toList_quoted] using h
  obtain ⟨htext, htail⟩ := flatMap_append_inj
    (fun c d _ _ => (Quoted.form_escape hidden c).append_inj (Quoted.form_escape hidden d))
    (fun c _ => (Quoted.form_escape hidden c).ne_quote)
    (fun c _ => (Quoted.form_escape hidden c).ne_quote) hbody
  rw [List.forall₂_eq_eq_eq] at htext
  exact ⟨String.toList_inj.mp htext, (List.cons.inj htail).2⟩

theorem controlFree_quoted (text : String) (hidden : Char → Bool) :
    ControlFree (quoted text hidden).toList := by
  have hquote : Quoted.isControl '"' = false := by decide
  have hbody : ControlFree (text.toList.flatMap (Quoted.escape hidden)) := by
    intro d hd
    obtain ⟨c, -, hd⟩ := List.mem_flatMap.mp hd
    exact (Quoted.form_escape hidden c).controlFree d hd
  rw [toList_quoted, controlFree_cons, controlFree_append]
  exact ⟨hquote, hbody, controlFree_cons.mpr ⟨hquote, controlFree_nil⟩⟩

end ShapeLang.Text
