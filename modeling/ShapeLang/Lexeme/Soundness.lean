import ShapeLang.Lexeme.Bounds
import ShapeLang.Lexeme.Grammar

/-! What is read is what the grammar allows: a reading with a category takes a text of that
category. -/

namespace ShapeLang.Reading

open Category (IsDecimal IsExponent IsItem Spells)
open Text (isPunctuation)

theorem take_runLength (p : Char → Bool) (text : List Char) :
    text.take (runLength p text) = text.takeWhile p :=
  (List.prefix_iff_eq_take.mp (List.takeWhile_prefix p)).symm

theorem drop_runLength (p : Char → Bool) (text : List Char) :
    text.drop (runLength p text) = text.dropWhile p := by
  have h : text.takeWhile p ++ text.drop (runLength p text) =
      text.takeWhile p ++ text.dropWhile p := by
    rw [← take_runLength, List.take_append_drop, take_runLength, List.takeWhile_append_dropWhile]
  exact List.append_cancel_left h

theorem of_mem_takeWhile {p : Char → Bool} {text : List Char} {c : Char}
    (h : c ∈ text.takeWhile p) : p c :=
  List.all_eq_true.mp List.all_takeWhile c h

theorem take_runLength_add (p : Char → Bool) (text : List Char) (n : Nat) :
    text.take (runLength p text + n) =
      text.takeWhile p ++ (text.drop (runLength p text)).take n := by
  rw [List.take_add, take_runLength]

theorem isExponent_take {text : List Char} (h : exponentLength text ≠ 0) :
    IsExponent (text.take (exponentLength text)) := by
  cases text with
  | nil => exact absurd rfl h
  | cons mark text =>
    simp only [exponentLength] at h ⊢
    split at h
    · rename_i hmark
      rw [if_pos hmark]
      split at h
      · exact absurd rfl h
      · rename_i hdigits
        rw [if_neg hdigits, Nat.add_assoc, Nat.add_comm, List.take_succ_cons, List.take_add,
          take_runLength]
        refine ⟨mark, _, _, rfl, by simpa using hmark, ?_, ?_, fun c hc => of_mem_takeWhile hc⟩
        · cases text with
          | nil => exact Or.inl rfl
          | cons c text =>
            rw [signLength]
            split
            · rename_i hc
              right
              simpa using hc
            · exact Or.inl rfl
        · exact fun hnil => hdigits (by rw [runLength, hnil]; rfl)
    · exact absurd rfl h

theorem isDecimal_cons {first : Char} (h : Radix.decimal.isDigit first) (text : List Char) :
    IsDecimal (first :: text.takeWhile Radix.decimal.isBody) :=
  ⟨first, _, rfl, h, fun _ hc => of_mem_takeWhile hc⟩

theorem spells_decimal {first : Char} (h : Radix.decimal.isDigit first) (text : List Char)
    (category : Category) (hcategory : (decimal text).category = some category) :
    category.Spells (first :: text.take (decimal text).extra) := by
  revert hcategory
  unfold decimal
  dsimp only
  split
  · rename_i tail htail
    intro hcategory
    obtain rfl := Option.some.inj hcategory
    dsimp only
    rw [Nat.add_assoc, Nat.add_assoc, take_runLength_add, htail, Nat.add_comm 1,
      List.take_succ_cons, take_runLength_add]
    refine ⟨_, _, (List.cons_append ..).symm, isDecimal_cons h text, Or.inr
      ⟨_, _, rfl, fun c hc => of_mem_takeWhile hc, ?_⟩⟩
    by_cases hexponent : exponentLength (tail.drop (runLength Radix.decimal.isBody tail)) = 0
    · exact Or.inl (by rw [hexponent, List.take_zero])
    · exact Or.inr (isExponent_take hexponent)
  · split
    · intro hcategory
      obtain rfl := Option.some.inj hcategory
      dsimp only
      rw [take_runLength]
      exact isDecimal_cons h text
    · rename_i hexponent
      intro hcategory
      obtain rfl := Option.some.inj hcategory
      dsimp only
      rw [take_runLength_add]
      exact ⟨_, _, (List.cons_append ..).symm, isDecimal_cons h text,
        Or.inl (isExponent_take hexponent)⟩

theorem spells_marked {first : Char} {text : List Char} {reading : Reading}
    (h : marked? first text = some reading) (category : Category)
    (hcategory : reading.category = some category) :
    category.Spells (first :: text.take reading.extra) := by
  cases text with
  | nil => cases h
  | cons mark text =>
    rw [marked?] at h
    split at h
    · rename_i hfirst
      subst hfirst
      obtain ⟨radix, hmark, h⟩ := Option.bind_eq_some_iff.mp h
      dsimp only at h
      split at h
      · cases h
      · rename_i hbody
        obtain rfl := Option.some.inj h
        obtain rfl := Option.some.inj hcategory
        rw [Nat.add_comm, List.take_succ_cons, take_runLength]
        have hne : text.takeWhile radix.isBody ≠ [] :=
          fun hnil => hbody (by rw [runLength, hnil]; rfl)
        have hspells : ∃ m body, '0' :: mark :: text.takeWhile radix.isBody = '0' :: m :: body ∧
            Radix.ofMark? m = some radix ∧ body ≠ [] ∧ ∀ c ∈ body, radix.isBody c :=
          ⟨mark, _, rfl, hmark, hne, fun c hc => of_mem_takeWhile hc⟩
        cases radix with
        | decimal => exact absurd hmark (Radix.ofMark?_ne_decimal mark)
        | binary => exact hspells
        | octal => exact hspells
        | hexadecimal => exact hspells
    · cases h

theorem spells_number {first : Char} (h : Radix.decimal.isDigit first) (text : List Char)
    (category : Category) (hcategory : (number first text).category = some category) :
    category.Spells (first :: text.take (number first text).extra) := by
  unfold number at hcategory ⊢
  cases hmarked : marked? first text with
  | none =>
    rw [hmarked] at hcategory
    exact spells_decimal h text category hcategory
  | some reading =>
    rw [hmarked] at hcategory
    exact spells_marked hmarked category hcategory

theorem take_closeLength? {text : List Char} {n : Nat} (h : closeLength? text = some n) :
    ∃ body, text.take n = body ++ ['*', '/'] ∧ ¬ ['*', '/'] <:+: body ++ ['*'] := by
  fun_induction closeLength? text generalizing n with
  | case1 => cases h
  | case2 text =>
    obtain rfl := Option.some.inj h
    exact ⟨[], rfl, by simp [List.infix_cons_iff]⟩
  | case3 c text hopen ih =>
    obtain ⟨m, hm, rfl⟩ := Option.map_eq_some_iff.mp h
    obtain ⟨body, hbody, hearly⟩ := ih hm
    refine ⟨c :: body, by rw [List.take_succ_cons, hbody]; rfl, ?_⟩
    rw [List.cons_append, List.infix_cons_iff]
    rintro (hopens | hinfix)
    · obtain ⟨rfl, hrest⟩ := List.cons_prefix_cons.mp hopens
      cases body with
      | nil => simp at hrest
      | cons d body =>
        obtain ⟨rfl, -⟩ := List.cons_prefix_cons.mp hrest
        cases text with
        | nil => simp at hbody
        | cons d text =>
          cases m with
          | zero => simp at hbody
          | succ m =>
            obtain ⟨hd, -⟩ := List.cons.inj hbody
            exact hopen text rfl (by rw [hd])
    · exact hearly hinfix

theorem spells_slash (text : List Char) (category : Category)
    (hcategory : (slash text).category = some category) :
    category.Spells ('/' :: text.take (slash text).extra) := by
  cases text with
  | nil =>
    obtain rfl := Option.some.inj hcategory
    exact ⟨rfl, by decide⟩
  | cons c text =>
    unfold slash at hcategory ⊢
    split at hcategory
    · rename_i text heq
      obtain ⟨rfl, rfl⟩ := List.cons.inj heq
      obtain rfl := Option.some.inj hcategory
      rw [Nat.add_comm, List.take_succ_cons, take_runLength]
      exact ⟨_, rfl, fun hmem => by simpa using of_mem_takeWhile hmem⟩
    · rename_i text heq
      obtain ⟨rfl, rfl⟩ := List.cons.inj heq
      split at hcategory
      · rename_i n hclose
        obtain rfl := Option.some.inj hcategory
        obtain ⟨body, hbody, hearly⟩ := take_closeLength? hclose
        dsimp only
        rw [Nat.add_comm, List.take_succ_cons, hbody]
        exact ⟨body, rfl, hearly⟩
      · cases hcategory
    · obtain rfl := Option.some.inj hcategory
      exact ⟨rfl, by decide⟩

theorem take_stringBody {text : List Char} {n : Nat} (h : stringBody text = .closed n) :
    ∃ items : List (List Char), text.take (n + 1) = items.flatten ++ ['"'] ∧
      ∀ item ∈ items, IsItem '"' item := by
  fun_induction stringBody text generalizing n with
  | case1 => cases h
  | case2 text =>
    obtain rfl : 0 = n := by simpa using h
    exact ⟨[], rfl, by simp⟩
  | case3 => cases h
  | case4 c text hc ih =>
    cases hbody : stringBody text with
    | unclosed m => simp [hbody, Body.grow] at h
    | closed m =>
      obtain rfl : 2 + m = n := by simpa [hbody, Body.grow] using h
      obtain ⟨items, htake, hitems⟩ := ih hbody
      refine ⟨['\\', c] :: items, ?_, ?_⟩
      · rw [show 2 + m + 1 = m + 1 + 1 + 1 by omega, List.take_succ_cons, List.take_succ_cons,
          htake]
        rfl
      · intro item hitem
        rcases List.mem_cons.mp hitem with rfl | hitem
        · exact Or.inr ⟨c, rfl, hc⟩
        · exact hitems item hitem
  | case5 => cases h
  | case6 c text hquote hescape hc ih =>
    cases hbody : stringBody text with
    | unclosed m => simp [hbody, Body.grow] at h
    | closed m =>
      obtain rfl : 1 + m = n := by simpa [hbody, Body.grow] using h
      obtain ⟨items, htake, hitems⟩ := ih hbody
      refine ⟨[c] :: items, ?_, ?_⟩
      · rw [show 1 + m + 1 = m + 1 + 1 by omega, List.take_succ_cons, htake]
        rfl
      · intro item hitem
        rcases List.mem_cons.mp hitem with rfl | hitem
        · have hplain : (c ≠ '\\' ∧ c ≠ '\n') ∧ c ≠ '\r' := by simpa using hc
          exact Or.inl ⟨c, rfl, hquote, hplain.1.1, hplain.1.2, hplain.2⟩
        · exact hitems item hitem

theorem spells_string (text : List Char) (category : Category)
    (hcategory : (string text).category = some category) :
    category.Spells ('"' :: text.take (string text).extra) := by
  unfold string at hcategory ⊢
  cases hbody : stringBody text with
  | closed n =>
    rw [hbody] at hcategory
    obtain rfl := Option.some.inj hcategory
    obtain ⟨items, htake, hitems⟩ := take_stringBody hbody
    exact ⟨items, congrArg _ htake, hitems⟩
  | unclosed n =>
    rw [hbody] at hcategory
    cases n with
    | zero =>
      obtain rfl := Option.some.inj hcategory
      exact ⟨rfl, by decide⟩
    | succ n => cases hcategory

theorem spells_rawString (text : List Char) (category : Category)
    (hcategory : (rawString text).category = some category) :
    category.Spells ('\x60' :: text.take (rawString text).extra) := by
  simp only [rawString] at hcategory ⊢
  split at hcategory
  · rename_i hclosed
    obtain rfl := Option.some.inj hcategory
    rw [if_pos hclosed]
    dsimp only
    rw [take_runLength_add, drop_runLength]
    refine ⟨text.takeWhile (· ≠ '\x60'), ?_, fun hmem => by simpa using of_mem_takeWhile hmem⟩
    have hlength := congrArg List.length (List.takeWhile_append_dropWhile
      (p := (· ≠ '\x60')) (l := text))
    cases hdrop : text.dropWhile (· ≠ '\x60') with
    | nil =>
      rw [hdrop, List.append_nil] at hlength
      exact absurd hlength (Nat.ne_of_lt hclosed)
    | cons c rest =>
      have hstop := List.head?_dropWhile_not (· ≠ '\x60') text
      rw [hdrop] at hstop
      have hc : c = '\x60' := by simpa using hstop
      rw [hc]
      rfl
  · rename_i hopen
    split at hcategory
    · rename_i hzero
      obtain rfl := Option.some.inj hcategory
      rw [if_neg hopen, if_pos hzero]
      exact ⟨rfl, by decide⟩
    · cases hcategory

theorem spells_character (text : List Char) (category : Category)
    (hcategory : (character text).category = some category) :
    category.Spells ('\'' :: text.take (character text).extra) := by
  have hmark : (Category.punctuation '\'').Spells ['\''] := ⟨rfl, by decide⟩
  revert hcategory
  unfold character
  split
  · rename_i c text
    split
    · intro hcategory
      obtain rfl := Option.some.inj hcategory
      exact hmark
    · rename_i hc
      intro hcategory
      obtain rfl := Option.some.inj hcategory
      exact ⟨['\\', c], rfl, Or.inr ⟨c, rfl, hc⟩⟩
  · rename_i c text hescape
    split
    · intro hcategory
      obtain rfl := Option.some.inj hcategory
      exact hmark
    · rename_i hc
      intro hcategory
      obtain rfl := Option.some.inj hcategory
      have hplain : ((c ≠ '\\' ∧ c ≠ '\'') ∧ c ≠ '\n') ∧ c ≠ '\r' := by simpa using hc
      exact ⟨[c], rfl, Or.inl
        ⟨c, rfl, hplain.1.1.2, hplain.1.1.1, hplain.1.2, hplain.2⟩⟩
  · intro hcategory
    obtain rfl := Option.some.inj hcategory
    exact hmark

theorem spells_longest (first : Char) (text : List Char) (category : Category)
    (hcategory : (longest first text).category = some category) :
    category.Spells (first :: text.take (longest first text).extra) := by
  revert hcategory
  unfold longest
  split
  · rename_i h
    subst h
    exact spells_slash text category
  split
  · rename_i h
    subst h
    exact spells_string text category
  split
  · rename_i h
    subst h
    exact spells_rawString text category
  split
  · rename_i h
    subst h
    exact spells_character text category
  split
  · rename_i h
    exact spells_number h text category
  split
  · rename_i h
    intro hcategory
    obtain rfl := Option.some.inj hcategory
    dsimp only
    rw [take_runLength]
    exact ⟨first, _, rfl, h, fun c hc => of_mem_takeWhile hc⟩
  split
  · rename_i h
    intro hcategory
    obtain rfl := Option.some.inj hcategory
    exact ⟨rfl, h⟩
  · intro hcategory
    cases hcategory

end ShapeLang.Reading
