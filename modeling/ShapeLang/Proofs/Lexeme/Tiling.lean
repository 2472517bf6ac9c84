import ShapeLang.Lexeme.Split
import ShapeLang.Proofs.Lexeme.Fault

/-! Lexemes as tiles of a text. Between two tiles there are blanks at most, and each tile is the
longest text of any category where it stands, or a fault. Such a tiling is unique, and it is the
one that splitting a text yields. -/

namespace ShapeLang

open Text (byteLength isBlank isPunctuation)

/-- What the grammar allows at the start of `text ++ rest`. -/
inductive Fits : Option Category → List Char → List Char → Prop where
  | longest {category : Category} {text rest : List Char} :
    category.Spells text →
      (∀ longer, longer <+: text ++ rest → text.length < longer.length →
        ∀ other : Category, ¬ other.Spells longer) →
      (∀ fault after, fault ++ after = text ++ rest → ¬ Fault fault after) →
      Fits (some category) text rest
  | fault {text rest : List Char} : Fault text rest → Fits none text rest

/-- Lexemes that lie one after the other in a text that starts at `offset`. -/
inductive Tiling : Nat → List Char → List Lexeme → Prop where
  | blanks {offset : Nat} {text : List Char} : (∀ c ∈ text, isBlank c) → Tiling offset text []
  | lexeme {offset : Nat} {blanks rest : List Char} {lexeme : Lexeme} {lexemes : List Lexeme} :
    (∀ c ∈ blanks, isBlank c) → lexeme.start = offset + byteLength blanks → lexeme.text ≠ [] →
      Fits lexeme.category lexeme.text rest → Tiling lexeme.stop rest lexemes →
      Tiling offset (blanks ++ (lexeme.text ++ rest)) (lexeme :: lexemes)

theorem Fits.spells {category : Category} {text rest : List Char}
    (h : Fits (some category) text rest) : category.Spells text := by
  cases h with
  | longest hspells => exact hspells

namespace Reading

theorem exists_cons_of_spells {category : Category} {text : List Char}
    (h : category.Spells text) : ∃ first body, text = first :: body := by
  cases category with
  | lineComment =>
    obtain ⟨body, rfl, -⟩ := h
    exact ⟨_, _, rfl⟩
  | blockComment =>
    obtain ⟨body, rfl, -⟩ := h
    exact ⟨_, _, rfl⟩
  | identifier =>
    obtain ⟨first, body, rfl, -⟩ := h
    exact ⟨_, _, rfl⟩
  | integer radix =>
    cases radix with
    | decimal =>
      obtain ⟨first, body, rfl, -⟩ := h
      exact ⟨_, _, rfl⟩
    | binary | octal | hexadecimal =>
      obtain ⟨mark, body, rfl, -⟩ := h
      exact ⟨_, _, rfl⟩
  | float =>
    obtain ⟨_, tail, rfl, ⟨first, body, rfl, -⟩, -⟩ := h
    exact ⟨_, _, rfl⟩
  | string =>
    obtain ⟨items, rfl, -⟩ := h
    exact ⟨_, _, rfl⟩
  | rawString =>
    obtain ⟨body, rfl, -⟩ := h
    exact ⟨_, _, rfl⟩
  | character =>
    obtain ⟨item, rfl, -⟩ := h
    exact ⟨_, _, rfl⟩
  | punctuation mark =>
    obtain ⟨rfl, -⟩ := h
    exact ⟨_, _, rfl⟩

theorem longest_of_spells {category : Category} {first : Char} {body : List Char}
    (h : category.Spells (first :: body)) : longest first body = ⟨some category, body.length⟩ := by
  have hreaches := reaches_longest h []
  rw [List.append_nil] at hreaches
  rcases hreaches with heq | hlt
  · exact heq
  · exact absurd hlt (Nat.not_lt_of_ge (extra_longest_le first body))

theorem eq_of_spells {category other : Category} {text : List Char} (h : category.Spells text)
    (hother : other.Spells text) : category = other := by
  obtain ⟨first, body, rfl⟩ := exists_cons_of_spells h
  have heq := (longest_of_spells h).symm.trans (longest_of_spells hother)
  exact Option.some.inj (Reading.mk.inj heq).1

theorem longest_of_isBlank {c : Char} (h : isBlank c) (text : List Char) :
    longest c text = ⟨none, 0⟩ := by
  rw [longest_of_class (p := isBlank) (by decide) h, if_neg (by simp [isDigit_of_isBlank h]),
    if_neg (by simp [isNameStart_of_isBlank h]), if_neg (by simp [isPunctuation_of_isBlank h])]

theorem isBlank_of_spells {category : Category} {first : Char} {body : List Char}
    (h : category.Spells (first :: body)) : isBlank first = false := by
  rw [Bool.eq_false_iff]
  intro hblank
  have heq := (longest_of_spells h).symm.trans (longest_of_isBlank hblank body)
  cases heq

theorem isBlank_of_fault {first : Char} {body rest : List Char} (h : Fault (first :: body) rest) :
    isBlank first = false := by
  cases h with
  | comment | string | rawString => decide
  | stray hblank => exact hblank

theorem fits_longest {first : Char} (hblank : isBlank first = false) (text : List Char) :
    Fits (longest first text).category (first :: text.take (longest first text).extra)
      (text.drop (longest first text).extra) := by
  have hlength : (text.take (longest first text).extra).length = (longest first text).extra := by
    rw [List.length_take, Nat.min_eq_left (extra_longest_le first text)]
  cases hcategory : (longest first text).category with
  | none => exact Fits.fault (fault_longest hblank hcategory)
  | some category =>
    apply Fits.longest (spells_longest first text category hcategory)
    · intro longer hstarts hlonger other hspells
      -- A text of a category at this place is read, or what is read is longer still.
      rw [List.cons_append, List.take_append_drop] at hstarts
      obtain ⟨_, body, rfl⟩ := exists_cons_of_spells hspells
      obtain ⟨rfl, rest, rfl⟩ := List.cons_prefix_cons.mp hstarts
      rw [List.length_cons, List.length_cons, hlength] at hlonger
      rcases reaches_longest hspells rest with heq | hlt
      · rw [heq] at hlonger
        exact Nat.lt_irrefl _ hlonger
      · omega
    · intro fault after heq hfault
      rw [List.cons_append, List.take_append_drop] at heq
      cases fault with
      | nil => cases hfault
      | cons _ body =>
        rw [List.cons_append] at heq
        obtain ⟨rfl, rfl⟩ := List.cons.inj heq
        rw [longest_of_fault hfault] at hcategory
        cases hcategory

theorem longest_of_fits {category : Option Category} {first : Char} {body rest : List Char}
    (h : Fits category (first :: body) rest) :
    longest first (body ++ rest) = ⟨category, body.length⟩ := by
  cases h with
  | fault hfault => exact longest_of_fault hfault
  | @longest category _ _ hspells hlongest hnofault =>
    have hblank := isBlank_of_spells hspells
    have hextra := extra_longest_le first (body ++ rest)
    have hread : first :: (body ++ rest).take (longest first (body ++ rest)).extra ++
        (body ++ rest).drop (longest first (body ++ rest)).extra = first :: body ++ rest := by
      rw [List.cons_append, List.take_append_drop, List.cons_append]
    rcases reaches_longest hspells rest with heq | hlt
    · exact heq
    -- Whatever else is read here is longer, and so excluded as a category and as a fault.
    · cases hcategory : (longest first (body ++ rest)).category with
      | none => exact absurd (fault_longest hblank hcategory) (hnofault _ _ hread)
      | some other =>
        have hstarts := hlongest _ ⟨_, hread⟩ (by
          rw [List.length_cons, List.length_cons, List.length_take, Nat.min_eq_left hextra]
          exact Nat.succ_lt_succ hlt)
        exact absurd (spells_longest _ _ _ hcategory) (hstarts other)

theorem isBlank_of_fits {category : Option Category} {first : Char} {body rest : List Char}
    (h : Fits category (first :: body) rest) : isBlank first = false := by
  cases h with
  | longest hspells => exact isBlank_of_spells hspells
  | fault hfault => exact isBlank_of_fault hfault

end Reading

theorem Tiling.blank {offset : Nat} {c : Char} {text : List Char} {lexemes : List Lexeme}
    (hc : isBlank c) (h : Tiling (offset + c.utf8Size) text lexemes) :
    Tiling offset (c :: text) lexemes := by
  cases h with
  | blanks hblanks => exact Tiling.blanks (List.forall_mem_cons.mpr ⟨hc, hblanks⟩)
  | lexeme hblanks hstart hne hfits htiling =>
    rw [← List.cons_append]
    refine Tiling.lexeme (List.forall_mem_cons.mpr ⟨hc, hblanks⟩) ?_ hne hfits htiling
    rw [hstart, Text.byteLength_cons, Nat.add_assoc]

theorem Tiling.head {offset : Nat} {category : Option Category} {first : Char}
    {body rest : List Char} {lexemes : List Lexeme} (hfits : Fits category (first :: body) rest)
    (h : Tiling (offset + byteLength (first :: body)) rest lexemes) :
    Tiling offset (first :: (body ++ rest)) (⟨category, first :: body, offset⟩ :: lexemes) :=
  @Tiling.lexeme offset [] rest ⟨category, first :: body, offset⟩ lexemes (by simp) rfl
    (List.cons_ne_nil _ _) hfits h

section Order

variable {offset : Nat} {text : List Char} {lexemes : List Lexeme}

theorem Tiling.le_start (h : Tiling offset text lexemes) : ∀ l ∈ lexemes, offset ≤ l.start := by
  induction h with
  | blanks => simp
  | @lexeme offset blanks rest l lexemes hblanks hstart hne hfits htiling ih =>
    have hfirst : offset ≤ l.start := by
      rw [hstart]
      exact Nat.le_add_right _ _
    have hstop : l.start ≤ l.stop := Nat.le_add_right _ _
    exact List.forall_mem_cons.mpr
      ⟨hfirst, fun x hx => Nat.le_trans (Nat.le_trans hfirst hstop) (ih x hx)⟩

theorem Tiling.pairwise (h : Tiling offset text lexemes) :
    lexemes.Pairwise fun a b => a.stop ≤ b.start := by
  induction h with
  | blanks => exact List.Pairwise.nil
  | lexeme hblanks hstart hne hfits htiling ih => exact List.Pairwise.cons htiling.le_start ih

theorem Tiling.stop_le {a b : List Lexeme} {l : Lexeme} (h : Tiling offset text (a ++ l :: b)) :
    ∀ x ∈ a ++ l :: b, x.start < l.start → x.stop ≤ l.start := by
  intro x hx hlt
  obtain ⟨-, hlater, hearlier⟩ := List.pairwise_append.mp h.pairwise
  rcases List.mem_append.mp hx with ha | hb
  · exact hearlier x ha l (List.mem_cons_self ..)
  · rcases List.mem_cons.mp hb with rfl | hb
    · exact absurd hlt (Nat.lt_irrefl _)
    · have hstop : l.start ≤ l.stop := Nat.le_add_right _ _
      have hstart := List.rel_of_pairwise_cons hlater hb
      omega

end Order

namespace Lexeme

open Reading

theorem splitFrom_blanks {blanks : List Char} (h : ∀ c ∈ blanks, isBlank c) (offset : Nat)
    (text : List Char) :
    splitFrom offset 0 (blanks ++ text) = splitFrom (offset + byteLength blanks) 0 text := by
  induction blanks generalizing offset with
  | nil => rfl
  | cons c blanks ih =>
    rw [List.cons_append, splitFrom_of_blank (h c (List.mem_cons_self ..)),
      ih (fun d hd => h d (List.mem_cons_of_mem _ hd)), Text.byteLength_cons, Nat.add_assoc]

theorem tiling_splitFrom (offset : Nat) (text : List Char) :
    Tiling offset text (splitFrom offset 0 text) := by
  match text with
  | [] => exact Tiling.blanks (by simp)
  | c :: text =>
    cases hblank : isBlank c with
    | true =>
      rw [splitFrom_of_blank hblank]
      exact Tiling.blank hblank (tiling_splitFrom _ text)
    | false =>
      have hrest := tiling_splitFrom
        (offset + byteLength (c :: text.take (longest c text).extra))
        (text.drop (longest c text).extra)
      have htiling := Tiling.head (fits_longest hblank text) hrest
      rw [List.take_append_drop] at htiling
      rw [splitFrom_of_not_blank hblank]
      exact htiling
termination_by text.length
decreasing_by
  all_goals simp only [List.length_cons, List.length_drop]
  all_goals omega

theorem splitFrom_of_tiling {offset : Nat} {text : List Char} {lexemes : List Lexeme}
    (h : Tiling offset text lexemes) : splitFrom offset 0 text = lexemes := by
  induction h with
  | @blanks offset text hblanks =>
    rw [← List.append_nil text, splitFrom_blanks hblanks]
    rfl
  | @lexeme offset blanks rest lexeme lexemes hblanks hstart hne hfits htiling ih =>
    obtain ⟨category, text, start⟩ := lexeme
    obtain ⟨c, body, rfl⟩ := List.exists_cons_of_ne_nil hne
    have hread := longest_of_fits hfits
    dsimp only at hstart ih
    rw [splitFrom_blanks hblanks, ← hstart, List.cons_append,
      splitFrom_of_not_blank (isBlank_of_fits hfits), hread, List.take_left, List.drop_left]
    rw [← ih]
    rfl

/-- Splitting reads the longest lexeme everywhere and misses nothing: its lexemes are the one tiling
of the text. No text is of two categories. -/
theorem split_iff_tiling_and_spells_unique :
    (∀ (text : List Char) (lexemes : List Lexeme),
      split text = lexemes ↔ Tiling 0 text lexemes) ∧
    ∀ (category other : Category) (text : List Char),
      category.Spells text → other.Spells text → category = other := by
  refine ⟨fun text lexemes => ⟨?_, splitFrom_of_tiling⟩, fun _ _ _ => eq_of_spells⟩
  rintro rfl
  exact tiling_splitFrom 0 text

theorem split_iff_tiling_and_spells_unique_name :
    Tiling 0 "a /*".toList [⟨some .identifier, ['a'], 0⟩, ⟨none, ['/', '*'], 2⟩] ∧
      Category.identifier.Spells ['a'] ∧
      ∀ other : Category, other.Spells ['a'] → .identifier = other := by
  obtain ⟨htiling, hunique⟩ := split_iff_tiling_and_spells_unique
  have hname : Category.identifier.Spells ['a'] := ⟨'a', [], rfl, by decide, by simp⟩
  exact ⟨(htiling _ _).mp rfl, hname, fun other => hunique _ _ _ hname⟩

end Lexeme
end ShapeLang
