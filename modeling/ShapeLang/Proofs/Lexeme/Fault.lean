import ShapeLang.Proofs.Lexeme.Completeness

/-! Faults: what is read where no category has a text that closes. A comment or a raw string that
stays open takes all that is left, a string takes its complete items, and a character that begins
no category stands alone. -/

namespace ShapeLang

open Category (IsItem)
open Text (isBlank isPunctuation)

/-- Neither the quote that ends a string nor one more item of it. -/
def StaysOpen (rest : List Char) : Prop :=
  rest.head? ≠ some '"' ∧ ∀ item, IsItem '"' item → ¬ item <+: rest

/-- A text that is read as a fault when `rest` comes after it. -/
inductive Fault : List Char → List Char → Prop where
  | comment {body : List Char} : ¬ ['*', '/'] <:+: body → Fault ('/' :: '*' :: body) []
  | string {items : List (List Char)} {rest : List Char} :
    items ≠ [] → (∀ item ∈ items, IsItem '"' item) → StaysOpen rest →
      Fault ('"' :: items.flatten) rest
  | rawString {body : List Char} : body ≠ [] → '\x60' ∉ body → Fault ('\x60' :: body) []
  | stray {c : Char} {rest : List Char} :
    isBlank c = false → (∀ (category : Category) body, ¬ category.Spells (c :: body)) →
      Fault [c] rest

theorem StaysOpen.of_append {rest more : List Char} (h : StaysOpen (rest ++ more)) :
    StaysOpen rest := by
  refine ⟨fun hquote => h.1 ?_, fun item hitem hstarts => h.2 item hitem ?_⟩
  · obtain ⟨tail, rfl⟩ := List.head?_eq_some_iff.mp hquote
    rfl
  · exact hstarts.trans (List.prefix_append _ _)

theorem Fault.of_append {text rest more : List Char} (h : Fault text (rest ++ more)) :
    Fault text rest := by
  generalize hafter : rest ++ more = after at h
  cases h with
  | comment hopen =>
    obtain ⟨rfl, -⟩ := List.append_eq_nil_iff.mp hafter
    exact Fault.comment hopen
  | string hne hitems hopen =>
    rw [← hafter] at hopen
    exact Fault.string hne hitems hopen.of_append
  | rawString hne hopen =>
    obtain ⟨rfl, -⟩ := List.append_eq_nil_iff.mp hafter
    exact Fault.rawString hne hopen
  | stray hblank hnothing => exact Fault.stray hblank hnothing

namespace Reading

theorem closeLength?_eq_none_iff {text : List Char} :
    closeLength? text = none ↔ ¬ ['*', '/'] <:+: text := by
  fun_induction closeLength? text with
  | case1 => simp
  | case2 text =>
    have hclose : ['*', '/'] <:+: '*' :: '/' :: text := ⟨[], text, rfl⟩
    simp [hclose]
  | case3 c text hopen ih =>
    have hstarts : ¬ ['*', '/'] <+: c :: text := by
      rintro ⟨rest, heq⟩
      obtain ⟨rfl, rfl⟩ := List.cons.inj heq
      exact hopen rest rfl rfl
    rw [Option.map_eq_none_iff, ih, List.infix_cons_iff, not_or]
    exact ⟨fun h => ⟨hstarts, h⟩, And.right⟩

theorem fault_slash {text : List Char} (h : (slash text).category = none) :
    Fault ('/' :: text.take (slash text).extra) (text.drop (slash text).extra) := by
  unfold slash at h ⊢
  split at h
  · cases h
  · rename_i text
    split at h
    · cases h
    · rename_i hopen
      simp only [Nat.add_comm 1, List.take_succ_cons, List.take_length,
        List.drop_succ_cons, List.drop_length]
      exact Fault.comment (closeLength?_eq_none_iff.mp hopen)
  · cases h

theorem staysOpen_nil : StaysOpen [] := by
  refine ⟨by simp, fun item hitem hstarts => ?_⟩
  obtain rfl := List.prefix_nil.mp hstarts
  rcases hitem with ⟨c, heq, -⟩ | ⟨c, heq, -⟩ <;> cases heq

theorem staysOpen_feed (text : List Char) : StaysOpen ('\\' :: '\n' :: text) := by
  refine ⟨by simp, ?_⟩
  rintro item (⟨c, rfl, -, hescape, -⟩ | ⟨c, rfl, hfeed⟩) hstarts
  · exact hescape (List.cons_prefix_cons.mp hstarts).1
  · exact hfeed (List.cons_prefix_cons.mp (List.cons_prefix_cons.mp hstarts).2).1

theorem staysOpen_stop {c : Char} {text : List Char} (hquote : c ≠ '"')
    (hescape : ∀ d rest, c = '\\' → text = d :: rest → False)
    (hstop : c = '\\' ∨ c = '\n' ∨ c = '\r') : StaysOpen (c :: text) := by
  refine ⟨by simpa using hquote, ?_⟩
  rintro item (⟨d, rfl, -, hd⟩ | ⟨d, rfl, -⟩) ⟨rest, heq⟩
  · obtain ⟨rfl, -⟩ := List.cons.inj heq
    rcases hstop with hc | hc | hc
    · exact hd.1 hc
    · exact hd.2.1 hc
    · exact hd.2.2 hc
  · obtain ⟨rfl, rfl⟩ := List.cons.inj heq
    exact hescape d rest rfl rfl

def OpensAfter (text : List Char) (n : Nat) : Prop :=
  ∃ items : List (List Char), text.take n = items.flatten ∧ (∀ item ∈ items, IsItem '"' item) ∧
    StaysOpen (text.drop n)

theorem opensAfter_zero {text : List Char} (h : StaysOpen text) : OpensAfter text 0 :=
  ⟨[], by simp, by simp, h⟩

theorem OpensAfter.item {text item : List Char} {body : Body} {n : Nat}
    (h : ∀ m, body = .unclosed m → OpensAfter text m) (hitem : IsItem '"' item)
    (hbody : body.grow item.length = .unclosed n) : OpensAfter (item ++ text) n := by
  cases body with
  | closed m => cases hbody
  | unclosed m =>
    obtain rfl : item.length + m = n := by simpa [Body.grow] using hbody
    obtain ⟨items, htake, hitems, hopen⟩ := h m rfl
    refine ⟨item :: items, ?_, ?_, ?_⟩
    · rw [List.take_length_add_append, htake, List.flatten_cons]
    · exact List.forall_mem_cons.mpr ⟨hitem, hitems⟩
    · rwa [List.drop_length_add_append]

theorem opensAfter_of_unclosed {text : List Char} {n : Nat}
    (h : stringBody text = .unclosed n) : OpensAfter text n := by
  fun_induction stringBody text generalizing n with
  | case1 =>
    obtain rfl : 0 = n := by simpa using h
    exact opensAfter_zero staysOpen_nil
  | case2 => cases h
  | case3 text =>
    obtain rfl : 0 = n := by simpa using h
    exact opensAfter_zero (staysOpen_feed text)
  | case4 c text hfeed ih =>
    exact OpensAfter.item (fun m hm => ih hm) (Or.inr ⟨c, rfl, hfeed⟩) h
  | case5 c text hquote hescape hstop =>
    obtain rfl : 0 = n := by simpa using h
    refine opensAfter_zero (staysOpen_stop hquote hescape ?_)
    simpa [or_assoc] using hstop
  | case6 c text hquote hescape hstop ih =>
    have hplain : (c ≠ '\\' ∧ c ≠ '\n') ∧ c ≠ '\r' := by simpa using hstop
    exact OpensAfter.item (fun m hm => ih hm)
      (Or.inl ⟨c, rfl, hquote, hplain.1.1, hplain.1.2, hplain.2⟩) h

theorem stringBody_of_staysOpen {rest : List Char} (h : StaysOpen rest) :
    stringBody rest = .unclosed 0 := by
  obtain ⟨hquote, hitem⟩ := h
  fun_cases stringBody rest with
  | case1 => rfl
  | case2 => simp at hquote
  | case3 => rfl
  | case4 c text hfeed =>
    exact absurd ⟨text, rfl⟩ (hitem ['\\', c] (Or.inr ⟨c, rfl, hfeed⟩))
  | case5 => rfl
  | case6 c text hne hescape hstop =>
    have hplain : (c ≠ '\\' ∧ c ≠ '\n') ∧ c ≠ '\r' := by simpa using hstop
    exact absurd ⟨text, rfl⟩
      (hitem [c] (Or.inl ⟨c, rfl, hne, hplain.1.1, hplain.1.2, hplain.2⟩))

theorem fault_string {text : List Char} (h : (string text).category = none) :
    Fault ('"' :: text.take (string text).extra) (text.drop (string text).extra) := by
  unfold string at h ⊢
  cases hbody : stringBody text with
  | closed n =>
    rw [hbody] at h
    cases h
  | unclosed n =>
    rw [hbody] at h
    cases n with
    | zero => cases h
    | succ n =>
      obtain ⟨items, htake, hitems, hopen⟩ := opensAfter_of_unclosed hbody
      have hne : items ≠ [] := by
        rintro rfl
        rcases List.take_eq_nil_iff.mp htake with hzero | rfl
        · cases hzero
        · cases hbody
      have hfault := Fault.string hne hitems hopen
      rw [← htake] at hfault
      exact hfault

theorem fault_rawString {text : List Char} (h : (rawString text).category = none) :
    Fault ('\x60' :: text.take (rawString text).extra) (text.drop (rawString text).extra) := by
  simp only [rawString] at h ⊢
  split at h
  · cases h
  · rename_i hopen
    split at h
    · cases h
    · rename_i hzero
      have hall : runLength (· ≠ '\x60') text = text.length :=
        Nat.le_antisymm (runLength_le _ _) (Nat.le_of_not_lt hopen)
      have hbody : text.takeWhile (· ≠ '\x60') = text := by
        rw [← take_runLength, hall, List.take_length]
      rw [if_neg hopen, if_neg hzero, hall, List.take_length, List.drop_length]
      refine Fault.rawString ?_ fun hmem => ?_
      · rintro rfl
        exact hzero rfl
      · rw [← hbody] at hmem
        simpa using of_mem_takeWhile hmem

theorem category_character_ne_none (text : List Char) : (character text).category ≠ none := by
  unfold character
  split
  · split <;> simp
  · split <;> simp
  · simp

theorem category_number_ne_none (first : Char) (text : List Char) :
    (number first text).category ≠ none := by
  have hdecimal : (decimal text).category ≠ none := by
    unfold decimal
    dsimp only
    split
    · simp
    · split <;> simp
  unfold number
  cases hmarked : marked? first text with
  | none => exact hdecimal
  | some reading =>
    obtain ⟨radix, n, -, rfl⟩ := exists_of_marked? hmarked
    simp

theorem longest_of_spells_nothing {c : Char}
    (h : ∀ (category : Category) body, ¬ category.Spells (c :: body)) (text : List Char) :
    longest c text = ⟨none, 0⟩ := by
  have hpunctuation : isPunctuation c = false :=
    Bool.eq_false_iff.mpr fun hc => h (.punctuation c) [] ⟨rfl, hc⟩
  have hdigit : ¬ Radix.decimal.isDigit c := fun hc =>
    h (.integer .decimal) [] ⟨c, [], rfl, hc, by simp⟩
  have hname : ¬ isNameStart c := fun hc => h .identifier [] ⟨c, [], rfl, hc, by simp⟩
  rw [longest_of_class (p := fun c => !isPunctuation c) (by decide) (by simp [hpunctuation]),
    if_neg hdigit, if_neg hname, if_neg (by simp [hpunctuation])]

theorem fault_longest {first : Char} {text : List Char} (hblank : isBlank first = false)
    (h : (longest first text).category = none) :
    Fault (first :: text.take (longest first text).extra)
      (text.drop (longest first text).extra) := by
  revert h
  unfold longest
  split
  · rename_i hfirst
    rw [hfirst]
    exact fault_slash
  split
  · rename_i hfirst
    rw [hfirst]
    exact fault_string
  split
  · rename_i hfirst
    rw [hfirst]
    exact fault_rawString
  split
  · exact fun h => absurd h (category_character_ne_none text)
  split
  · exact fun h => absurd h (category_number_ne_none first text)
  split
  · rintro ⟨⟩
  split
  · rintro ⟨⟩
  · rename_i hslash hquote haccent hmark hdigit hname hpunctuation
    intro _
    refine Fault.stray hblank fun category body hspells => ?_
    -- A text of a category would be read at least as far as it goes.
    have hreaches := reaches_longest hspells []
    rw [longest, if_neg hslash, if_neg hquote, if_neg haccent, if_neg hmark, if_neg hdigit,
      if_neg hname, if_neg hpunctuation] at hreaches
    rcases hreaches with heq | hlt
    · cases heq
    · exact absurd hlt (Nat.not_lt_zero _)

theorem longest_of_fault {first : Char} {body rest : List Char} (h : Fault (first :: body) rest) :
    longest first (body ++ rest) = ⟨none, body.length⟩ := by
  cases h with
  | comment hopen =>
    have hclose := closeLength?_eq_none_iff.mpr hopen
    simp [longest, slash, hclose, Nat.add_comm]
  | @string items _ hne hitems hopen =>
    have hbody : stringBody (items.flatten ++ rest) = .unclosed items.flatten.length := by
      rw [stringBody_items hitems, stringBody_of_staysOpen hopen, Body.grow, Nat.add_zero]
    have hpos : items.flatten.length ≠ 0 := by
      obtain ⟨item, items, rfl⟩ := List.exists_cons_of_ne_nil hne
      rcases hitems item (List.mem_cons_self ..) with ⟨c, rfl, -⟩ | ⟨c, rfl, -⟩ <;> simp
    cases hlength : items.flatten.length with
    | zero => exact absurd hlength hpos
    | succ n => simp [longest, string, hbody, hlength]
  | rawString hne hopen =>
    have hlength : runLength (· ≠ '\x60') body = body.length := by
      simpa [runLength] using runLength_append_of_not_mem hopen []
    have hpos : body.length ≠ 0 := fun hzero => hne (List.eq_nil_of_length_eq_zero hzero)
    rw [List.append_nil]
    show rawString body = _
    simp only [rawString]
    rw [hlength, if_neg (Nat.lt_irrefl _), if_neg hpos]
  | stray _ hnothing => exact longest_of_spells_nothing hnothing rest

end Reading
end ShapeLang
