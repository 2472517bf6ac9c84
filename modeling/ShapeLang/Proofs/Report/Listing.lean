import ShapeLang.Proofs.Text.Quoting
import ShapeLang.Report

/-! A listing tells its tokens. Each token has one line, on which its place, its kind, its text and
its value can be told apart, so no text of a token can pass for something else. Spans are not
shown. -/

namespace ShapeLang

theorem Position.toList_render (position : Position) :
    position.render.toList =
      (toString position.line.toNat).toList ++ ':' :: (toString position.column.toNat).toList := by
  simp [render]

theorem Position.render_append_inj {a b : Position} {r s : List Char}
    (h : a.render.toList ++ ']' :: r = b.render.toList ++ ']' :: s) : a = b ∧ r = s := by
  have hcolon : Radix.decimal.isDigit ':' = false := by decide
  have hbracket : Radix.decimal.isDigit ']' = false := by decide
  simp only [toList_render, List.append_assoc, List.cons_append] at h
  obtain ⟨hline, htail⟩ := Radix.toString_append_inj hcolon h
  obtain ⟨hcolumn, hrest⟩ := Radix.toString_append_inj hbracket htail
  cases a
  cases b
  cases UInt32.toNat_inj.mp hline
  cases UInt32.toNat_inj.mp hcolumn
  exact ⟨rfl, hrest⟩

theorem IntegerValue.render_append_inj {a b : IntegerValue} {r s : List Char}
    (h : a.render.toList ++ '>' :: r = b.render.toList ++ '>' :: s) : a = b ∧ r = s := by
  have hmark : Radix.decimal.isDigit '>' = false := by decide
  have hletter : Radix.decimal.isDigit 'o' = false := by decide
  -- The word for a value that is too wide does not start with a digit.
  have hword : ∀ (n : UInt64) (t u : List Char),
      (toString n.toNat).toList ++ '>' :: t ≠ overflow.render.toList ++ '>' :: u := by
    intro n t u heq
    obtain ⟨c, digits, hdigits⟩ := List.exists_cons_of_ne_nil
      (Nat.toDigits_ne_nil (n := n.toNat) (b := Radix.decimal.base))
    have hfirst : Radix.decimal.isDigit c := Radix.isDigit_of_mem_toDigits (by rw [hdigits]; simp)
    have hlist : (toString n.toNat).toList = c :: digits := Nat.toList_repr.trans hdigits
    rw [hlist] at heq
    have hc : c = 'o' := (List.cons.inj heq).1
    rw [hc, hletter] at hfirst
    exact Bool.false_ne_true hfirst
  cases a with
  | word m =>
    cases b with
    | word n =>
      obtain ⟨hvalue, hrest⟩ := Radix.toString_append_inj hmark h
      exact ⟨congrArg word (UInt64.toNat_inj.mp hvalue), hrest⟩
    | overflow => exact absurd h (hword m r s)
  | overflow =>
    cases b with
    | word n => exact absurd h.symm (hword n s r)
    | overflow => exact ⟨rfl, (List.cons.inj (List.append_cancel_left h)).2⟩

namespace Token

theorem Kind.ofName?_name (kind : Kind) : Kind.ofName? kind.name = some kind := by
  cases kind <;> rfl

theorem Kind.name_inj {a b : Kind} (h : a.name = b.name) : a = b :=
  Option.some.inj ((Kind.ofName?_name a).symm.trans (h ▸ Kind.ofName?_name b))

theorem Kind.not_mem_name {c : Char} (hc : c = ' ' ∨ c = '\n') (kind : Kind) :
    c ∉ kind.name.toList := by
  rcases hc with rfl | rfl <;> cases kind <;> decide

def valueSuffix (value : Option IntegerValue) : List Char :=
  value.elim [] fun value => " value=<".toList ++ (value.render.toList ++ ['>'])

theorem valueSuffix_append_inj {a b : Option IntegerValue} {r s : List Char}
    (h : valueSuffix a ++ '\n' :: r = valueSuffix b ++ '\n' :: s) : a = b ∧ r = s := by
  cases a with
  | none =>
    cases b with
    | none => exact ⟨rfl, (List.cons.inj h).2⟩
    | some b => exact absurd (List.cons.inj h).1 (by decide)
  | some a =>
    cases b with
    | none => exact absurd (List.cons.inj h).1 (by decide)
    | some b =>
      simp only [valueSuffix, Option.elim, List.append_assoc, List.singleton_append] at h
      obtain ⟨rfl, htail⟩ := IntegerValue.render_append_inj (List.append_cancel_left h)
      exact ⟨rfl, (List.cons.inj htail).2⟩

/-- The tokens are told the same in a listing: all but their spans. -/
structure ShowsAs (a b : Token) : Prop where
  position : a.position = b.position
  kind : a.kind = b.kind
  text : a.text = b.text
  value : a.value = b.value

variable {hidden : Char → Bool} {a b : Token}

theorem toList_describe (token : Token) (hidden : Char → Bool) :
    (token.describe hidden).toList = '[' :: (token.position.render.toList ++
      ']' :: ' ' :: (token.kind.name.toList ++ ' ' ::
        ((Text.quoted token.text hidden).toList ++ valueSuffix token.value))) := by
  cases h : token.value <;> simp [describe, valueSuffix, h]

theorem ShowsAs.describe_eq (h : a.ShowsAs b) : a.describe hidden = b.describe hidden := by
  rw [describe, describe, h.position, h.kind, h.text, h.value]

theorem describe_append_inj {r s : List Char}
    (h : (a.describe hidden).toList ++ '\n' :: r = (b.describe hidden).toList ++ '\n' :: s) :
    a.ShowsAs b ∧ r = s := by
  simp only [toList_describe, List.cons_append, List.append_assoc] at h
  obtain ⟨hposition, htail⟩ := Position.render_append_inj (List.cons.inj h).2
  obtain ⟨hkind, htail⟩ := Text.append_mark_inj (Kind.not_mem_name (Or.inl rfl) _)
    (Kind.not_mem_name (Or.inl rfl) _) (List.cons.inj htail).2
  obtain ⟨htext, htail⟩ := Text.quoted_append_inj htail
  obtain ⟨hvalue, hrest⟩ := valueSuffix_append_inj htail
  exact ⟨⟨hposition, Kind.name_inj (String.toList_inj.mp hkind), htext, hvalue⟩, hrest⟩

theorem feed_not_mem_describe (token : Token) (hidden : Char → Bool) :
    '\n' ∉ (token.describe hidden).toList := by
  have hdigits : ∀ n, '\n' ∉ Nat.toDigits 10 n := Radix.decimal.not_mem_toDigits (by decide)
  have hposition : '\n' ∉ token.position.render.toList := by
    simp [Position.toList_render, hdigits]
  have hvalue : '\n' ∉ valueSuffix token.value := by
    cases token.value with
    | none => simp [valueSuffix]
    | some value =>
      cases value with
      | word n => simp [valueSuffix, IntegerValue.render, hdigits]
      | overflow => decide
  simp [toList_describe, hposition, hvalue, Kind.not_mem_name,
    (Text.controlFree_quoted token.text hidden).feed_not_mem]

end Token

namespace Report

open Token (ShowsAs)

def row (hidden : Char → Bool) (token : Token) : List Char :=
  ' ' :: ' ' :: ((token.describe hidden).toList ++ ['\n'])

theorem row_append_inj {hidden : Char → Bool} (a b : Token) (r s : List Char)
    (h : row hidden a ++ r = row hidden b ++ s) : a.ShowsAs b ∧ r = s := by
  simp only [row, List.cons_append, List.append_assoc, List.nil_append] at h
  exact Token.describe_append_inj (List.cons.inj (List.cons.inj h).2).2

theorem count_row (hidden : Char → Bool) (token : Token) :
    (row hidden token).count '\n' = 1 := by
  simp [row, List.count_eq_zero_of_not_mem (token.feed_not_mem_describe hidden)]

theorem toList_listing (path : String) (tokens : List Token) (hidden : Char → Bool) :
    (listing path tokens hidden).toList = "Tokens for '".toList ++ (path.toList ++
      ("' (".toList ++ ((toString tokens.length).toList ++ ' ' :: ("tokens):\n".toList ++
        tokens.flatMap (row hidden))))) := by
  have hrow : ∀ token : Token, (line ("  " ++ token.describe hidden)).toList = row hidden token :=
    fun _ => by simp [line, row]
  have hrows : (String.join (tokens.map fun token => line ("  " ++ token.describe hidden))).toList =
      tokens.flatMap (row hidden) := by
    simp only [String.toList_join, List.flatMap_map, hrow]
  rw [listing, String.toList_append, hrows]
  simp [line]

theorem showsAs_of_listing_eq {path : String} {hidden : Char → Bool} {tokens others : List Token}
    (h : listing path tokens hidden = listing path others hidden) :
    List.Forall₂ ShowsAs tokens others := by
  have hblank : Radix.decimal.isDigit ' ' = false := by decide
  have hlist := String.toList_inj.mpr h
  simp only [toList_listing] at hlist
  have hrows := List.append_cancel_left (List.append_cancel_left (List.append_cancel_left hlist))
  obtain ⟨-, htail⟩ := Radix.toString_append_inj hblank hrows
  have hlines := List.append_cancel_left htail
  have hnone : ∀ (token : Token) (rest : List Char), [] ≠ row hidden token ++ rest := by simp [row]
  refine (Text.flatMap_append_inj row_append_inj hnone hnone ?_).1
  simpa using hlines

theorem listing_eq_of_showsAs {path : String} {hidden : Char → Bool} {tokens others : List Token}
    (h : List.Forall₂ ShowsAs tokens others) :
    listing path tokens hidden = listing path others hidden := by
  have hdescribe : tokens.map (fun token => line ("  " ++ token.describe hidden)) =
      others.map fun token => line ("  " ++ token.describe hidden) := by
    induction h with
    | nil => rfl
    | cons hshows hrest ih => simp only [List.map_cons, hshows.describe_eq, ih]
  rw [listing, listing, h.length_eq, hdescribe]

theorem count_listing (path : String) (tokens : List Token) (hidden : Char → Bool) :
    (listing path tokens hidden).toList.count '\n' =
      path.toList.count '\n' + (1 + tokens.length) := by
  have hrows : (tokens.flatMap (row hidden)).count '\n' = tokens.length := by
    induction tokens with
    | nil => rfl
    | cons token tokens ih => simp [count_row, ih, Nat.add_comm]
  have hlength : (Nat.toDigits 10 tokens.length).count '\n' = 0 :=
    List.count_eq_zero_of_not_mem (Radix.decimal.not_mem_toDigits (by decide) _)
  simp [toList_listing, hrows, hlength, Nat.add_comm]

/-- Listings under one path are equal exactly for tokens that differ in their spans only, whatever
characters the quoted texts hide. A listing has one line more than tokens. -/
theorem listing_tells_tokens (path : String) (hidden : Char → Bool) (tokens others : List Token) :
    (listing path tokens hidden = listing path others hidden ↔
      List.Forall₂ ShowsAs tokens others) ∧
    (listing path tokens hidden).toList.count '\n' =
      path.toList.count '\n' + (1 + tokens.length) ∧
    ∀ token : Token, '\n' ∉ (token.describe hidden).toList :=
  ⟨⟨showsAs_of_listing_eq, listing_eq_of_showsAs⟩, count_listing path tokens hidden,
    fun token => token.feed_not_mem_describe hidden⟩

example : (Token.plain .symbol "x\" value=<3>" ⟨0, 12⟩ ⟨1, 1⟩).describe =
    "[1:1] Symbol \"x\\\" value=<3>\"" := by
  decide

end Report
end ShapeLang
