import ShapeLang.Proofs.Numeral.Word
import ShapeLang.Proofs.Text.Classes
import ShapeLang.Token.Combine

/-! Tokens cut into blocks. A block of three or of two tokens stands for one token by its common
text, a block of one stands for itself, and which blocks are allowed depends on the tokens at hand
alone and not on how one got there. Joining neighbours is cutting and replacing each block; it
fails where the cut runs into a size that no array can have. -/

namespace ShapeLang.Token

/-- A text of digits between brackets that count `n`. -/
def IsSize (text : String) (n : Nat) : Prop :=
  ∃ digits : List Char, text.toList = '[' :: (digits ++ [']']) ∧ digits ≠ [] ∧
    (∀ c ∈ digits, Radix.decimal.isDigit c) ∧ Radix.decimal.value digits = n

def IsTripleText (text : String) : Prop :=
  text = "[map]" ∨ ∃ n, IsSize text n

def pairTable : OperatorSet → List (String × Kind)
  | .core => [("||", .logicalOr), ("&&", .logicalAnd), ("[]", .sliceType)]
  | .extended =>
    [("||", .logicalOr), ("&&", .logicalAnd), ("[]", .sliceType), ("==", .equals),
      (">=", .greaterOrEqual), ("<=", .lessOrEqual)]

inductive Block where
  | single (a : Token)
  | pair (a b : Token)
  | triple (a b c : Token)

namespace Block

def tokens : Block → List Token
  | single a => [a]
  | pair a b => [a, b]
  | triple a b c => [a, b, c]

/-- Whether the block is the right one where `rest` comes after it. -/
def Stands (operators : OperatorSet) (rest : List Token) : Block → Prop
  | triple a b c =>
    a.text ++ b.text ++ c.text = "[map]" ∨
      ∃ n, IsSize (a.text ++ b.text ++ c.text) n ∧ 1 ≤ n ∧ n < UInt64.size
  | pair a b =>
    (∃ kind, (a.text ++ b.text, kind) ∈ pairTable operators) ∧
      ∀ c ∈ rest.head?, ¬ IsTripleText (a.text ++ b.text ++ c.text)
  | single a =>
    (∀ b ∈ rest.head?, ∀ kind, (a.text ++ b.text, kind) ∉ pairTable operators) ∧
      ∀ b c after, rest = b :: c :: after → ¬ IsTripleText (a.text ++ b.text ++ c.text)

inductive Becomes (operators : OperatorSet) : Block → Token → Prop where
  | single {a : Token} : Becomes operators (single a) a
  | pair {a b : Token} {kind : Kind} : (a.text ++ b.text, kind) ∈ pairTable operators →
    Becomes operators (pair a b) ⟨a.text ++ b.text, a.span.hull b.span, a.position, kind, none⟩
  | map {a b c : Token} : a.text ++ b.text ++ c.text = "[map]" →
    Becomes operators (triple a b c)
      ⟨a.text ++ b.text ++ c.text, a.span.hull c.span, a.position, .mapType, none⟩
  | array {a b c : Token} {n : Nat} :
    IsSize (a.text ++ b.text ++ c.text) n → 1 ≤ n → n < UInt64.size →
    Becomes operators (triple a b c)
      ⟨a.text ++ b.text ++ c.text, a.span.hull c.span, a.position, .arrayType,
        some (.word (.ofNat n))⟩

end Block

def IsJoinedText (operators : OperatorSet) (text : String) : Prop :=
  (∃ kind, (text, kind) ∈ pairTable operators) ∨ IsTripleText text

/-- Tokens cut into blocks up to `tail`, with the token that each block becomes. -/
inductive Cut (operators : OperatorSet) (tail : List Token) :
    List Token → List Block → List Token → Prop where
  | done : Cut operators tail tail [] []
  | block {block : Block} {rest : List Token} {blocks : List Block} {token : Token}
    {tokens : List Token} :
    block.Stands operators rest → block.Becomes operators token →
      Cut operators tail rest blocks tokens →
      Cut operators tail (block.tokens ++ rest) (block :: blocks) (token :: tokens)

theorem mem_pairTable_iff {operators : OperatorSet} {text : String} {kind : Kind} :
    (text, kind) ∈ pairTable operators ↔ operators.pair? text = some kind := by
  cases operators <;>
    simp only [pairTable, OperatorSet.pair?, OperatorSet.corePair?, OperatorSet.extendedPair?]
  all_goals repeat' split
  all_goals simp_all [eq_comm]

theorem mem_pairTable_extended {operators : OperatorSet} {entry : String × Kind}
    (h : entry ∈ pairTable operators) : entry ∈ pairTable .extended := by
  cases operators with
  | core =>
    revert entry
    decide
  | extended => exact h

theorem sizeDigits?_eq_some_iff {text digits : List Char} :
    sizeDigits? text = some digits ↔
      text = '[' :: (digits ++ [']']) ∧ digits ≠ [] ∧ ∀ c ∈ digits, Radix.decimal.isDigit c := by
  constructor
  · intro h
    unfold sizeDigits? at h
    split at h
    · rename_i text
      dsimp only at h
      split at h
      · rename_i hdigits
        obtain ⟨hlast, hne, hall⟩ := hdigits
        obtain rfl := Option.some.inj h
        refine ⟨?_, hne, fun c hc => List.all_eq_true.mp hall c hc⟩
        obtain ⟨body, rfl⟩ := List.getLast?_eq_some_iff.mp hlast
        rw [List.dropLast_concat]
      · cases h
    · cases h
  · rintro ⟨rfl, hne, hall⟩
    have hdigits : digits.all Radix.decimal.isDigit := List.all_eq_true.mpr hall
    simp [sizeDigits?, hne, hdigits]

theorem IsSize.unique {text : String} {m n : Nat} (hm : IsSize text m) (hn : IsSize text n) :
    m = n := by
  obtain ⟨digits, htext, -, -, rfl⟩ := hm
  obtain ⟨digits', htext', -, -, rfl⟩ := hn
  have hcons := (List.cons.inj (htext.symm.trans htext')).2
  rw [List.append_cancel_right hcons]

theorem not_isSize_map (n : Nat) : ¬ IsSize "[map]" n := by
  rintro ⟨digits, htext, -, hdigits, -⟩
  have hcons := (List.cons.inj (show '[' :: (['m', 'a', 'p'] ++ [']']) = _ from htext)).2
  rw [← List.append_cancel_right hcons] at hdigits
  exact absurd (hdigits 'm' (by simp)) (by decide)

section Triple

variable {a b c : Token}

theorem triple?_of_map (h : a.text ++ b.text ++ c.text = "[map]") :
    triple? a b c =
      .ok (some (plain .mapType (a.text ++ b.text ++ c.text) (a.span.hull c.span) a.position)) := by
  rw [triple?, Builder.triple?, if_pos h]
  rfl

theorem triple?_of_isSize {n : Nat} (h : IsSize (a.text ++ b.text ++ c.text) n) :
    triple? a b c =
      if 1 ≤ n ∧ n < UInt64.size then
        .ok (some (arrayType (a.text ++ b.text ++ c.text) (.ofNat n) (a.span.hull c.span)
          a.position))
      else
        .error ⟨.invalidArraySize (a.text ++ b.text ++ c.text), a.span.hull c.span,
          a.position⟩ := by
  have hmap : a.text ++ b.text ++ c.text ≠ "[map]" := fun heq => not_isSize_map n (heq ▸ h)
  obtain ⟨digits, htext, hne, hdigits, rfl⟩ := h
  have hsize := sizeDigits?_eq_some_iff.mpr ⟨htext, hne, hdigits⟩
  simp only [triple?, Builder.triple?, Builder.unchecked_failed, if_neg hmap, hsize,
    Radix.readWord?_eq]
  by_cases hfits : Radix.decimal.value digits < UInt64.size
  -- Below the bound the word is zero exactly when the value is.
  · have hzero : UInt64.ofNat (Radix.decimal.value digits) = 0 ↔
        Radix.decimal.value digits = 0 := by
      rw [← UInt64.toNat_inj, UInt64.toNat_ofNat_of_lt' hfits]
      rfl
    simp only [if_pos hfits, hzero]
    by_cases hpos : Radix.decimal.value digits = 0
    · rw [if_pos hpos, if_neg (by omega)]
    · rw [if_neg hpos, if_pos (by omega)]
  · rw [if_neg hfits, if_neg (by omega)]

theorem triple?_of_not_isTripleText (h : ¬ IsTripleText (a.text ++ b.text ++ c.text)) :
    triple? a b c = .ok none := by
  rw [IsTripleText, not_or] at h
  rw [triple?, Builder.triple?, if_neg h.1]
  cases hsize : sizeDigits? (a.text ++ b.text ++ c.text).toList with
  | none => rfl
  | some digits =>
    obtain ⟨htext, hne, hdigits⟩ := sizeDigits?_eq_some_iff.mp hsize
    exact absurd ⟨_, digits, htext, hne, hdigits, rfl⟩ h.2

end Triple

section Step

variable {operators : OperatorSet} {a b c token : Token} {rest : List Token}

theorem combine_triple (h : triple? a b c = .ok (some token)) :
    combine operators (a :: b :: c :: rest) = (combine operators rest).map (token :: ·) := by
  rw [triple?] at h
  rw [combine, Builder.combine, h]
  rfl

theorem combine_triple_error {error : LexError} (h : triple? a b c = .error error) :
    combine operators (a :: b :: c :: rest) = .error error := by
  rw [triple?] at h
  rw [combine, Builder.combine, h]

theorem combine_pair {kind : Kind} (h : operators.pair? (a.text ++ b.text) = some kind)
    (htriple : ∀ c ∈ rest.head?, triple? a b c = .ok none) :
    combine operators (a :: b :: rest) = (combine operators rest).map
      (plain kind (a.text ++ b.text) (a.span.hull b.span) a.position :: ·) := by
  cases rest with
  | nil =>
    rw [combine, Builder.combine, Builder.unchecked_pair?, h]
    rfl
  | cons c rest =>
    have habc := htriple c rfl
    rw [triple?] at habc
    rw [combine, Builder.combine, habc, Builder.unchecked_pair?, h]
    rfl

theorem combine_single (h : ∀ b ∈ rest.head?, operators.pair? (a.text ++ b.text) = none)
    (htriple : ∀ b c after, rest = b :: c :: after → triple? a b c = .ok none) :
    combine operators (a :: rest) = (combine operators rest).map (a :: ·) := by
  match rest with
  | [] => rfl
  | [b] =>
    rw [combine, Builder.combine, Builder.unchecked_pair?, h b rfl]
    rfl
  | b :: c :: rest =>
    have habc := htriple b c rest rfl
    rw [triple?] at habc
    rw [combine, Builder.combine, habc, Builder.unchecked_pair?, h b rfl]
    rfl

end Step

theorem Block.Stands.combine_eq {operators : OperatorSet} {block : Block} {rest : List Token}
    (h : block.Stands operators rest) :
    ∃ token, block.Becomes operators token ∧
      combine operators (block.tokens ++ rest) = (combine operators rest).map (token :: ·) := by
  cases block with
  | single a =>
    refine ⟨a, .single, combine_single (fun b hb => ?_) fun b c after hrest => ?_⟩
    · rw [Option.eq_none_iff_forall_ne_some]
      exact fun kind hkind => h.1 b hb kind (mem_pairTable_iff.mpr hkind)
    · exact triple?_of_not_isTripleText (h.2 b c after hrest)
  | pair a b =>
    obtain ⟨⟨kind, hkind⟩, htriple⟩ := h
    exact ⟨_, .pair hkind, combine_pair (mem_pairTable_iff.mp hkind) fun c hc =>
      triple?_of_not_isTripleText (htriple c hc)⟩
  | triple a b c =>
    rcases h with hmap | ⟨n, hsize, hpos, hword⟩
    · exact ⟨_, .map hmap, combine_triple (triple?_of_map hmap)⟩
    · refine ⟨_, .array hsize hpos hword, combine_triple ?_⟩
      rw [triple?_of_isSize hsize, if_pos ⟨hpos, hword⟩]
      rfl

theorem Block.Becomes.unique {operators : OperatorSet} {block : Block} {token other : Token}
    (h : block.Becomes operators token) (hother : block.Becomes operators other) :
    token = other := by
  cases h with
  | single =>
    cases hother
    rfl
  | pair hkind =>
    cases hother with
    | pair hother =>
      rw [mem_pairTable_iff] at hkind hother
      rw [Option.some.inj (hkind.symm.trans hother)]
  | map hmap =>
    cases hother with
    | map => rfl
    | array hsize => exact absurd (hmap ▸ hsize) (not_isSize_map _)
  | array hsize =>
    cases hother with
    | map hmap => exact absurd (hmap ▸ hsize) (not_isSize_map _)
    | array hother => rw [hsize.unique hother]

theorem Block.Becomes.eq_single_or_joined {operators : OperatorSet} {block : Block}
    {token : Token} (h : block.Becomes operators token) :
    block = .single token ∨ IsJoinedText operators token.text := by
  cases h with
  | single => exact Or.inl rfl
  | pair hkind => exact Or.inr (Or.inl ⟨_, hkind⟩)
  | map hmap => exact Or.inr (Or.inr (Or.inl hmap))
  | array hsize => exact Or.inr (Or.inr (Or.inr ⟨_, hsize⟩))

theorem Block.Becomes.place_eq {operators : OperatorSet} {block : Block} {token : Token}
    (h : block.Becomes operators token) :
    ∃ first window, block.tokens = first :: window ∧ token.position = first.position ∧
      token.span = first.span.hull ((first :: window).getLast (List.cons_ne_nil _ _)).span := by
  cases h with
  | single => exact ⟨_, [], rfl, rfl, (Span.hull_self _).symm⟩
  | pair => exact ⟨_, [_], rfl, rfl, rfl⟩
  | map => exact ⟨_, [_, _], rfl, rfl, rfl⟩
  | array => exact ⟨_, [_, _], rfl, rfl, rfl⟩

theorem Block.Stands.isTripleText {operators : OperatorSet} {a b c : Token} {rest : List Token}
    (h : (triple a b c).Stands operators rest) : IsTripleText (a.text ++ b.text ++ c.text) := by
  rcases h with hmap | ⟨n, hsize, -⟩
  · exact Or.inl hmap
  · exact Or.inr ⟨n, hsize⟩

theorem Block.Stands.unique {operators : OperatorSet} {block other : Block}
    {rest after : List Token} (h : block.Stands operators rest)
    (hother : other.Stands operators after) (heq : block.tokens ++ rest = other.tokens ++ after) :
    block = other ∧ rest = after := by
  cases block with
  | single a =>
    cases other with
      simp only [tokens, List.cons_append, List.nil_append, List.cons.injEq] at heq
    | single =>
      obtain ⟨rfl, rfl⟩ := heq
      exact ⟨rfl, rfl⟩
    | pair =>
      obtain ⟨rfl, rfl⟩ := heq
      obtain ⟨⟨kind, hkind⟩, -⟩ := hother
      exact absurd hkind (h.1 _ rfl kind)
    | triple =>
      obtain ⟨rfl, rfl⟩ := heq
      exact absurd hother.isTripleText (h.2 _ _ _ rfl)
  | pair a b =>
    cases other with
      simp only [tokens, List.cons_append, List.nil_append, List.cons.injEq] at heq
    | single =>
      obtain ⟨rfl, rfl⟩ := heq
      obtain ⟨⟨kind, hkind⟩, -⟩ := h
      exact absurd hkind (hother.1 _ rfl kind)
    | pair =>
      obtain ⟨rfl, rfl, rfl⟩ := heq
      exact ⟨rfl, rfl⟩
    | triple =>
      obtain ⟨rfl, rfl, rfl⟩ := heq
      exact absurd hother.isTripleText (h.2 _ rfl)
  | triple a b c =>
    cases other with
      simp only [tokens, List.cons_append, List.nil_append, List.cons.injEq] at heq
    | single =>
      obtain ⟨rfl, rfl⟩ := heq
      exact absurd h.isTripleText (hother.2 _ _ _ rfl)
    | pair =>
      obtain ⟨rfl, rfl, rfl⟩ := heq
      exact absurd h.isTripleText (hother.2 _ rfl)
    | triple =>
      obtain ⟨rfl, rfl, rfl, rfl⟩ := heq
      exact ⟨rfl, rfl⟩

theorem exists_stands_or_wrong_size (operators : OperatorSet) {tokens : List Token}
    (hne : tokens ≠ []) :
    (∃ (block : Block) (rest : List Token), tokens = block.tokens ++ rest ∧
      block.Stands operators rest) ∨
    ∃ a b c rest n, tokens = a :: b :: c :: rest ∧ IsSize (a.text ++ b.text ++ c.text) n ∧
      ¬ (1 ≤ n ∧ n < UInt64.size) := by
  obtain ⟨a, after, rfl⟩ := List.exists_cons_of_ne_nil hne
  by_cases htriple : ∃ b c rest, after = b :: c :: rest ∧
      IsTripleText (a.text ++ b.text ++ c.text)
  · obtain ⟨b, c, rest, rfl, hmap | ⟨n, hsize⟩⟩ := htriple
    · exact Or.inl ⟨.triple a b c, rest, rfl, Or.inl hmap⟩
    · by_cases hword : 1 ≤ n ∧ n < UInt64.size
      · exact Or.inl ⟨.triple a b c, rest, rfl, Or.inr ⟨n, hsize, hword⟩⟩
      · exact Or.inr ⟨a, b, c, rest, n, rfl, hsize, hword⟩
  -- Only where no window of three fits does one of two count.
  · have hnone : ∀ b c rest, after = b :: c :: rest →
        ¬ IsTripleText (a.text ++ b.text ++ c.text) :=
      fun b c rest hafter htext => htriple ⟨b, c, rest, hafter, htext⟩
    left
    by_cases hpair : ∃ b rest kind, after = b :: rest ∧
        (a.text ++ b.text, kind) ∈ pairTable operators
    · obtain ⟨b, rest, kind, rfl, hkind⟩ := hpair
      refine ⟨.pair a b, rest, rfl, ⟨kind, hkind⟩, fun c hc => ?_⟩
      obtain ⟨rest, rfl⟩ := List.head?_eq_some_iff.mp hc
      exact hnone b c rest rfl
    · refine ⟨.single a, after, rfl, fun b hb kind hkind => hpair ?_, hnone⟩
      obtain ⟨rest, rfl⟩ := List.head?_eq_some_iff.mp hb
      exact ⟨b, rest, kind, rfl, hkind⟩

end ShapeLang.Token
