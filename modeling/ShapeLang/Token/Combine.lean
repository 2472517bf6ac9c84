import ShapeLang.OperatorSet
import ShapeLang.Token.Builder

/-! Neighbouring tokens that read together as one: the constructors of map and array types from
three tokens, operators and the constructor of slice types from two. Only their common text counts,
not what stood between them. The longer window wins, and a joined token is not looked at again. -/

namespace ShapeLang.Token

def sizeDigits? : List Char → Option (List Char)
  | '[' :: text =>
    let digits := text.dropLast
    if text.getLast? = some ']' ∧ digits ≠ [] ∧ digits.all Radix.decimal.isDigit then some digits
    else none
  | _ => none

namespace Builder

variable {ε ε' : Type} (builder : Builder ε)

def joined (kind : Kind) (text : String) (first last : Token) : Except ε Token :=
  builder.bare kind text (first.span.hull last.span) first.position

/-- What three neighbours join to. A size that is no positive word is an error. -/
def triple? (a b c : Token) : Except ε (Option Token) :=
  let text := a.text ++ b.text ++ c.text
  if text = "[map]" then (builder.joined .mapType text a c).map some
  else
    match sizeDigits? text.toList with
    | none => .ok none
    | some digits =>
      let span := a.span.hull c.span
      match Radix.decimal.readWord? digits with
      | none => .error (builder.failed ⟨.invalidArraySize text, span, a.position⟩)
      | some size =>
        if size = 0 then .error (builder.failed ⟨.invalidArraySize text, span, a.position⟩)
        else .ok (some (arrayType text size span a.position))

def pair? (operators : OperatorSet) (a b : Token) : Except ε (Option Token) :=
  let text := a.text ++ b.text
  match operators.pair? text with
  | none => .ok none
  | some kind => (builder.joined kind text a b).map some

def combine (operators : OperatorSet) : List Token → Except ε (List Token)
  | [] => .ok []
  | [a] => .ok [a]
  | [a, b] =>
    match builder.pair? operators a b with
    | .error stop => .error stop
    | .ok (some token) => .ok [token]
    | .ok none => .ok [a, b]
  | a :: b :: c :: rest =>
    match builder.triple? a b c with
    | .error stop => .error stop
    | .ok (some token) => (combine operators rest).map (token :: ·)
    | .ok none =>
      match builder.pair? operators a b with
      | .error stop => .error stop
      | .ok (some token) => (combine operators (c :: rest)).map (token :: ·)
      | .ok none => (combine operators (b :: c :: rest)).map (a :: ·)

/-- Over mapped tokens `other` builds what `builder` builds over the tokens themselves, mapped. Only
kinds without a value count, as windows are joined to no others. -/
structure Maps (builder : Builder ε) (other : Builder ε') (f : Token → Token) (told : ε → ε') :
    Prop where
  text_eq : ∀ t : Token, (f t).text = t.text
  joined_eq : ∀ {kind : Kind}, kind.carriesValue = false → ∀ (text : String) (a b : Token),
    other.joined kind text (f a) (f b) = ((builder.joined kind text a b).map f).mapError told
  sized_eq : ∀ (text : String) (size : UInt64) (a b : Token),
    arrayType text size ((f a).span.hull (f b).span) (f a).position =
      f (arrayType text size (a.span.hull b.span) a.position)
  failed_eq : ∀ (cause : LexError.Cause) (a b : Token),
    other.failed ⟨cause, (f a).span.hull (f b).span, (f a).position⟩ =
      told (builder.failed ⟨cause, a.span.hull b.span, a.position⟩)

section Maps

variable {builder : Builder ε} {other : Builder ε'} {f : Token → Token} {told : ε → ε'}
  {operators set : OperatorSet} {tokens : List Token}

theorem Maps.refl (builder : Builder ε) : builder.Maps builder id id where
  text_eq _ := rfl
  joined_eq _ text a b := by
    rw [id, id]
    cases builder.joined _ text a b <;> rfl
  sized_eq _ _ _ _ := rfl
  failed_eq _ _ _ := rfl

theorem Maps.triple?_eq (h : builder.Maps other f told) (a b c : Token) :
    other.triple? (f a) (f b) (f c) =
      ((builder.triple? a b c).map (Option.map f)).mapError told := by
  have hmap : Kind.mapType.carriesValue = false := rfl
  simp only [triple?, h.text_eq, h.joined_eq hmap, h.sized_eq, h.failed_eq]
  split
  · cases builder.joined .mapType (a.text ++ b.text ++ c.text) a c <;> rfl
  cases sizeDigits? (a.text ++ b.text ++ c.text).toList with
  | none => rfl
  | some digits =>
    dsimp only
    cases Radix.decimal.readWord? digits with
    | none => rfl
    | some size =>
      dsimp only
      split <;> rfl

theorem Maps.pair?_eq (h : builder.Maps other f told) {a b : Token}
    (hset : operators.pair? (a.text ++ b.text) = set.pair? (a.text ++ b.text)) :
    other.pair? set (f a) (f b) =
      ((builder.pair? operators a b).map (Option.map f)).mapError told := by
  simp only [pair?, h.text_eq, hset]
  cases hkind : set.pair? (a.text ++ b.text) with
  | none => rfl
  | some kind =>
    dsimp only
    rw [h.joined_eq (OperatorSet.carriesValue_of_pair? hkind)]
    cases builder.joined kind (a.text ++ b.text) a b <;> rfl

theorem Maps.combine_eq (h : builder.Maps other f told)
    (hset : ∀ a ∈ tokens, ∀ b ∈ tokens,
      operators.pair? (a.text ++ b.text) = set.pair? (a.text ++ b.text)) :
    other.combine set (tokens.map f) =
      ((builder.combine operators tokens).map (List.map f)).mapError told := by
  -- What the head of the tokens is joined to goes in front of what the rest is joined to.
  have hfront : ∀ (token : Token) (result : Except ε (List Token)),
      ((result.map (List.map f)).mapError told).map (f token :: ·) =
        ((result.map (token :: ·)).map (List.map f)).mapError told := by
    intro token result
    cases result <;> rfl
  fun_induction builder.combine operators tokens with
  | case1 => rfl
  | case2 => rfl
  | case3 a b _ hab | case4 a b _ hab | case5 a b hab =>
    have hfirst := h.pair?_eq (hset a (by simp) b (by simp))
    rw [List.map_cons, List.map_cons, List.map_nil, combine, hfirst, hab]
    rfl
  | case6 a b c rest stop habc =>
    rw [List.map_cons, List.map_cons, List.map_cons, combine, h.triple?_eq, habc]
    rfl
  | case7 a b c rest token habc ih =>
    have hrest : rest ⊆ a :: b :: c :: rest := List.subset_append_right [a, b, c] rest
    rw [List.map_cons, List.map_cons, List.map_cons, combine, h.triple?_eq, habc, ← hfront,
      ← ih fun x hx y hy => hset x (hrest hx) y (hrest hy)]
    rfl
  | case8 a b c rest habc stop hab =>
    have hfirst := h.pair?_eq (hset a (by simp) b (by simp))
    rw [List.map_cons, List.map_cons, List.map_cons, combine, h.triple?_eq, habc, hfirst, hab]
    rfl
  | case9 a b c rest habc token hab ih =>
    have hfirst := h.pair?_eq (hset a (by simp) b (by simp))
    have hrest : c :: rest ⊆ a :: b :: c :: rest := List.subset_append_right [a, b] (c :: rest)
    rw [List.map_cons, List.map_cons, List.map_cons, combine, h.triple?_eq, habc, hfirst, hab,
      ← hfront, ← ih fun x hx y hy => hset x (hrest hx) y (hrest hy)]
    rfl
  | case10 a b c rest habc hab ih =>
    have hfirst := h.pair?_eq (hset a (by simp) b (by simp))
    have hrest : b :: c :: rest ⊆ a :: b :: c :: rest := List.subset_cons_self a _
    rw [List.map_cons, List.map_cons, List.map_cons, combine, h.triple?_eq, habc, hfirst, hab,
      ← hfront, ← ih fun x hx y hy => hset x (hrest hx) y (hrest hy)]
    rfl

theorem Maps.combine_eq_mapError (h : builder.Maps other id told)
    (hset : ∀ a ∈ tokens, ∀ b ∈ tokens,
      operators.pair? (a.text ++ b.text) = set.pair? (a.text ++ b.text)) :
    other.combine set tokens = (builder.combine operators tokens).mapError told := by
  have hmapped := h.combine_eq hset
  rw [List.map_id] at hmapped
  rw [hmapped]
  cases builder.combine operators tokens with
  | error stop => rfl
  | ok out => rw [Except.map, List.map_id]

end Maps

theorem unchecked_pair? (operators : OperatorSet) (a b : Token) :
    unchecked.pair? operators a b =
      .ok ((operators.pair? (a.text ++ b.text)).map fun kind =>
        plain kind (a.text ++ b.text) (a.span.hull b.span) a.position) := by
  rw [pair?]
  cases operators.pair? (a.text ++ b.text) <;> rfl

end Builder

def triple? (a b c : Token) : Except LexError (Option Token) :=
  Builder.unchecked.triple? a b c

/-- The tokens with every window that reads as one token put in its place. -/
def combine (operators : OperatorSet) (tokens : List Token) : Except LexError (List Token) :=
  Builder.unchecked.combine operators tokens

@[simp] theorem combine_nil (operators : OperatorSet) : combine operators [] = .ok [] := rfl

end ShapeLang.Token
