import ShapeLang.Token.Combine

/-! Joining looks at texts only. Tokens that lie elsewhere are joined as they were, and what comes
of them lies elsewhere in the same way, as long as a span over two of them moves along. -/

namespace ShapeLang

def Token.relocate (span : Span → Span) (position : Position → Position) (token : Token) : Token :=
  { token with span := span token.span, position := position token.position }

def LexError.relocate (span : Span → Span) (position : Position → Position) (error : LexError) :
    LexError :=
  { error with span := span error.span, position := position error.position }

namespace Token

section Relocate

variable {span : Span → Span} {position : Position → Position}
  (hspan : ∀ a b : Span, span (a.hull b) = (span a).hull (span b))

include hspan

theorem maps_relocate :
    Builder.unchecked.Maps Builder.unchecked (relocate span position)
      (LexError.relocate span position) := by
  have hhull : ∀ a b : Token,
      (a.relocate span position).span.hull (b.relocate span position).span =
        span (a.span.hull b.span) := fun a b => (hspan a.span b.span).symm
  constructor
  case text_eq => exact fun _ => rfl
  case joined_eq =>
    intro kind _ text a b
    rw [Builder.joined, hhull]
    rfl
  case sized_eq =>
    intro text size a b
    rw [hhull]
    rfl
  case failed_eq =>
    intro cause a b
    rw [hhull]
    rfl

theorem combine_relocate (operators : OperatorSet) (tokens : List Token) :
    combine operators (tokens.map (relocate span position)) =
      ((combine operators tokens).map (List.map (relocate span position))).mapError
        (LexError.relocate span position) :=
  (maps_relocate hspan).combine_eq fun _ _ _ _ => rfl

theorem combine_of_relocate_eq {operators : OperatorSet} {tokens others out : List Token}
    (heq : others.map (relocate span position) = tokens.map (relocate span position))
    (h : combine operators tokens = .ok out) :
    ∃ again, combine operators others = .ok again ∧
      again.map (relocate span position) = out.map (relocate span position) := by
  have hothers : combine operators (others.map (relocate span position)) = _ :=
    combine_relocate hspan operators others
  rw [heq, combine_relocate hspan, h] at hothers
  cases hcombine : combine operators others with
  | error error =>
    rw [hcombine] at hothers
    cases hothers
  | ok again =>
    rw [hcombine] at hothers
    exact ⟨again, rfl, (Except.ok.inj hothers).symm⟩

end Relocate

end Token
end ShapeLang
