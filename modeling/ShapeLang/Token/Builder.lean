import ShapeLang.LexError
import ShapeLang.Token.Basic

/-! How the passes over a text build their tokens. A token without a value is built as it is, or its
kind is checked first. A kind that the check refuses stops the pass, and this is told apart from the
errors of the text. -/

namespace ShapeLang.Token

inductive Stop where
  | refused (error : BuildError)
  | failed (error : LexError)
deriving DecidableEq, Repr

/-- What tokens without a value are built by, and what an error of the text stops a pass with. -/
structure Builder (ε : Type) where
  bare : Kind → String → Span → Position → Except ε Token
  failed : LexError → ε

namespace Builder

def unchecked : Builder LexError where
  bare kind text span position := .ok (plain kind text span position)
  failed := id

def checked : Builder Stop where
  bare kind text span position := (ofKind kind text span position).mapError .refused
  failed := .failed

@[simp] theorem unchecked_failed (error : LexError) : unchecked.failed error = error := rfl

theorem checked_bare {kind : Kind} (h : kind.carriesValue = false) (text : String) (span : Span)
    (position : Position) :
    checked.bare kind text span position = .ok (plain kind text span position) := by
  simp only [checked, ofKind_eq_ok_iff.mpr ⟨h, rfl⟩]
  rfl

end Builder
end ShapeLang.Token
