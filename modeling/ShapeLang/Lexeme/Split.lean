import ShapeLang.Lexeme.Reading
import ShapeLang.Text.Bytes
import ShapeLang.Text.Classes

/-! A text as the sequence of its lexemes. Blanks separate them and belong to none; faults are
lexemes without a category, and reading goes on after them. -/

namespace ShapeLang

open Text (byteLength isBlank)

/-- A piece of a text, placed by the byte offset of its first character. -/
structure Lexeme where
  category : Option Category
  text : List Char
  start : Nat
deriving DecidableEq, Repr

namespace Lexeme

def stop (lexeme : Lexeme) : Nat :=
  lexeme.start + byteLength lexeme.text

/-- The lexemes of a text that starts at `offset`; its first `skip` characters belong to the lexeme
before it. -/
def splitFrom (offset : Nat) : Nat → List Char → List Lexeme
  | _, [] => []
  | skip + 1, c :: text => splitFrom (offset + c.utf8Size) skip text
  | 0, c :: text =>
    if isBlank c then splitFrom (offset + c.utf8Size) 0 text
    else
      let reading := Reading.longest c text
      ⟨reading.category, c :: text.take reading.extra, offset⟩ ::
        splitFrom (offset + c.utf8Size) reading.extra text

def split (text : List Char) : List Lexeme :=
  splitFrom 0 0 text

theorem splitFrom_skip (offset skip : Nat) (text : List Char) :
    splitFrom offset skip text =
      splitFrom (offset + byteLength (text.take skip)) 0 (text.drop skip) := by
  induction text generalizing offset skip with
  | nil => simp [splitFrom]
  | cons c text ih =>
    cases skip with
    | zero => simp
    | succ skip =>
      rw [splitFrom, ih, List.take_succ_cons, List.drop_succ_cons, Text.byteLength_cons,
        Nat.add_assoc]

theorem splitFrom_of_blank {c : Char} (h : isBlank c = true) (offset : Nat) (text : List Char) :
    splitFrom offset 0 (c :: text) = splitFrom (offset + c.utf8Size) 0 text := by
  rw [splitFrom, if_pos h]

theorem splitFrom_of_not_blank {c : Char} (h : isBlank c = false) (offset : Nat)
    (text : List Char) :
    splitFrom offset 0 (c :: text) =
      ⟨(Reading.longest c text).category, c :: text.take (Reading.longest c text).extra, offset⟩ ::
        splitFrom (offset + byteLength (c :: text.take (Reading.longest c text).extra)) 0
          (text.drop (Reading.longest c text).extra) := by
  rw [splitFrom, if_neg (by simp [h])]
  dsimp only
  rw [splitFrom_skip, Text.byteLength_cons, Nat.add_assoc]

end Lexeme
end ShapeLang
