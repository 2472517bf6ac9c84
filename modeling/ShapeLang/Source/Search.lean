/-! Binary search among ascending words. A word that is there is told apart from the place at which
one is missing. -/

namespace ShapeLang

inductive Slot where
  | held (index : Nat)
  | missing (index : Nat)
deriving DecidableEq, Repr

namespace Slot

/-- Halves a window, the `size` words from `base` on, until one word is left of it. The half that is
kept is the one before a word beyond the word sought, or else the one that starts with it. -/
@[semireducible]
def narrow (words : List UInt32) (word : UInt32) (base size : Nat) : Nat :=
  if size ≤ 1 then base
  else
    let half := size / 2
    let beyond := words[base + half]?.any (word < ·)
    narrow words word (if beyond then base else base + half) (size - half)
termination_by size

def find (words : List UInt32) (word : UInt32) : Slot :=
  let last := narrow words word 0 words.length
  match words[last]? with
  | none => missing last
  | some found =>
    if found = word then held last
    else if found < word then missing (last + 1)
    else missing last

end Slot
end ShapeLang
