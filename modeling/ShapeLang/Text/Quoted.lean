import ShapeLang.Text.Hidden

/-! Quoted text. The quote and the backslash get a backslash, four control characters have a letter
of their own, and all other control characters of ASCII are written by their code point, as are the
characters of a set that a caller can choose. -/

namespace ShapeLang.Text

def lowerHex (n : Nat) : String :=
  String.ofList (Nat.toDigits 16 n)

def upperHex (n : Nat) : String :=
  String.ofList ((Nat.toDigits 16 n).map Char.toUpper)

namespace Quoted

def isControl (c : Char) : Bool :=
  c.toNat < 0x20 || c.toNat = 0x7f

def codePoint (c : Char) : List Char :=
  ['\\', 'u', '\x7b'] ++ (lowerHex c.toNat).toList ++ ['\x7d']

def escape (hidden : Char → Bool) (c : Char) : List Char :=
  if c = '"' then ['\\', '"']
  else if c = '\\' then ['\\', '\\']
  else if c = '\x00' then ['\\', '0']
  else if c = '\t' then ['\\', 't']
  else if c = '\n' then ['\\', 'n']
  else if c = '\r' then ['\\', 'r']
  else if isControl c || hidden c then codePoint c
  else [c]

end Quoted

def quoted (text : String) (hidden : Char → Bool := isHidden) : String :=
  String.ofList ('"' :: text.toList.flatMap (Quoted.escape hidden) ++ ['"'])

end ShapeLang.Text
