import ShapeLang.LexError
import ShapeLang.Token.Basic

/-! What is shown of a text: a listing of its tokens, one a line, or the error that it has none
for, with its hints. `path` is the name that the text goes by. -/

namespace ShapeLang.Report

def line (text : String) : String :=
  text ++ "\n"

def listing (path : String) (tokens : List Token) (hidden : Char → Bool := Text.isHidden) :
    String :=
  line ("Tokens for '" ++ path ++ "' (" ++ toString tokens.length ++ " tokens):") ++
    String.join (tokens.map fun token => line ("  " ++ token.describe hidden))

def failure (path : String) (error : LexError) : String :=
  line ("error: " ++ path ++ ":" ++ error.message) ++
    String.join (error.hints.map fun hint => line ("  help: " ++ hint))

end ShapeLang.Report
