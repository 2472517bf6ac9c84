/-! What a command reads: the standard input or a file, and why either can be unreadable. -/

namespace ShapeLang.CommandLine

inductive Input where
  | standard
  | file (path : String)
deriving DecidableEq, Repr

namespace Input

/-- A lone dash names the standard input. -/
def ofPath (path : String) : Input :=
  if path = "-" then standard else file path

end Input

inductive ReadError where
  | notFound
  | notDirectory
  | isDirectory
  | nameTooLong
  | notUtf8
  | system (description : String) (code : Nat)
deriving DecidableEq, Repr

namespace ReadError

def ofCode (code : Nat) (description : String) : ReadError :=
  match code with
  | 2 => notFound
  | 20 => notDirectory
  | 21 => isDirectory
  | 36 => nameTooLong
  | _ => system description code

def message : ReadError → String
  | notFound => "No such file or directory (os error 2)"
  | notDirectory => "Not a directory (os error 20)"
  | isDirectory => "Is a directory (os error 21)"
  | nameTooLong => "File name too long (os error 36)"
  | notUtf8 => "stream did not contain valid UTF-8"
  | system description code => description ++ " (os error " ++ toString code ++ ")"

end ReadError

def decode (bytes : ByteArray) : Except ReadError String :=
  (String.fromUTF8? bytes).elim (.error .notUtf8) .ok

end ShapeLang.CommandLine
