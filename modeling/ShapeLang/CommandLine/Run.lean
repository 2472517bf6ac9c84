import ShapeLang.CommandLine.Input
import ShapeLang.CommandLine.Options
import ShapeLang.Report
import ShapeLang.Token.Lex

/-! The program as a function of its arguments and of a way to read an input. All it does is read
at most one input; what it prints and the code it ends with are a value. -/

namespace ShapeLang.CommandLine

structure Outcome where
  exit : UInt8
  stdout : String
  stderr : String
deriving DecidableEq, Repr

namespace Outcome

def success (stdout : String) : Outcome := ⟨0, stdout, ""⟩

def failure (stderr : String) : Outcome := ⟨1, "", stderr⟩

end Outcome

open Report (line)

def usage : String :=
  String.join <| List.map line
    ["Tapper DSL lexer",
      "",
      "Usage: tapper <command> [options]",
      "",
      "Commands:",
      "  lex <file|->         Tokenize and display tokens (\x60-\x60 reads stdin)",
      "  help                 Show this help message",
      "  version              Show version information",
      "",
      "Lex options:",
      "  --extended, -e      Enable the extended operator table (- / % ^ & =)",
      "",
      "Environment:",
      "  TAPPER_LOG          Log filter, e.g. tapper_lexer=debug (falls back to RUST_LOG)",
      "  TAPPER_LOG_TREE     Show logs as a span tree"]

def version : String :=
  line "tapper 0.1.0"

def LexOptions.source (options : LexOptions) : String :=
  options.path.getD "-"

def showTokens (operators : OperatorSet) (path : String) (bytes : Except ReadError ByteArray) :
    Outcome :=
  match bytes.bind decode with
  | .error error =>
    .failure (line ("error: could not read '" ++ path ++ "': " ++ error.message))
  | .ok source =>
    match Token.lex operators source with
    | .ok tokens => .success (Report.listing path tokens)
    | .error error => .failure (Report.failure path error)

variable {m : Type → Type} [Monad m]

def lex (read : Input → m (Except ReadError ByteArray)) (arguments : List String) : m Outcome :=
  match LexOptions.parse arguments with
  | .error error =>
    pure (.failure (line ("error: " ++ error.message) ++
      line "Usage: tapper lex [--extended] <file|->"))
  | .ok options => do
    let bytes ← read (Input.ofPath options.source)
    return showTokens options.operators options.source bytes

def run (read : Input → m (Except ReadError ByteArray)) : List String → m Outcome
  | [] => pure (.success usage)
  | command :: arguments =>
    if command = "lex" then lex read arguments
    else if command = "help" ∨ command = "--help" ∨ command = "-h" then pure (.success usage)
    else if command = "version" ∨ command = "--version" ∨ command = "-V" then
      pure (.success version)
    else pure ⟨1, usage, line ("Unknown command: " ++ command) ++ line ""⟩

end ShapeLang.CommandLine
