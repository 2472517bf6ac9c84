import ShapeLang.OperatorSet

/-! The options of the command that lists tokens: flags and at most one source, in any order. -/

namespace ShapeLang.CommandLine

inductive UsageError where
  | unknownOption (flag : String)
  | unexpectedArgument (argument : String)
deriving DecidableEq, Repr

def UsageError.message : UsageError → String
  | unknownOption flag => "unknown option '" ++ flag ++ "'"
  | unexpectedArgument argument => "unexpected argument '" ++ argument ++ "'"

structure LexOptions where
  path : Option String
  operators : OperatorSet
deriving DecidableEq, Repr

namespace LexOptions

def initial : LexOptions := ⟨none, .core⟩

def isFlag (argument : String) : Bool :=
  argument.toList.head? = some '-'

/-- Takes in one more argument. A lone dash is a source, and takes the place of one named before;
a path is refused where a source is named already. -/
def accept (options : LexOptions) (argument : String) : Except UsageError LexOptions :=
  if argument = "--extended" ∨ argument = "-e" then
    .ok { options with operators := .extended }
  else if argument = "-" then .ok { options with path := some argument }
  else if isFlag argument then .error (.unknownOption argument)
  else if options.path.isNone then .ok { options with path := some argument }
  else .error (.unexpectedArgument argument)

def acceptAll (options : LexOptions) : List String → Except UsageError LexOptions
  | [] => .ok options
  | argument :: arguments =>
    match options.accept argument with
    | .error error => .error error
    | .ok options => options.acceptAll arguments

def parse (arguments : List String) : Except UsageError LexOptions :=
  initial.acceptAll arguments

end LexOptions
end ShapeLang.CommandLine
