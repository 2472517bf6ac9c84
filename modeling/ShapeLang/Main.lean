import ShapeLang.CommandLine.Run

/-! The program: reads the input that a run asks for, prints what it answers and ends with its
code. -/

namespace ShapeLang.CommandLine

def readError (error : IO.Error) : ReadError :=
  match error with
  | .noFileOrDirectory _ code text | .inappropriateType _ code text
  | .permissionDenied _ code text | .invalidArgument _ code text
  | .resourceExhausted _ code text | .noSuchThing _ code text
  | .hardwareFault code text | .otherError code text =>
    .ofCode (if code < 0x80000000 then code else 0 - code).toNat text
  | error => .ofCode 5 error.toString

def readStream (stream : IO.FS.Stream) : IO ByteArray := do
  let mut bytes := .empty
  repeat
    let more ← stream.read 65536
    if more.isEmpty then break
    bytes := bytes ++ more
  return bytes

def readInput (input : Input) : IO (Except ReadError ByteArray) := do
  try
    match input with
    | .standard => return .ok (← readStream (← IO.getStdin))
    | .file path => return .ok (← IO.FS.readBinFile path)
  catch error => return .error (readError error)

end ShapeLang.CommandLine

open ShapeLang.CommandLine in
def main (arguments : List String) : IO UInt32 := do
  let outcome ← run readInput arguments
  (← IO.getStdout).putStr outcome.stdout
  (← IO.getStderr).putStr outcome.stderr
  return outcome.exit.toUInt32
