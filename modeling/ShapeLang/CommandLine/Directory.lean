import ShapeLang.CommandLine.Input
import ShapeLang.Text.Bytes

/-! A working directory in memory. It holds files and no other directory. Above it there are
directories, and no file that can be found. -/

namespace ShapeLang.CommandLine

open Text (byteLength)

/-- The files of a directory by name, and what the standard input holds. -/
structure Directory where
  files : List (String × ByteArray)
  standard : ByteArray

namespace Directory

inductive Place where
  | inside
  | outside
deriving DecidableEq, Repr

def maxName : Nat := 255

def maxPath : Nat := 4095

def parts (path : List Char) : List (List Char) :=
  path.foldr
    (fun c parts => if c = '/' then [] :: parts else (c :: parts.headD []) :: parts.drop 1) [[]]

def lookup (directory : Directory) (place : Place) (name : List Char) :
    Except ReadError ByteArray :=
  if maxName < byteLength name then .error .nameTooLong
  else
    match place with
    | .outside => .error .notFound
    | .inside =>
      (directory.files.find? (·.1.toList = name)).elim (.error .notFound) fun file => .ok file.2

/-- Follows the parts of a path. A path that ends in a place leads to a directory, and one that goes
on after a file leads nowhere; the first part that fails decides. -/
def follow (directory : Directory) : Place → List (List Char) → Except ReadError ByteArray
  | _, [] => .error .isDirectory
  | place, part :: parts =>
    if part = [] ∨ part = ['.'] then directory.follow place parts
    else if part = ['.', '.'] then directory.follow .outside parts
    else
      match directory.lookup place part with
      | .error error => .error error
      | .ok bytes => if parts.isEmpty then .ok bytes else .error .notDirectory

def readFile (directory : Directory) (path : List Char) : Except ReadError ByteArray :=
  if path = [] then .error .notFound
  else if maxPath < byteLength path then .error .nameTooLong
  else directory.follow (if path.head? = some '/' then .outside else .inside) (parts path)

def read (directory : Directory) : Input → Except ReadError ByteArray
  | .standard => .ok directory.standard
  | .file path => directory.readFile path.toList

end Directory
end ShapeLang.CommandLine
