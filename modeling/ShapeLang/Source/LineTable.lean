import ShapeLang.Source.Place
import ShapeLang.Source.Search
import ShapeLang.Text.Bytes

/-! The lines of a source text. A table keeps the byte offset at which each line starts; an offset
belongs to the last line that starts at or before it. -/

namespace ShapeLang

open Text (byteLength slice?)

structure LineTable where
  starts : List UInt32
deriving DecidableEq, Repr

namespace LineTable

def empty : LineTable := ⟨[]⟩

/-- The word of an offset; every offset beyond the largest word is taken for it. -/
def offsetWord (n : Nat) : UInt32 :=
  if n < UInt32.size then .ofNat n else 0xFFFFFFFF

def startsAfter (offset : Nat) : List Char → List UInt32
  | [] => []
  | c :: text =>
    if c = '\n' then offsetWord (offset + 1) :: startsAfter (offset + 1) text
    else startsAfter (offset + c.utf8Size) text

def ofText (text : List Char) : LineTable :=
  ⟨0 :: startsAfter 0 text⟩

def oneBased (n : Nat) : UInt32 :=
  (if n < UInt32.size then .ofNat n else 0xFFFFFFFE) + 1

/-- The line that starts at an offset, or else the one before the line that would come next. -/
def index (table : LineTable) (offset : UInt32) : Nat :=
  match Slot.find table.starts offset with
  | .held index => index
  | .missing index => index - 1

def line (table : LineTable) (offset : UInt32) : UInt32 :=
  oneBased (table.index offset)

def lineStart (table : LineTable) (line : UInt32) : UInt32 :=
  (table.starts[(line - 1).toNat]?).getD 0

/-- The place of a byte offset; offsets past the end have the place of the end. The column is the
first one where the text cannot be cut between the start of the line and the offset. -/
def position (table : LineTable) (text : List Char) (offset : UInt32) : Position :=
  let line := table.line offset
  let stop := min offset.toNat (byteLength text)
  let before := slice? text (table.lineStart line).toNat stop
  ⟨line, oneBased (before.elim 0 List.length)⟩

end LineTable
end ShapeLang
