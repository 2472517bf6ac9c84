/-! Finite maps from names, kept in name order. Names are ordered by code points. Insertion is a
single pass that also tells which value it displaced. -/

namespace ShapeLang

structure FieldMap (α : Type) where
  entries : List (String × α)
deriving DecidableEq, Repr

namespace FieldMap

variable {α β : Type}

def empty : FieldMap α := ⟨[]⟩

instance : Inhabited (FieldMap α) := ⟨empty⟩

def insertEntry (name : String) (value : α) : List (String × α) → Option α × List (String × α)
  | [] => (none, [(name, value)])
  | (key, old) :: entries =>
    if name < key then (none, (name, value) :: (key, old) :: entries)
    else if name = key then (some old, (name, value) :: entries)
    else
      let (displaced, rest) := insertEntry name value entries
      (displaced, (key, old) :: rest)

/-- Binds a name, also if it is bound already. The first component is the value displaced. -/
def insert (fields : FieldMap α) (name : String) (value : α) : Option α × FieldMap α :=
  let (displaced, entries) := insertEntry name value fields.entries
  (displaced, ⟨entries⟩)

def get? (fields : FieldMap α) (name : String) : Option α :=
  (fields.entries.find? (·.1 = name)).map Prod.snd

def contains (fields : FieldMap α) (name : String) : Bool :=
  (fields.get? name).isSome

def size (fields : FieldMap α) : Nat :=
  fields.entries.length

def isEmpty (fields : FieldMap α) : Bool :=
  fields.entries.isEmpty

def names (fields : FieldMap α) : List String :=
  fields.entries.map Prod.fst

def values (fields : FieldMap α) : List α :=
  fields.entries.map Prod.snd

def toList (fields : FieldMap α) : List (String × α) :=
  fields.entries

def insertAll (fields : FieldMap α) (entries : List (String × α)) : FieldMap α :=
  entries.foldl (fun fields entry => (fields.insert entry.1 entry.2).2) fields

def lastOfRuns : List (String × α) → List (String × α)
  | [] => []
  | [entry] => [entry]
  | entry :: next :: entries =>
    if entry.1 = next.1 then lastOfRuns (next :: entries)
    else entry :: lastOfRuns (next :: entries)

def nameLe (a b : String × α) : Bool :=
  a.1 ≤ b.1

/-- Collects entries at once: a stable sort brings a repeated name together, and the value given
last stays. -/
def ofList (entries : List (String × α)) : FieldMap α :=
  ⟨lastOfRuns (entries.mergeSort nameLe)⟩

/-- Each name is bound once, and the names ascend. -/
def Ordered (fields : FieldMap α) : Prop :=
  fields.names.Pairwise (· < ·)

end FieldMap
end ShapeLang
