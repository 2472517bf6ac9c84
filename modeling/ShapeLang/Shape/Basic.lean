import ShapeLang.FieldMap.Basic

/-! Types of data as trees: scalars, references by name, records, and composites of other types.
The text of a tree is canonical: the fields of a record come in name order, and a record shows the
names of its fields only. -/

namespace ShapeLang

inductive Shape where
  | named (name : String)
  | map (key value : Shape)
  | record (fields : FieldMap Shape)
  | field (name : String) (shape : Shape)
  | array (element : Shape) (size : UInt64)
  | slice (element : Shape)
  | int
  | float
  | bool
  | string
deriving Inhabited, Repr

namespace Shape

def keyword : Shape → String
  | named _ => "NAME"
  | map _ _ => "MAP"
  | record _ => "STRUCT"
  | field _ _ => "FIELD"
  | array _ _ => "ARRAY"
  | slice _ => "SLICE"
  | int => "INT"
  | float => "FLOAT"
  | bool => "BOOL"
  | string => "STRING"

def isScalar : Shape → Bool
  | int | float | bool | string => true
  | _ => false

def children : Shape → List Shape
  | map key value => [key, value]
  | record fields => fields.values
  | field _ shape => [shape]
  | array element _ | slice element => [element]
  | named _ | int | float | bool | string => []

def render : Shape → String
  | named name => name
  | map key value => "MAP[" ++ key.render ++ "]" ++ value.render
  | record fields => "STRUCT(" ++ String.intercalate ", " fields.names ++ ")"
  | field name shape => "FIELD(" ++ name ++ "," ++ shape.render ++ ")"
  | array element size => "ARRAY(" ++ toString size.toNat ++ ", " ++ element.render ++ ")"
  | slice element => "SLICE(" ++ element.render ++ ")"
  | int => "INT"
  | float => "FLOAT"
  | bool => "BOOL"
  | string => "STRING"

end Shape
end ShapeLang
