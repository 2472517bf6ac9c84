import ShapeLang.Shape.Basic

/-! Equality of shapes is decidable: trees are compared constructor by constructor, records field
by field. -/

namespace ShapeLang.Shape

mutual

def same : Shape → Shape → Bool
  | named a, named b => a == b
  | map k v, map k' v' => same k k' && same v v'
  | record f, record g => sameFields f g
  | field n s, field n' s' => n == n' && same s s'
  | array e n, array e' n' => same e e' && n == n'
  | slice e, slice e' => same e e'
  | int, int => true
  | float, float => true
  | bool, bool => true
  | string, string => true
  | _, _ => false
termination_by structural a => a

def sameFields : FieldMap Shape → FieldMap Shape → Bool
  | ⟨es⟩, ⟨es'⟩ => sameEntries es es'

def sameEntries : List (String × Shape) → List (String × Shape) → Bool
  | [], [] => true
  | e :: es, e' :: es' => sameEntry e e' && sameEntries es es'
  | _, _ => false

def sameEntry : String × Shape → String × Shape → Bool
  | (n, s), (n', s') => n == n' && same s s'

end

mutual

theorem same_iff (a b : Shape) : same a b = true ↔ a = b := by
  cases a with
  | named n => cases b <;> simp [same]
  | map k v => cases b <;> simp [same, same_iff k, same_iff v]
  | record f =>
    cases b with
    | record g => simp [same, sameFields_iff f g]
    | _ => simp [same]
  | field n s => cases b <;> simp [same, same_iff s]
  | array e n => cases b <;> simp [same, same_iff e]
  | slice e => cases b <;> simp [same, same_iff e]
  | int => cases b <;> simp [same]
  | float => cases b <;> simp [same]
  | bool => cases b <;> simp [same]
  | string => cases b <;> simp [same]

theorem sameFields_iff (f g : FieldMap Shape) : sameFields f g = true ↔ f = g := by
  obtain ⟨es⟩ := f
  obtain ⟨es'⟩ := g
  simp [sameFields, sameEntries_iff es es']

theorem sameEntries_iff (es es' : List (String × Shape)) :
    sameEntries es es' = true ↔ es = es' := by
  cases es with
  | nil => cases es' <;> simp [sameEntries]
  | cons e es =>
    cases es' with
    | nil => simp [sameEntries]
    | cons e' es' => simp [sameEntries, sameEntries_iff es es', sameEntry_iff e e']

theorem sameEntry_iff (e e' : String × Shape) : sameEntry e e' = true ↔ e = e' := by
  obtain ⟨n, s⟩ := e
  obtain ⟨n', s'⟩ := e'
  simp [sameEntry, same_iff s s']

end

instance : DecidableEq Shape := fun a b => decidable_of_iff _ (same_iff a b)

end ShapeLang.Shape
