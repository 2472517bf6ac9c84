import ShapeLang.Numeral.Literal

/-! Reading digits into a word gives their value exactly when a word holds it: a value that has
left the words never comes back to them, whatever digits follow. -/

namespace ShapeLang.Radix

def valueFrom (radix : Radix) (n : Nat) (digits : List Char) : Nat :=
  digits.foldl (fun n c => n * radix.base + (radix.digit? c).getD 0) n

theorem le_valueFrom (radix : Radix) (n : Nat) (digits : List Char) :
    n ≤ radix.valueFrom n digits := by
  induction digits generalizing n with
  | nil => exact Nat.le_refl n
  | cons c digits ih =>
    have hbase : 1 ≤ radix.base := by cases radix <;> decide
    have hstep : n ≤ n * radix.base + (radix.digit? c).getD 0 :=
      Nat.le_add_right_of_le (Nat.le_mul_of_pos_right n hbase)
    exact Nat.le_trans hstep (ih _)

theorem foldlM_push? (radix : Radix) (n : UInt64) (digits : List Char) :
    digits.foldlM radix.push? n =
      if radix.valueFrom n.toNat digits < UInt64.size then
        some (.ofNat (radix.valueFrom n.toNat digits)) else none := by
  induction digits generalizing n with
  | nil =>
    have hword : n.toNat < UInt64.size := n.toNat_lt_size
    simp [valueFrom, hword]
  | cons c digits ih =>
    have hcons : radix.valueFrom n.toNat (c :: digits) =
      radix.valueFrom (n.toNat * radix.base + (radix.digit? c).getD 0) digits := rfl
    rw [List.foldlM_cons, push?, hcons]
    by_cases hfits : n.toNat * radix.base + (radix.digit? c).getD 0 < UInt64.size
    · rw [if_pos hfits, Option.bind_eq_bind, Option.bind_some, ih, UInt64.toNat_ofNat_of_lt' hfits]
    · have hwide := le_valueFrom radix (n.toNat * radix.base + (radix.digit? c).getD 0) digits
      rw [if_neg hfits, Option.bind_eq_bind, Option.bind_none, if_neg (by omega)]

theorem readWord?_eq (radix : Radix) (digits : List Char) :
    radix.readWord? digits =
      if radix.value digits < UInt64.size then some (.ofNat (radix.value digits)) else none :=
  foldlM_push? radix 0 digits

end ShapeLang.Radix
