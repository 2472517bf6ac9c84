import ShapeLang.Proofs.FieldMap.Canonical
import ShapeLang.Proofs.Shape.Rendering
import ShapeLang.Proofs.Text.Encoding

/-! The fields of a record after any insertions: what each reading of the map tells, that the map
is the same for all ways to the same bindings, and that the text of the record and its children
follow the names. -/

namespace ShapeLang

/-- What every reading of a map tells after entries were bound in turn. The bytes of a name are
those of its encoding. -/
structure FieldMap.Holds {α : Type} (fields : FieldMap α) (entries : List (String × α)) : Prop where
  get?_eq : ∀ name, fields.get? name = lastValue? entries name
  contains_iff : ∀ name, fields.contains name = true ↔ name ∈ entries.map Prod.fst
  size_eq : fields.size = (entries.map Prod.fst).toFinset.card
  mem_toList_iff : ∀ name value, (name, value) ∈ fields.toList ↔
    lastValue? entries name = some value
  names_eq : fields.names = fields.toList.map Prod.fst
  names_ascend : fields.names.Pairwise fun a b => a.toUTF8.data.toList < b.toUTF8.data.toList

namespace FieldMap

variable {α : Type} {fields : FieldMap α}

theorem names_insertAll_iff (entries : List (String × α)) (name : String) :
    name ∈ (empty.insertAll entries).names ↔ name ∈ entries.map Prod.fst := by
  rw [mem_names_iff, get?_insertAll, get?_empty, Option.or_none, isSome_lastValue?]

theorem size_insertAll (entries : List (String × α)) :
    (empty.insertAll entries).size = (entries.map Prod.fst).toFinset.card := by
  have hordered : (empty.insertAll entries).Ordered := ordered_insertAll ordered_empty entries
  have hnames : (empty.insertAll entries).names.toFinset = (entries.map Prod.fst).toFinset := by
    ext name
    rw [List.mem_toFinset, List.mem_toFinset, names_insertAll_iff]
  rw [← hnames, List.toFinset_card_of_nodup hordered.nodup_names, names, List.length_map, size]

theorem Ordered.names_ascend (h : fields.Ordered) :
    fields.names.Pairwise fun a b => a.toUTF8.data.toList < b.toUTF8.data.toList :=
  h.imp Text.lt_iff_toUTF8_lt.mp

theorem holds_insertAll (entries : List (String × α)) :
    (empty.insertAll entries).Holds entries where
  get?_eq name := by rw [get?_insertAll, get?_empty, Option.or_none]
  contains_iff name := by rw [contains, ← mem_names_iff, names_insertAll_iff]
  size_eq := size_insertAll entries
  mem_toList_iff name value := by
    rw [toList, (ordered_insertAll ordered_empty entries).mem_entries_iff, get?_insertAll,
      get?_empty, Option.or_none]
  names_eq := rfl
  names_ascend := (ordered_insertAll ordered_empty entries).names_ascend

theorem insertAll_eq_iff (entries others : List (String × α)) :
    (empty.insertAll entries = empty.insertAll others) ↔
      lastValue? entries = lastValue? others := by
  have hread : ∀ entries : List (String × α),
      (empty.insertAll entries).get? = lastValue? entries :=
    fun entries => funext (holds_insertAll entries).get?_eq
  refine ⟨fun h => ?_, fun h => ?_⟩
  · rw [← hread, ← hread, h]
  · refine (ordered_insertAll ordered_empty entries).ext (ordered_insertAll ordered_empty others) ?_
    intro name
    rw [hread, hread, h]

theorem Ordered.map_some_values (h : fields.Ordered) :
    fields.values.map some = fields.names.map fields.get? := by
  rw [values, names, List.map_map, List.map_map]
  exact List.map_congr_left fun entry hentry => (h.mem_entries_iff.mp hentry).symm

end FieldMap

namespace Shape

theorem toList_join_commas (names : List String) :
    (String.join (names.map (", " ++ ·))).toList = laterNames names := by
  rw [String.toList_join, List.flatMap_map, laterNames]
  simp

theorem intercalate_split (before : List String) (name : String) (after : List String) :
    String.intercalate ", " (before ++ name :: after) =
      String.join (before.map (· ++ ", ")) ++ name ++ String.join (after.map (", " ++ ·)) := by
  induction before with
  | nil =>
    refine String.toList_inj.mp ?_
    simp only [List.nil_append, List.map_nil, String.toList_append, toList_join_commas]
    rw [String.toList_intercalate]
    exact intercalate_cons_eq name after
  | cons first before ih =>
    have hne : before ++ name :: after ≠ [] := by simp
    rw [List.cons_append, String.intercalate_cons_of_ne_nil hne, ih, List.map_cons,
      String.join_cons]
    simp only [String.append_assoc]

theorem render_record {fields : FieldMap Shape} {before after : List String} {name : String}
    (hnames : fields.names = before ++ name :: after) :
    (record fields).render = "STRUCT(" ++ (String.join (before.map (· ++ ", ")) ++ name ++
      String.join (after.map (", " ++ ·))) ++ ")" := by
  rw [render, hnames, intercalate_split]

/-- Insertions in turn answer with what was bound before, and come to the bindings given last, in
one order whatever their own was. A record of them shows its names in that order, and its children
are what the names are bound to. -/
theorem record_of_insertions (entries : List (String × Shape)) :
    (∀ name shape, ((FieldMap.empty.insertAll entries).insert name shape).1 =
        (FieldMap.empty.insertAll entries).get? name) ∧
      (FieldMap.empty.insertAll entries).Holds entries ∧
      FieldMap.ofList entries = FieldMap.empty.insertAll entries ∧
      (∀ others, FieldMap.empty.insertAll entries = FieldMap.empty.insertAll others ↔
        FieldMap.lastValue? entries = FieldMap.lastValue? others) ∧
      ((FieldMap.empty.insertAll entries).names = [] →
        (record (FieldMap.empty.insertAll entries)).render = "STRUCT()") ∧
      (∀ before name after,
        (FieldMap.empty.insertAll entries).names = before ++ name :: after →
        (record (FieldMap.empty.insertAll entries)).render =
          "STRUCT(" ++ (String.join (before.map (· ++ ", ")) ++ name ++
            String.join (after.map (", " ++ ·))) ++ ")") ∧
      (record (FieldMap.empty.insertAll entries)).children.map some =
        (FieldMap.empty.insertAll entries).names.map (FieldMap.empty.insertAll entries).get? := by
  have hordered : (FieldMap.empty.insertAll entries).Ordered :=
    FieldMap.ordered_insertAll FieldMap.ordered_empty entries
  refine ⟨FieldMap.insert_fst hordered, FieldMap.holds_insertAll entries,
    FieldMap.ofList_eq_insertAll entries, FieldMap.insertAll_eq_iff entries, fun hnone => ?_,
    fun before name after => render_record, hordered.map_some_values⟩
  rw [render, hnone]
  rfl

end Shape
end ShapeLang
