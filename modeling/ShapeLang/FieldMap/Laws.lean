import ShapeLang.FieldMap.Basic

/-! Insertion read through `get?`: it binds its name, leaves the other names alone, and gives back
what the name was bound to. It keeps the names in order, so a map built by insertion binds each
name once. -/

namespace ShapeLang.FieldMap

variable {α : Type}

theorem find?_insertEntry (name other : String) (value : α) (entries : List (String × α)) :
    ((insertEntry name value entries).2.find? (·.1 = other)).map Prod.snd =
      if other = name then some value else (entries.find? (·.1 = other)).map Prod.snd := by
  induction entries with
  | nil => by_cases h : name = other <;> simp [insertEntry, h, eq_comm]
  | cons entry entries ih =>
    obtain ⟨key, old⟩ := entry
    rw [insertEntry]
    split
    · by_cases h : other = name
      · simp [h]
      · rw [if_neg h, List.find?_cons_of_neg (by simpa using Ne.symm h)]
    · split
      · rename_i heq
        subst heq
        by_cases h : other = name
        · simp [h]
        · simp [h, Ne.symm h]
      · rename_i hne
        by_cases h : key = other
        · subst h
          simp [Ne.symm hne]
        · simpa [h] using ih

theorem insertEntry_fst (name : String) (value : α) (entries : List (String × α))
    (h : (entries.map Prod.fst).Pairwise (· < ·)) :
    (insertEntry name value entries).1 = (entries.find? (·.1 = name)).map Prod.snd := by
  induction entries with
  | nil => rfl
  | cons entry entries ih =>
    obtain ⟨key, old⟩ := entry
    rw [List.map_cons, List.pairwise_cons] at h
    by_cases hlt : name < key
    · have habsent : ∀ x ∈ (key, old) :: entries, ¬ x.1 = name := by
        rintro x hx rfl
        rcases List.mem_cons.mp hx with rfl | hx
        · exact String.lt_irrefl _ hlt
        · exact String.lt_irrefl _ (String.lt_trans hlt (h.1 _ (List.mem_map_of_mem hx)))
      have hnone : ((key, old) :: entries).find? (·.1 = name) = none := by
        simpa using habsent
      rw [insertEntry, if_pos hlt, hnone]
      rfl
    · by_cases heq : name = key
      · subst heq
        rw [insertEntry, if_neg hlt, if_pos rfl]
        simp
      · rw [insertEntry, if_neg hlt, if_neg heq,
          List.find?_cons_of_neg (by simpa using Ne.symm heq)]
        exact ih h.2

theorem mem_names_insertEntry {name : String} {value : α} {entries : List (String × α)}
    {x : String} (hx : x ∈ (insertEntry name value entries).2.map Prod.fst) :
    x = name ∨ x ∈ entries.map Prod.fst := by
  induction entries with
  | nil => simpa [insertEntry] using hx
  | cons entry entries ih =>
    obtain ⟨key, old⟩ := entry
    rw [insertEntry] at hx
    split at hx
    · simpa using hx
    · split at hx
      · rename_i heq
        subst heq
        exact Or.inr (by simpa using hx)
      · rcases List.mem_cons.mp hx with rfl | hx
        · exact Or.inr (by simp)
        · exact (ih hx).imp_right fun h => List.mem_cons_of_mem _ h

theorem pairwise_insertEntry {name : String} {value : α} {entries : List (String × α)}
    (h : (entries.map Prod.fst).Pairwise (· < ·)) :
    ((insertEntry name value entries).2.map Prod.fst).Pairwise (· < ·) := by
  induction entries with
  | nil => simp [insertEntry]
  | cons entry entries ih =>
    obtain ⟨key, old⟩ := entry
    rw [List.map_cons, List.pairwise_cons] at h
    rw [insertEntry]
    split
    · rename_i hlt
      refine List.pairwise_cons.mpr ⟨?_, List.pairwise_cons.mpr h⟩
      rintro x hx
      rcases List.mem_cons.mp hx with rfl | hx
      · exact hlt
      · exact String.lt_trans hlt (h.1 x hx)
    · split
      · rename_i heq
        subst heq
        exact List.pairwise_cons.mpr h
      · rename_i hlt hne
        refine List.pairwise_cons.mpr ⟨?_, ih h.2⟩
        intro x hx
        rcases mem_names_insertEntry hx with rfl | hx
        · exact String.not_le.mp fun hle => hne (String.le_antisymm hle (String.not_lt.mp hlt))
        · exact h.1 x hx

theorem ordered_empty : (empty : FieldMap α).Ordered :=
  List.Pairwise.nil

theorem ordered_insert {fields : FieldMap α} (h : fields.Ordered) (name : String) (value : α) :
    (fields.insert name value).2.Ordered :=
  pairwise_insertEntry h

theorem ordered_insertAll {fields : FieldMap α} (h : fields.Ordered)
    (entries : List (String × α)) : (fields.insertAll entries).Ordered := by
  induction entries generalizing fields with
  | nil => exact h
  | cons entry entries ih => exact ih (ordered_insert h entry.1 entry.2)

theorem get?_empty (name : String) : (empty : FieldMap α).get? name = none := rfl

theorem get?_insert (fields : FieldMap α) (name other : String) (value : α) :
    (fields.insert name value).2.get? other =
      if other = name then some value else fields.get? other :=
  find?_insertEntry name other value fields.entries

theorem insert_fst {fields : FieldMap α} (h : fields.Ordered) (name : String) (value : α) :
    (fields.insert name value).1 = fields.get? name :=
  insertEntry_fst name value fields.entries h

end ShapeLang.FieldMap
