import Mathlib.Data.Finset.Card
import ShapeLang.FieldMap.Laws

/-! A map is told by what it binds, and insertions in turn leave a name with the value that it was
given last. Collecting sorts the entries first. The sort is stable, so the last of a run of one
name is the last value of the name, and both ways lead to one map. -/

namespace ShapeLang.FieldMap

variable {α : Type} {fields others : FieldMap α} {entries : List (String × α)} {name : String}

/-- The value that entries give a name last. -/
def lastValue? (entries : List (String × α)) (name : String) : Option α :=
  (entries.filter (·.1 = name)).getLast?.map Prod.snd

theorem lastValue?_cons (entry : String × α) (entries : List (String × α)) (name : String) :
    lastValue? (entry :: entries) name =
      (lastValue? entries name).or (if entry.1 = name then some entry.2 else none) := by
  by_cases h : entry.1 = name
  · rw [lastValue?, List.filter_cons_of_pos (by simpa using h), List.getLast?_cons, if_pos h,
      lastValue?]
    cases (entries.filter (·.1 = name)).getLast? <;> rfl
  · rw [lastValue?, List.filter_cons_of_neg (by simpa using h), if_neg h, Option.or_none,
      lastValue?]

theorem isSome_lastValue? : (lastValue? entries name).isSome ↔ name ∈ entries.map Prod.fst := by
  induction entries with
  | nil => simp [lastValue?]
  | cons entry entries ih =>
    rw [lastValue?_cons, Option.isSome_or, Bool.or_eq_true, ih, List.map_cons, List.mem_cons]
    by_cases h : entry.1 = name
    · simp [h]
    · simp [h, Ne.symm h]

theorem get?_insertAll (fields : FieldMap α) (entries : List (String × α)) (name : String) :
    (fields.insertAll entries).get? name = (lastValue? entries name).or (fields.get? name) := by
  induction entries generalizing fields with
  | nil => rfl
  | cons entry entries ih =>
    have hstep : fields.insertAll (entry :: entries) =
        (fields.insert entry.1 entry.2).2.insertAll entries := rfl
    rw [hstep, ih, get?_insert, lastValue?_cons]
    by_cases h : entry.1 = name
    · simp [h]
    · simp [h, Ne.symm h]

theorem Ordered.pairwise_entries (h : fields.Ordered) :
    fields.entries.Pairwise fun a b => a.1 < b.1 :=
  List.pairwise_map.mp h

theorem Ordered.nodup_names (h : fields.Ordered) : fields.names.Nodup :=
  h.imp fun hlt => fun heq => String.lt_irrefl _ (heq ▸ hlt)

theorem mem_names_iff : name ∈ fields.names ↔ (fields.get? name).isSome := by
  rw [names, get?, Option.isSome_map, List.find?_isSome, List.mem_map]
  simp

theorem mem_entries_of_get? {value : α} (h : fields.get? name = some value) :
    (name, value) ∈ fields.entries := by
  obtain ⟨⟨key, other⟩, hfind, hvalue⟩ := Option.map_eq_some_iff.mp h
  have hkey : key = name := by simpa using List.find?_some hfind
  have hother : other = value := hvalue
  rw [← hkey, ← hother]
  exact List.mem_of_find?_eq_some hfind

theorem Ordered.mem_entries_iff (h : fields.Ordered) {value : α} :
    (name, value) ∈ fields.entries ↔ fields.get? name = some value := by
  refine ⟨fun hmem => ?_, mem_entries_of_get?⟩
  have hsome : (fields.get? name).isSome := mem_names_iff.mp (List.mem_map_of_mem hmem)
  obtain ⟨other, hother⟩ := Option.isSome_iff_exists.mp hsome
  have hsame : (name, other) = (name, value) :=
    List.inj_on_of_nodup_map h.nodup_names (mem_entries_of_get? hother) hmem rfl
  rw [hother, (Prod.mk.inj hsame).2]

theorem Ordered.ext (h : fields.Ordered) (hothers : others.Ordered)
    (hget : ∀ name, fields.get? name = others.get? name) : fields = others := by
  have hmem : ∀ entry : String × α, entry ∈ fields.entries ↔ entry ∈ others.entries := by
    intro entry
    rw [h.mem_entries_iff, hothers.mem_entries_iff, hget]
  have hperm : fields.entries.Perm others.entries :=
    (List.perm_ext_iff_of_nodup (h.nodup_names.of_map _) (hothers.nodup_names.of_map _)).mpr hmem
  have hentries : fields.entries = others.entries :=
    hperm.eq_of_pairwise (fun _ _ _ _ hab hba => absurd hba (String.lt_asymm hab))
      h.pairwise_entries hothers.pairwise_entries
  exact congrArg FieldMap.mk hentries

theorem nameLe_trans (a b c : String × α) (hab : nameLe a b = true) (hbc : nameLe b c = true) :
    nameLe a c = true :=
  decide_eq_true (String.le_trans (of_decide_eq_true hab) (of_decide_eq_true hbc))

theorem nameLe_total (a b : String × α) : (nameLe a b || nameLe b a) = true := by
  simpa [nameLe] using String.le_total a.1 b.1

theorem pairwise_mergeSort_nameLe (entries : List (String × α)) :
    (entries.mergeSort nameLe).Pairwise fun a b => a.1 ≤ b.1 :=
  (List.pairwise_mergeSort nameLe_trans nameLe_total entries).imp of_decide_eq_true

theorem filter_mergeSort (entries : List (String × α)) (name : String) :
    (entries.mergeSort nameLe).filter (·.1 = name) = entries.filter (·.1 = name) := by
  have hname : ∀ entry ∈ entries.filter (·.1 = name), entry.1 = name := by
    intro entry hentry
    simpa using List.of_mem_filter hentry
  have hsorted : (entries.filter (·.1 = name)).Pairwise fun a b => nameLe a b = true := by
    refine List.pairwise_of_forall_mem_list fun a ha b hb => decide_eq_true ?_
    have hsame : a.1 = b.1 := (hname a ha).trans (hname b hb).symm
    exact hsame ▸ String.le_refl a.1
  have hkept : (entries.filter (·.1 = name)).Sublist (entries.mergeSort nameLe) :=
    List.sublist_mergeSort nameLe_trans nameLe_total hsorted List.filter_sublist
  have hfiltered : (entries.filter (·.1 = name)).Sublist
      ((entries.mergeSort nameLe).filter (·.1 = name)) := by
    simpa using hkept.filter (·.1 = name)
  have hperm := (List.mergeSort_perm entries nameLe).filter (·.1 = name)
  exact (hfiltered.eq_of_length hperm.length_eq.symm).symm

theorem lastValue?_mergeSort (entries : List (String × α)) (name : String) :
    lastValue? (entries.mergeSort nameLe) name = lastValue? entries name := by
  rw [lastValue?, filter_mergeSort, lastValue?]

theorem mem_of_mem_lastOfRuns {entry : String × α} (h : entry ∈ lastOfRuns entries) :
    entry ∈ entries := by
  induction entries using lastOfRuns.induct with
  | case1 => exact h
  | case2 => exact h
  | case3 first next entries heq ih =>
    rw [lastOfRuns, if_pos heq] at h
    exact List.mem_cons_of_mem _ (ih h)
  | case4 first next entries hne ih =>
    rw [lastOfRuns, if_neg hne] at h
    rcases List.mem_cons.mp h with rfl | h
    · exact List.mem_cons_self
    · exact List.mem_cons_of_mem _ (ih h)

theorem lt_of_pairwise_of_ne {first next : String × α}
    (h : (first :: next :: entries).Pairwise fun a b => a.1 ≤ b.1) (hne : first.1 ≠ next.1) :
    ∀ entry ∈ next :: entries, first.1 < entry.1 := by
  obtain ⟨hfirst, hrest⟩ := List.pairwise_cons.mp h
  have hlt : first.1 < next.1 :=
    String.not_le.mp fun hle => hne (String.le_antisymm (hfirst next List.mem_cons_self) hle)
  intro entry hentry
  rcases List.mem_cons.mp hentry with rfl | hentry
  · exact hlt
  · have hle : next.1 ≤ entry.1 := (List.pairwise_cons.mp hrest).1 entry hentry
    exact String.not_le.mp fun hback => String.not_le.mpr hlt (String.le_trans hle hback)

theorem pairwise_lastOfRuns (h : entries.Pairwise fun a b => a.1 ≤ b.1) :
    (lastOfRuns entries).Pairwise fun a b => a.1 < b.1 := by
  induction entries using lastOfRuns.induct with
  | case1 => exact List.Pairwise.nil
  | case2 entry => exact List.pairwise_singleton _ entry
  | case3 first next entries heq ih =>
    rw [lastOfRuns, if_pos heq]
    exact ih h.of_cons
  | case4 first next entries hne ih =>
    rw [lastOfRuns, if_neg hne]
    exact List.pairwise_cons.mpr
      ⟨fun entry hentry => lt_of_pairwise_of_ne h hne entry (mem_of_mem_lastOfRuns hentry),
        ih h.of_cons⟩

theorem find?_lastOfRuns (h : entries.Pairwise fun a b => a.1 ≤ b.1) (name : String) :
    ((lastOfRuns entries).find? (·.1 = name)).map Prod.snd = lastValue? entries name := by
  induction entries using lastOfRuns.induct with
  | case1 => rfl
  | case2 entry =>
    by_cases hname : entry.1 = name <;> simp [lastOfRuns, lastValue?, hname]
  | case3 first next entries heq ih =>
    rw [lastOfRuns, if_pos heq, ih h.of_cons, lastValue?_cons first]
    by_cases hname : first.1 = name
    · have hlater : (lastValue? (next :: entries) name).isSome :=
        isSome_lastValue?.mpr (by simp [← hname, heq])
      rw [Option.or_of_isSome hlater]
    · rw [if_neg hname, Option.or_none]
  | case4 first next entries hne ih =>
    rw [lastOfRuns, if_neg hne, lastValue?_cons first]
    by_cases hname : first.1 = name
    · have hover : lastValue? (next :: entries) name = none := by
        rw [← Option.not_isSome_iff_eq_none, isSome_lastValue?, List.mem_map]
        rintro ⟨entry, hentry, rfl⟩
        exact String.lt_irrefl _ (hname ▸ lt_of_pairwise_of_ne h hne entry hentry)
      rw [List.find?_cons_of_pos (by simpa using hname), hover, if_pos hname]
      rfl
    · rw [List.find?_cons_of_neg (by simpa using hname), ih h.of_cons, if_neg hname,
        Option.or_none]

theorem ordered_ofList (entries : List (String × α)) : (ofList entries).Ordered :=
  List.pairwise_map.mpr (pairwise_lastOfRuns (pairwise_mergeSort_nameLe entries))

theorem get?_ofList (entries : List (String × α)) (name : String) :
    (ofList entries).get? name = lastValue? entries name := by
  rw [get?, ofList, find?_lastOfRuns (pairwise_mergeSort_nameLe entries), lastValue?_mergeSort]

theorem ofList_eq_insertAll (entries : List (String × α)) :
    ofList entries = empty.insertAll entries := by
  refine (ordered_ofList entries).ext (ordered_insertAll ordered_empty entries) fun name => ?_
  rw [get?_ofList, get?_insertAll, get?_empty, Option.or_none]

example : ofList [("b", 1), ("a", 2), ("b", 3)] = ⟨[("a", 2), ("b", 3)]⟩ := by cbv

end ShapeLang.FieldMap
