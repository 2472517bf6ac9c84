import ShapeLang.Lexeme.Grammar
import ShapeLang.Proofs.Numeral.Written
import ShapeLang.Proofs.Text.Classes
import ShapeLang.Shape.Basic

/-! The text of a shape tells the shape, where names are names of the language and none is the word
for a scalar; only the shapes of the fields of a record are not told. What a text starts with is a
word, and the mark behind the word tells a name or a scalar from everything else. A text has no end
of its own, but what stands behind one inside of another is a closing bracket. -/

namespace ShapeLang.Shape

/-- The texts of names that the language can read as one lexeme. -/
def IsName (name : String) : Prop :=
  Category.identifier.Spells name.toList

def scalarWords : List String :=
  ["INT", "FLOAT", "BOOL", "STRING"]

/-- All names in the shape are names of the language, and no reference to a shape is the word for a
scalar. -/
inductive Clean : Shape → Prop where
  | named {name : String} : IsName name → name ∉ scalarWords → Clean (named name)
  | map {key value : Shape} : Clean key → Clean value → Clean (map key value)
  | record {fields : FieldMap Shape} : (∀ name ∈ fields.names, IsName name) →
    (∀ shape ∈ fields.values, Clean shape) → Clean (record fields)
  | field {name : String} {shape : Shape} : IsName name → Clean shape → Clean (field name shape)
  | array {element : Shape} {size : UInt64} : Clean element → Clean (array element size)
  | slice {element : Shape} : Clean element → Clean (slice element)
  | int : Clean int
  | float : Clean float
  | bool : Clean bool
  | string : Clean string

/-- Equal but for the shapes of the fields of records, which have the same names. -/
inductive Alike : Shape → Shape → Prop where
  | named (name : String) : Alike (named name) (named name)
  | map {key value key' value' : Shape} : Alike key key' → Alike value value' →
    Alike (map key value) (map key' value')
  | record {fields fields' : FieldMap Shape} : fields.names = fields'.names →
    Alike (record fields) (record fields')
  | field (name : String) {shape shape' : Shape} : Alike shape shape' →
    Alike (field name shape) (field name shape')
  | array (size : UInt64) {element element' : Shape} : Alike element element' →
    Alike (array element size) (array element' size)
  | slice {element element' : Shape} : Alike element element' →
    Alike (slice element) (slice element')
  | int : Alike int int
  | float : Alike float float
  | bool : Alike bool bool
  | string : Alike string string

theorem Alike.render_eq {a b : Shape} (h : a.Alike b) : a.render = b.render := by
  induction h with
  | map _ _ ihkey ihvalue => rw [render, render, ihkey, ihvalue]
  | record hnames => rw [render, render, hnames]
  | field _ _ ih => rw [render, render, ih]
  | array _ _ ih => rw [render, render, ih]
  | slice _ ih => rw [render, render, ih]
  | named | int | float | bool | string => rfl

theorem Clean.alike_self {shape : Shape} (h : shape.Clean) : shape.Alike shape := by
  induction h with
  | named => exact Alike.named _
  | map _ _ ihkey ihvalue => exact Alike.map ihkey ihvalue
  | record => exact Alike.record rfl
  | field _ _ ih => exact Alike.field _ ih
  | array _ ih => exact Alike.array _ ih
  | slice _ ih => exact Alike.slice ih
  | int => exact Alike.int
  | float => exact Alike.float
  | bool => exact Alike.bool
  | string => exact Alike.string

theorem eq_of_keyword_eq {a b : Shape} (ha : a.isScalar = true) (h : a.keyword = b.keyword) :
    a = b := by
  cases a with
  | int | float | bool | string => cases b <;> simp [keyword] at h ⊢
  | _ => simp [isScalar] at ha

def word : Shape → List Char
  | named name => name.toList
  | shape => shape.keyword.toList

def afterWord : Shape → List Char
  | map key value => '[' :: (key.render.toList ++ ']' :: value.render.toList)
  | record fields => '(' :: ([',', ' '].intercalate (fields.names.map String.toList) ++ [')'])
  | field name shape => '(' :: (name.toList ++ ',' :: (shape.render.toList ++ [')']))
  | array element size =>
    '(' :: ((toString size.toNat).toList ++ ',' :: ' ' :: (element.render.toList ++ [')']))
  | slice element => '(' :: (element.render.toList ++ [')'])
  | named _ | int | float | bool | string => []

def Closes (rest : List Char) : Prop :=
  ∀ c ∈ rest.head?, c = ']' ∨ c = ')'

variable {a b : Shape} {r s : List Char}

theorem toList_render (shape : Shape) : shape.render.toList = shape.word ++ shape.afterWord := by
  cases shape <;> simp [render, word, afterWord, keyword]

theorem isName_of_letters {name : String} (hne : name.toList ≠ [])
    (h : ∀ n ∈ name.toList.map Char.toNat, (65 ≤ n ∧ n ≤ 90) ∨ (97 ≤ n ∧ n ≤ 122)) :
    IsName name := by
  obtain ⟨first, rest, hname⟩ := List.exists_cons_of_ne_nil hne
  rw [hname, List.forall_mem_map, List.forall_mem_cons] at h
  refine ⟨first, rest, hname, ?_, fun c hc => ?_⟩
  · have hfirst := h.1
    exact (isNameStart_iff_of_ascii (by omega)).mpr (by omega)
  · have hletter := h.2 c hc
    exact (isNamePart_iff_of_ascii (by omega)).mpr (by omega)

theorem IsName.forall_isNamePart {name : String} (h : IsName name) :
    ∀ c ∈ name.toList, isNamePart c := by
  obtain ⟨first, rest, hname, hfirst, hrest⟩ := h
  rw [hname]
  exact List.forall_mem_cons.mpr ⟨by simp [isNamePart, hfirst], hrest⟩

theorem IsName.not_mem {name : String} (h : IsName name) {c : Char} (hc : isNamePart c = false) :
    c ∉ name.toList := fun hmem =>
  Bool.false_ne_true (hc.symm.trans (h.forall_isNamePart c hmem))

theorem Clean.word_isNamePart (h : a.Clean) : ∀ c ∈ a.word, isNamePart c := by
  have hkeyword : ∀ shape : Shape, IsName shape.keyword := by
    intro shape
    cases shape <;> exact isName_of_letters (by simp only [keyword]; decide)
      (by simp only [keyword]; decide)
  cases h with
  | named hname => exact hname.forall_isNamePart
  | _ => exact (hkeyword _).forall_isNamePart

theorem word_eq_keyword_or_named (shape : Shape) :
    shape.word = shape.keyword.toList ∨ ∃ name, shape = named name := by
  cases shape with
  | named name => exact Or.inr ⟨name, rfl⟩
  | _ => exact Or.inl rfl

theorem afterWord_cases (shape : Shape) :
    (∃ name, shape = named name) ∨
      (shape.afterWord = [] ∧ ∃ word ∈ scalarWords, shape.word = word.toList) ∨
      ∃ mark rest, shape.afterWord = mark :: rest ∧ (mark = '[' ∨ mark = '(') := by
  cases shape with
  | named name => exact Or.inl ⟨name, rfl⟩
  | map => exact Or.inr (Or.inr ⟨_, _, rfl, Or.inl rfl⟩)
  | record | field | array | slice => exact Or.inr (Or.inr ⟨_, _, rfl, Or.inr rfl⟩)
  | int | float | bool | string =>
    exact Or.inr (Or.inl ⟨rfl, _, by simp [scalarWords, keyword], rfl⟩)

theorem Closes.cons {mark : Char} (hmark : mark = ']' ∨ mark = ')') (rest : List Char) :
    Closes (mark :: rest) := by
  intro c hc
  rwa [← Option.mem_some_iff.mp hc]

theorem Closes.ne_open {mark : Char} (hmark : mark = '[' ∨ mark = '(') {rest : List Char}
    (h : Closes r) : r ≠ mark :: rest := by
  rintro rfl
  have hclose := h mark rfl
  rcases hmark with rfl | rfl <;> simp at hclose

theorem head_afterWord (shape : Shape) (hr : Closes r) :
    ∀ c ∈ (shape.afterWord ++ r).head?, isNamePart c = false := by
  have hleaf : ∀ c ∈ r.head?, isNamePart c = false := by
    intro c hc
    rcases hr c hc with rfl | rfl <;> decide
  rcases shape.afterWord_cases with ⟨name, rfl⟩ | ⟨hnil, -⟩ | ⟨mark, rest, hcons, hmark⟩
  · exact hleaf
  · rwa [hnil]
  · rw [hcons]
    rintro c hc
    rw [← Option.mem_some_iff.mp hc]
    rcases hmark with rfl | rfl <;> decide

theorem Clean.named_of_word_eq {name : String} (h : (Shape.named name).Clean) (hr : Closes r)
    (hword : name.toList = b.word) (hafter : r = b.afterWord ++ s) :
    ∃ other, b = Shape.named other := by
  rcases b.afterWord_cases with hnamed | ⟨-, word, hmem, hscalar⟩ | ⟨mark, rest, hcons, hmark⟩
  · exact hnamed
  · cases h with
    | named _ hfree =>
      have hname : name = word := String.toList_inj.mp (hword.trans hscalar)
      exact absurd (hname ▸ hmem) hfree
  · rw [hcons] at hafter
    exact absurd hafter (hr.ne_open hmark)

theorem Clean.parts_eq (ha : a.Clean) (hb : b.Clean) (hr : Closes r) (hs : Closes s)
    (h : a.render.toList ++ r = b.render.toList ++ s) :
    a.keyword = b.keyword ∧ a.word = b.word ∧ a.afterWord ++ r = b.afterWord ++ s := by
  simp only [toList_render, List.append_assoc] at h
  obtain ⟨hword, hafter⟩ := Text.run_append_inj ha.word_isNamePart hb.word_isNamePart
    (a.head_afterWord hr) (b.head_afterWord hs) h
  refine ⟨?_, hword, hafter⟩
  rcases a.word_eq_keyword_or_named with hkeyword | ⟨name, rfl⟩
  · rcases b.word_eq_keyword_or_named with hkeyword' | ⟨name, rfl⟩
    · exact String.toList_inj.mp (hkeyword.symm.trans (hword.trans hkeyword'))
    · obtain ⟨other, rfl⟩ := hb.named_of_word_eq hs hword.symm hafter.symm
      rfl
  · obtain ⟨other, rfl⟩ := ha.named_of_word_eq hr hword hafter
    rfl

def laterNames (names : List String) : List Char :=
  names.flatMap fun name => ',' :: ' ' :: name.toList

theorem intercalate_cons_eq (name : String) (names : List String) :
    [',', ' '].intercalate ((name :: names).map String.toList) =
      name.toList ++ laterNames names := by
  induction names generalizing name with
  | nil => simp [laterNames]
  | cons other names ih =>
    have hother := ih other
    simp only [List.map_cons] at hother ⊢
    rw [List.intercalate_cons_cons, hother]
    simp [laterNames]

theorem head_laterNames (names : List String) (rest : List Char) :
    ∀ c ∈ (laterNames names ++ ')' :: rest).head?, isNamePart c = false := by
  have hmarks : isNamePart ',' = false ∧ isNamePart ')' = false := by decide
  cases names <;> simp [laterNames, hmarks]

variable {names others : List String}

theorem laterNames_append_inj (hnames : ∀ name ∈ names, IsName name)
    (hothers : ∀ name ∈ others, IsName name)
    (h : laterNames names ++ ')' :: r = laterNames others ++ ')' :: s) :
    names = others ∧ r = s := by
  induction names generalizing others with
  | nil =>
    cases others with
    | nil => exact ⟨rfl, (List.cons.inj h).2⟩
    | cons other others => exact absurd (List.cons.inj h).1 (by decide)
  | cons name names ih =>
    cases others with
    | nil => exact absurd (List.cons.inj h).1 (by decide)
    | cons other others =>
      obtain ⟨hname, hnames⟩ := List.forall_mem_cons.mp hnames
      obtain ⟨hother, hothers⟩ := List.forall_mem_cons.mp hothers
      simp only [laterNames, List.flatMap_cons, List.cons_append, List.append_assoc] at h
      obtain ⟨hsame, htail⟩ := Text.run_append_inj hname.forall_isNamePart hother.forall_isNamePart
        (head_laterNames names r) (head_laterNames others s)
        (List.cons.inj (List.cons.inj h).2).2
      obtain ⟨rfl, hrest⟩ := ih hnames hothers htail
      exact ⟨congrArg (· :: names) (String.toList_inj.mp hsame), hrest⟩

theorem IsName.ne_close {name : String} (h : IsName name) (rest more : List Char) :
    name.toList ++ rest ≠ ')' :: more := by
  obtain ⟨first, body, hname, hfirst, -⟩ := h
  rw [hname]
  intro heq
  rw [(List.cons.inj heq).1] at hfirst
  exact absurd hfirst (by decide)

theorem intercalate_append_inj (hnames : ∀ name ∈ names, IsName name)
    (hothers : ∀ name ∈ others, IsName name)
    (h : [',', ' '].intercalate (names.map String.toList) ++ ')' :: r =
      [',', ' '].intercalate (others.map String.toList) ++ ')' :: s) :
    names = others ∧ r = s := by
  cases names with
  | nil =>
    cases others with
    | nil => exact ⟨rfl, (List.cons.inj h).2⟩
    | cons other others =>
      rw [intercalate_cons_eq, List.append_assoc] at h
      exact absurd h.symm ((List.forall_mem_cons.mp hothers).1.ne_close _ _)
  | cons name names =>
    cases others with
    | nil =>
      rw [intercalate_cons_eq, List.append_assoc] at h
      exact absurd h ((List.forall_mem_cons.mp hnames).1.ne_close _ _)
    | cons other others =>
      -- A separator in front makes both rows of names.
      refine laterNames_append_inj hnames hothers ?_
      rw [intercalate_cons_eq, intercalate_cons_eq] at h
      simpa [laterNames] using h

theorem Clean.render_append_inj (ha : a.Clean) (hb : b.Clean) (hr : Closes r) (hs : Closes s)
    (h : a.render.toList ++ r = b.render.toList ++ s) : a.Alike b ∧ r = s := by
  induction ha generalizing b r s with
  | @named name hname hfree =>
    obtain ⟨hkeyword, hword, hafter⟩ := (Clean.named hname hfree).parts_eq hb hr hs h
    cases hb with
    | @named other =>
      obtain rfl := String.toList_inj.mp hword
      exact ⟨Alike.named name, hafter⟩
    | _ => simp [keyword] at hkeyword
  | @map key value hkey hvalue ihkey ihvalue =>
    obtain ⟨hkeyword, -, hafter⟩ := (Clean.map hkey hvalue).parts_eq hb hr hs h
    cases hb with
    | @map key' value' hkey' hvalue' =>
      simp only [afterWord, List.cons_append, List.append_assoc] at hafter
      obtain ⟨hkeys, htail⟩ := ihkey hkey' (Closes.cons (Or.inl rfl) _)
        (Closes.cons (Or.inl rfl) _) (List.cons.inj hafter).2
      obtain ⟨hvalues, hrest⟩ := ihvalue hvalue' hr hs (List.cons.inj htail).2
      exact ⟨Alike.map hkeys hvalues, hrest⟩
    | _ => simp [keyword] at hkeyword
  | @record fields hnames hshapes =>
    obtain ⟨hkeyword, -, hafter⟩ := (Clean.record hnames hshapes).parts_eq hb hr hs h
    cases hb with
    | @record fields' hnames' hshapes' =>
      simp only [afterWord, List.cons_append, List.append_assoc] at hafter
      obtain ⟨hsame, hrest⟩ := intercalate_append_inj hnames hnames' (List.cons.inj hafter).2
      exact ⟨Alike.record hsame, hrest⟩
    | _ => simp [keyword] at hkeyword
  | @field name shape hname hshape ih =>
    obtain ⟨hkeyword, -, hafter⟩ := (Clean.field hname hshape).parts_eq hb hr hs h
    cases hb with
    | @field name' shape' hname' hshape' =>
      simp only [afterWord, List.cons_append, List.append_assoc] at hafter
      have hcomma : isNamePart ',' = false := by decide
      obtain ⟨hsame, htail⟩ := Text.append_mark_inj (hname.not_mem hcomma)
        (hname'.not_mem hcomma) (List.cons.inj hafter).2
      obtain rfl := String.toList_inj.mp hsame
      obtain ⟨hshapes, hrest⟩ := ih hshape' (Closes.cons (Or.inr rfl) _)
        (Closes.cons (Or.inr rfl) _) htail
      exact ⟨Alike.field name hshapes, (List.cons.inj hrest).2⟩
    | _ => simp [keyword] at hkeyword
  | @array element size helement ih =>
    obtain ⟨hkeyword, -, hafter⟩ := (Clean.array helement).parts_eq hb hr hs h
    cases hb with
    | @array element' size' helement' =>
      simp only [afterWord, List.cons_append, List.append_assoc] at hafter
      have hcomma : Radix.decimal.isDigit ',' = false := by decide
      obtain ⟨hsize, htail⟩ := Radix.toString_append_inj hcomma (List.cons.inj hafter).2
      obtain rfl := UInt64.toNat_inj.mp hsize
      obtain ⟨helements, hrest⟩ := ih helement' (Closes.cons (Or.inr rfl) _)
        (Closes.cons (Or.inr rfl) _) (List.cons.inj htail).2
      exact ⟨Alike.array size helements, (List.cons.inj hrest).2⟩
    | _ => simp [keyword] at hkeyword
  | @slice element helement ih =>
    obtain ⟨hkeyword, -, hafter⟩ := (Clean.slice helement).parts_eq hb hr hs h
    cases hb with
    | @slice element' helement' =>
      simp only [afterWord, List.cons_append, List.append_assoc] at hafter
      obtain ⟨helements, hrest⟩ := ih helement' (Closes.cons (Or.inr rfl) _)
        (Closes.cons (Or.inr rfl) _) (List.cons.inj hafter).2
      exact ⟨Alike.slice helements, (List.cons.inj hrest).2⟩
    | _ => simp [keyword] at hkeyword
  | int | float | bool | string =>
    obtain ⟨hkeyword, -, hafter⟩ := Clean.parts_eq (by constructor) hb hr hs h
    obtain rfl := eq_of_keyword_eq rfl hkeyword
    exact ⟨hb.alike_self, hafter⟩

/-- Shapes with names of the language have equal texts exactly when they are equal but for the
shapes of the fields of records. -/
theorem render_eq_iff_alike (a b : Shape) (ha : a.Clean) (hb : b.Clean) :
    a.render = b.render ↔ a.Alike b := by
  refine ⟨fun h => ?_, Alike.render_eq⟩
  have hend : Closes [] := by simp [Closes]
  exact (ha.render_append_inj hb hend hend (congrArg (·.toList ++ []) h)).1

theorem render_eq_iff_alike_map :
    ∃ a b : Shape, a.Clean ∧ b.Clean ∧ a ≠ b ∧ a.render = "MAP[MAP]STRUCT(x, y)" ∧
      a.render = b.render ∧ a.Alike b := by
  have hmap : IsName "MAP" := isName_of_letters (by decide) (by decide)
  have hx : IsName "x" := isName_of_letters (by decide) (by decide)
  have hy : IsName "y" := isName_of_letters (by decide) (by decide)
  have hkey : (named "MAP").Clean := Clean.named hmap (by decide)
  have ha : (map (named "MAP") (record ⟨[("x", int), ("y", bool)]⟩)).Clean :=
    Clean.map hkey (Clean.record (by simp [FieldMap.names, hx, hy])
      (by simp [FieldMap.values, Clean.int, Clean.bool]))
  have hb : (map (named "MAP") (record ⟨[("x", slice int), ("y", bool)]⟩)).Clean :=
    Clean.map hkey (Clean.record (by simp [FieldMap.names, hx, hy])
      (by simp [FieldMap.values, Clean.int.slice, Clean.bool]))
  exact ⟨_, _, ha, hb, by simp, by decide, by decide,
    (render_eq_iff_alike _ _ ha hb).mp (by decide)⟩

end ShapeLang.Shape
