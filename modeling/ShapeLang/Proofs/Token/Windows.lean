import ShapeLang.Proofs.Token.Concatenation
import ShapeLang.Proofs.Token.Idempotence
import ShapeLang.Proofs.Token.Primitive

/-! Windows of scanned tokens. A mark is all of the text of its token, so a window is known by the
texts of its tokens one by one: two marks, or brackets with a size or a word between them. Two
tokens side by side are in one window only if their own texts allow for it. -/

namespace ShapeLang.Token

variable {operators set : OperatorSet} {a b c : Token} {xs ys tokens : List Token}

def IsDigits (text : String) (n : Nat) : Prop :=
  text ≠ "" ∧ (∀ c ∈ text.toList, Radix.decimal.isDigit c) ∧ Radix.decimal.value text.toList = n

def IsInner (text : String) : Prop :=
  text = "map" ∨ ∃ n, IsDigits text n

def neighbourTable : OperatorSet → List (String × String × Kind)
  | .core => [("|", "|", .logicalOr), ("&", "&", .logicalAnd), ("[", "]", .sliceType)]
  | .extended =>
    [("|", "|", .logicalOr), ("&", "&", .logicalAnd), ("[", "]", .sliceType),
      ("=", "=", .equals), (">", "=", .greaterOrEqual), ("<", "=", .lessOrEqual)]

/-- The texts of the tokens of a window, one by one. -/
inductive Composite (operators : OperatorSet) : List String → Prop where
  | pair {x y : String} {kind : Kind} : (x, y, kind) ∈ neighbourTable operators →
    Composite operators [x, y]
  | triple {inner : String} : IsInner inner → Composite operators ["[", inner, "]"]

/-- Texts that can stand side by side within a window. -/
inductive Adjoin (operators : OperatorSet) : String → String → Prop where
  | pair {x y : String} {kind : Kind} : (x, y, kind) ∈ neighbourTable operators →
    Adjoin operators x y
  | opens {inner : String} : IsInner inner → Adjoin operators "[" inner
  | closes {inner : String} : IsInner inner → Adjoin operators inner "]"

theorem isSize_iff {text : String} {n : Nat} : IsSize ("[" ++ text ++ "]") n ↔ IsDigits text n := by
  have htext : ("[" ++ text ++ "]").toList = '[' :: (text.toList ++ [']']) := by simp
  rw [IsSize, htext, IsDigits]
  constructor
  · rintro ⟨digits, heq, hne, hdigits, hvalue⟩
    obtain rfl := List.append_cancel_right (List.cons.inj heq).2
    exact ⟨mt String.toList_eq_nil_iff.mpr hne, hdigits, hvalue⟩
  · rintro ⟨hne, hdigits, hvalue⟩
    exact ⟨text.toList, rfl, mt String.toList_eq_nil_iff.mp hne, hdigits, hvalue⟩

theorem isTripleText_iff_isInner {text : String} :
    IsTripleText ("[" ++ text ++ "]") ↔ IsInner text := by
  have hmap : "[" ++ text ++ "]" = "[" ++ "map" ++ "]" ↔ text = "map" := by
    rw [String.append_left_inj, String.append_right_inj]
  rw [IsTripleText, IsInner, ← hmap]
  exact or_congr_right (exists_congr fun n => isSize_iff)

theorem Primitive.eq_brackets (ha : a.Primitive set) (hc : c.Primitive set)
    (h : IsTripleText (a.text ++ b.text ++ c.text)) : a.text = "[" ∧ c.text = "]" := by
  obtain ⟨middle, htext, -⟩ := h.exists_middle
  rw [String.toList_append, String.toList_append] at htext
  have hopen : a.text.toList = ['['] := by
    obtain ⟨first, body, hfirst⟩ := List.exists_cons_of_ne_nil ha.ne_nil
    rw [hfirst] at htext
    obtain ⟨rfl, -⟩ := List.cons.inj htext
    exact (ha.eq_mark_of_mem (by decide) (by simp [hfirst])).1
  have hclose : c.text.toList = [']'] := by
    obtain ⟨body, last, hlast⟩ := (List.eq_nil_or_concat' c.text.toList).resolve_left hc.ne_nil
    rw [hlast, ← List.append_assoc, ← List.cons_append] at htext
    obtain ⟨rfl, -⟩ := List.cons.inj (List.append_inj_right' htext rfl)
    exact (hc.eq_mark_of_mem (by decide) (by simp [hlast])).1
  exact ⟨String.toList_inj.mp hopen, String.toList_inj.mp hclose⟩

theorem Primitive.eq_brackets_and_isInner (ha : a.Primitive set) (hc : c.Primitive set)
    (h : IsTripleText (a.text ++ b.text ++ c.text)) :
    a.text = "[" ∧ IsInner b.text ∧ c.text = "]" := by
  obtain ⟨hopen, hclose⟩ := ha.eq_brackets hc h
  rw [hopen, hclose] at h
  exact ⟨hopen, isTripleText_iff_isInner.mp h, hclose⟩

theorem mem_pairTable_of_mem_neighbourTable {x y : String} {kind : Kind}
    (h : (x, y, kind) ∈ neighbourTable operators) : (x ++ y, kind) ∈ pairTable operators := by
  have htexts : ∀ entry ∈ neighbourTable operators,
      (entry.1 ++ entry.2.1, entry.2.2) ∈ pairTable operators := by
    cases operators <;> decide
  exact htexts _ h

theorem mem_neighbourTable_of_mem_pairTable {x y : String} {kind : Kind} (hx : x ≠ "")
    (hy : y ≠ "") (h : (x ++ y, kind) ∈ pairTable operators) :
    (x, y, kind) ∈ neighbourTable operators := by
  have hmarks : ∀ entry ∈ pairTable operators, ∃ p q, entry.1.toList = [p, q] ∧
      (String.ofList [p], String.ofList [q], entry.2) ∈ neighbourTable operators := by
    cases operators <;> simp [pairTable, neighbourTable]
  obtain ⟨p, q, htext, hmem⟩ := hmarks _ h
  rw [String.toList_append] at htext
  have hxpos := length_pos_of_ne_empty hx
  have hypos := length_pos_of_ne_empty hy
  have hlength : x.toList.length = [p].length := by
    have htotal := congrArg List.length htext
    rw [List.length_append] at htotal
    simp only [List.length_cons, List.length_nil] at htotal ⊢
    omega
  obtain ⟨hleft, hright⟩ := List.append_inj (htext.trans List.singleton_append.symm) hlength
  rw [← hleft, ← hright, String.ofList_toList, String.ofList_toList] at hmem
  exact hmem

def windowMarks : List String :=
  ["[", "]", "|", "&", "=", ">", "<"]

theorem IsInner.not_mem_windowMarks {text : String} (h : IsInner text) : text ∉ windowMarks := by
  rcases h with rfl | ⟨n, hne, hdigits, -⟩
  · decide
  have hmarks : ∀ mark ∈ windowMarks, mark.toList.all Radix.decimal.isDigit = false := by decide
  have hall : text.toList.all Radix.decimal.isDigit = true := List.all_eq_true.mpr hdigits
  exact fun hmark => Bool.false_ne_true ((hmarks text hmark).symm.trans hall)

def openingMarks : List String :=
  ["[", ">", "<"]

theorem Adjoin.not_mem_openingMarks {x y : String} (h : Adjoin operators x y) :
    y ∉ openingMarks := by
  have hsecond : ∀ entry ∈ neighbourTable operators, entry.2.1 ∉ openingMarks := by
    cases operators <;> decide
  have hmarks : ∀ mark ∈ openingMarks, mark ∈ windowMarks := by decide
  cases h with
  | pair hkind => exact hsecond _ hkind
  | opens hinner => exact fun hy => hinner.not_mem_windowMarks (hmarks y hy)
  | closes => decide

def doubledMarks : List String :=
  ["|", "&", "="]

theorem mem_windowMarks_of_mem_doubledMarks {mark : String} (h : mark ∈ doubledMarks) :
    mark ∈ windowMarks := by
  have hmarks : ∀ mark ∈ doubledMarks, mark ∈ windowMarks := by decide
  exact hmarks mark h

theorem Adjoin.eq_of_left {x y : String} (h : Adjoin operators x y) (hx : x ∈ doubledMarks) :
    y = x := by
  have hlike : ∀ entry ∈ neighbourTable operators, entry.1 ∈ doubledMarks →
      entry.2.1 = entry.1 := by
    cases operators <;> decide
  cases h with
  | pair hkind => exact hlike _ hkind hx
  | opens => exact absurd hx (by decide)
  | closes hinner =>
    exact absurd (mem_windowMarks_of_mem_doubledMarks hx) hinner.not_mem_windowMarks

theorem Adjoin.eq_or_of_right {x y : String} (h : Adjoin operators x y) (hy : y ∈ doubledMarks) :
    x = y ∨ y = "=" ∧ x ∈ [">", "<"] := by
  have hlike : ∀ entry ∈ neighbourTable operators, entry.2.1 ∈ doubledMarks →
      entry.1 = entry.2.1 ∨ entry.2.1 = "=" ∧ entry.1 ∈ [">", "<"] := by
    cases operators <;> decide
  cases h with
  | pair hkind => exact hlike _ hkind hy
  | opens hinner =>
    exact absurd (mem_windowMarks_of_mem_doubledMarks hy) hinner.not_mem_windowMarks
  | closes => exact absurd hy (by decide)

theorem Primitive.ne_empty (h : a.Primitive set) : a.text ≠ "" :=
  mt String.toList_eq_nil_iff.mpr h.ne_nil

theorem IsWindow.composite {tokens : List Token} (h : IsWindow operators tokens)
    (hprimitive : ∀ t ∈ tokens, t.Primitive set) : Composite operators (tokens.map Token.text) := by
  match tokens, h with
  | [a, b], h =>
    obtain ⟨kind, hkind⟩ := h
    have ha := (hprimitive a (by simp)).ne_empty
    have hb := (hprimitive b (by simp)).ne_empty
    exact Composite.pair (mem_neighbourTable_of_mem_pairTable ha hb hkind)
  | [a, b, c], h =>
    have ha := hprimitive a (by simp)
    have hc := hprimitive c (by simp)
    obtain ⟨hopen, hinner, hclose⟩ := ha.eq_brackets_and_isInner hc h
    simp only [List.map_cons, List.map_nil, hopen, hclose]
    exact Composite.triple hinner

theorem Composite.exists_adjoin {left right : List String}
    (h : Composite operators (left ++ right)) (hleft : left ≠ []) (hright : right ≠ []) :
    ∃ x ∈ left.getLast?, ∃ y ∈ right.head?, Adjoin operators x y := by
  obtain ⟨first, left, rfl⟩ := List.exists_cons_of_ne_nil hleft
  rw [List.cons_append] at h
  generalize htexts : left ++ right = texts at h
  cases h with
  | pair hkind =>
    rcases List.append_eq_singleton_iff.mp htexts with ⟨rfl, rfl⟩ | ⟨-, rfl⟩
    · exact ⟨first, rfl, _, rfl, Adjoin.pair hkind⟩
    · exact absurd rfl hright
  | @triple inner hinner =>
    rcases List.append_eq_cons_iff.mp htexts with ⟨rfl, rfl⟩ | ⟨left, rfl, hrest⟩
    · exact ⟨"[", rfl, inner, rfl, Adjoin.opens hinner⟩
    rcases List.append_eq_singleton_iff.mp hrest.symm with ⟨rfl, rfl⟩ | ⟨-, rfl⟩
    · exact ⟨inner, rfl, "]", rfl, Adjoin.closes hinner⟩
    · exact absurd rfl hright

theorem Straddled.exists_adjoin (h : Straddled operators xs ys)
    (hprimitive : ∀ t ∈ xs ++ ys, t.Primitive set) :
    ∃ x ∈ xs.getLast?, ∃ y ∈ ys.head?, Adjoin operators x.text y.text := by
  obtain ⟨left, right, ⟨before, rfl⟩, ⟨after, rfl⟩, hne, hne', hwindow⟩ := h
  have hsubset : left ++ right ⊆ before ++ left ++ (right ++ after) :=
    List.append_subset.mpr ⟨fun t ht => by simp [ht], fun t ht => by simp [ht]⟩
  have hcomposite := hwindow.composite fun t ht => hprimitive t (hsubset ht)
  rw [List.map_append] at hcomposite
  obtain ⟨_, hx, _, hy, hadjoin⟩ := hcomposite.exists_adjoin (mt List.map_eq_nil_iff.mp hne)
    (mt List.map_eq_nil_iff.mp hne')
  rw [List.getLast?_map] at hx
  rw [List.head?_map] at hy
  obtain ⟨x, hlast, rfl⟩ := Option.map_eq_some_iff.mp hx
  obtain ⟨y, hhead, rfl⟩ := Option.map_eq_some_iff.mp hy
  refine ⟨x, ?_, y, ?_, hadjoin⟩
  · rw [List.getLast?_append, hlast, Option.some_or]
    rfl
  · rw [List.head?_append, hhead, Option.some_or]
    rfl

/-- What tokens have from a scan, any part of them included. -/
structure AsScanned (set : OperatorSet) (tokens : List Token) : Prop where
  primitive : ∀ t ∈ tokens, t.Primitive set
  ordered : tokens.Pairwise fun a b => a.span.start ≤ b.span.start ∧ a.span.stop ≤ b.span.stop

theorem asScanned_of_scan {source : String} (h : scan set source = .ok tokens) :
    AsScanned set tokens := by
  have hlayout := (layout_of_scan h).1
  refine ⟨primitive_of_scan h, hlayout.pairwise.imp_of_mem fun {a b} ha hb hbetween => ?_⟩
  have hfirst := UInt32.le_of_lt (hlayout.start_lt_stop a ha)
  have hlast := UInt32.le_of_lt (hlayout.start_lt_stop b hb)
  exact ⟨UInt32.le_trans hfirst hbetween, UInt32.le_trans hbetween hlast⟩

theorem AsScanned.of_sublist (h : AsScanned set tokens) (hsub : xs.Sublist tokens) :
    AsScanned set xs :=
  ⟨fun t ht => h.primitive t (hsub.subset ht), h.ordered.sublist hsub⟩

theorem AsScanned.left (h : AsScanned set (xs ++ ys)) : AsScanned set xs :=
  h.of_sublist (List.sublist_append_left xs ys)

theorem AsScanned.right (h : AsScanned set (xs ++ ys)) : AsScanned set ys :=
  h.of_sublist (List.sublist_append_right xs ys)

theorem AsScanned.hull_eq (h : AsScanned set (a :: tokens)) (hc : c ∈ tokens) :
    a.span.hull c.span = ⟨a.span.start, c.span.stop⟩ := by
  obtain ⟨hstart, hstop⟩ := (List.pairwise_cons.mp h.ordered).1 c hc
  exact Span.hull_of_le hstart hstop

theorem AsScanned.not_straddled (h : AsScanned set (xs ++ ys))
    (hmarks : ∀ x ∈ xs.getLast?, ∀ y ∈ ys.head?, ¬ Adjoin operators x.text y.text) :
    ¬ Straddled operators xs ys := by
  intro hstraddled
  obtain ⟨x, hx, y, hy, hadjoin⟩ := hstraddled.exists_adjoin h.primitive
  exact hmarks x hx y hy hadjoin

theorem AsScanned.not_straddled_of_opener (h : AsScanned set (xs ++ a :: ys))
    (ha : a.text ∈ openingMarks) : ¬ Straddled operators xs (a :: ys) := by
  refine h.not_straddled fun x _ y hy hadjoin => ?_
  obtain rfl := Option.some.inj hy
  exact hadjoin.not_mem_openingMarks ha

end ShapeLang.Token
