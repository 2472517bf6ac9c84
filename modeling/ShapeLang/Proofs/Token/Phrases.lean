import Mathlib.Data.List.TakeWhile
import ShapeLang.Proofs.Token.ArraySizes

/-! What joining makes of scanned tokens, by the texts around them. The blocks of a cut depend on
all tokens before them. In scanned tokens no window takes a token away from another one, apart from
runs of one mark and from an equals sign that a relation has taken, so each phrase is joined to the
same whatever stands before it. -/

namespace ShapeLang.Token

variable {operators set : OperatorSet} {xs ys before after window run out : List Token}
  {a b c : Token} {kind : Kind} {mark : String}

def across (kind : Kind) (value : Option IntegerValue) (text : String) (first last : Token) :
    Token :=
  ⟨text, ⟨first.span.start, last.span.stop⟩, first.position, kind, value⟩

def paired (kind : Kind) : List Token → List Token
  | [] => []
  | [a] => [a]
  | a :: b :: rest => across kind none (a.text ++ b.text) a b :: paired kind rest

structure IsRunTo (mark : String) (run after : List Token) : Prop where
  ne_nil : run ≠ []
  texts : ∀ t ∈ run, t.text = mark
  ends : ∀ t ∈ after.head?, t.text ≠ mark

def runTable : List (String × Kind × Kind) :=
  [("|", .logicalOr, .bitwiseOr), ("&", .logicalAnd, .bitwiseAnd)]

def relationTable : List (String × Kind) :=
  [(">", .greaterOrEqual), ("<", .lessOrEqual)]

/-- Whether the equals signs after these tokens are free: they are the first, or a relation has
taken the first. -/
def FreesEquals (before : List Token) : Prop :=
  (∀ t ∈ before.getLast?, t.text ∉ ["=", ">", "<"]) ∨
    ∃ rest a b kind, before = rest ++ [a, b] ∧ (a.text, kind) ∈ relationTable ∧ b.text = "="

/-- No window by the texts of the tokens has `t` in it. -/
def Uncovered (operators : OperatorSet) (before : List Token) (t : Token) (after : List Token) :
    Prop :=
  ∀ left right, left <:+ before → right <+: after →
    ¬ Composite operators ((left ++ t :: right).map Token.text)

/-- Tokens between others, and what stands for them after joining. -/
inductive Phrase (operators : OperatorSet) (before after : List Token) :
    List Token → List Token → Prop where
  | slice {a b : Token} : a.text = "[" → b.text = "]" →
    Phrase operators before after [a, b] [across .sliceType none (a.text ++ b.text) a b]
  | map {a b c : Token} : a.text = "[" → b.text = "map" → c.text = "]" →
    Phrase operators before after [a, b, c]
      [across .mapType none (a.text ++ b.text ++ c.text) a c]
  | array {a b c : Token} {n : Nat} : a.text = "[" → IsDigits b.text n → c.text = "]" →
    Phrase operators before after [a, b, c]
      [across .arrayType (some (.word (.ofNat n))) (a.text ++ b.text ++ c.text) a c]
  | run {mark : String} {double single : Kind} {run : List Token} :
    (mark, double, single) ∈ runTable → (∀ t ∈ before.getLast?, t.text ≠ mark) →
      IsRunTo mark run after → Phrase operators before after run (paired double run)
  | relation {a b : Token} {kind : Kind} : operators = .extended →
    (a.text, kind) ∈ relationTable → b.text = "=" →
      Phrase operators before after [a, b] [across kind none (a.text ++ b.text) a b]
  | equals {run : List Token} : operators = .extended → FreesEquals before →
    IsRunTo "=" run after → Phrase operators before after run (paired .equals run)
  | other {t : Token} : Uncovered operators before t after → Phrase operators before after [t] [t]

section Around

variable {t : Token}

theorem exists_marks_before (mark : String) (tokens : List Token) :
    ∃ run after, tokens = run ++ after ∧ (∀ t ∈ run, t.text = mark) ∧
      ∀ t ∈ after.head?, t.text ≠ mark := by
  refine ⟨tokens.takeWhile (·.text = mark), tokens.dropWhile (·.text = mark),
    List.takeWhile_append_dropWhile.symm, fun t ht => ?_, fun t ht => ?_⟩
  · have hmark := List.mem_takeWhile_imp ht
    exact of_decide_eq_true hmark
  · have hends := List.head?_dropWhile_not (fun t : Token => decide (t.text = mark)) tokens
    rw [Option.mem_def.mp ht] at hends
    exact of_decide_eq_false hends

theorem exists_isRunTo (before after : List Token) (ht : t.text = mark) :
    ∃ left l r right, before = left ++ l ∧ after = r ++ right ∧
      IsRunTo mark (l ++ t :: r) right ∧ ∀ x ∈ left.getLast?, x.text ≠ mark := by
  obtain ⟨r, right, rfl, hr, hright⟩ := exists_marks_before mark after
  obtain ⟨l, left, hbefore, hl, hleft⟩ := exists_marks_before mark before.reverse
  have htexts : ∀ x ∈ l.reverse ++ t :: r, x.text = mark := by
    rw [List.forall_mem_append, List.forall_mem_cons]
    exact ⟨fun x hx => hl x (List.mem_reverse.mp hx), ht, hr⟩
  rw [List.reverse_eq_iff, List.reverse_append] at hbefore
  refine ⟨left.reverse, l.reverse, r, right, hbefore, rfl, ⟨by simp, htexts, hright⟩, ?_⟩
  rwa [List.getLast?_reverse]

theorem exists_phrase_of_equals (before after : List Token) (ht : t.text = "=") :
    ∃ left l r right middle, before = left ++ l ∧ after = r ++ right ∧
      Phrase .extended left right (l ++ t :: r) middle := by
  obtain ⟨left, l, r, right, rfl, rfl, hrun, hleft⟩ := exists_isRunTo before after ht
  by_cases hfirst : ∀ x ∈ left.getLast?, x.text ∉ ["=", ">", "<"]
  · exact ⟨left, l, r, right, _, rfl, rfl, Phrase.equals rfl (Or.inl hfirst) hrun⟩
  simp only [not_forall, not_not] at hfirst
  obtain ⟨g, hg, hmark⟩ := hfirst
  have hrelations : ∀ mark ∈ [">", "<"], ∃ entry ∈ relationTable, entry.1 = mark := by decide
  obtain ⟨⟨_, kind⟩, hkind, rfl⟩ :=
    hrelations g.text ((List.mem_cons.mp hmark).resolve_left (hleft g hg))
  obtain ⟨left, rfl⟩ := List.getLast?_eq_some_iff.mp hg
  -- The relation takes the first sign, which may be the one at hand.
  cases l with
  | nil =>
    exact ⟨left, [g], [], r ++ right, _, by simp, rfl, Phrase.relation rfl hkind ht⟩
  | cons e l =>
    have he : e.text = "=" := hrun.texts e (by simp)
    refine ⟨left ++ [g, e], l, r, right, _, by simp, rfl, Phrase.equals rfl ?_ ?_⟩
    · exact Or.inr ⟨left, g, e, kind, rfl, hkind, he⟩
    · exact ⟨by simp, fun x hx => hrun.texts x (List.mem_cons_of_mem e hx), hrun.ends⟩

theorem forms_of_mem_neighbourTable {x y : String} (h : (x, y, kind) ∈ neighbourTable operators) :
    (x = "[" ∧ y = "]") ∨ (x = y ∧ ∃ entry ∈ runTable, entry.1 = x) ∨
      operators = .extended ∧ y = "=" ∧ (x = "=" ∨ (x, kind) ∈ relationTable) := by
  have hforms : ∀ entry ∈ neighbourTable operators, (entry.1 = "[" ∧ entry.2.1 = "]") ∨
      (entry.1 = entry.2.1 ∧ ∃ marks ∈ runTable, marks.1 = entry.1) ∨ operators = .extended ∧
        entry.2.1 = "=" ∧ (entry.1 = "=" ∨ (entry.1, entry.2.2) ∈ relationTable) := by
    cases operators <;> decide
  exact hforms _ h

theorem Composite.exists_phrase_or_like (h : Composite operators (window.map Token.text))
    (ht : t ∈ window) :
    (∃ middle, Phrase operators before after window middle) ∨
      (∃ entry ∈ runTable, entry.1 = t.text) ∨ operators = .extended ∧ t.text = "=" := by
  generalize htexts : window.map Token.text = texts at h
  cases h with
  | pair hkind =>
    obtain ⟨a, _, rfl, rfl, hrest⟩ := List.map_eq_cons_iff.mp htexts
    obtain ⟨b, rfl, rfl⟩ := List.map_eq_singleton_iff.mp hrest
    rcases forms_of_mem_neighbourTable hkind with
      ⟨ha, hb⟩ | ⟨hlike, hmark⟩ | ⟨rfl, hb, ha | hrelation⟩
    · exact Or.inl ⟨_, Phrase.slice ha hb⟩
    · right; left
      rcases List.mem_pair.mp ht with rfl | rfl
      · exact hmark
      · rwa [← hlike]
    · right; right
      rcases List.mem_pair.mp ht with rfl | rfl
      · exact ⟨rfl, ha⟩
      · exact ⟨rfl, hb⟩
    · exact Or.inl ⟨_, Phrase.relation rfl hrelation hb⟩
  | triple hinner =>
    obtain ⟨a, _, rfl, ha, hrest⟩ := List.map_eq_cons_iff.mp htexts
    obtain ⟨b, _, rfl, rfl, hlast⟩ := List.map_eq_cons_iff.mp hrest
    obtain ⟨c, rfl, hc⟩ := List.map_eq_singleton_iff.mp hlast
    rcases hinner with hmap | ⟨n, hdigits⟩
    · exact Or.inl ⟨_, Phrase.map ha hmap hc⟩
    · exact Or.inl ⟨_, Phrase.array ha hdigits hc⟩

theorem exists_phrase (operators : OperatorSet) (before : List Token) (t : Token)
    (after : List Token) :
    ∃ left l r right middle, before = left ++ l ∧ after = r ++ right ∧
      Phrase operators left right (l ++ t :: r) middle := by
  by_cases hother : Uncovered operators before t after
  · exact ⟨before, [], [], after, [t], (List.append_nil before).symm, rfl, Phrase.other hother⟩
  simp only [Uncovered, not_forall, not_not] at hother
  obtain ⟨l, r, ⟨left, rfl⟩, ⟨right, rfl⟩, hcomposite⟩ := hother
  rcases hcomposite.exists_phrase_or_like List.mem_append_cons_self with
    ⟨middle, hphrase⟩ | ⟨⟨_, double, single⟩, hmark, rfl⟩ | ⟨rfl, hequals⟩
  · exact ⟨left, l, r, right, middle, rfl, rfl, hphrase⟩
  · obtain ⟨left, l, r, right, hbefore, hafter, hrun, hleft⟩ :=
      exists_isRunTo (left ++ l) (r ++ right) rfl
    exact ⟨left, l, r, right, _, hbefore, hafter, Phrase.run hmark hleft hrun⟩
  · exact exists_phrase_of_equals (left ++ l) (r ++ right) hequals

end Around

theorem mem_neighbourTable_of_mem_runTable {entry : String × Kind × Kind} (h : entry ∈ runTable) :
    (entry.1, entry.1, entry.2.1) ∈ neighbourTable operators := by
  revert entry
  cases operators <;> decide

theorem mem_neighbourTable_of_mem_relationTable {entry : String × Kind}
    (h : entry ∈ relationTable) : (entry.1, "=", entry.2) ∈ neighbourTable .extended := by
  revert entry
  decide

theorem mem_doubledMarks_of_mem_neighbourTable (h : (mark, mark, kind) ∈ neighbourTable operators) :
    mark ∈ doubledMarks := by
  have hmarks : ∀ entry ∈ neighbourTable operators, entry.2.1 = entry.1 →
      entry.1 ∈ doubledMarks := by
    cases operators <;> decide
  exact hmarks _ h rfl

theorem Block.Stands.combine_becomes {block : Block} {token : Token}
    (h : block.Stands operators after) (hbecomes : block.Becomes operators token) :
    combine operators (block.tokens ++ after) = (combine operators after).map ([token] ++ ·) :=
  (Cut.block h hbecomes Cut.done).combine_eq

theorem AsScanned.combine_pair (h : AsScanned set ([a, b] ++ after))
    (hkind : (a.text, b.text, kind) ∈ neighbourTable operators) :
    combine operators ([a, b] ++ after) =
      (combine operators after).map ([across kind none (a.text ++ b.text) a b] ++ ·) := by
  have hmarks : ∀ entry ∈ neighbourTable operators, entry.2.1 ∈ windowMarks := by
    cases operators <;> decide
  have hpair := mem_pairTable_of_mem_neighbourTable hkind
  have hstands : (Block.pair a b).Stands operators after := by
    refine ⟨⟨kind, hpair⟩, fun c hc htriple => ?_⟩
    obtain ⟨after, rfl⟩ := List.head?_eq_some_iff.mp hc
    obtain ⟨-, hinner, -⟩ := (h.primitive a (by simp)).eq_brackets_and_isInner
      (h.primitive c (by simp)) htriple
    exact hinner.not_mem_windowMarks (hmarks _ hkind)
  have hjoined := hstands.combine_becomes (Block.Becomes.pair hpair)
  rwa [h.hull_eq (by simp)] at hjoined

theorem AsScanned.combine_run (h : AsScanned set (run ++ after))
    (hkind : (mark, mark, kind) ∈ neighbourTable operators) (htexts : ∀ t ∈ run, t.text = mark)
    (hends : ∀ t ∈ after.head?, t.text ≠ mark) :
    combine operators (run ++ after) = (combine operators after).map (paired kind run ++ ·) := by
  fun_induction paired kind run with
  | case1 =>
    rw [List.nil_append]
    cases combine operators after <;> rfl
  | case2 a =>
    have ha : a.text = mark := htexts a (List.mem_singleton_self _)
    refine combine_append_of_ok (h.not_straddled fun x hx y hy hadjoin => ?_) rfl
    obtain rfl : a = x := Option.some.inj hx
    rw [ha] at hadjoin
    exact hends y hy (hadjoin.eq_of_left (mem_doubledMarks_of_mem_neighbourTable hkind))
  | case3 a b rest ih =>
    have hab : (a.text, b.text, kind) ∈ neighbourTable operators := by
      rw [htexts a (by simp), htexts b (by simp)]
      exact hkind
    have hscanned : AsScanned set ([a, b] ++ (rest ++ after)) := h
    have hrest := ih hscanned.right fun t ht => htexts t (by simp [ht])
    have hpair := hscanned.combine_pair hab
    rw [hrest] at hpair
    refine Eq.trans hpair ?_
    cases combine operators after <;> rfl

theorem Uncovered.not_straddled_before (h : Uncovered operators before a after)
    (hprimitive : ∀ t ∈ before ++ a :: after, t.Primitive set) :
    ¬ Straddled operators before (a :: after) := by
  rintro ⟨left, right, hleft, hright, -, hne, hwindow⟩
  rcases List.prefix_cons_iff.mp hright with hnil | ⟨right, rfl, hafter⟩
  · exact hne hnil
  have hsubset := List.append_subset.mpr ⟨List.subset_append_of_subset_left _ hleft.subset,
    List.subset_append_of_subset_right before hright.subset⟩
  exact h left right hleft hafter (hwindow.composite fun t ht => hprimitive t (hsubset ht))

theorem Uncovered.not_straddled_after (h : Uncovered operators before a after)
    (hprimitive : ∀ t ∈ a :: after, t.Primitive set) : ¬ Straddled operators [a] after := by
  rintro ⟨left, right, hleft, hright, hne, -, hwindow⟩
  rcases List.suffix_cons_iff.mp hleft with rfl | hnil
  · have hsubset := List.cons_subset_cons a hright.subset
    have htexts := hwindow.composite fun t ht => hprimitive t (hsubset ht)
    exact h [] right List.nil_suffix hright htexts
  · exact hne (List.suffix_nil.mp hnil)

theorem Phrase.exists_right {middle : List Token}
    (h : Phrase operators before after window middle) (hscanned : AsScanned set (window ++ after))
    (hout : combine operators (window ++ after) = .ok out) :
    ∃ right, combine operators after = .ok right ∧ out = middle ++ right := by
  suffices heq : combine operators (window ++ after) =
      (combine operators after).map (middle ++ ·) from
    exists_of_map_append_eq_ok (heq.symm.trans hout)
  cases h with
  | slice ha hb =>
    have hslice : ("[", "]", Kind.sliceType) ∈ neighbourTable operators := by
      cases operators <;> decide
    exact hscanned.combine_pair (ha.symm ▸ hb.symm ▸ hslice)
  | @map a b c ha hb hc =>
    have htext : a.text ++ b.text ++ c.text = "[map]" := by
      rw [ha, hb, hc]
      rfl
    have hstands : (Block.triple a b c).Stands operators after := Or.inl htext
    have hjoined := hstands.combine_becomes (Block.Becomes.map htext)
    rwa [hscanned.hull_eq (by simp)] at hjoined
  | @array a b c n ha hb hc =>
    have htriple := hscanned.triple?_eq ha hc hb
    by_cases hword : 1 ≤ n ∧ n < UInt64.size
    · rw [if_pos hword] at htriple
      exact combine_triple htriple
    · rw [if_neg hword] at htriple
      cases (combine_triple_error htriple).symm.trans hout
  | run hmark _ hrun =>
    exact hscanned.combine_run (mem_neighbourTable_of_mem_runTable hmark) hrun.texts hrun.ends
  | relation hextended hkind hb =>
    subst hextended
    exact hscanned.combine_pair (hb.symm ▸ mem_neighbourTable_of_mem_relationTable hkind)
  | equals hextended _ hrun =>
    subst hextended
    have hequals : ("=", "=", Kind.equals) ∈ neighbourTable .extended := by decide
    exact hscanned.combine_run hequals hrun.texts hrun.ends
  | @other t huncovered =>
    exact combine_append_of_ok (huncovered.not_straddled_after hscanned.primitive) rfl

theorem IsRunTo.not_straddled (h : IsRunTo mark run after)
    (hscanned : AsScanned set (before ++ (run ++ after))) (hdoubled : mark ∈ doubledMarks)
    (hbegins : ∀ t ∈ before.getLast?, t.text ≠ mark ∧ (mark = "=" → t.text ∉ [">", "<"])) :
    ¬ Straddled operators before (run ++ after) := by
  obtain ⟨first, rest, rfl⟩ := List.exists_cons_of_ne_nil h.ne_nil
  refine hscanned.not_straddled fun x hx y hy hadjoin => ?_
  obtain rfl : first = y := Option.some.inj hy
  rw [h.texts first (List.mem_cons_self ..)] at hadjoin
  obtain ⟨hne, hrelation⟩ := hbegins x hx
  rcases hadjoin.eq_or_of_right hdoubled with heq | ⟨hequals, hmem⟩
  · exact hne heq
  · exact hrelation hequals hmem

theorem mem_openingMarks_of_mem_relationTable {entry : String × Kind}
    (h : entry ∈ relationTable) : entry.1 ∈ openingMarks := by
  revert entry
  decide

theorem AsScanned.exists_of_relation (h : AsScanned set (xs ++ [a, b] ++ ys))
    (hkind : (a.text, kind) ∈ relationTable) (hb : b.text = "=")
    (hout : combine .extended (xs ++ [a, b] ++ ys) = .ok out) :
    ∃ left right, combine .extended (xs ++ [a, b]) = .ok left ∧
      combine .extended ys = .ok right ∧ out = left ++ right := by
  have hopener := mem_openingMarks_of_mem_relationTable hkind
  have hneighbours : (a.text, b.text, kind) ∈ neighbourTable .extended :=
    hb.symm ▸ mem_neighbourTable_of_mem_relationTable hkind
  have hrelation : combine .extended ([a, b] ++ []) = _ := h.left.right.combine_pair hneighbours
  have hboth : ¬ Straddled .extended xs [a, b] := h.left.not_straddled_of_opener hopener
  rw [List.append_assoc] at h hout
  have hclear : ¬ Straddled .extended xs (a :: b :: ys) := h.not_straddled_of_opener hopener
  obtain ⟨left, rest, hleft, hrest, rfl⟩ := exists_of_combine_append hclear hout
  have hpair := h.right.combine_pair hneighbours
  obtain ⟨right, hright, rfl⟩ := exists_of_map_append_eq_ok (hpair.symm.trans hrest)
  rw [combine_append_of_ok hboth hleft, ← List.append_nil [a, b], hrelation]
  exact ⟨_, right, rfl, hright, (List.append_assoc ..).symm⟩

theorem Phrase.exists_left {middle : List Token}
    (h : Phrase operators before after window middle)
    (hscanned : AsScanned set (before ++ (window ++ after)))
    (hout : combine operators (before ++ (window ++ after)) = .ok out) :
    ∃ left rest, combine operators before = .ok left ∧
      combine operators (window ++ after) = .ok rest ∧ out = left ++ rest := by
  cases h with
  | slice ha | map ha | array ha =>
    refine exists_of_combine_append (hscanned.not_straddled_of_opener ?_) hout
    rw [ha]
    decide
  | relation _ hkind =>
    have hopener := mem_openingMarks_of_mem_relationTable hkind
    exact exists_of_combine_append (hscanned.not_straddled_of_opener hopener) hout
  | run hmark hbegins hrun =>
    have hneither : ∀ entry ∈ runTable, entry.1 ∈ doubledMarks ∧ entry.1 ≠ "=" := by decide
    obtain ⟨hdoubled, hne⟩ := hneither _ hmark
    refine exists_of_combine_append (hrun.not_straddled hscanned hdoubled fun t ht => ?_) hout
    exact ⟨hbegins t ht, fun heq => absurd heq hne⟩
  | equals hextended hfrees hrun =>
    rcases hfrees with hfirst | ⟨rest, a, b, kind, rfl, hkind, hb⟩
    · refine exists_of_combine_append (hrun.not_straddled hscanned (by decide) fun t ht => ?_) hout
      have hmarks := hfirst t ht
      rw [List.mem_cons, not_or] at hmarks
      exact ⟨hmarks.1, fun _ => hmarks.2⟩
    · subst hextended
      exact hscanned.exists_of_relation hkind hb hout
  | other huncovered =>
    exact exists_of_combine_append (huncovered.not_straddled_before hscanned.primitive) hout

theorem map_kind_paired (double : Kind) {single : Kind} (h : ∀ t ∈ run, t.kind = single) :
    (paired double run).map Token.kind =
      List.replicate (run.length / 2) double ++ List.replicate (run.length % 2) single := by
  fun_induction paired double run with
  | case1 => rfl
  | case2 a =>
    have ha : a.kind = single := h a (List.mem_singleton_self _)
    simp [ha]
  | case3 a b rest ih =>
    have hrest := ih fun t ht => h t (by simp [ht])
    have hhalf : (a :: b :: rest).length / 2 = rest.length / 2 + 1 :=
      Nat.add_div_right rest.length Nat.two_pos
    have hodd : (a :: b :: rest).length % 2 = rest.length % 2 := Nat.add_mod_right rest.length 2
    rw [List.map_cons, hrest, hhalf, hodd, List.replicate_succ, List.cons_append]
    rfl

theorem Primitive.kind_of_mem_runTable (h : a.Primitive set) {double single : Kind}
    (hmark : (a.text, double, single) ∈ runTable) : a.kind = single := by
  have hmarks : ∀ entry ∈ runTable, entry.1.toList.all fun c =>
      Text.isPunctuation c && (set.mark? c).all (· = entry.2.2) := by
    cases set <;> decide
  obtain ⟨c, hmem⟩ := List.exists_mem_of_ne_nil _ h.ne_nil
  obtain ⟨hc, hkinds⟩ := Bool.and_eq_true_iff.mp (List.all_eq_true.mp (hmarks _ hmark) c hmem)
  rw [(h.eq_mark_of_mem hc hmem).2] at hkinds
  exact of_decide_eq_true hkinds

/-- Scanned tokens are joined phrase by phrase, whatever a phrase stands between, and each token is
in a phrase. A run of marks is joined to as many pairs as there are in it. Joining fails exactly
where some size is none that an array has, and then with the first such one. -/
theorem combine_phrases_of_scan (set operators : OperatorSet) (source : String)
    (tokens : List Token) (hscan : scan set source = .ok tokens) :
    (∀ out, combine operators tokens = .ok out → ∀ before window after middle,
      tokens = before ++ (window ++ after) → Phrase operators before after window middle →
      ∃ left right, combine operators before = .ok left ∧ combine operators after = .ok right ∧
        out = left ++ (middle ++ right)) ∧
    (∀ before t after, tokens = before ++ t :: after → ∃ left l r right middle,
      before = left ++ l ∧ after = r ++ right ∧
        Phrase operators left right (l ++ t :: r) middle) ∧
    (∀ mark double single, (mark, double, single) ∈ runTable → ∀ run, run <:+: tokens →
      (∀ t ∈ run, t.text = mark) → (paired double run).map Token.kind =
        List.replicate (run.length / 2) double ++ List.replicate (run.length % 2) single) ∧
    (∀ error, combine operators tokens = .error error ↔
      ∃ before a b c after, tokens = before ++ a :: b :: c :: after ∧ NoSize a b c ∧
        ¬ HasNoSize (before ++ [a, b]) ∧
        error = ⟨.invalidArraySize (a.text ++ b.text ++ c.text), ⟨a.span.start, c.span.stop⟩,
          a.position⟩) ∧
    ((∃ error, combine operators tokens = .error error) ↔ HasNoSize tokens) := by
  have hscanned := asScanned_of_scan hscan
  refine ⟨?_, fun before t after _ => exists_phrase operators before t after, ?_,
    fun error => hscanned.combine_eq_error_iff, ?_, fun hsize => ?_⟩
  · rintro out hout before window after middle rfl hphrase
    obtain ⟨left, rest, hleft, hrest, rfl⟩ := hphrase.exists_left hscanned hout
    obtain ⟨right, hright, rfl⟩ := hphrase.exists_right hscanned.right hrest
    exact ⟨left, right, hleft, hright, rfl⟩
  · intro mark double single hmark run hrun htexts
    refine map_kind_paired double fun t ht => ?_
    exact (hscanned.primitive t (hrun.subset ht)).kind_of_mem_runTable ((htexts t ht).symm ▸ hmark)
  · rintro ⟨error, herror⟩
    exact hscanned.hasNoSize_of_combine_error herror
  · obtain ⟨before, a, b, c, after, heq, hfirst⟩ := hsize.exists_first
    exact ⟨_, hscanned.combine_eq_error_iff.mpr ⟨before, a, b, c, after, heq, hfirst.1, hfirst.2,
      rfl⟩⟩

theorem combine_phrases_of_scan_bars :
    ∃ tokens out left right, scan .extended "[5]|||>==" = .ok tokens ∧
      combine .extended tokens = .ok out ∧ combine .extended (tokens.take 3) = .ok left ∧
      combine .extended (tokens.drop 6) = .ok right ∧
      out = left ++ (paired .logicalOr ((tokens.drop 3).take 3) ++ right) ∧
      ¬ HasNoSize tokens := by
  have hmark : ("|", Kind.logicalOr, Kind.bitwiseOr) ∈ runTable := by decide
  have hall := combine_phrases_of_scan .extended .extended "[5]|||>==" _ rfl
  obtain ⟨left, right, hleft, hright, hout⟩ :=
    hall.1 _ rfl [_, _, _] [_, _, _] [_, _, _] _ rfl
      (Phrase.run hmark (by decide) ⟨by decide, by decide, by decide⟩)
  refine ⟨_, _, left, right, rfl, rfl, hleft, hright, hout, fun hsize => ?_⟩
  obtain ⟨error, herror⟩ := hall.2.2.2.2.mpr hsize
  cases herror

end ShapeLang.Token
