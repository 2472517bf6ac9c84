import ShapeLang.Proofs.Lexeme.Tiling

/-! What a reading makes of the text around its lexeme. More text never shortens a reading, so a
lexeme that is read before much is read before less. And there are characters that no lexeme goes
on over, comments and quoted text apart: what comes after one of these cannot matter. -/

namespace ShapeLang

open Text (byteLength isBlank isPunctuation)

/-- Part of no name and no number, and no comment opens with it after a slash. -/
def IsStop (d : Char) : Prop :=
  isNamePart d = false ∧ d ∉ ['.', '+', '-', '/', '*']

instance (d : Char) : Decidable (IsStop d) :=
  inferInstanceAs (Decidable (_ ∧ _))

theorem isStop_of_isBlank {d : Char} (h : isBlank d) : IsStop d := by
  have hmarks : ['.', '+', '-', '/', '*'].all fun c => !isBlank c := by decide
  exact ⟨isNamePart_of_isBlank h, not_mem_of_all hmarks h⟩

namespace Reading

theorem lt_of_closeLength?_append {body more : List Char} {n : Nat}
    (hopen : ¬ ['*', '/'] <:+: body) (h : closeLength? (body ++ more) = some n) :
    body.length < n := by
  rcases Nat.lt_or_ge body.length n with hlt | hle
  · exact hlt
  · obtain ⟨text, htake, -⟩ := take_closeLength? h
    rw [List.take_append_of_le_length hle] at htake
    have hclosed : ['*', '/'] <:+: body.take n := ⟨text, [], by rw [htake, List.append_nil]⟩
    exact absurd (hclosed.trans (List.take_prefix n body).isInfix) hopen

theorem length_stringBody_le_extra (text : List Char) :
    (stringBody text).length ≤ (string text).extra := by
  unfold string
  split
  · rename_i n h
    rw [h]
    exact Nat.le_succ n
  · rename_i h
    rw [h]
    exact Nat.le_refl 0
  · rename_i n _ h
    rw [h]
    exact Nat.le_refl n

theorem length_le_extra_of_fault {first : Char} {body rest : List Char}
    (h : Fault (first :: body) rest) (more : List Char) :
    body.length ≤ (longest first (body ++ (rest ++ more))).extra := by
  cases h with
  | @comment body hopen =>
    show (_ : Nat) ≤ (slash ('*' :: (body ++ more))).extra
    rw [slash]
    cases hclose : closeLength? (body ++ more) with
    | none =>
      rw [List.length_cons, List.length_append]
      dsimp only
      omega
    | some n =>
      have hlt := lt_of_closeLength?_append hopen hclose
      rw [List.length_cons]
      dsimp only
      omega
  | @string items _ hne hitems hopen =>
    show (_ : Nat) ≤ (string (items.flatten ++ (rest ++ more))).extra
    have hbody := length_stringBody_le_extra (items.flatten ++ (rest ++ more))
    rw [stringBody_items hitems, Body.length_grow] at hbody
    exact Nat.le_of_add_right_le hbody
  | @rawString body hne hopen =>
    show (_ : Nat) ≤ (rawString (body ++ more)).extra
    have hrun := runLength_append_of_not_mem hopen more
    simp only [rawString]
    rw [hrun]
    split
    · exact Nat.le_succ_of_le (Nat.le_add_right _ _)
    split
    · rename_i hzero
      exact Nat.le_of_add_right_le (Nat.le_of_eq hzero)
    · exact Nat.le_add_right _ _
  | stray => exact Nat.zero_le _

theorem extra_longest_le_append {first : Char} (hblank : isBlank first = false)
    (text more : List Char) :
    (longest first text).extra ≤ (longest first (text ++ more)).extra := by
  have hlength : (text.take (longest first text).extra).length = (longest first text).extra := by
    rw [List.length_take, Nat.min_eq_left (extra_longest_le first text)]
  have htext : text = text.take (longest first text).extra ++
      text.drop (longest first text).extra := (List.take_append_drop ..).symm
  cases hcategory : (longest first text).category with
  | none =>
    have hle := length_le_extra_of_fault (fault_longest hblank hcategory) more
    rwa [← List.append_assoc, ← htext, hlength] at hle
  | some category =>
    have hreaches := reaches_longest (spells_longest first text category hcategory)
      (text.drop (longest first text).extra ++ more)
    rw [← List.append_assoc, ← htext, hlength] at hreaches
    rcases hreaches with heq | hlt
    · exact Nat.le_of_eq (congrArg Reading.extra heq).symm
    · exact Nat.le_of_lt hlt

theorem runLength_append_of_neg {p : Char → Bool} {d : Char} (h : p d = false)
    (text more : List Char) : runLength p (text ++ d :: more) = runLength p text := by
  induction text with
  | nil => exact runLength_cons_of_neg h more
  | cons c text ih =>
    cases hc : p c with
    | false => rw [List.cons_append, runLength_cons_of_neg hc, runLength_cons_of_neg hc]
    | true =>
      have hsingle : ∀ b ∈ [c], p b := by simpa using hc
      have hrun := runLength_append hsingle (text ++ d :: more)
      have hrun' := runLength_append hsingle text
      rw [ih] at hrun
      exact hrun.trans hrun'.symm

theorem decimal_cons {c : Char} (hbody : Radix.decimal.isBody c = false) (hpoint : c ≠ '.')
    (tail : List Char) :
    decimal (c :: tail) =
      if exponentLength (c :: tail) = 0 then ⟨some (.integer .decimal), 0⟩
      else ⟨some .float, exponentLength (c :: tail)⟩ := by
  have hrun : runLength Radix.decimal.isBody (c :: tail) = 0 := runLength_cons_of_neg hbody tail
  unfold decimal
  dsimp only
  rw [hrun, List.drop_zero]
  split
  · rename_i heq
    exact absurd (List.cons.inj heq).1 hpoint
  · rw [Nat.zero_add]

theorem closeLength?_append_of_some {text : List Char} {n : Nat} (h : closeLength? text = some n)
    (more : List Char) : closeLength? (text ++ more) = some n := by
  obtain ⟨body, htake, hearly⟩ := take_closeLength? h
  have hlength := congrArg List.length htake
  rw [List.length_take, Nat.min_eq_left (closeLength?_le h), List.length_append] at hlength
  have htext : body ++ ['*', '/'] ++ text.drop n = text := by
    rw [← htake, List.take_append_drop]
  have hwhole : body ++ '*' :: '/' :: (text.drop n ++ more) = text ++ more := by
    simpa using congrArg (· ++ more) htext
  rw [← hwhole, closeLength?_append hearly, hlength]
  rfl

section Stop

variable {d : Char} (hd : IsStop d) (text more : List Char)

include hd

theorem ne_of_isStop {c : Char} (hc : isNamePart c ∨ c ∈ ['.', '+', '-', '/', '*']) : d ≠ c := by
  rintro rfl
  rcases hc with hpart | hmark
  · exact Bool.false_ne_true (hd.1.symm.trans hpart)
  · exact hd.2 hmark

theorem exponentLength_append_stop :
    exponentLength (text ++ d :: more) = exponentLength text := by
  have hdigit : Radix.decimal.isDigit d = false := by
    have hbody := isBody_of_isNamePart hd.1 .decimal
    rw [Radix.isBody, Bool.or_eq_false_iff] at hbody
    exact hbody.2
  cases text with
  | nil =>
    have hlower : d ≠ 'e' := ne_of_isStop hd (by decide)
    have hupper : d ≠ 'E' := ne_of_isStop hd (by decide)
    simp [exponentLength, hlower, hupper]
  | cons mark text =>
    have hsign : signLength (text ++ d :: more) = signLength text := by
      cases text with
      | nil =>
        have hplus : d ≠ '+' := ne_of_isStop hd (by decide)
        have hminus : d ≠ '-' := ne_of_isStop hd (by decide)
        simp [signLength, hplus, hminus]
      | cons c text => rfl
    have hdigits : runLength Radix.decimal.isDigit ((text ++ d :: more).drop (signLength text)) =
        runLength Radix.decimal.isDigit (text.drop (signLength text)) := by
      rw [List.drop_append_of_le_length (signLength_le text), runLength_append_of_neg hdigit]
    simp only [List.cons_append, exponentLength, hsign, hdigits]

theorem decimal_append_stop : decimal (text ++ d :: more) = decimal text := by
  have hbody : Radix.decimal.isBody d = false := isBody_of_isNamePart hd.1 .decimal
  have hpoint : d ≠ '.' := ne_of_isStop hd (by decide)
  have hwhole : ∀ c ∈ text.takeWhile Radix.decimal.isBody, Radix.decimal.isBody c :=
    fun c hc => of_mem_takeWhile hc
  have hhead := List.head?_dropWhile_not Radix.decimal.isBody text
  rw [← List.takeWhile_append_dropWhile (p := Radix.decimal.isBody) (l := text), List.append_assoc,
    decimal_append hwhole, decimal_append hwhole]
  generalize text.dropWhile Radix.decimal.isBody = tail at hhead
  suffices htail : decimal (tail ++ d :: more) = decimal tail by rw [htail]
  cases tail with
  | nil =>
    have hexponent := exponentLength_append_stop hd [] more
    rw [List.nil_append] at hexponent ⊢
    rw [decimal_cons hbody hpoint, hexponent]
    rfl
  | cons c tail =>
    have hc : Radix.decimal.isBody c = false := by simpa using hhead
    have hexponent := exponentLength_append_stop hd (c :: tail) more
    rw [List.cons_append] at hexponent ⊢
    by_cases hpoint : c = '.'
    · rw [hpoint, decimal_point, decimal_point, runLength_append_of_neg hbody,
        List.drop_append_of_le_length (runLength_le _ tail), exponentLength_append_stop hd]
    · rw [decimal_cons hc hpoint, decimal_cons hc hpoint, hexponent]

theorem number_append_stop (first : Char) :
    number first (text ++ d :: more) = number first text := by
  have hmarked : marked? first (text ++ d :: more) = marked? first text := by
    cases text with
    | nil =>
      have hmark := ofMark?_of_isNamePart hd.1
      simp [marked?, hmark]
    | cons mark text =>
      have hrun : ∀ radix : Radix, runLength radix.isBody (text ++ d :: more) =
          runLength radix.isBody text :=
        fun radix => runLength_append_of_neg (isBody_of_isNamePart hd.1 radix) text more
      simp only [List.cons_append, marked?, hrun]
  rw [number, number, hmarked, decimal_append_stop hd]

theorem slash_append_stop {category : Category} (h : (slash text).category = some category)
    (hline : category = .lineComment → d = '\n') : slash (text ++ d :: more) = slash text := by
  have hslash : d ≠ '/' := ne_of_isStop hd (by decide)
  have hstar : d ≠ '*' := ne_of_isStop hd (by decide)
  fun_cases slash text with
  | case1 text =>
    obtain rfl := hline (Option.some.inj h).symm
    rw [List.cons_append, slash, runLength_append_of_neg (by decide)]
  | case2 text n hclose =>
    rw [List.cons_append, slash, closeLength?_append_of_some hclose]
  | case3 text hclose =>
    rw [slash, hclose] at h
    cases h
  | case4 text hnotslash hnotstar =>
    rw [slash.eq_3]
    · intro rest heq
      cases text with
      | nil => exact hslash (List.cons.inj heq).1
      | cons c text => exact hnotslash text (by rw [(List.cons.inj heq).1])
    · intro rest heq
      cases text with
      | nil => exact hstar (List.cons.inj heq).1
      | cons c text => exact hnotstar text (by rw [(List.cons.inj heq).1])

theorem longest_append_stop {first : Char} {category : Category}
    (hfirst : first ∉ ['"', '\x60', '\'']) (h : (longest first text).category = some category)
    (hline : category = .lineComment → d = '\n') :
    longest first (text ++ d :: more) = longest first text := by
  simp only [List.mem_cons, List.not_mem_nil, or_false, not_or] at hfirst
  obtain ⟨hquote, haccent, hmark⟩ := hfirst
  by_cases hslash : first = '/'
  · rw [hslash] at h ⊢
    exact slash_append_stop hd text more h hline
  · simp only [longest, if_neg hslash, if_neg hquote, if_neg haccent, if_neg hmark]
    rw [number_append_stop hd, runLength_append_of_neg hd.1]

end Stop

theorem longest_of_mark {mark : Char} (hmark : isPunctuation mark)
    (hplain : mark ∉ ['/', '"', '\x60', '\'']) (text : List Char) :
    longest mark text = ⟨some (.punctuation mark), 0⟩ := by
  simp only [List.mem_cons, List.not_mem_nil, or_false, not_or] at hplain
  rw [longest, if_neg hplain.1, if_neg hplain.2.1, if_neg hplain.2.2.1, if_neg hplain.2.2.2,
    isDigit_of_isPunctuation hmark, isNameStart_of_isPunctuation hmark, hmark]
  rfl

end Reading

section Fits

variable {category : Option Category} {text rest : List Char}

open Reading

theorem fits_of_longest {first : Char} {body : List Char} (hblank : isBlank first = false)
    (h : longest first (body ++ rest) = ⟨category, body.length⟩) :
    Fits category (first :: body) rest := by
  have hfits := fits_longest hblank (body ++ rest)
  rw [h] at hfits
  simpa using hfits

theorem Fits.of_append {more : List Char} (h : Fits category text (rest ++ more)) :
    Fits category text rest := by
  cases category with
  | none =>
    cases h with
    | fault hfault => exact Fits.fault hfault.of_append
  | some category =>
    obtain ⟨first, body, rfl⟩ := exists_cons_of_spells h.spells
    have hblank := isBlank_of_fits h
    have hread := longest_of_fits h
    have hshort := extra_longest_le_append hblank (body ++ rest) more
    rw [List.append_assoc, hread] at hshort
    refine fits_of_longest hblank ?_
    rcases reaches_longest h.spells rest with heq | hlt
    · exact heq
    · exact absurd hlt (Nat.not_lt_of_le hshort)

theorem Fits.alone (h : Fits category text rest) : Fits category text [] := by
  rw [← List.nil_append rest] at h
  exact h.of_append

end Fits

section Parts

variable {offset : Nat} {text : List Char} {lexemes a b : List Lexeme} {l : Lexeme}

theorem Tiling.exists_context (h : Tiling offset text (a ++ l :: b)) :
    ∃ before rest, text = before ++ (l.text ++ rest) ∧ l.start = offset + byteLength before ∧
      l.text ≠ [] ∧ Fits l.category l.text rest ∧ Tiling l.stop rest b := by
  induction a generalizing offset text with
  | nil =>
    cases h with
    | @lexeme _ blanks rest _ _ hblanks hstart hne hfits htiling =>
      exact ⟨blanks, rest, rfl, hstart, hne, hfits, htiling⟩
  | cons x a ih =>
    rw [List.cons_append] at h
    cases h with
    | @lexeme _ blanks rest _ _ hblanks hstart hne hfits htiling =>
      obtain ⟨before, after, rfl, hl, hrest⟩ := ih htiling
      refine ⟨blanks ++ (x.text ++ before), after, by simp only [List.append_assoc], ?_, hrest⟩
      rw [hl, Lexeme.stop, hstart, Text.byteLength_append, Text.byteLength_append]
      omega

theorem Tiling.lexeme_eq {before after : List Char} {first : Char}
    (h : Tiling offset (before ++ first :: after) (a ++ l :: b))
    (hstart : l.start = offset + byteLength before) :
    let reading := Reading.longest first after
    l = ⟨reading.category, first :: after.take reading.extra, offset + byteLength before⟩ ∧
      Tiling l.stop (after.drop reading.extra) b := by
  obtain ⟨part, rest, hsource, hpart, hne, hfits, hrest⟩ := h.exists_context
  have hbytes : byteLength before = byteLength part := Nat.add_left_cancel (hstart.symm.trans hpart)
  obtain rfl := Text.eq_of_byteLength_eq (List.prefix_append _ _) ⟨_, hsource.symm⟩ hbytes
  obtain ⟨category, text, start⟩ := l
  obtain ⟨_, body, rfl⟩ := List.exists_cons_of_ne_nil hne
  rw [List.append_cancel_left_eq, List.cons_append] at hsource
  obtain ⟨rfl, rfl⟩ := List.cons.inj hsource
  intro reading
  have hread : reading = ⟨category, body.length⟩ := Reading.longest_of_fits hfits
  rw [hread, List.take_left, List.drop_left]
  exact ⟨by rw [← hstart], hrest⟩

theorem Tiling.fits (h : Tiling offset text lexemes) :
    ∀ l ∈ lexemes, ∃ rest, Fits l.category l.text rest := by
  intro l hl
  obtain ⟨a, b, rfl⟩ := List.append_of_mem hl
  obtain ⟨_, rest, -, -, -, hfits, -⟩ := h.exists_context
  exact ⟨rest, hfits⟩

theorem Tiling.cut {left right : List Char} (h : Tiling offset (left ++ right) lexemes)
    (hclear : ∀ l ∈ lexemes, l.start < offset + byteLength left →
      l.stop ≤ offset + byteLength left) :
    ∃ a b, lexemes = a ++ b ∧ Tiling offset left a ∧
      Tiling (offset + byteLength left) right b := by
  generalize htext : left ++ right = text at h
  induction h generalizing left with
  | blanks hblanks =>
    rw [← htext, List.forall_mem_append] at hblanks
    exact ⟨[], [], rfl, Tiling.blanks hblanks.1, Tiling.blanks hblanks.2⟩
  | @lexeme offset blanks rest l lexemes hblanks hstart hne hfits htiling ih =>
    obtain ⟨hl, hlexemes⟩ := List.forall_mem_cons.mp hclear
    have hleft : left <+: blanks ++ (l.text ++ rest) := ⟨right, htext⟩
    by_cases hbefore : l.start < offset + byteLength left
    · have hstop := hl hbefore
      have hthrough : blanks ++ l.text <+: left := by
        refine Text.prefix_of_byteLength_le ⟨rest, List.append_assoc ..⟩ hleft ?_
        rw [Lexeme.stop, hstart] at hstop
        rw [Text.byteLength_append]
        omega
      obtain ⟨more, rfl⟩ := hthrough
      rw [List.append_assoc, List.append_assoc, List.append_cancel_left_eq,
        List.append_cancel_left_eq] at htext
      have hoffset : offset + byteLength (blanks ++ l.text ++ more) =
          l.stop + byteLength more := by
        rw [Lexeme.stop, hstart, Text.byteLength_append, Text.byteLength_append]
        omega
      rw [hoffset] at hlexemes ⊢
      obtain ⟨a, b, rfl, ha, hb⟩ := ih hlexemes htext
      subst htext
      refine ⟨l :: a, b, rfl, ?_, hb⟩
      rw [List.append_assoc]
      exact Tiling.lexeme hblanks hstart hne hfits.of_append ha
    · have hshort : left <+: blanks := by
        refine Text.prefix_of_byteLength_le hleft (List.prefix_append _ _) ?_
        omega
      obtain ⟨more, rfl⟩ := hshort
      rw [List.append_assoc, List.append_cancel_left_eq] at htext
      obtain ⟨hfirst, hmore⟩ := List.forall_mem_append.mp hblanks
      refine ⟨[], l :: lexemes, rfl, Tiling.blanks hfirst, ?_⟩
      rw [htext]
      refine Tiling.lexeme hmore ?_ hne hfits htiling
      rw [hstart, Text.byteLength_append, Nat.add_assoc]

end Parts

theorem Lexeme.tiling_split (text : List Char) : Tiling 0 text (split text) :=
  tiling_splitFrom 0 text

end ShapeLang
