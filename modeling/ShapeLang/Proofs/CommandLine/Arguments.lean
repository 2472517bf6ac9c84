import Mathlib.Data.List.Induction
import ShapeLang.CommandLine.Options

/-! Which arguments are accepted, what they come to, and where their order counts. A path is
accepted as the first source only and a lone dash as any, and the last source is the one that is
read. An error names the first argument that is refused. The order counts where lone dashes stand
beside a single path, and nowhere else. -/

namespace ShapeLang.CommandLine

variable {arguments others before after : List String} {argument : String} {error : UsageError}
  {options : LexOptions}

def Dashed (argument : String) : Prop :=
  ['-'] <+: argument.toList

def IsSwitch (argument : String) : Prop :=
  argument = "--extended" ∨ argument = "-e"

def IsPath (argument : String) : Prop :=
  ¬ Dashed argument

def IsSource (argument : String) : Prop :=
  argument = "-" ∨ IsPath argument

instance : DecidablePred Dashed := fun argument =>
  inferInstanceAs (Decidable (['-'] <+: argument.toList))

instance : DecidablePred IsSwitch := fun argument =>
  inferInstanceAs (Decidable (argument = "--extended" ∨ argument = "-e"))

instance : DecidablePred IsPath := fun argument =>
  inferInstanceAs (Decidable (¬ Dashed argument))

instance : DecidablePred IsSource := fun argument =>
  inferInstanceAs (Decidable (argument = "-" ∨ IsPath argument))

theorem isFlag_iff : LexOptions.isFlag argument = true ↔ Dashed argument := by
  rw [LexOptions.isFlag, decide_eq_true_iff, Dashed]
  cases argument.toList with
  | nil => simp
  | cons c cs => simp [List.cons_prefix_cons, eq_comm]

theorem not_isPath_dash : ¬ IsPath "-" := by decide

theorem IsPath.ne_dash (h : IsPath argument) : argument ≠ "-" :=
  fun heq => not_isPath_dash (heq ▸ h)

theorem IsSource.eq_dash_iff (h : IsSource argument) : argument = "-" ↔ ¬ IsPath argument :=
  ⟨fun heq => heq ▸ not_isPath_dash, h.resolve_right⟩

theorem IsSwitch.not_isSource (h : IsSwitch argument) : ¬ IsSource argument := by
  rcases h with rfl | rfl <;> decide

theorem IsSource.not_isSwitch (h : IsSource argument) : ¬ IsSwitch argument :=
  fun hswitch => hswitch.not_isSource h

def sources (arguments : List String) : List String :=
  arguments.filter (IsSource ·)

def Known (arguments : List String) : Prop :=
  ∀ argument ∈ arguments, Dashed argument → argument = "-" ∨ IsSwitch argument

structure Acceptable (arguments : List String) : Prop where
  known : Known arguments
  tail_sources : ∀ source ∈ (sources arguments).tail, source = "-"

def LexOptions.ofArguments (arguments : List String) : LexOptions where
  path := (sources arguments).getLast?
  operators := if ∃ argument ∈ arguments, IsSwitch argument then .extended else .core

/-- An argument that cannot stand behind others, and what is told of it. -/
inductive Refused (before : List String) (argument : String) : UsageError → Prop where
  | unknown : Dashed argument → argument ≠ "-" → ¬ IsSwitch argument →
    Refused before argument (.unknownOption argument)
  | extra : IsPath argument → sources before ≠ [] →
    Refused before argument (.unexpectedArgument argument)

theorem sources_append : sources (before ++ after) = sources before ++ sources after :=
  List.filter_append before after

theorem sources_singleton_of_isSource (h : IsSource argument) : sources [argument] = [argument] :=
  List.filter_cons_of_pos (decide_eq_true h)

theorem sources_singleton_of_not_isSource (h : ¬ IsSource argument) : sources [argument] = [] :=
  List.filter_cons_of_neg fun hsource => h (of_decide_eq_true hsource)

theorem known_append : Known (before ++ after) ↔ Known before ∧ Known after :=
  List.forall_mem_append

theorem known_singleton :
    Known [argument] ↔ (Dashed argument → argument = "-" ∨ IsSwitch argument) :=
  List.forall_mem_singleton

theorem ofArguments_switch (h : IsSwitch argument) :
    LexOptions.ofArguments (before ++ [argument]) =
      { LexOptions.ofArguments before with operators := .extended } := by
  have hsome : ∃ a ∈ before ++ [argument], IsSwitch a := ⟨argument, by simp, h⟩
  rw [LexOptions.ofArguments, sources_append, sources_singleton_of_not_isSource h.not_isSource,
    List.append_nil, if_pos hsome]
  rfl

theorem ofArguments_source (h : IsSource argument) :
    LexOptions.ofArguments (before ++ [argument]) =
      { LexOptions.ofArguments before with path := some argument } := by
  have hswitches : (∃ a ∈ before ++ [argument], IsSwitch a) ↔ ∃ a ∈ before, IsSwitch a := by
    simp [or_and_right, exists_or, h.not_isSwitch]
  simp only [LexOptions.ofArguments, sources_append, sources_singleton_of_isSource h,
    List.getLast?_concat, hswitches]

theorem tail_sources_append_singleton :
    (∀ source ∈ (sources (before ++ [argument])).tail, source = "-") ↔
      (∀ source ∈ (sources before).tail, source = "-") ∧
        (IsPath argument → sources before = []) := by
  rw [sources_append]
  by_cases hsource : IsSource argument
  · rw [sources_singleton_of_isSource hsource]
    cases sources before with
    | nil => simp
    | cons first rest => simp [or_imp, forall_and, hsource.eq_dash_iff]
  · have hpath : ¬ IsPath argument := fun hpath => hsource (Or.inr hpath)
    simp [sources_singleton_of_not_isSource hsource, hpath]

theorem not_refused_iff :
    (∀ error, ¬ Refused before argument error) ↔
      (Dashed argument → argument = "-" ∨ IsSwitch argument) ∧
        (IsPath argument → sources before = []) := by
  constructor
  · intro h
    refine ⟨fun hdashed => ?_, fun hpath => ?_⟩
    · by_contra hunknown
      obtain ⟨hdash, hswitch⟩ := not_or.mp hunknown
      exact h _ (.unknown hdashed hdash hswitch)
    · by_contra hne
      exact h _ (.extra hpath hne)
  · rintro ⟨hknown, hpath⟩ error hrefused
    cases hrefused with
    | unknown hdashed hdash hswitch => exact (hknown hdashed).elim hdash hswitch
    | extra hnot hne => exact hne (hpath hnot)

theorem acceptable_append_singleton :
    Acceptable (before ++ [argument]) ↔
      Acceptable before ∧ ∀ error, ¬ Refused before argument error := by
  rw [not_refused_iff]
  constructor
  · rintro ⟨hknown, htail⟩
    obtain ⟨hbefore, hargument⟩ := known_append.mp hknown
    obtain ⟨hdashes, hfirst⟩ := tail_sources_append_singleton.mp htail
    exact ⟨⟨hbefore, hdashes⟩, known_singleton.mp hargument, hfirst⟩
  · rintro ⟨⟨hbefore, hdashes⟩, hargument, hfirst⟩
    exact ⟨known_append.mpr ⟨hbefore, known_singleton.mpr hargument⟩,
      tail_sources_append_singleton.mpr ⟨hdashes, hfirst⟩⟩

theorem accept_switch (options : LexOptions) (h : IsSwitch argument) :
    options.accept argument = .ok { options with operators := .extended } :=
  if_pos h

theorem accept_of_not_isSwitch (options : LexOptions) (h : ¬ IsSwitch argument) :
    options.accept argument =
      if argument = "-" then .ok { options with path := some argument }
      else if Dashed argument then .error (.unknownOption argument)
      else if options.path = none then .ok { options with path := some argument }
      else .error (.unexpectedArgument argument) := by
  refine (if_neg h).trans ?_
  simp only [isFlag_iff, Option.isNone_iff_eq_none]

theorem accept_source (h : IsSource argument) (hfirst : IsPath argument → options.path = none) :
    options.accept argument = .ok { options with path := some argument } := by
  rw [accept_of_not_isSwitch _ h.not_isSwitch]
  rcases h with hdash | hpath
  · rw [if_pos hdash]
  · rw [if_neg hpath.ne_dash, if_neg hpath, if_pos (hfirst hpath)]

theorem path_ofArguments_eq_none_iff :
    (LexOptions.ofArguments before).path = none ↔ sources before = [] :=
  List.getLast?_eq_none_iff

theorem accept_of_acceptable (h : Acceptable (before ++ [argument])) :
    (LexOptions.ofArguments before).accept argument =
      .ok (LexOptions.ofArguments (before ++ [argument])) := by
  obtain ⟨hknown, hfirst⟩ := not_refused_iff.mp (acceptable_append_singleton.mp h).2
  by_cases hswitch : IsSwitch argument
  · rw [accept_switch _ hswitch, ofArguments_switch hswitch]
  · have hsource : IsSource argument := by
      by_cases hdashed : Dashed argument
      · exact Or.inl ((hknown hdashed).resolve_right hswitch)
      · exact Or.inr hdashed
    rw [ofArguments_source hsource]
    exact accept_source hsource fun hpath => path_ofArguments_eq_none_iff.mpr (hfirst hpath)

theorem accept_of_refused (h : Refused before argument error) :
    (LexOptions.ofArguments before).accept argument = .error error := by
  cases h with
  | unknown hdashed hdash hswitch =>
    rw [accept_of_not_isSwitch _ hswitch, if_neg hdash, if_pos hdashed]
  | extra hpath hne =>
    have hswitch : ¬ IsSwitch argument := IsSource.not_isSwitch (Or.inr hpath)
    rw [accept_of_not_isSwitch _ hswitch, if_neg hpath.ne_dash, if_neg hpath,
      if_neg (path_ofArguments_eq_none_iff.not.mpr hne)]

theorem acceptAll_append (options : LexOptions) (before after : List String) :
    options.acceptAll (before ++ after) =
      (options.acceptAll before).bind fun reached => reached.acceptAll after := by
  induction before generalizing options with
  | nil => rfl
  | cons argument before ih =>
    rw [List.cons_append, LexOptions.acceptAll, LexOptions.acceptAll]
    cases options.accept argument with
    | error error => rfl
    | ok reached => exact ih reached

theorem parse_of_acceptable (h : Acceptable arguments) :
    LexOptions.parse arguments = .ok (.ofArguments arguments) := by
  -- From the end, as what arguments come to tells the options that the next one meets.
  induction arguments using List.reverseRecOn with
  | nil => rfl
  | append_singleton before argument ih =>
    have hbefore : LexOptions.initial.acceptAll before = .ok (.ofArguments before) :=
      ih (acceptable_append_singleton.mp h).1
    rw [LexOptions.parse, acceptAll_append, hbefore, Except.bind, LexOptions.acceptAll,
      accept_of_acceptable h]
    rfl

theorem parse_of_refused (h : Acceptable before) (hrefused : Refused before argument error) :
    LexOptions.parse (before ++ argument :: after) = .error error := by
  have hbefore : LexOptions.initial.acceptAll before = .ok (.ofArguments before) :=
    parse_of_acceptable h
  rw [LexOptions.parse, acceptAll_append, hbefore, Except.bind, LexOptions.acceptAll,
    accept_of_refused hrefused]

theorem acceptable_or_exists_refused (arguments : List String) :
    Acceptable arguments ∨ ∃ before argument after error,
      arguments = before ++ argument :: after ∧ Acceptable before ∧
        Refused before argument error := by
  induction arguments using List.reverseRecOn with
  | nil => exact Or.inl ⟨by simp [Known], by simp [sources]⟩
  | append_singleton before argument ih =>
    rcases ih with hbefore | ⟨first, bad, after, error, rfl, hfirst, hrefused⟩
    · by_cases hrefused : ∃ error, Refused before argument error
      · obtain ⟨error, hrefused⟩ := hrefused
        exact Or.inr ⟨before, argument, [], error, rfl, hbefore, hrefused⟩
      · exact Or.inl (acceptable_append_singleton.mpr ⟨hbefore, not_exists.mp hrefused⟩)
    · refine Or.inr ⟨first, bad, after ++ [argument], error, ?_, hfirst, hrefused⟩
      rw [List.append_assoc, List.cons_append]

theorem parse_eq_ok_iff :
    LexOptions.parse arguments = .ok options ↔
      Acceptable arguments ∧ options = .ofArguments arguments := by
  constructor
  · intro hparse
    rcases acceptable_or_exists_refused arguments with
      haccept | ⟨before, argument, after, error, rfl, hbefore, hrefused⟩
    · rw [parse_of_acceptable haccept] at hparse
      exact ⟨haccept, (Except.ok.inj hparse).symm⟩
    · rw [parse_of_refused hbefore hrefused] at hparse
      cases hparse
  · rintro ⟨haccept, rfl⟩
    exact parse_of_acceptable haccept

theorem parse_eq_error_iff :
    LexOptions.parse arguments = .error error ↔
      ∃ before argument after, arguments = before ++ argument :: after ∧ Acceptable before ∧
        Refused before argument error := by
  constructor
  · intro hparse
    rcases acceptable_or_exists_refused arguments with
      haccept | ⟨before, argument, after, told, rfl, hbefore, hrefused⟩
    · rw [parse_of_acceptable haccept] at hparse
      cases hparse
    · rw [parse_of_refused hbefore hrefused] at hparse
      obtain rfl := Except.error.inj hparse
      exact ⟨before, argument, after, rfl, hbefore, hrefused⟩
  · rintro ⟨before, argument, after, rfl, hbefore, hrefused⟩
    exact parse_of_refused hbefore hrefused

/-- A single path stands beside lone dashes, and nothing else is wrong. -/
structure Mixed (arguments : List String) : Prop where
  known : Known arguments
  dash : "-" ∈ arguments
  path : arguments.countP (IsPath ·) = 1

theorem Known.of_perm (h : Known arguments) (hperm : arguments.Perm others) : Known others :=
  fun argument hmem => h argument (hperm.mem_iff.mpr hmem)

theorem Mixed.of_perm (h : Mixed arguments) (hperm : arguments.Perm others) : Mixed others :=
  ⟨h.known.of_perm hperm, hperm.mem_iff.mp h.dash, (hperm.countP_eq _).symm.trans h.path⟩

theorem mem_sources_iff :
    argument ∈ sources arguments ↔ argument ∈ arguments ∧ IsSource argument := by
  rw [sources, List.mem_filter, decide_eq_true_iff]

theorem countP_cons_of_isPath (h : IsPath argument) :
    (argument :: after).countP (IsPath ·) = after.countP (IsPath ·) + 1 :=
  List.countP_cons_of_pos (decide_eq_true h)

theorem countP_sources :
    (sources arguments).countP (IsPath ·) = arguments.countP (IsPath ·) := by
  rw [sources, List.countP_filter]
  refine List.countP_congr fun argument _ => ?_
  simp +contextual [IsSource]

theorem Acceptable.sources_eq (h : Acceptable arguments) (hmixed : ¬ Mixed arguments) :
    (∃ n, sources arguments = List.replicate n "-") ∨ ∃ path, sources arguments = [path] := by
  have htail := h.tail_sources
  cases hlist : sources arguments with
  | nil => exact Or.inl ⟨0, rfl⟩
  | cons first rest =>
    rw [hlist, List.tail_cons] at htail
    by_cases hpath : IsPath first
    · cases rest with
      | nil => exact Or.inr ⟨first, rfl⟩
      | cons second rest =>
        -- The sources behind the path are dashes, so that it is the only path and not alone.
        have hnone : (second :: rest).countP (IsPath ·) = 0 := by
          refine List.countP_eq_zero.mpr fun source hmem => ?_
          rw [htail source hmem]
          decide
        have hsecond : second ∈ sources arguments := by simp [hlist]
        have hdash : "-" ∈ arguments :=
          htail second List.mem_cons_self ▸ (mem_sources_iff.mp hsecond).1
        refine (hmixed ⟨h.known, hdash, ?_⟩).elim
        rw [← countP_sources, hlist, countP_cons_of_isPath hpath, hnone]
    · have hfirst : first ∈ sources arguments := by simp [hlist]
      have hdash : first = "-" := (mem_sources_iff.mp hfirst).2.eq_dash_iff.mpr hpath
      exact Or.inl ⟨rest.length + 1, List.eq_replicate_iff.mpr
        ⟨rfl, List.forall_mem_cons.mpr ⟨hdash, htail⟩⟩⟩

theorem Acceptable.sources_eq_of_perm (h : Acceptable arguments) (hmixed : ¬ Mixed arguments)
    (hperm : arguments.Perm others) : sources others = sources arguments := by
  have hsources : (sources others).Perm (sources arguments) := (hperm.filter _).symm
  rcases h.sources_eq hmixed with ⟨n, hdashes⟩ | ⟨path, hsingle⟩
  · rw [hdashes] at hsources ⊢
    exact List.perm_replicate.mp hsources
  · rw [hsingle] at hsources ⊢
    exact List.perm_singleton.mp hsources

theorem Acceptable.of_perm (h : Acceptable arguments) (hmixed : ¬ Mixed arguments)
    (hperm : arguments.Perm others) :
    Acceptable others ∧ LexOptions.ofArguments others = .ofArguments arguments := by
  have hsources := h.sources_eq_of_perm hmixed hperm
  have hswitches : (∃ argument ∈ others, IsSwitch argument) ↔
      ∃ argument ∈ arguments, IsSwitch argument := by
    simp only [hperm.mem_iff]
  refine ⟨⟨h.known.of_perm hperm, hsources ▸ h.tail_sources⟩, ?_⟩
  simp only [LexOptions.ofArguments, hsources, hswitches]

theorem toOption_parse_of_not_acceptable (h : ¬ Acceptable arguments) :
    (LexOptions.parse arguments).toOption = none := by
  cases hparse : LexOptions.parse arguments with
  | error error => rfl
  | ok options => exact absurd (parse_eq_ok_iff.mp hparse).1 h

theorem toOption_parse_of_perm (hmixed : ¬ Mixed arguments) (hperm : arguments.Perm others) :
    (LexOptions.parse others).toOption = (LexOptions.parse arguments).toOption := by
  by_cases haccept : Acceptable arguments
  · obtain ⟨hothers, heq⟩ := haccept.of_perm hmixed hperm
    rw [parse_of_acceptable haccept, parse_of_acceptable hothers, heq]
  · have hothers : ¬ Acceptable others := fun hothers =>
      haccept (hothers.of_perm (fun h => hmixed (h.of_perm hperm.symm)) hperm.symm).1
    rw [toOption_parse_of_not_acceptable haccept, toOption_parse_of_not_acceptable hothers]

theorem eq_dash_of_mem_sources (h : ∀ argument ∈ arguments, ¬ IsPath argument) :
    ∀ source ∈ sources arguments, source = "-" := by
  intro source hmem
  obtain ⟨hsource, hdash⟩ := mem_sources_iff.mp hmem
  exact hdash.resolve_right (h source hsource)

theorem acceptable_path_cons (hpath : IsPath argument) (hknown : Known (argument :: after))
    (hafter : ∀ other ∈ after, ¬ IsPath other) : Acceptable (argument :: after) := by
  have hfirst : sources (argument :: after) = argument :: sources after :=
    List.filter_cons_of_pos (decide_eq_true (Or.inr hpath))
  refine ⟨hknown, ?_⟩
  rw [hfirst, List.tail_cons]
  exact eq_dash_of_mem_sources hafter

theorem Mixed.exists_orders (h : Mixed arguments) :
    ∃ path rest, arguments.Perm (path :: rest) ∧ Acceptable (path :: rest) ∧ Acceptable rest ∧
      Refused rest path (.unexpectedArgument path) := by
  obtain ⟨path, hmem, hdecide⟩ := List.countP_pos_iff.mp (h.path ▸ Nat.one_pos)
  have hpath : IsPath path := of_decide_eq_true hdecide
  have hperm : arguments.Perm (path :: arguments.erase path) := List.perm_cons_erase hmem
  generalize arguments.erase path = rest at hperm
  obtain ⟨hknown, hdash, hcount⟩ := h.of_perm hperm
  rw [countP_cons_of_isPath hpath, Nat.add_eq_right] at hcount
  have hrest : ∀ other ∈ rest, ¬ IsPath other := by simpa [List.countP_eq_zero] using hcount
  have hsource : "-" ∈ sources rest :=
    mem_sources_iff.mpr ⟨(List.mem_cons.mp hdash).resolve_left hpath.ne_dash.symm, Or.inl rfl⟩
  have hdashes : ∀ source ∈ (sources rest).tail, source = "-" := fun source hmem =>
    eq_dash_of_mem_sources hrest source (List.mem_of_mem_tail hmem)
  exact ⟨path, rest, hperm, acceptable_path_cons hpath hknown hrest,
    ⟨(List.forall_mem_cons.mp hknown).2, hdashes⟩, .extra hpath (List.ne_nil_of_mem hsource)⟩

theorem order_counts_iff :
    (∃ others, arguments.Perm others ∧
      (LexOptions.parse others).toOption ≠ (LexOptions.parse arguments).toOption) ↔
      Mixed arguments := by
  constructor
  · rintro ⟨others, hperm, hne⟩
    by_contra hmixed
    exact hne (toOption_parse_of_perm hmixed hperm)
  · intro hmixed
    obtain ⟨path, rest, hperm, haccept, hrest, hrefused⟩ := hmixed.exists_orders
    have hfront : LexOptions.parse (path :: rest) = .ok (.ofArguments (path :: rest)) :=
      parse_of_acceptable haccept
    have hback : LexOptions.parse (rest ++ [path]) = .error (.unexpectedArgument path) :=
      parse_of_refused hrest hrefused
    cases hparse : (LexOptions.parse arguments).toOption with
    | none => exact ⟨_, hperm, by simp [hfront, Except.toOption]⟩
    | some options =>
      have hbehind : arguments.Perm (rest ++ [path]) :=
        hperm.trans (List.perm_append_singleton path rest).symm
      exact ⟨_, hbehind, by simp [hback, Except.toOption]⟩

/-- Arguments are accepted exactly if each flag is one there is and each source but the first is a
lone dash. They come to the last source, and to the extended operators if there is a switch. Others
end in an error that names the first of them to be refused behind those before it. Another order
changes whether arguments are accepted, or what they come to, exactly if a single path stands beside
lone dashes. -/
theorem parse_outcomes_and_order (arguments : List String) :
    (∀ options, LexOptions.parse arguments = .ok options ↔
      Acceptable arguments ∧ options = .ofArguments arguments) ∧
    (∀ error, LexOptions.parse arguments = .error error ↔
      ∃ before argument after, arguments = before ++ argument :: after ∧ Acceptable before ∧
        Refused before argument error) ∧
    ((∃ others, arguments.Perm others ∧
      (LexOptions.parse others).toOption ≠ (LexOptions.parse arguments).toOption) ↔
      Mixed arguments) :=
  ⟨fun _ => parse_eq_ok_iff, fun _ => parse_eq_error_iff, order_counts_iff⟩

theorem second_source_accepted :
    sources ["types", "-"] = ["types", "-"] ∧
      LexOptions.parse ["types", "-"] = .ok ⟨some "-", .core⟩ ∧
      LexOptions.parse ["-", "types"] = .error (.unexpectedArgument "types") :=
  ⟨by decide, rfl, rfl⟩

end ShapeLang.CommandLine
