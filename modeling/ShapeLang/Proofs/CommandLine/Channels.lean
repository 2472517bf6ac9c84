import ShapeLang.CommandLine.Directory
import ShapeLang.CommandLine.Run

/-! What a run of the command that lists tokens writes, and where. It lists all tokens and tells no
error, or it tells one error and lists nothing, and the code it ends with says which. The arguments
count first, then the source, then its text: each is looked at only where those before are right. -/

namespace ShapeLang.CommandLine

open Report (line)

inductive LexOptions.Names (options : LexOptions) : Input → Prop where
  | standard : options.path = none ∨ options.path = some "-" → Names options .standard
  | file {path : String} : options.path = some path → path ≠ "-" → Names options (.file path)

/-- The input that options name can be read, and its bytes are those of a text. -/
def LexOptions.Reads (options : LexOptions) (read : Input → Except ReadError ByteArray)
    (source : String) : Prop :=
  ∃ input, options.Names input ∧ read input = .ok source.toUTF8

/-- Nothing is shown but an error. -/
structure Outcome.IsFailure (outcome : Outcome) : Prop where
  exit : outcome.exit = 1
  stdout : outcome.stdout = ""
  stderr : ∃ rest, outcome.stderr = "error: " ++ rest

inductive Ends (read : Input → Except ReadError ByteArray) (arguments : List String) :
    Outcome → Prop where
  | usage {error : UsageError} : LexOptions.parse arguments = .error error →
    Ends read arguments (.failure (line ("error: " ++ error.message) ++
      line "Usage: tapper lex [--extended] <file|->"))
  | unread {options : LexOptions} {input : Input} {error : ReadError} :
    LexOptions.parse arguments = .ok options → options.Names input → read input = .error error →
    Ends read arguments (.failure (line ("error: could not read '" ++ options.source ++ "': " ++
      error.message)))
  | notText {options : LexOptions} {input : Input} {bytes : ByteArray} :
    LexOptions.parse arguments = .ok options → options.Names input → read input = .ok bytes →
    (∀ source : String, bytes ≠ source.toUTF8) →
    Ends read arguments (.failure (line ("error: could not read '" ++ options.source ++ "': " ++
      ReadError.notUtf8.message)))
  | rejected {options : LexOptions} {source : String} {error : LexError} :
    LexOptions.parse arguments = .ok options → options.Reads read source →
    Token.lex options.operators source = .error error →
    Ends read arguments (.failure (Report.failure options.source error))
  | listed {options : LexOptions} {source : String} {tokens : List Token} :
    LexOptions.parse arguments = .ok options → options.Reads read source →
    Token.lex options.operators source = .ok tokens →
    Ends read arguments (.success (Report.listing options.source tokens))

variable {read : Input → Except ReadError ByteArray} {arguments : List String}
  {options : LexOptions} {input : Input} {bytes : ByteArray} {source : String} {outcome : Outcome}

theorem LexOptions.names_iff : options.Names input ↔ input = Input.ofPath options.source := by
  constructor
  · intro h
    cases h with
    | standard hpath => rcases hpath with hpath | hpath <;> simp [source, hpath, Input.ofPath]
    | file hpath hne => simp [source, hpath, Input.ofPath, hne]
  · rintro rfl
    cases hpath : options.path with
    | none => simpa [source, hpath, Input.ofPath] using Names.standard (Or.inl hpath)
    | some path =>
      by_cases hdash : path = "-"
      · have hname : options.path = some "-" := hpath.trans (congrArg some hdash)
        simpa [source, hname, Input.ofPath] using Names.standard (Or.inr hname)
      · simpa [source, hpath, Input.ofPath, hdash] using Names.file hpath hdash

theorem decode_toUTF8 (source : String) : decode source.toUTF8 = .ok source := by
  have hvalid : source.toUTF8.IsValidUTF8 := source.isValidUTF8
  simp only [decode, String.fromUTF8?, dif_pos hvalid]
  rfl

theorem decode_of_not_text (h : ∀ source : String, bytes ≠ source.toUTF8) :
    decode bytes = .error .notUtf8 := by
  have hinvalid : ¬ bytes.IsValidUTF8 := fun hvalid => h (String.fromUTF8 bytes hvalid) rfl
  simp only [decode, String.fromUTF8?, dif_neg hinvalid]
  rfl

theorem run_lex_of_parse (h : LexOptions.parse arguments = .ok options)
    (hnames : options.Names input) :
    run (m := Id) read ("lex" :: arguments) =
      showTokens options.operators options.source (read input) := by
  obtain rfl := LexOptions.names_iff.mp hnames
  simp only [run, if_true, lex, h]
  rfl

theorem Ends.run_eq (h : Ends read arguments outcome) :
    run (m := Id) read ("lex" :: arguments) = outcome := by
  cases h with
  | usage hparse =>
    simp only [run, if_true, lex, hparse]
    rfl
  | unread hparse hnames hread =>
    rw [run_lex_of_parse hparse hnames, hread]
    rfl
  | notText hparse hnames hread htext =>
    rw [run_lex_of_parse hparse hnames, hread, showTokens, Except.bind, decode_of_not_text htext]
  | rejected hparse hreads hlex =>
    obtain ⟨input, hnames, hread⟩ := hreads
    rw [run_lex_of_parse hparse hnames, hread, showTokens, Except.bind, decode_toUTF8]
    simp only [hlex]
  | listed hparse hreads hlex =>
    obtain ⟨input, hnames, hread⟩ := hreads
    rw [run_lex_of_parse hparse hnames, hread, showTokens, Except.bind, decode_toUTF8]
    simp only [hlex]

theorem exists_ends (read : Input → Except ReadError ByteArray) (arguments : List String) :
    ∃ outcome, Ends read arguments outcome := by
  cases hparse : LexOptions.parse arguments with
  | error error => exact ⟨_, .usage hparse⟩
  | ok options =>
    have hnames : options.Names _ := LexOptions.names_iff.mpr rfl
    cases hread : read (Input.ofPath options.source) with
    | error error => exact ⟨_, .unread hparse hnames hread⟩
    | ok bytes =>
      by_cases htext : ∃ source : String, bytes = source.toUTF8
      · obtain ⟨source, rfl⟩ := htext
        have hreads : options.Reads read source := ⟨_, hnames, hread⟩
        cases hlex : Token.lex options.operators source with
        | error error => exact ⟨_, .rejected hparse hreads hlex⟩
        | ok tokens => exact ⟨_, .listed hparse hreads hlex⟩
      · exact ⟨_, .notText hparse hnames hread (not_exists.mp htext)⟩

theorem isFailure_line (text rest : String) :
    (Outcome.failure (line ("error: " ++ text) ++ rest)).IsFailure :=
  ⟨rfl, rfl, text ++ "\n" ++ rest, by simp [Outcome.failure, line, String.append_assoc]⟩

theorem isFailure_unread (path reason : String) :
    (Outcome.failure (line ("error: could not read '" ++ path ++ "': " ++ reason))).IsFailure := by
  have hsplit : "error: could not read '" = "error: " ++ "could not read '" := rfl
  have hfailure := isFailure_line ("could not read '" ++ path ++ "': " ++ reason) ""
  rw [hsplit]
  simpa only [String.append_assoc, String.append_empty] using hfailure

theorem isFailure_rejected (path : String) (error : LexError) :
    (Outcome.failure (Report.failure path error)).IsFailure := by
  have hfailure := isFailure_line (path ++ ":" ++ error.message)
    (String.join (error.hints.map fun hint => line ("  help: " ++ hint)))
  simpa only [Report.failure, String.append_assoc] using hfailure

theorem Ends.listed_or_isFailure (h : Ends read arguments outcome) :
    (∃ options source tokens, LexOptions.parse arguments = .ok options ∧
      options.Reads read source ∧ Token.lex options.operators source = .ok tokens) ∨
    outcome.IsFailure := by
  cases h with
  | usage => exact Or.inr (isFailure_line _ _)
  | unread | notText => exact Or.inr (isFailure_unread _ _)
  | rejected => exact Or.inr (isFailure_rejected _ _)
  | listed hparse hreads hlex => exact Or.inl ⟨_, _, _, hparse, hreads, hlex⟩

/-- Whatever can be read where, a run ends with the code 0 exactly if the arguments are right, what
they name holds a text and the text has tokens. It then lists these and shows nothing else. Any
other run ends with the code 1, lists nothing and shows an error, that of the text if there is
one. -/
theorem listing_or_error (read : Input → Except ReadError ByteArray) (arguments : List String) :
    let outcome := run (m := Id) read ("lex" :: arguments)
    (outcome.exit = 0 ↔ ∃ options source tokens, LexOptions.parse arguments = .ok options ∧
      options.Reads read source ∧ Token.lex options.operators source = .ok tokens) ∧
    (outcome.exit ≠ 0 → outcome.IsFailure) ∧
    ∀ options source, LexOptions.parse arguments = .ok options → options.Reads read source →
      (∀ tokens, Token.lex options.operators source = .ok tokens →
        outcome = ⟨0, Report.listing (options.path.getD "-") tokens, ""⟩) ∧
      ∀ error, Token.lex options.operators source = .error error →
        outcome = ⟨1, "", Report.failure (options.path.getD "-") error⟩ := by
  intro outcome
  obtain ⟨ended, hends⟩ := exists_ends read arguments
  have hend : outcome = ended := hends.run_eq
  refine ⟨⟨fun hexit => ?_, ?_⟩, fun hexit => ?_, fun options source hparse hreads => ⟨?_, ?_⟩⟩
  · refine hends.listed_or_isFailure.resolve_right fun hfailure => ?_
    rw [hend, hfailure.exit] at hexit
    cases hexit
  · rintro ⟨options, source, tokens, hparse, hreads, hlex⟩
    exact congrArg Outcome.exit (Ends.listed hparse hreads hlex).run_eq
  · rw [hend]
    refine hends.listed_or_isFailure.resolve_left ?_
    rintro ⟨options, source, tokens, hparse, hreads, hlex⟩
    exact hexit (congrArg Outcome.exit (Ends.listed hparse hreads hlex).run_eq)
  · exact fun tokens hlex => (Ends.listed hparse hreads hlex).run_eq
  · exact fun error hlex => (Ends.rejected hparse hreads hlex).run_eq

theorem listing_or_error_directory :
    let directory : Directory := ⟨[("types", "[7] x".toUTF8)], "[0]".toUTF8⟩
    (∃ tokens, run (m := Id) directory.read ["lex", "types"] =
      ⟨0, Report.listing "types" tokens, ""⟩ ∧ tokens.map Token.text = ["[7]", "x"]) ∧
    (∃ error, run (m := Id) directory.read ["lex", "-e"] = ⟨1, "", Report.failure "-" error⟩ ∧
      error.cause = .invalidArraySize "[0]") ∧
    (run (m := Id) directory.read ["lex", "type"]).IsFailure := by
  intro directory
  refine ⟨⟨_, ((listing_or_error directory.read ["types"]).2.2 _ "[7] x" rfl ?_).1 _ rfl, rfl⟩,
    ⟨_, ((listing_or_error directory.read ["-e"]).2.2 _ "[0]" rfl ?_).2 _ rfl, rfl⟩,
    (listing_or_error directory.read ["type"]).2.1 (by decide)⟩
  · exact ⟨_, .file rfl (by decide), rfl⟩
  · exact ⟨_, .standard (Or.inl rfl), rfl⟩

end ShapeLang.CommandLine
