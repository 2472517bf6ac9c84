import ShapeLang.Proofs.Report.Listing
import ShapeLang.Proofs.Token.Joining
import ShapeLang.Proofs.Token.Meaning
import ShapeLang.Token.Lex

/-! The report of an error keeps to its lines, whatever stands in the source. Text of the source
gets into a message between quotes, where no control character is left, or as the mark of a
category; and a lexeme of that category is punctuation, so the mark is no control character. -/

namespace ShapeLang

open Text (ControlFree)

theorem Text.controlFree_toList_append {a b : String} :
    ControlFree (a ++ b).toList ↔ ControlFree a.toList ∧ ControlFree b.toList := by
  rw [String.toList_append, controlFree_append]

theorem Text.controlFree_toString (n : Nat) : ControlFree (toString n).toList := by
  have hdigits : (toString n).toList = Nat.toDigits Radix.decimal.base n := Nat.toList_repr
  rw [hdigits]
  exact (controlFree_toDigits .decimal n).1

theorem Text.controlFree_upperHex (n : Nat) : ControlFree (upperHex n).toList := by
  rw [upperHex, String.toList_ofList]
  exact (controlFree_toDigits .hexadecimal n).2

theorem SpanError.controlFree_message (error : SpanError) : ControlFree error.message.toList := by
  have hexcess : ∀ offset, ControlFree (message.excess offset).toList := by
    intro offset
    simp only [message.excess, Text.controlFree_toList_append]
    exact ⟨⟨⟨Text.controlFree_toString offset, by decide⟩, Text.controlFree_upperHex offset⟩,
      by decide⟩
  cases error with
  | startTooLarge offset => exact Text.controlFree_toList_append.mpr ⟨by decide, hexcess offset⟩
  | stopTooLarge offset => exact Text.controlFree_toList_append.mpr ⟨by decide, hexcess offset⟩

theorem Category.controlFree_describe {category : Category} {text : List Char}
    (h : category.Spells text) : ControlFree category.describe.toList := by
  cases category with
  | punctuation mark =>
    have hmark : Text.Quoted.isControl mark = false := by
      have hrange := isPunctuation_iff.mp h.2
      rw [Text.Quoted.isControl, Bool.or_eq_false_iff, decide_eq_false_iff_not,
        decide_eq_false_iff_not]
      omega
    have haccent : Text.Quoted.isControl '\x60' = false := by decide
    rw [describe, String.toList_ofList]
    simp [hmark, haccent]
  | integer radix =>
    have hword : ControlFree "integer literal".toList := by decide
    exact hword
  | lineComment | blockComment | identifier | float | string | rawString | character => decide

namespace LexError.Cause

theorem controlFree_message {cause : Cause}
    (h : ∀ category text, cause = .unknownToken (some category) text →
      category.Spells text.toList) : ControlFree cause.message.toList := by
  cases cause with
  | unknownToken category text =>
    have hcategory : ControlFree
        (category.elim "" fun category => " (" ++ category.describe ++ ")").toList := by
      cases category with
      | none =>
        rw [Option.elim]
        decide
      | some category =>
        simp only [Option.elim, Text.controlFree_toList_append]
        exact ⟨⟨by decide, Category.controlFree_describe (h category text rfl)⟩, by decide⟩
    unfold message
    simp only [Text.controlFree_toList_append]
    exact ⟨⟨by decide, Text.controlFree_quoted text _⟩, hcategory⟩
  | invalidNumber text =>
    unfold message
    simp only [Text.controlFree_toList_append]
    exact ⟨⟨by decide, Text.controlFree_quoted text _⟩, by decide⟩
  | unterminatedComment => decide
  | invalidArraySize text =>
    exact Text.controlFree_toList_append.mpr ⟨by decide, Text.controlFree_quoted text _⟩
  | sourceTooLarge error =>
    exact Text.controlFree_toList_append.mpr ⟨by decide, error.controlFree_message⟩

def allHints : List String :=
  ["only integer literals are supported", "quoted literals are not part of the DSL", extendedHint,
    "write at least one digit, e.g. \x600x0\x60", "close the comment with \x60*/\x60",
    "array sizes must be between 1 and 18446744073709551615"]

theorem hints_subset (cause : Cause) : cause.hints ⊆ allHints := by
  cases cause with
  | unknownToken category text =>
    cases category with
    | none => simp [hints]
    | some category =>
      cases category with
      | punctuation mark =>
        simp only [hints, Option.elim, categoryHints]
        split <;> simp [allHints]
      | _ => simp [hints, categoryHints, allHints]
  | _ => simp [hints, allHints]

theorem controlFree_of_mem_hints {cause : Cause} {hint : String} (h : hint ∈ cause.hints) :
    ControlFree hint.toList := by
  have hall : ∀ hint ∈ allHints, ControlFree hint.toList := by decide +kernel
  exact hall hint (cause.hints_subset h)

end LexError.Cause

namespace Token

variable {operators : OperatorSet} {source : String} {error : LexError}

theorem exists_invalidArraySize_of_combine_error {tokens : List Token}
    (h : combine operators tokens = .error error) :
    ∃ text, error.cause = .invalidArraySize text := by
  obtain ⟨_, _, a, b, c, _, _, -, -, -, rfl⟩ := exists_cut_of_combine_error h
  exact ⟨_, rfl⟩

theorem spells_of_lex_error (h : lex operators source = .error error) {category : Category}
    {text : String} (hcause : error.cause = .unknownToken (some category) text) :
    category.Spells text.toList := by
  rcases lex_eq_error_iff.mp h with hscan | ⟨scanned, -, hcombine⟩
  · obtain ⟨a, l, b, _, hsplit, -, hl⟩ := exists_of_ofLexemes_error hscan
    have hmem : l ∈ Lexeme.split source.toList := by simp [hsplit]
    obtain ⟨rest, hfits⟩ := (Lexeme.tiling_split source.toList).fits l hmem
    rcases Lexeme.meaning_of_toToken?_error hl with hmeaning | ⟨_, hlarge⟩
    · rw [hcause] at hmeaning
      rcases Lexeme.cause_of_meaning hmeaning with
        ⟨-, hfault⟩ | ⟨other, hother, -, -, hsame⟩ | hnumber
      · rcases l.faultCause_eq with hcomment | ⟨_, hstray⟩
        · cases hfault.trans hcomment
        · cases hfault.trans hstray
      · cases hsame
        rw [hother] at hfits
        rw [String.toList_ofList]
        exact hfits.spells
      · cases hnumber
    · cases hcause.symm.trans hlarge
  · -- Joining fails for sizes of arrays only.
    obtain ⟨_, hsize⟩ := exists_invalidArraySize_of_combine_error hcombine
    cases hcause.symm.trans hsize

end Token

namespace Report

def failureLines (path : String) (error : LexError) : List String :=
  ("error: " ++ path ++ ":" ++ toString error.position.line.toNat ++ ":" ++
      toString error.position.column.toNat ++ ": " ++ error.cause.message) ::
    error.hints.map fun hint => "  help: " ++ hint

theorem failure_eq_join (path : String) (error : LexError) :
    failure path error = String.join ((failureLines path error).map line) := by
  rw [failureLines, List.map_cons, List.map_map, String.join_cons, failure, LexError.message,
    Position.render]
  simp only [String.append_assoc]
  rfl

theorem controlFree_failureLines {path : String} {error : LexError}
    (hpath : ControlFree path.toList) (hmessage : ControlFree error.cause.message.toList) :
    ∀ text ∈ failureLines path error, ControlFree text.toList := by
  refine List.forall_mem_cons.mpr ⟨?_, List.forall_mem_map.mpr fun hint hmem => ?_⟩
  · have hline := Text.controlFree_toString error.position.line.toNat
    have hcolumn := Text.controlFree_toString error.position.column.toNat
    simp only [Text.controlFree_toList_append]
    exact ⟨⟨⟨⟨⟨⟨⟨by decide, hpath⟩, by decide⟩, hline⟩, by decide⟩, hcolumn⟩, by decide⟩, hmessage⟩
  · exact Text.controlFree_toList_append.mpr
      ⟨by decide, LexError.Cause.controlFree_of_mem_hints hmem⟩

theorem filter_isControl_lines {texts : List String}
    (h : ∀ text ∈ texts, ControlFree text.toList) :
    (String.join (texts.map line)).toList.filter Text.Quoted.isControl =
      List.replicate texts.length '\n' := by
  induction texts with
  | nil => rfl
  | cons text texts ih =>
    obtain ⟨htext, htexts⟩ := List.forall_mem_cons.mp h
    have hnone : text.toList.filter Text.Quoted.isControl = [] :=
      List.filter_eq_nil_iff.mpr fun c hc => by simp [htext c hc]
    have hfeed : ['\n'].filter Text.Quoted.isControl = ['\n'] := by decide
    have hend : (line text).toList = text.toList ++ ['\n'] := by simp [line]
    rw [List.map_cons, String.join_cons, String.toList_append, List.filter_append, hend,
      List.filter_append, hnone, hfeed, ih htexts]
    rfl

/-- The report of an error of any source is one line for the error and one for each hint. Ends of
lines apart, it has no control character of ASCII if the path has none. -/
theorem failure_keeps_lines (operators : OperatorSet) (source path : String) (error : LexError)
    (h : Token.lex operators source = .error error) (hpath : ControlFree path.toList) :
    failure path error = String.join ((failureLines path error).map line) ∧
      (failureLines path error).length = 1 + error.hints.length ∧
      (∀ text ∈ failureLines path error, ControlFree text.toList) ∧
      (failure path error).toList.filter Text.Quoted.isControl =
        List.replicate (1 + error.hints.length) '\n' := by
  have hmessage : ControlFree error.cause.message.toList :=
    LexError.Cause.controlFree_message fun _ _ hcause => Token.spells_of_lex_error h hcause
  have hlines := controlFree_failureLines hpath hmessage
  have hlength : (failureLines path error).length = 1 + error.hints.length := by
    simp [failureLines, Nat.add_comm]
  refine ⟨failure_eq_join path error, hlength, hlines, ?_⟩
  rw [failure_eq_join, filter_isControl_lines hlines, hlength]

theorem failure_keeps_lines_raw_string :
    ∃ error, Token.lex .core "x \x60a\n\"b\x07\x60" = .error error ∧ ControlFree "a b".toList ∧
      failure "a b" error =
        "error: a b:1:3: unknown token \"\x60a\\n\\\"b\\u\x7b7\x7d\x60\" (string literal)\n" ++
          "  help: quoted literals are not part of the DSL\n" ∧
      (failure "a b" error).toList.filter Text.Quoted.isControl = ['\n', '\n'] := by
  have hpath : ControlFree "a b".toList := by decide
  obtain ⟨-, -, -, hcontrol⟩ := failure_keeps_lines .core "x \x60a\n\"b\x07\x60" "a b" _ rfl hpath
  exact ⟨_, rfl, hpath, by decide, hcontrol⟩

end Report
end ShapeLang
