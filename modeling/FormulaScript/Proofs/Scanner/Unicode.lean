import FormulaScript.Proofs.Gap.Unicode
import FormulaScript.Proofs.Scanner.Case
import FormulaScript.Proofs.Scanner.Ends

/-!
# Scanning with letters beyond ASCII

Of two scanners at the same place of a text only one takes letters beyond ASCII for identifiers. As
long as the other one reports no invalid character they take the same steps. A word that goes on with
such a letter in the one scanner ends in front of it in the other, which reports the letter in its
next step. So what a step reports and what the next one does settle that the step is the same. This
goes for any letters, as long as no blank is one of them.
-/

namespace FormulaScript

/-- None of the diagnostics is about an invalid character. -/
def Diagnostic.AllValid (diagnostics : List Diagnostic) : Prop :=
  ∀ diagnostic ∈ diagnostics, diagnostic.message ≠ .invalidCharacter

theorem Diagnostic.AllValid.of_append {diagnostics later : List Diagnostic}
    (hvalid : AllValid (diagnostics ++ later)) : AllValid diagnostics ∧ AllValid later :=
  List.forall_mem_append.mp hvalid

namespace Scanner

/-- A word leaves the section as it is. -/
theorem after_word (part : Section) (word? : Option Keyword) :
    part.after ((word?.map Token.Kind.keyword).getD .identifier) = part := by
  cases part <;> cases word? <;> rfl

/-- All that the two go by is the same, but for the letters that an identifier may have. -/
structure Widens (mode : Mode) (left right : Scanner) : Prop where
  plain : left.options = ⟨mode, false⟩
  unicode : right.options = ⟨mode, true⟩
  part : right.part = left.part
  position : right.position = left.position
  remaining : right.remaining = left.remaining
  diagnostics : right.diagnostics.toList = left.diagnostics.toList

theorem widens_ofText (text : String) (mode : Mode) :
    Widens mode (ofText text ⟨mode, false⟩) (ofText text ⟨mode, true⟩) :=
  ⟨rfl, rfl, rfl, rfl, rfl, rfl⟩

variable {mode : Mode} {left right : Scanner}

theorem Widens.inTemplateText (hwidens : Widens mode left right) :
    right.inTemplateText = left.inTemplateText := by
  rw [Scanner.inTemplateText, Scanner.inTemplateText, hwidens.plain, hwidens.unicode, hwidens.part]

/-! ### One step -/

section

variable [Text.Letters]

theorem invalid_notMem_gap {scanner : Scanner} (hvalid : Diagnostic.AllValid scanner.reports)
    (c : Char) : .invalid c ∉ scanner.gap := by
  intro hmem
  obtain ⟨diagnostic, hdiagnostic, hmessage⟩ :=
    Gap.exists_report_of_invalid hmem scanner.position
  exact hvalid.of_append.1 diagnostic hdiagnostic hmessage

theorem Widens.gap (hwidens : Widens mode left right)
    (hvalid : Diagnostic.AllValid left.reports) : right.gap = left.gap := by
  cases htext : left.inTemplateText with
  | true => rw [Scanner.gap, Scanner.gap, hwidens.inTemplateText, htext, if_pos rfl, if_pos rfl]
  | false =>
      have hgap := gap_of_script htext
      rw [hwidens.plain] at hgap
      rw [gap_of_script (hwidens.inTemplateText.trans htext), hwidens.unicode, hwidens.remaining,
        hgap]
      refine Gap.read_unicode fun c => ?_
      rw [← hgap]
      exact invalid_notMem_gap hvalid c

/-- The word in front of a stray character is followed by the report of it. -/
theorem not_isStray_of_allValid
    (hblanks : ∀ c, Text.isBlank c → Text.Letters.continues c = false)
    (hplain : left.options = ⟨mode, false⟩) (htext : left.inTemplateText = false)
    {run back : List Char} {c : Char}
    (hlexeme : left.lexeme? = some (Word.classify run (c :: back)))
    (hfront : left.front = run ++ c :: back)
    (hnext : Diagnostic.AllValid left.next.2.reports) : ¬Text.IsStray c := by
  intro hstray
  rw [Word.classify_of_isStray hstray] at hlexeme
  have hremaining : left.next.2.remaining = c :: back := by
    have happend := front_eq_append left hlexeme
    rw [hfront] at happend
    exact (List.append_cancel_left happend).symm
  have hpart : left.next.2.part = left.part := by
    rw [part_next_of_script htext hlexeme]
    exact after_word _ _
  have htext' : left.next.2.inTemplateText = false := by
    rw [Scanner.inTemplateText, options_next, hpart]
    exact htext
  apply invalid_notMem_gap hnext c
  rw [gap_of_script htext', options_next, hplain, hremaining,
    Gap.read_of_first?_eq_some (Gap.first?_of_isStray hblanks hstray mode back)]
  exact List.mem_cons_self

section

variable (hwidens : Widens mode left right) (hvalid : Diagnostic.AllValid left.reports)
include hwidens hvalid

theorem Widens.start : right.start = left.start := by
  rw [Scanner.start, Scanner.start, hwidens.position, hwidens.gap hvalid]

theorem Widens.front : right.front = left.front := by
  rw [Scanner.front, Scanner.front, hwidens.remaining, hwidens.gap hvalid]

variable (hblanks : ∀ c, Text.isBlank c → Text.Letters.continues c = false)
  (hnext : Diagnostic.AllValid left.next.2.reports)
include hblanks hnext

theorem Widens.lexeme? : right.lexeme? = left.lexeme? := by
  have hfront := hwidens.front hvalid
  cases htext : left.inTemplateText with
  | true =>
      rw [Scanner.lexeme?, Scanner.lexeme?, hwidens.inTemplateText, htext, if_pos rfl, if_pos rfl,
        hfront]
  | false =>
      have hleft := lexeme?_of_script htext
      rw [lexeme?_of_script (hwidens.inTemplateText.trans htext), hwidens.unicode, hfront]
      rw [hwidens.plain] at hleft
      cases hlexeme : left.lexeme? with
      | none => rw [front_eq_nil_of_lexeme?_eq_none hlexeme, Lexeme.first?_nil]
      | some lexeme =>
          rcases Lexeme.first?_unicode (hleft.symm.trans hlexeme) with
            hright | ⟨run, c, back, hsplit, rfl, hstray⟩
          · exact hright
          · exact absurd hstray
              (not_isStray_of_allValid hblanks hwidens.plain htext hlexeme hsplit hnext)

theorem Widens.token : right.next.1 = left.next.1 := by
  have hlexeme := hwidens.lexeme? hvalid hblanks hnext
  cases hleft : left.lexeme? with
  | none =>
      rw [token_eq_endToken left hleft, token_eq_endToken right (hlexeme.trans hleft), endToken,
        endToken, hwidens.start hvalid, hwidens.gap hvalid]
  | some lexeme =>
      exact token_eq_of_lexeme? hwidens.position (hwidens.gap hvalid) hleft (hlexeme.trans hleft)

theorem Widens.reports : right.reports = left.reports := by
  rw [Scanner.reports, Scanner.reports, hwidens.position, hwidens.gap hvalid, tokenReport?,
    tokenReport?, hwidens.lexeme? hvalid hblanks hnext, endReport?, endReport?, hwidens.part,
    hwidens.start hvalid]

theorem Widens.next : Widens mode left.next.2 right.next.2 := by
  have hlexeme := hwidens.lexeme? hvalid hblanks hnext
  have hremaining : right.next.2.remaining = left.next.2.remaining := by
    rw [remaining_next_eq_drop, remaining_next_eq_drop, hwidens.front hvalid, lexemeSpelling,
      lexemeSpelling, hlexeme]
  constructor
  · rw [options_next, hwidens.plain]
  · rw [options_next, hwidens.unicode]
  · cases hleft : left.lexeme? with
    | none => rw [part_next_of_end left hleft, part_next_of_end right (hlexeme.trans hleft)]
    | some lexeme =>
        rw [part_next_of_lexeme left hleft, part_next_of_lexeme right (hlexeme.trans hleft),
          hremaining, partAfter, partAfter, hwidens.inTemplateText, hwidens.part]
  · rw [position_next, position_next, hwidens.token hvalid hblanks hnext]
  · exact hremaining
  · rw [diagnostics_next, diagnostics_next, hwidens.diagnostics, hwidens.reports hvalid hblanks hnext]

end

/-! ### Runs -/

/-- No step reports an invalid character, however many are taken. -/
def StaysValid (scanner : Scanner) : Prop :=
  ∀ count, Diagnostic.AllValid (scanner.firstReports count)

section

variable {scanner : Scanner}

theorem StaysValid.next (hvalid : scanner.StaysValid) : scanner.next.2.StaysValid :=
  fun count => (hvalid (count + 1)).of_append.2

theorem StaysValid.reports (hvalid : scanner.StaysValid) :
    Diagnostic.AllValid scanner.reports :=
  (hvalid 1).of_append.1

theorem StaysValid.after (hvalid : scanner.StaysValid) (count : Nat) :
    (scanner.after count).StaysValid := by
  induction count generalizing scanner with
  | zero => exact hvalid
  | succ count ih => exact ih hvalid.next

theorem AtRest.firstReports_eq_nil (hrest : scanner.AtRest) (count : Nat) :
    scanner.firstReports count = [] := by
  have hdiagnostics := diagnostics_after scanner count
  rw [hrest.after] at hdiagnostics
  exact List.self_eq_append_right.mp hdiagnostics

/-- Nothing is reported behind the end token. -/
theorem staysValid_of_body
    (hvalid : Diagnostic.AllValid (scanner.firstReports (scanner.body.length + 1))) :
    scanner.StaysValid := by
  induction scanner using run_induction with
  | last scanner hkind =>
      rw [body_of_end hkind] at hvalid
      intro count
      cases count with
      | zero => exact List.forall_mem_nil _
      | succ count =>
          rw [firstReports, (atRest_next_of_end hkind).firstReports_eq_nil]
          exact hvalid
  | step scanner hkind ih =>
      rw [body_of_token hkind, List.length_cons, firstReports] at hvalid
      intro count
      cases count with
      | zero => exact List.forall_mem_nil _
      | succ count =>
          rw [firstReports]
          exact List.forall_mem_append.mpr
            ⟨hvalid.of_append.1, ih hvalid.of_append.2 count⟩

theorem staysValid_of_run (hvalid : Diagnostic.AllValid scanner.run.2.diagnostics.toList) :
    scanner.StaysValid := by
  rw [run_eq, diagnostics_after] at hvalid
  exact staysValid_of_body hvalid.of_append.2

end

section

variable (hblanks : ∀ c, Text.isBlank c → Text.Letters.continues c = false)
include hblanks

theorem Widens.after (hwidens : Widens mode left right) (hvalid : left.StaysValid) (count : Nat) :
    Widens mode (left.after count) (right.after count) := by
  induction count generalizing left right with
  | zero => exact hwidens
  | succ count ih => exact ih (hwidens.next hvalid.reports hblanks hvalid.next.reports) hvalid.next

theorem Widens.firstTokens (hwidens : Widens mode left right) (hvalid : left.StaysValid)
    (count : Nat) : right.firstTokens count = left.firstTokens count := by
  induction count generalizing left right with
  | zero => rfl
  | succ count ih =>
      rw [Scanner.firstTokens, Scanner.firstTokens,
        hwidens.token hvalid.reports hblanks hvalid.next.reports,
        ih (hwidens.next hvalid.reports hblanks hvalid.next.reports) hvalid.next]

theorem Widens.length_body (hwidens : Widens mode left right) (hvalid : left.StaysValid) :
    right.body.length = left.body.length := by
  apply length_body_eq_of_kinds
  intro count
  have hvalid' := hvalid.after count
  exact congrArg (·.kind)
    ((hwidens.after hblanks hvalid count).token hvalid'.reports hblanks hvalid'.next.reports)

end

end

/-- **Letters beyond ASCII.** Where a scan without them reports no invalid character, a scan with
them has the same tokens, the same diagnostics and the same lines, however far it goes and up to the
end of the text. They may be any letters of which no blank is one. -/
theorem scan_unicode [Text.Letters]
    (hblanks : ∀ c, Text.isBlank c → Text.Letters.continues c = false) (text : String) (mode : Mode)
    (hvalid : ∀ diagnostic ∈ (ofText text ⟨mode, false⟩).run.2.diagnostics.toList,
      diagnostic.message ≠ .invalidCharacter) :
    let plain := ofText text ⟨mode, false⟩
    let unicode := ofText text ⟨mode, true⟩
    (unicode.tokens = plain.tokens ∧ unicode.run.2.diagnostics = plain.run.2.diagnostics ∧
        unicode.run.2.lines = plain.run.2.lines) ∧
      ∀ count, unicode.firstTokens count = plain.firstTokens count ∧
        (unicode.after count).diagnostics = (plain.after count).diagnostics ∧
        (unicode.after count).lines = (plain.after count).lines := by
  intro plain unicode
  have hwidens : Widens mode plain unicode := widens_ofText text mode
  have hstays : plain.StaysValid := staysValid_of_run hvalid
  have hcounts (count : Nat) : unicode.firstTokens count = plain.firstTokens count ∧
      (unicode.after count).diagnostics = (plain.after count).diagnostics ∧
      (unicode.after count).lines = (plain.after count).lines := by
    have hafter := hwidens.after hblanks hstays count
    refine ⟨hwidens.firstTokens hblanks hstays count, Array.toList_inj.mp hafter.diagnostics, ?_⟩
    exact Cursor.Tracks.lines_eq ((charts_ofText text _).after count).cursor
      ((charts_ofText text _).after count).cursor rfl
      (congrArg Text.lower hafter.remaining)
  refine ⟨?_, hcounts⟩
  rw [tokens, tokens, run_eq, run_eq, hwidens.length_body hblanks hstays]
  exact hcounts _

/-- Letters of the Unicode tables in the text of a template, a string and a comment, behind a name and
a blank that is not ASCII. -/
theorem scan_unicode_quoted :
    let text := "\u00e9$\x7ba\u00a0'\u00e9'//\u00e9\n\x7d\u00e9"
    (∀ c, Text.isBlank c → Text.unicodeLetters.continues c = false) ∧
      (∀ diagnostic ∈ (ofText text ⟨.template, false⟩).run.2.diagnostics.toList,
        diagnostic.message ≠ .invalidCharacter) ∧
      (ofText text ⟨.template, false⟩).tokens.length = 7 ∧
      (ofText text ⟨.template, true⟩).tokens = (ofText text ⟨.template, false⟩).tokens := by
  intro text
  have hblanks : ∀ c, Text.isBlank c → Text.unicodeLetters.continues c = false :=
    fun _ => Text.continues_unicodeLetters_of_isBlank
  have hvalid : ∀ diagnostic ∈ (ofText text ⟨.template, false⟩).run.2.diagnostics.toList,
      diagnostic.message ≠ .invalidCharacter := by
    decide +kernel
  exact ⟨hblanks, hvalid, by decide +kernel, (scan_unicode hblanks text .template hvalid).1.1⟩

end Scanner

end FormulaScript
