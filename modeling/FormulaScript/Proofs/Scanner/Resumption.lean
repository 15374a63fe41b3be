import FormulaScript.Proofs.Scanner.Substitution

/-!
# Reading on behind a token

Between two tokens of a script a scanner keeps nothing of the text behind it but the position. So the
text behind a token, taken by itself, has the tokens and diagnostics that were still to come, and all
of them stand so many bytes earlier.
-/

namespace FormulaScript.Scanner

section Agree

variable {offset : Nat} {left right : Scanner}

theorem Agree.reports (h : Agree offset left right) :
    right.reports = left.reports.map (·.shift offset) := by
  apply reports_shift h.position h.gap
  rw [tokenReport?, tokenReport?, h.lexeme?, h.start]
  cases left.lexeme? with
  | some lexeme => exact problemReport?_shift lexeme left.start offset
  | none =>
      dsimp only
      rw [endReport?, endReport?, h.part, h.start]
      cases left.part <;> rfl

theorem Agree.firstTokens (h : Agree offset left right) (count : Nat) :
    right.firstTokens count = (left.firstTokens count).map (·.shift offset) := by
  induction count generalizing left right with
  | zero => rfl
  | succ count ih =>
      rw [Scanner.firstTokens, h.token, ih h.next]
      rfl

theorem Agree.firstReports (h : Agree offset left right) (count : Nat) :
    right.firstReports count = (left.firstReports count).map (·.shift offset) := by
  induction count generalizing left right with
  | zero => rfl
  | succ count ih =>
      rw [Scanner.firstReports, h.reports, ih h.next, ← List.map_append]
      rfl

theorem Agree.length_body (h : Agree offset left right) :
    right.body.length = left.body.length := by
  have hbody : right.body = left.body.map (·.shift offset) := by
    rw [body, h.tokens, List.filter_map]
    rfl
  rw [hbody, List.length_map]

theorem Agree.diagnostics_run (h : Agree offset left right) :
    right.run.2.diagnostics.toList =
      right.diagnostics.toList ++
        (left.firstReports (left.body.length + 1)).map (·.shift offset) := by
  rw [run_eq, diagnostics_after, h.length_body, h.firstReports]

end Agree

/-- The text from a byte offset on. -/
def textFrom (text : String) (offset : Nat) : String :=
  .ofList (Text.dropBytes offset text.toList)

theorem fits_textFrom {text : String} (hfits : Text.Fits text) (offset : Nat) :
    Text.Fits (textFrom text offset) := by
  rw [Text.Fits, textFrom, String.toList_ofList]
  exact Nat.lt_of_le_of_lt (Text.byteLength_dropBytes_le _ _) hfits

/-- A scanner that has come some way in a script stands where one of the remaining text begins. -/
theorem agree_textFrom (text : String) (unicode : Bool) (count : Nat) :
    let scanner := (ofText text ⟨.script, unicode⟩).after count
    Agree scanner.position (ofText (textFrom text scanner.position) ⟨.script, unicode⟩) scanner := by
  intro scanner
  have htracks : scanner.cursor.Tracks text.toList := ((charts_ofText text _).after count).cursor
  obtain ⟨hplaced, hoptions⟩ := (wellPlaced_ofText text ⟨.script, unicode⟩).after count
  obtain ⟨passed, hsource, hposition, -⟩ := htracks
  have hbehind : Text.dropBytes scanner.position text.toList = scanner.remaining := by
    calc Text.dropBytes scanner.position text.toList
        = Text.dropBytes (Text.byteLength passed) (passed ++ scanner.remaining) :=
          congrArg₂ Text.dropBytes hposition hsource
      _ = scanner.remaining := Text.dropBytes_byteLength_append _ _
  constructor
  · exact hoptions
  · exact hplaced.script (congrArg Options.mode hoptions)
  · rw [remaining_ofText, textFrom, String.toList_ofList, hbehind]
  · rw [position_ofText, Nat.zero_add]

/-- **Resumption.** Behind any token of a script, the tokens and diagnostics still to come are those of
the text behind the token, so many bytes later as that text begins, however far they are asked for
and up to the end of the text. The text fits, so that words hold the places in both texts as they
are. -/
theorem tokens_resumed {text : String} (hfits : Text.Fits text) (unicode : Bool)
    (count more : Nat) :
    let options : Options := ⟨.script, unicode⟩
    let scanner := ofText text options
    let behind := scanner.after (count + 1)
    let stop := (scanner.after count).next.1.span.stop
    let resumed := ofText (textFrom text stop) options
    scanner.firstTokens (count + 1 + more) =
        scanner.firstTokens (count + 1) ++ (resumed.firstTokens more).map (·.shift stop) ∧
      (scanner.after (count + 1 + more)).diagnostics.toList =
        behind.diagnostics.toList ++ (resumed.after more).diagnostics.toList.map (·.shift stop) ∧
      behind.tokens = resumed.tokens.map (·.shift stop) ∧
      behind.run.2.diagnostics.toList =
        behind.diagnostics.toList ++ resumed.run.2.diagnostics.toList.map (·.shift stop) ∧
      scanner.HeldInWords ∧ resumed.HeldInWords := by
  intro options scanner behind stop resumed
  have hstop : behind.position = stop := by
    change (scanner.after (count + 1)).position = _
    rw [after_succ, position_next]
  have hagree : Agree behind.position (ofText (textFrom text behind.position) options) behind :=
    agree_textFrom text unicode (count + 1)
  rw [hstop] at hagree
  have hfresh : resumed.diagnostics.toList = [] := rfl
  refine ⟨?_, ?_, hagree.tokens, ?_, (charts_ofText text options).heldInWords hfits,
    (charts_ofText _ options).heldInWords (fits_textFrom hfits stop)⟩
  · rw [firstTokens_add, hagree.firstTokens]
  · rw [after_add, diagnostics_after, hagree.firstReports, diagnostics_after resumed, hfresh,
      List.nil_append]
  · rw [hagree.diagnostics_run, run_eq resumed, diagnostics_after resumed, hfresh, List.nil_append]

/-- Behind a name, with a character to come that begins nothing. -/
theorem tokens_resumed_name :
    let text := "\u00a0x \\ 1"
    let scanner := ofText text {}
    let resumed := ofText (textFrom text 3) {}
    Text.Fits text ∧ (scanner.after 0).next.1.span = ⟨2, 3⟩ ∧
      (scanner.after 1).tokens.length = 2 ∧
      (scanner.after 1).tokens = resumed.tokens.map (·.shift 3) ∧
      (scanner.after 1).run.2.diagnostics.toList =
        (scanner.after 1).diagnostics.toList ++
          resumed.run.2.diagnostics.toList.map (·.shift 3) := by
  intro text scanner resumed
  have hfits : Text.Fits text := by decide +kernel
  have hspan : (scanner.after 0).next.1.span = ⟨2, 3⟩ := by decide +kernel
  obtain ⟨-, -, htokens, hdiagnostics, -⟩ := tokens_resumed hfits false 0 0
  have hstop : (scanner.after 0).next.1.span.stop = 3 := congrArg Span.stop hspan
  rw [hstop] at htokens hdiagnostics
  exact ⟨hfits, hspan, by decide +kernel, htokens, hdiagnostics⟩

end FormulaScript.Scanner
