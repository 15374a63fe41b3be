import FormulaScript.Proofs.Scanner.Calls

/-!
# Words that wrap around

A machine keeps the offsets of tokens, diagnostics and line feeds in words, and the depth of a
substitution as well. After every call it is left with what its words hold. In a text that fits the
words hold everything: no offset lies behind the end of the text, and the depth is no greater than
the offset of the scanner. So the machine gives the answers that are proved of a scanner.
-/

namespace FormulaScript

theorem Token.wrap_eq_self {token : Token} {limit : Nat} (hends : token.span.EndsBy limit)
    (hlimit : limit < wordSize) : token.wrap = token := by
  rw [wrap, hends.wrap_eq_self hlimit]

theorem Diagnostic.EndsBy.wrap_eq_self {diagnostic : Diagnostic} {limit : Nat}
    (hends : diagnostic.EndsBy limit) (hlimit : limit < wordSize) :
    diagnostic.wrap = diagnostic := by
  obtain ⟨span, hspan, hspanEnds⟩ := hends
  rw [wrap, hspan, Option.map_some, hspanEnds.wrap_eq_self hlimit, ← hspan]

theorem Section.wrap_eq_self {part : Section}
    (hdepth : ∀ depth, part = .substitution depth → depth < wordSize) : part.wrap = part := by
  cases part with
  | text => rfl
  | substitution depth => rw [wrap, Nat.mod_eq_of_lt (hdepth depth rfl)]

namespace Scanner

/-! ### The machine -/

/-- What a machine answers, and what it is left with. -/
def performWrapped (scanner : Scanner) (call : Call) : Option Token × Scanner :=
  ((scanner.returned? call).map Token.wrap, (scanner.perform call).wrap)

def performAllWrapped (scanner : Scanner) (calls : List Call) : Scanner :=
  calls.foldl (fun scanner call => (scanner.performWrapped call).2) scanner

/-- Words make no difference: after any calls the machine answers the next one as the scanner does, and
a run up to the end of the text is held in words as it is. -/
structure HeldInWords (scanner : Scanner) : Prop where
  calls : ∀ calls call, (scanner.performAllWrapped calls).performWrapped call =
    ((scanner.performAll calls).returned? call, (scanner.performAll calls).perform call)
  run : (scanner.run.1.map Token.wrap, scanner.run.2.wrap) = scanner.run

/-! ### A text that fits -/

section

variable {text : String} {scanner : Scanner} (hcharts : scanner.Charts text)
  (hfits : Text.Fits text)
include hcharts

theorem Charts.position_le : scanner.position ≤ Text.byteLength text.toList := by
  have htotal := hcharts.cursor.position_add_remaining
  exact Nat.le.intro htotal

include hfits

theorem Charts.position_lt_wordSize : scanner.position < wordSize :=
  Nat.lt_of_le_of_lt hcharts.position_le hfits

theorem Charts.wrap_part : scanner.part.wrap = scanner.part :=
  Section.wrap_eq_self fun depth hdepth =>
    Nat.lt_of_le_of_lt (hcharts.depth_le depth hdepth) (hcharts.position_lt_wordSize hfits)

theorem Charts.wrap_eq_self : scanner.wrap = scanner := by
  have hposition := hcharts.position_lt_wordSize hfits
  have hdiagnostics : scanner.diagnostics.map Diagnostic.wrap = scanner.diagnostics := by
    rw [← Array.toList_inj, Array.toList_map]
    refine (List.map_congr_left fun diagnostic hmem => ?_).trans (List.map_id _)
    exact (hcharts.diagnostics diagnostic hmem).wrap_eq_self hposition
  rw [wrap, hcharts.cursor.wrap_eq_self hfits, hcharts.wrap_part hfits, hdiagnostics]

theorem Charts.wrap_token : scanner.next.1.wrap = scanner.next.1 :=
  Token.wrap_eq_self (endsBy_next scanner) (hcharts.next.position_lt_wordSize hfits)

theorem Charts.map_wrap_returned? (call : Call) :
    (scanner.returned? call).map Token.wrap = scanner.returned? call := by
  cases call with
  | next => exact congrArg some (hcharts.wrap_token hfits)
  | takeLineCrossed | flushDiagnostics => rfl

theorem Charts.performWrapped_eq (call : Call) :
    scanner.performWrapped call = (scanner.returned? call, scanner.perform call) := by
  rw [performWrapped, hcharts.map_wrap_returned? hfits, (hcharts.perform call).wrap_eq_self hfits]

theorem Charts.performAllWrapped_eq (calls : List Call) :
    scanner.performAllWrapped calls = scanner.performAll calls := by
  induction calls generalizing scanner with
  | nil => rfl
  | cons call calls ih =>
      have hrest := ih (hcharts.perform call)
      rwa [performAllWrapped, List.foldl_cons, hcharts.performWrapped_eq hfits]

theorem Charts.wrap_run : (scanner.run.1.map Token.wrap, scanner.run.2.wrap) = scanner.run := by
  induction scanner using run_induction with
  | last scanner hkind =>
      rw [run_of_end hkind, List.map_singleton, hcharts.wrap_token hfits,
        hcharts.next.wrap_eq_self hfits]
  | step scanner hkind ih =>
      have htokens := congrArg Prod.fst (ih hcharts.next)
      have hlast := congrArg Prod.snd (ih hcharts.next)
      dsimp only at htokens hlast
      rw [run_of_token hkind, List.map_cons, hcharts.wrap_token hfits, htokens, hlast]

theorem Charts.wrap_of_mem_tokens {token : Token} (hmem : token ∈ scanner.tokens) :
    token.wrap = token := by
  have htokens : scanner.tokens.map Token.wrap = scanner.tokens :=
    congrArg Prod.fst (hcharts.wrap_run hfits)
  exact List.map_inj_left.mp (htokens.trans (List.map_id _).symm) token hmem

/-- In a text that fits, words make no difference. -/
theorem Charts.heldInWords : scanner.HeldInWords where
  calls calls call := by
    rw [hcharts.performAllWrapped_eq hfits, (hcharts.performAll calls).performWrapped_eq hfits]
  run := hcharts.wrap_run hfits

end

end Scanner

end FormulaScript
