import FormulaScript.Proofs.Scanner.Calls
import FormulaScript.Proofs.Scanner.Sections

/-!
# The end of a text

A token takes a character or more from the text ahead, so there are no more tokens than characters.
Only the empty text before a substitution takes none. It is paid for with one of the two characters
of the mark that has to follow it. At the end of the text a scanner is at rest.
-/

namespace FormulaScript

/-- An end token with no line break right before it. -/
def Token.endAt (offset : Nat) : Token :=
  { kind := .endOfText, span := .empty offset }

/-- An end token comes after so many other tokens at most, and nothing comes after it. -/
inductive Token.EndsWithin : Nat → List Token → Prop
  | last {limit : Nat} {token : Token} (hkind : token.kind = .endOfText) : EndsWithin limit [token]
  | cons {limit : Nat} {token : Token} {rest : List Token} (hkind : token.kind ≠ .endOfText)
      (hrest : EndsWithin limit rest) : EndsWithin (limit + 1) (token :: rest)

theorem Token.EndsWithin.mono {limit bound : Nat} {tokens : List Token}
    (hends : EndsWithin limit tokens) (hle : limit ≤ bound) : EndsWithin bound tokens := by
  induction hends generalizing bound with
  | last hkind => exact .last hkind
  | cons hkind hrest ih =>
      obtain ⟨before, rfl⟩ : ∃ before, bound = before + 1 := ⟨bound - 1, by omega⟩
      exact .cons hkind (ih (by omega))

theorem Gap.length_le_length_spelling (pieces : List Piece) :
    pieces.length ≤ (spelling pieces).length := by
  induction pieces with
  | nil => exact Nat.zero_le _
  | cons piece pieces ih =>
      have hpiece := List.length_pos_iff.mpr piece.spelling_ne_nil
      rw [spelling_cons, List.length_append, List.length_cons]
      omega

namespace Scanner

variable {scanner : Scanner}

theorem exists_lexeme_of_kind_ne (hkind : scanner.next.1.kind ≠ .endOfText) :
    ∃ lexeme, scanner.lexeme? = some lexeme := by
  rwa [Ne, kind_token_eq_endOfText_iff, ← Ne, Option.ne_none_iff_exists'] at hkind

/-- Every piece that is skipped before a token takes a character as well. -/
theorem length_gap_le [Text.Letters] (scanner : Scanner) : scanner.gap.length ≤ scanner.remaining.length := by
  have hgap := Gap.length_le_length_spelling scanner.gap
  rw [remaining_eq_append scanner, List.length_append]
  omega

/-! ### A bound on the tokens -/

/-- How many tokens the text ahead may still have. -/
def reserve (scanner : Scanner) : Nat :=
  scanner.remaining.length - if scanner.part = .substitution 0 then 1 else 0

theorem reserve_le (scanner : Scanner) : scanner.reserve ≤ scanner.remaining.length :=
  Nat.sub_le _ _

theorem reserve_of_zero (hpart : scanner.part = .substitution 0) :
    scanner.reserve = scanner.remaining.length - 1 := by
  rw [reserve, if_pos hpart]

theorem reserve_of_ne_zero (hpart : scanner.part ≠ .substitution 0) :
    scanner.reserve = scanner.remaining.length := by
  rw [reserve, if_neg hpart, Nat.sub_zero]

theorem length_remaining_eq {lexeme : Lexeme} (hlexeme : scanner.lexeme? = some lexeme) :
    scanner.remaining.length = (Gap.spelling scanner.gap).length +
      (lexeme.spelling.length + scanner.next.2.remaining.length) := by
  rw [← List.length_append, ← front_eq_append scanner hlexeme, ← List.length_append,
    spelling_gap_append_front]

theorem reserve_next_lt_of_text (htext : scanner.inTemplateText = true) {lexeme : Lexeme}
    (hlexeme : scanner.lexeme? = some lexeme) : scanner.next.2.reserve < scanner.reserve := by
  have hnext := reserve_le scanner.next.2
  have hlength := length_remaining_eq hlexeme
  have hsome : scanner.lexeme? ≠ none := by simp [hlexeme]
  obtain ⟨-, hfront, -⟩ := lexeme?_of_text htext hsome
  have hremaining := List.length_pos_iff.mpr (hfront ▸ front_ne_nil hsome)
  have hreserve : scanner.reserve = scanner.remaining.length :=
    reserve_of_ne_zero (by simp [(mode_of_inTemplateText htext).2])
  have hpart := part_next_of_text htext hsome
  by_cases hrest : scanner.next.2.remaining = []
  · rw [hrest, List.length_nil] at hnext
    omega
  · have hpos := List.length_pos_iff.mpr hrest
    rw [if_neg (by simpa using hrest)] at hpart
    rw [reserve_of_zero hpart]
    omega

theorem WellPlaced.reserve_next_lt (hplaced : scanner.WellPlaced) {lexeme : Lexeme}
    (hlexeme : scanner.lexeme? = some lexeme) : scanner.next.2.reserve < scanner.reserve := by
  cases htext : scanner.inTemplateText with
  | true => exact reserve_next_lt_of_text htext hlexeme
  | false =>
      have hnext := reserve_le scanner.next.2
      have hlength := length_remaining_eq hlexeme
      by_cases hpart : scanner.part = .substitution 0
      · obtain rfl := Option.some.inj (hlexeme.symm.trans (hplaced.lexeme?_of_zero hpart).2)
        have hopening : Scanner.opening.spelling.length = 2 := rfl
        rw [reserve_of_zero hpart]
        omega
      · have hfirst := hlexeme
        rw [lexeme?_of_script htext] at hfirst
        have hspelling := List.length_pos_iff.mpr (Lexeme.spelling_ne_nil_of_first? hfirst)
        rw [reserve_of_ne_zero hpart]
        omega

theorem WellPlaced.endsWithin_tokens (hplaced : scanner.WellPlaced) :
    Token.EndsWithin scanner.reserve scanner.tokens := by
  induction scanner using run_induction with
  | last scanner hkind =>
      rw [tokens_of_end hkind]
      exact .last hkind
  | step scanner hkind ih =>
      obtain ⟨lexeme, hlexeme⟩ := exists_lexeme_of_kind_ne hkind
      rw [tokens_of_token hkind]
      exact (Token.EndsWithin.cons hkind (ih hplaced.next)).mono (hplaced.reserve_next_lt hlexeme)

theorem WellPlaced.perform (hplaced : scanner.WellPlaced) (call : Call) :
    (scanner.perform call).WellPlaced := by
  cases call with
  | next => exact hplaced.next
  | takeLineCrossed => exact ⟨hplaced.script, hplaced.opening⟩
  | flushDiagnostics => exact ⟨hplaced.script, hplaced.opening⟩

theorem WellPlaced.performAll (hplaced : scanner.WellPlaced) (calls : List Call) :
    (scanner.performAll calls).WellPlaced := by
  induction calls generalizing scanner with
  | nil => exact hplaced
  | cons call calls ih => exact ih (hplaced.perform call)

theorem length_remaining_perform_le (scanner : Scanner) (call : Call) :
    (scanner.perform call).remaining.length ≤ scanner.remaining.length := by
  cases call with
  | next =>
      rw [Scanner.perform, remaining_eq_append scanner, List.length_append, List.length_append]
      omega
  | takeLineCrossed => exact Nat.le_refl _
  | flushDiagnostics => exact Nat.le_refl _

theorem length_remaining_performAll_le (scanner : Scanner) (calls : List Call) :
    (scanner.performAll calls).remaining.length ≤ scanner.remaining.length := by
  induction calls generalizing scanner with
  | nil => exact Nat.le_refl _
  | cons call calls ih => exact Nat.le_trans (ih _) (scanner.length_remaining_perform_le call)

/-! ### At rest -/

/-- All of the text is behind the scanner, and no substitution is open. -/
structure AtRest (scanner : Scanner) : Prop where
  remaining : scanner.remaining = []
  part : scanner.part = .text

theorem AtRest.next [Text.Letters] (hrest : scanner.AtRest) :
    scanner.next = (.endAt scanner.position, scanner) := by
  have hgap : scanner.gap = [] := by
    have hlength := length_gap_le scanner
    rw [hrest.remaining] at hlength
    exact List.length_eq_zero_iff.mp (Nat.le_zero.mp hlength)
  rw [next_of_end scanner (lexeme?_eq_none_of_remaining_eq_nil hrest.remaining), hgap, skip_nil,
    finish, hrest.part]
  rfl

theorem AtRest.after [Text.Letters] (hrest : scanner.AtRest) (count : Nat) :
    scanner.after count = scanner := by
  induction count with
  | zero => rfl
  | succ count ih => rw [Scanner.after, hrest.next, ih]

theorem AtRest.perform (hrest : scanner.AtRest) (call : Call) :
    (scanner.perform call).AtRest := by
  cases call with
  | next =>
      rw [Scanner.perform, hrest.next]
      exact hrest
  | takeLineCrossed => exact ⟨hrest.remaining, hrest.part⟩
  | flushDiagnostics => exact ⟨hrest.remaining, hrest.part⟩

theorem AtRest.performAll (hrest : scanner.AtRest) (calls : List Call) :
    (scanner.performAll calls).AtRest := by
  induction calls generalizing scanner with
  | nil => exact hrest
  | cons call calls ih => exact ih (hrest.perform call)

/-- A scanner comes to rest when it hands out an end token. -/
theorem atRest_next_of_end [Text.Letters] (hkind : scanner.next.1.kind = .endOfText) :
    scanner.next.2.AtRest := by
  have hlexeme := (kind_token_eq_endOfText_iff scanner).mp hkind
  exact ⟨remaining_next_of_end scanner hlexeme, part_next_of_end scanner hlexeme⟩

theorem atRest_of_returned? {call : Call} {token : Token}
    (htoken : scanner.returned? call = some token) (hkind : token.kind = .endOfText) :
    (scanner.perform call).AtRest := by
  cases call with
  | next =>
      obtain rfl := Option.some.inj htoken
      exact atRest_next_of_end hkind
  | takeLineCrossed => cases htoken
  | flushDiagnostics => cases htoken

theorem AtRest.kind_of_mem_firstTokens (hrest : scanner.AtRest) {count : Nat} {token : Token}
    (hmem : token ∈ scanner.firstTokens count) : token.kind = .endOfText := by
  induction count with
  | zero => cases hmem
  | succ count ih =>
      rw [firstTokens, hrest.next] at hmem
      rcases List.mem_cons.mp hmem with rfl | hlater
      · rfl
      · exact ih hlater

/-- Before a token that is not an end token there is none. -/
theorem kind_ne_endOfText_of_before {count : Nat} {before : List Token} {token earlier : Token}
    (htokens : scanner.firstTokens count = before ++ [token]) (hkind : token.kind ≠ .endOfText)
    (hmem : earlier ∈ before) : earlier.kind ≠ .endOfText := by
  induction before generalizing scanner count with
  | nil => cases hmem
  | cons head before ih =>
      cases count with
      | zero => cases htokens
      | succ count =>
          obtain ⟨hhead, hlater⟩ := List.cons.inj htokens
          rcases List.mem_cons.mp hmem with rfl | hbefore
          · intro hend
            have htoken : token ∈ scanner.next.2.firstTokens count := by simp [hlater]
            rw [← hhead] at hend
            exact hkind ((atRest_next_of_end hend).kind_of_mem_firstTokens htoken)
          · exact ih hlater hbefore

theorem Charts.position_of_atRest {text : String} (hcharts : scanner.Charts text)
    (hrest : scanner.AtRest) : scanner.position = Text.byteLength text.toList := by
  have htotal := hcharts.cursor.position_add_remaining
  rw [show scanner.cursor.remaining = [] from hrest.remaining] at htotal
  exact htotal

end Scanner

end FormulaScript
