import FormulaScript.Proofs.Gap.Boundary
import FormulaScript.Proofs.Scanner.Runs

/-!
# Respelling a script

What a token of a script is read from is its own spelling: neither the gaps nor the other tokens
matter to it. So a script may be spelled anew, with one line feed for a gap with line breaks and one
space for any other, and the same tokens are read.
-/

namespace FormulaScript

/-- A token on a line of its own if it followed a line break, and behind a space if it did not. -/
def Token.respelling (source : List Char) (token : Token) : List Char :=
  (if token.followsLineBreak then '\n' else ' ') ::
    Text.slice source token.span.start token.span.stop

/-- What is left of a token when its place is forgotten. -/
def Token.reading (token : Token) : Token.Kind × Token.Content × Token.Flags :=
  (token.kind, token.content, token.flags)

theorem separated_flatMap_respelling (source : List Char) (tokens : List Token) :
    Separated (tokens.flatMap (Token.respelling source)) := by
  cases tokens with
  | nil => exact fun c hc => by cases hc
  | cons token rest =>
      refine separated_cons ?_ _
      split_ifs <;> decide

theorem Gap.read_separator {options : Options} {rest : List Char}
    (hfirst : first? options rest = none) (line : Bool) :
    read options ((if line then '\n' else ' ') :: rest) =
      [if line then .lineBreak '\n' else .blank ' '] := by
  have hpiece : first? options ((if line then '\n' else ' ') :: rest) =
      some (if line then .lineBreak '\n' else .blank ' ') := by
    cases line <;> rfl
  rw [read_of_first?_eq_some hpiece]
  cases line <;> exact congrArg _ (read_of_first?_eq_none hfirst)

namespace Scanner

/-- A second scanner has the rest of a script ahead in the new spelling. -/
structure Respelled (source passed : List Char) (left right : Scanner) : Prop where
  script : left.options.mode = .script
  options : right.options = left.options
  split : source = passed ++ left.remaining
  position : left.position = Text.byteLength passed
  remaining : right.remaining = left.body.flatMap (Token.respelling source)

section

variable {source passed : List Char} {left right : Scanner} {lexeme : Lexeme}

/-- The place of a token is where its spelling stands. -/
theorem Respelled.slice (hrespelled : Respelled source passed left right)
    (hlexeme : left.lexeme? = some lexeme) :
    Text.slice source left.next.1.span.start left.next.1.span.stop = lexeme.spelling := by
  have hsource : source = (passed ++ Gap.spelling left.gap) ++
      (lexeme.spelling ++ left.next.2.remaining) := by
    rw [← front_eq_append left hlexeme, List.append_assoc, spelling_gap_append_front,
      hrespelled.split]
  have hstart : left.start = Text.byteLength (passed ++ Gap.spelling left.gap) := by
    rw [start, hrespelled.position, Text.byteLength_append]
  rw [token_eq_tokenOf left hlexeme, hsource, tokenOf, hstart]
  exact Text.slice_append _ _ _

/-- The spelling of the next token is read as before, with the new spelling of the others behind. -/
theorem Respelled.first? (hrespelled : Respelled source passed left right)
    (hlexeme : left.lexeme? = some lexeme) :
    let back := left.next.2.body.flatMap (Token.respelling source)
    Lexeme.first? left.options (lexeme.spelling ++ back) = some lexeme ∧
      Gap.first? left.options (lexeme.spelling ++ back) = none := by
  intro back
  have hscript := inTemplateText_of_script hrespelled.script
  have hback : Separated back := separated_flatMap_respelling _ _
  -- Quoted text that is never closed has nothing behind it, before and after.
  have hempty : left.next.2.remaining = [] → back = [] := by
    intro hnil
    exact List.flatMap_eq_nil_iff.mpr (by simp [body_of_remaining_eq_nil hnil])
  have hfront := first?_front_of_script hscript
  have hfirst := lexeme?_of_script hscript
  rw [front_eq_append left hlexeme] at hfront hfirst
  have hfirst' : Lexeme.first? left.options (lexeme.spelling ++ back) = some lexeme :=
    Lexeme.first?_separated (hfirst.symm.trans hlexeme) hback hempty
  have hne := Lexeme.spelling_ne_nil_of_first? hfirst'
  have hnone : Gap.first? left.options (lexeme.spelling ++ back) = none :=
    Gap.first?_stable_none hne (.inr hback) hfront (by simp [hfirst'])
  exact ⟨hfirst', hnone⟩

theorem Respelled.lexeme? (hrespelled : Respelled source passed left right)
    (hlexeme : left.lexeme? = some lexeme) :
    right.gap = [if left.next.1.followsLineBreak then .lineBreak '\n' else .blank ' '] ∧
      right.front = lexeme.spelling ++ left.next.2.body.flatMap (Token.respelling source) ∧
      right.lexeme? = some lexeme := by
  obtain ⟨hfirst, hnone⟩ := hrespelled.first? hlexeme
  have hkind : left.next.1.kind ≠ .endOfText := by simp [kind_token_eq_endOfText_iff, hlexeme]
  have hscript : right.inTemplateText = false :=
    inTemplateText_of_script (hrespelled.options ▸ hrespelled.script)
  have hremaining := hrespelled.remaining
  rw [body_of_token hkind, List.flatMap_cons, Token.respelling, hrespelled.slice hlexeme,
    List.cons_append] at hremaining
  have hgap : right.gap =
      [if left.next.1.followsLineBreak then .lineBreak '\n' else .blank ' '] := by
    rw [gap_of_script hscript, hrespelled.options, hremaining]
    exact Gap.read_separator hnone _
  have hfront : right.front =
      lexeme.spelling ++ left.next.2.body.flatMap (Token.respelling source) := by
    rw [front, hgap, hremaining]
    cases left.next.1.followsLineBreak <;> rfl
  refine ⟨hgap, hfront, ?_⟩
  rw [lexeme?_of_script hscript, hrespelled.options, hfront, hfirst]

theorem Respelled.next (hrespelled : Respelled source passed left right)
    (hlexeme : left.lexeme? = some lexeme) :
    right.next.1.reading = left.next.1.reading ∧
      Respelled source (passed ++ (Gap.spelling left.gap ++ lexeme.spelling)) left.next.2
        right.next.2 := by
  obtain ⟨hgap, hfront, hlexeme'⟩ := hrespelled.lexeme? hlexeme
  constructor
  · have hline : Gap.crossesLine right.gap = Gap.crossesLine left.gap := by
      rw [← afterLineBreak_token left, hgap, Token.followsLineBreak]
      cases left.next.1.flags.afterLineBreak <;> rfl
    rw [token_eq_tokenOf right hlexeme', token_eq_tokenOf left hlexeme, tokenOf, tokenOf, hline]
    rfl
  · constructor
    · rw [options_next, hrespelled.script]
    · rw [options_next, options_next, hrespelled.options]
    · rw [hrespelled.split, ← left.spelling_gap_append_front, front_eq_append left hlexeme]
      simp
    · rw [position_next_eq, start, hrespelled.position, lexemeSpelling, hlexeme]
      simp [Nat.add_assoc]
    · rw [remaining_next_of_lexeme right hlexeme', hfront, List.drop_left]

theorem Respelled.map_reading_body (hrespelled : Respelled source passed left right) :
    right.body.map Token.reading = left.body.map Token.reading := by
  induction left using run_induction generalizing passed right with
  | last left hkind =>
      have hremaining := hrespelled.remaining
      rw [body_of_end hkind, List.flatMap_nil] at hremaining
      rw [body_of_end hkind, body_of_remaining_eq_nil hremaining]
  | step left hkind ih =>
      obtain ⟨lexeme, hlexeme⟩ : ∃ lexeme, left.lexeme? = some lexeme := by
        rwa [← Option.ne_none_iff_exists', Ne, ← kind_token_eq_endOfText_iff]
      obtain ⟨htoken, hnext⟩ := hrespelled.next hlexeme
      have hkind' : right.next.1.kind ≠ .endOfText := by
        rwa [show right.next.1.kind = left.next.1.kind from congrArg Prod.fst htoken]
      rw [body_of_token hkind, body_of_token hkind', List.map_cons, List.map_cons, htoken, ih hnext]

end

/-- The text of the tokens in the new spelling. -/
def respell (text : String) (options : Options) : String :=
  .ofList ((ofText text options).body.flatMap (Token.respelling text.toList))

theorem respelled_ofText (text : String) {options : Options} (hscript : options.mode = .script) :
    Respelled text.toList [] (ofText text options) (ofText (respell text options) options) where
  script := hscript
  options := rfl
  split := by rw [remaining_ofText, List.nil_append]
  position := position_ofText _ _
  remaining := by rw [remaining_ofText, respell, String.toList_ofList]

end Scanner

end FormulaScript
