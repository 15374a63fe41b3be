import FormulaScript.Proofs.Gap.Boundary
import FormulaScript.Proofs.Scanner.Runs

/-!
# The sections of a template

Literal text goes on to the next substitution or to the end of the text, and a substitution begins
with the mark that opens it. So a scanner stands in a substitution without an open brace only where
that mark is the next token.
-/

namespace FormulaScript

@[simp]
theorem Section.after_text (kind : Token.Kind) : Section.text.after kind = .text := rfl

/-- No token leads into a substitution without an open brace. -/
theorem Section.after_ne_zero {part : Section} (hpart : part ≠ .substitution 0) (kind : Token.Kind) :
    part.after kind ≠ .substitution 0 := by
  unfold after
  split
  · simp
  · simp
  · split_ifs with hdepth
    · simp
    · simp only [ne_eq, Section.substitution.injEq]
      omega
  · exact hpart

/-- A brace opens one level more at most. -/
theorem Section.depth_after_le {part : Section} {limit : Nat}
    (hdepth : ∀ depth, part = .substitution depth → depth ≤ limit) (kind : Token.Kind) :
    ∀ depth, part.after kind = .substitution depth → depth ≤ limit + 1 := by
  intro depth
  fun_cases after part kind with
  | case1 inner =>
      rintro ⟨⟩
      exact Nat.add_le_add_right (hdepth inner rfl) 1
  | case2 inner =>
      rintro ⟨⟩
      exact Nat.add_le_add_right (hdepth inner rfl) 1
  | case3 => exact fun hafter => by cases hafter
  | case4 inner =>
      rintro ⟨⟩
      have hle := hdepth inner rfl
      omega
  | case5 => exact fun hafter => Nat.le_succ_of_le (hdepth depth hafter)

namespace Scanner

section

variable {scanner : Scanner}

/-- Without a gap the lexeme at the front of the remaining text is the next one. -/
theorem front_of_first?_eq_none (htext : scanner.inTemplateText = false)
    (hfirst : Gap.first? scanner.options scanner.remaining = none) :
    scanner.gap = [] ∧ scanner.front = scanner.remaining := by
  have hgap : scanner.gap = [] := by rw [gap_of_script htext, Gap.read_of_first?_eq_none hfirst]
  exact ⟨hgap, by simp [front, hgap]⟩

theorem front_ne_nil (hlexeme : scanner.lexeme? ≠ none) : scanner.front ≠ [] := by
  intro hfront
  apply hlexeme
  unfold lexeme?
  split_ifs with htext hempty
  · rfl
  · simp [hfront] at hempty
  · rw [hfront, Lexeme.first?_nil]

/-! ### In front of other text -/

/-- The gap stays the same in front of text that stops its pieces as well. -/
theorem gap_stable_of_script {left right : Scanner} (hoptions : right.options = left.options)
    (htext : left.inTemplateText = false) (htext' : right.inTemplateText = false) {back : List Char}
    (hremaining : right.remaining = Gap.spelling left.gap ++ back)
    (hstops : StopsAlike left.front back) (hline : Gap.EndsLineAlike left.front back)
    (hfront : left.front ≠ []) (hback : Gap.first? left.options back = none) :
    right.gap = left.gap ∧ right.front = back := by
  have hgap : right.gap = left.gap := by
    have hsplit := left.spelling_gap_append_front
    rw [gap_of_script htext] at hsplit
    rw [gap_of_script htext', hremaining, hoptions, gap_of_script htext]
    exact Gap.read_stable hstops hline hfront hback hsplit.symm
  refine ⟨hgap, ?_⟩
  rw [front, hgap, hremaining, List.drop_left]

/-- When a lexeme stays the same in front of other text, so does the gap in front of it. -/
theorem lexeme?_stable_of_script {left right : Scanner} (hoptions : right.options = left.options)
    (htext : left.inTemplateText = false) (htext' : right.inTemplateText = false) {lexeme : Lexeme}
    {rest rest' : List Char} (hleft : left.front = lexeme.spelling ++ rest)
    (hremaining : right.remaining = Gap.spelling left.gap ++ (lexeme.spelling ++ rest'))
    (hstops : StopsAlike rest rest')
    (hfirst : Lexeme.first? left.options (lexeme.spelling ++ rest') = some lexeme) :
    right.gap = left.gap ∧ right.lexeme? = some lexeme := by
  have hne := Lexeme.spelling_ne_nil_of_first? hfirst
  have hfront : left.front ≠ [] := by simp [hleft, hne]
  have hbefore := first?_front_of_script htext
  have hline := Gap.endsLineAlike_of_first?_eq_none hfront hbefore (lexeme.spelling ++ rest')
  have hback : Gap.first? left.options (lexeme.spelling ++ rest') = none := by
    rw [hleft] at hbefore
    exact Gap.first?_stable_none hne hstops hbefore (by simp [hfirst])
  obtain ⟨hgap, hright⟩ := gap_stable_of_script hoptions htext htext' hremaining
    (hleft ▸ hstops.append _) hline hfront hback
  refine ⟨hgap, ?_⟩
  rw [lexeme?_of_script htext', hright, hoptions, hfirst]

/-! ### Literal text of a template -/

theorem templateText_cons {c : Char} {back : List Char}
    (hopens : ¬(c = '$' ∧ back.head? = some '\x7b')) :
    templateText (c :: back) = c :: templateText back := by
  rw [templateText.eq_def]
  split <;> simp_all

/-- Literal text ends at the end of the text or at a substitution. -/
theorem templateText_append (characters : List Char) :
    ∃ back, characters = templateText characters ++ back ∧
      (back = [] ∨ ∃ inner, back = '$' :: '\x7b' :: inner) := by
  fun_induction templateText characters with
  | case1 inner => exact ⟨_, rfl, .inr ⟨inner, rfl⟩⟩
  | case2 c rest _ ih =>
      obtain ⟨back, hback, hends⟩ := ih
      exact ⟨back, congrArg (c :: ·) hback, hends⟩
  | case3 => exact ⟨[], rfl, .inl rfl⟩

theorem templateText_stable {text : List Char} (inner inner' : List Char)
    (htext : templateText (text ++ '$' :: '\x7b' :: inner) = text) :
    templateText (text ++ '$' :: '\x7b' :: inner') = text := by
  induction text with
  | nil => rfl
  | cons c text ih =>
      have hhead : (text ++ '$' :: '\x7b' :: inner').head? =
          (text ++ '$' :: '\x7b' :: inner).head? := by cases text <;> rfl
      have hopens : ¬(c = '$' ∧ (text ++ '$' :: '\x7b' :: inner).head? = some '\x7b') := by
        rintro ⟨rfl, hbrace⟩
        obtain ⟨back, hback⟩ := List.head?_eq_some_iff.mp hbrace
        rw [List.cons_append, hback] at htext
        cases htext
      have hopens' := hopens
      rw [← hhead] at hopens'
      rw [List.cons_append, templateText_cons hopens] at htext
      rw [List.cons_append, templateText_cons hopens', ih (List.cons.inj htext).2]

theorem lexeme?_of_text (htext : scanner.inTemplateText = true)
    (hlexeme : scanner.lexeme? ≠ none) :
    scanner.gap = [] ∧ scanner.front = scanner.remaining ∧
      scanner.lexeme? = some (textLexeme (templateText scanner.remaining)) := by
  have hgap : scanner.gap = [] := by simp [gap, htext]
  have hfront : scanner.front = scanner.remaining := by simp [front, hgap]
  refine ⟨hgap, hfront, ?_⟩
  unfold lexeme? at hlexeme ⊢
  rw [if_pos htext] at hlexeme ⊢
  split_ifs at hlexeme ⊢
  · exact absurd rfl hlexeme
  · rw [hfront]

theorem lexeme?_ne_none_of_text (htext : scanner.inTemplateText = true)
    (hremaining : scanner.remaining ≠ []) : scanner.lexeme? ≠ none := by
  have hgap : scanner.gap = [] := by simp [gap, htext]
  have hfront : scanner.front ≠ [] := by simpa [front, hgap] using hremaining
  rw [lexeme?, if_pos htext, if_neg (by simpa using hfront)]
  exact Option.some_ne_none _

/-- Literal text stays the same up to the substitution that ends it. -/
theorem lexeme?_stable_of_text {left right : Scanner} (htext : left.inTemplateText = true)
    (htext' : right.inTemplateText = true) {text inner inner' : List Char}
    (htemplate : templateText left.remaining = text)
    (hleft : left.remaining = text ++ '$' :: '\x7b' :: inner)
    (hright : right.remaining = text ++ '$' :: '\x7b' :: inner') :
    right.gap = left.gap ∧ right.lexeme? = left.lexeme? := by
  have htemplate' : templateText right.remaining = text := by
    rw [hright]
    rw [hleft] at htemplate
    exact templateText_stable inner inner' htemplate
  obtain ⟨hgap, -, hsome⟩ := lexeme?_of_text htext (lexeme?_ne_none_of_text htext (by simp [hleft]))
  obtain ⟨hgap', -, hsome'⟩ :=
    lexeme?_of_text htext' (lexeme?_ne_none_of_text htext' (by simp [hright]))
  rw [hgap, hgap', hsome, hsome', htemplate, htemplate']
  exact ⟨rfl, rfl⟩

theorem next_of_text (htext : scanner.inTemplateText = true)
    (hremaining : scanner.next.2.remaining ≠ []) :
    scanner.next.2.inTemplateText = false ∧
      ∃ inner, scanner.next.2.remaining = '$' :: '\x7b' :: inner := by
  have hlexeme : scanner.lexeme? ≠ none := fun hnone =>
    hremaining (remaining_next_of_end scanner hnone)
  obtain ⟨hgap, hfront, hsome⟩ := lexeme?_of_text htext hlexeme
  have hpart : scanner.next.2.part = .substitution 0 := by
    rw [part_next_of_lexeme scanner hsome, partAfter, if_pos htext, if_neg]
    simpa using hremaining
  refine ⟨by simp [inTemplateText, hpart], ?_⟩
  obtain ⟨back, hback, hends⟩ := templateText_append scanner.remaining
  have hrest := front_eq_append scanner hsome
  rw [hfront, hback] at hrest
  have hsame : back = scanner.next.2.remaining := by
    have hspelling : (textLexeme (templateText scanner.remaining)).spelling =
        templateText scanner.remaining := rfl
    rw [← hback, hspelling] at hrest
    exact List.append_cancel_left (hback.symm.trans hrest)
  rcases hends with rfl | ⟨inner, rfl⟩
  · exact absurd hsame.symm hremaining
  · exact ⟨inner, hsame.symm⟩

def opening : Lexeme :=
  Operator.lexeme ⟨['$', '\x7b'], .dollarOpenBrace⟩

theorem lexeme?_of_opening (hmode : scanner.options.mode = .template)
    (htext : scanner.inTemplateText = false) {inner : List Char}
    (hremaining : scanner.remaining = '$' :: '\x7b' :: inner) :
    scanner.gap = [] ∧ scanner.lexeme? = some opening := by
  have hfirst : Lexeme.first? scanner.options scanner.remaining = some opening := by
    rw [hremaining]
    generalize scanner.options = options at hmode
    obtain ⟨mode, unicode⟩ := options
    obtain rfl := hmode
    rfl
  have hgap : Gap.first? scanner.options scanner.remaining = none := by
    rw [Gap.first?_eq_none_iff, hfirst]
    refine ⟨?_, .inr (Option.some_ne_none opening)⟩
    rw [hremaining]
    rfl
  obtain ⟨hnil, hfront⟩ := front_of_first?_eq_none htext hgap
  exact ⟨hnil, by rw [lexeme?_of_script htext, hfront, hfirst]⟩

theorem mode_of_inTemplateText (htext : scanner.inTemplateText = true) :
    scanner.options.mode = .template ∧ scanner.part = .text := by
  simpa [inTemplateText] using htext

theorem opening_of_text (htext : scanner.inTemplateText = true)
    (hremaining : scanner.next.2.remaining ≠ []) :
    scanner.next.2.gap = [] ∧ scanner.next.2.lexeme? = some opening := by
  obtain ⟨hscript, inner, hinner⟩ := next_of_text htext hremaining
  refine lexeme?_of_opening ?_ hscript hinner
  rw [options_next]
  exact (mode_of_inTemplateText htext).1

/-- No substitution is opened within literal text. -/
theorem not_opening_isInfix_templateText (characters : List Char) :
    ¬['$', '\x7b'] <:+: templateText characters := by
  fun_induction templateText characters with
  | case1 => simp
  | case2 c rest hopens ih =>
      rw [List.infix_cons_iff, not_or]
      refine ⟨fun hprefix => ?_, ih⟩
      obtain ⟨rfl, hbrace⟩ := List.cons_prefix_cons.mp hprefix
      obtain ⟨back, rfl⟩ := hbrace.trans (templateText_isPrefix rest)
      exact hopens back rfl rfl
  | case3 => simp

/-! ### Where a scanner comes to stand -/

/-- A script is read outside of substitutions, and a substitution without an open brace is about to
be opened. -/
structure WellPlaced (scanner : Scanner) : Prop where
  script : scanner.options.mode = .script → scanner.part = .text
  opening : scanner.part = .substitution 0 →
    ∃ inner, scanner.remaining = '$' :: '\x7b' :: inner

theorem wellPlaced_ofText (text : String) (options : Options) :
    (ofText text options).WellPlaced :=
  ⟨fun _ => rfl, fun hpart => by cases hpart⟩

theorem WellPlaced.mode_of_substitution (hplaced : scanner.WellPlaced) {depth : Nat}
    (hpart : scanner.part = .substitution depth) : scanner.options.mode = .template := by
  cases hmode : scanner.options.mode with
  | template => rfl
  | script =>
      rw [hplaced.script hmode] at hpart
      cases hpart

theorem inTemplateText_of_substitution {depth : Nat}
    (hpart : scanner.part = .substitution depth) : scanner.inTemplateText = false := by
  simp [inTemplateText, hpart]

theorem WellPlaced.lexeme?_of_zero (hplaced : scanner.WellPlaced)
    (hpart : scanner.part = .substitution 0) :
    scanner.gap = [] ∧ scanner.lexeme? = some Scanner.opening := by
  obtain ⟨inner, hinner⟩ := hplaced.opening hpart
  exact lexeme?_of_opening (hplaced.mode_of_substitution hpart)
    (inTemplateText_of_substitution hpart) hinner

theorem part_next_of_text (htext : scanner.inTemplateText = true)
    (hlexeme : scanner.lexeme? ≠ none) :
    scanner.next.2.part = if scanner.next.2.remaining.isEmpty then .text else .substitution 0 := by
  obtain ⟨-, -, hsome⟩ := lexeme?_of_text htext hlexeme
  rw [part_next_of_lexeme scanner hsome, partAfter, if_pos htext]

theorem part_next_of_script [Text.Letters] (htext : scanner.inTemplateText = false) {lexeme : Lexeme}
    (hlexeme : scanner.lexeme? = some lexeme) :
    scanner.next.2.part = scanner.part.after lexeme.kind := by
  rw [part_next_of_lexeme scanner hlexeme, partAfter, if_neg (by simp [htext])]

/-- A token that is read outside of the literal text of a template takes a byte. -/
theorem position_lt_next [Text.Letters] (htext : scanner.inTemplateText = false) {lexeme : Lexeme}
    (hlexeme : scanner.lexeme? = some lexeme) : scanner.position < scanner.next.2.position := by
  have hfirst := hlexeme
  rw [lexeme?_of_script htext] at hfirst
  have hspelling := List.length_pos_iff.mpr (Lexeme.spelling_ne_nil_of_first? hfirst)
  have hlength := Text.length_le_byteLength lexeme.spelling
  rw [position_next_eq, lexemeSpelling, hlexeme, Option.elim_some, start]
  omega

/-- In front of a scanner there is a byte of the text for each brace that is open, since the token that
opens one takes a byte. -/
theorem depth_le_next [Text.Letters]
    (hdepth : ∀ depth, scanner.part = .substitution depth → depth ≤ scanner.position) :
    ∀ depth, scanner.next.2.part = .substitution depth → depth ≤ scanner.next.2.position := by
  intro depth hpart
  cases hlexeme : scanner.lexeme? with
  | none =>
      rw [part_next_of_end scanner hlexeme] at hpart
      cases hpart
  | some lexeme =>
      rw [part_next_of_lexeme scanner hlexeme, partAfter] at hpart
      split_ifs at hpart with htext hrest
      · cases hpart
        exact Nat.zero_le _
      · have hlt := position_lt_next (by simpa using htext) hlexeme
        have hle := Section.depth_after_le hdepth lexeme.kind depth hpart
        omega

theorem WellPlaced.next (hplaced : scanner.WellPlaced) : scanner.next.2.WellPlaced := by
  cases hlexeme : scanner.lexeme? with
  | none =>
      have hpart := part_next_of_end scanner hlexeme
      exact ⟨fun _ => hpart, fun hzero => by rw [hpart] at hzero; cases hzero⟩
  | some lexeme =>
      cases htext : scanner.inTemplateText with
      | true =>
          refine ⟨fun hmode => ?_, fun hzero => ?_⟩
          · rw [options_next, (mode_of_inTemplateText htext).1] at hmode
            cases hmode
          · have hrest : scanner.next.2.remaining ≠ [] := by
              intro hnil
              rw [part_next_of_text htext (by simp [hlexeme]), hnil] at hzero
              cases hzero
            exact (next_of_text htext hrest).2
      | false =>
          have hpart := part_next_of_script htext hlexeme
          refine ⟨fun hmode => ?_, fun hzero => ?_⟩
          · rw [options_next] at hmode
            rw [hpart, hplaced.script hmode, Section.after_text]
          · by_cases hopening : scanner.part = .substitution 0
            · obtain rfl := Option.some.inj
                (hlexeme.symm.trans (hplaced.lexeme?_of_zero hopening).2)
              rw [hpart, hopening] at hzero
              cases hzero
            · rw [hpart] at hzero
              exact absurd hzero (Section.after_ne_zero hopening lexeme.kind)

end

end Scanner

end FormulaScript
