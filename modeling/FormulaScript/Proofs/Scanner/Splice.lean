import FormulaScript.Proofs.Scanner.Sections

/-!
# Writing a semicolon

When a semicolon is written right in front of a token of a script, a scanner reads what it read
before: the same tokens up to there, then the semicolon, and then the tokens that follow.
-/

namespace FormulaScript.Scanner

/-! ### The text in front of a token -/

/-- The text from the cursor to the token that is read after so many others. -/
def textBefore (scanner : Scanner) : Nat → List Char
  | 0 => Gap.spelling scanner.gap
  | count + 1 =>
      Gap.spelling scanner.gap ++ (scanner.lexemeSpelling ++ scanner.next.2.textBefore count)

theorem remaining_eq_textBefore_append (scanner : Scanner) (count : Nat) :
    scanner.remaining = scanner.textBefore count ++ (scanner.after count).front := by
  induction count generalizing scanner with
  | zero => exact scanner.spelling_gap_append_front.symm
  | succ count ih =>
      calc scanner.remaining
          = Gap.spelling scanner.gap ++ (scanner.lexemeSpelling ++ scanner.next.2.remaining) :=
            scanner.remaining_eq_append
        _ = scanner.textBefore (count + 1) ++ (scanner.after (count + 1)).front := by
            rw [ih scanner.next.2, textBefore, after]
            simp

theorem start_after (scanner : Scanner) (count : Nat) :
    (scanner.after count).start =
      scanner.position + Text.byteLength (scanner.textBefore count) := by
  induction count generalizing scanner with
  | zero => rfl
  | succ count ih =>
      rw [after, ih, position_next_eq, start, textBefore]
      simp only [Text.byteLength_append]
      omega

/-- Behind the end of the text there are no lexemes. -/
theorem lexeme?_after_eq_none {scanner : Scanner} (hlexeme : scanner.lexeme? = none) (count : Nat) :
    (scanner.after count).lexeme? = none := by
  induction count generalizing scanner with
  | zero => exact hlexeme
  | succ count ih =>
      exact ih (lexeme?_eq_none_of_remaining_eq_nil (remaining_next_of_end scanner hlexeme))

theorem tokens_eq_firstTokens_append {scanner : Scanner} {count : Nat}
    (hlexeme : (scanner.after count).lexeme? ≠ none) :
    scanner.tokens = scanner.firstTokens count ++ (scanner.after count).tokens := by
  induction count generalizing scanner with
  | zero => rfl
  | succ count ih =>
      have hkind : scanner.next.1.kind ≠ .endOfText := by
        rw [Ne, kind_token_eq_endOfText_iff]
        exact fun hnone => hlexeme (lexeme?_after_eq_none hnone (count + 1))
      rw [tokens_of_token hkind, firstTokens, List.cons_append, after, ← ih hlexeme]

/-! ### Where a semicolon may be written -/

/-- The scanner is in front of a token of a script that opens no substitution. -/
structure InScript (scanner : Scanner) : Prop where
  lexeme : scanner.lexeme? ≠ none
  text : scanner.inTemplateText = false
  kind : scanner.next.1.kind ≠ .punctuation .dollarOpenBrace

section

variable {scanner : Scanner}

theorem remaining_ne_nil_of_inScript {count : Nat} (hscript : (scanner.after count).InScript) :
    scanner.remaining ≠ [] := by
  intro hremaining
  have hnone := lexeme?_eq_none_of_remaining_eq_nil hremaining
  exact hscript.lexeme (lexeme?_after_eq_none hnone count)

/-- Behind literal text, a token of a script is behind the opening of a substitution. -/
theorem textBefore_of_text (htext : scanner.inTemplateText = true) {count : Nat}
    (hscript : (scanner.next.2.after count).InScript) :
    ∃ back, scanner.next.2.textBefore count = '$' :: '\x7b' :: back := by
  obtain ⟨hgap, hopening⟩ := opening_of_text htext (remaining_ne_nil_of_inScript hscript)
  cases count with
  | zero =>
      refine absurd ?_ hscript.kind
      change scanner.next.2.next.1.kind = _
      rw [token_eq_tokenOf _ hopening]
      rfl
  | succ count =>
      refine ⟨scanner.next.2.next.2.textBefore count, ?_⟩
      rw [textBefore, hgap, lexemeSpelling, hopening]
      rfl

/-- A point before a digit begins a token that goes on beyond it. -/
theorem exists_lexeme?_of_point (htext : scanner.inTemplateText = false) {digit : Char}
    (hdigit : Text.isDigit digit) {back : List Char}
    (hremaining : scanner.remaining = '.' :: digit :: back) :
    scanner.gap = [] ∧ ∃ number, scanner.lexeme? = some number ∧ 2 ≤ number.spelling.length := by
  obtain ⟨number, hnumber, htwo⟩ := Lexeme.exists_number?_of_point hdigit back
  have hfirst : Lexeme.first? scanner.options scanner.remaining = some number := by
    rw [hremaining, Lexeme.first?, hnumber]
    rfl
  have hgap : Gap.first? scanner.options scanner.remaining = none := by
    rw [Gap.first?_eq_none_iff, hfirst]
    refine ⟨?_, .inr (Option.some_ne_none number)⟩
    rw [hremaining]
    rfl
  obtain ⟨hnil, hfront⟩ := front_of_first?_eq_none htext hgap
  exact ⟨hnil, number, by rw [lexeme?_of_script htext, hfront, hfirst], htwo⟩

/-- A point by itself in front of a token is not parted from its digits. -/
theorem not_isDigit_of_textBefore {count : Nat} (hscript : (scanner.after count).InScript)
    (hpoint : scanner.textBefore count = ['.']) :
    ∀ c ∈ (scanner.after count).front.head?, Text.isDigit c = false := by
  intro digit hdigit
  by_contra hisDigit
  rw [Bool.not_eq_false] at hisDigit
  obtain ⟨back, hfront⟩ := List.head?_eq_some_iff.mp hdigit
  have hremaining := remaining_eq_textBefore_append scanner count
  rw [hpoint, hfront] at hremaining
  cases htext : scanner.inTemplateText with
  | true =>
      cases count with
      | zero => exact Bool.noConfusion (htext.symm.trans hscript.text)
      | succ count =>
          obtain ⟨inner, hinner⟩ := textBefore_of_text htext hscript
          have hlength := congrArg List.length hpoint
          rw [textBefore, hinner] at hlength
          simp at hlength
          omega
  | false =>
      -- The point begins a number, so that no token begins right behind it.
      obtain ⟨hnil, number, hnumber, htwo⟩ := exists_lexeme?_of_point htext hisDigit hremaining
      cases count with
      | zero =>
          rw [textBefore, hnil] at hpoint
          cases hpoint
      | succ count =>
          have hlength := congrArg List.length hpoint
          rw [textBefore, hnil, lexemeSpelling, hnumber] at hlength
          simp at hlength
          omega

end

/-! ### Two scanners side by side -/

/-- A second scanner stands in the same place of a text with a semicolon written some way ahead. -/
structure Written (ahead front : List Char) (left right : Scanner) : Prop where
  options : right.options = left.options
  part : right.part = left.part
  position : right.position = left.position
  left_remaining : left.remaining = ahead ++ front
  remaining : right.remaining = ahead ++ ';' :: front

section

variable {ahead front : List Char} {left right : Scanner} {lexeme : Lexeme}

theorem Written.inTemplateText (hwritten : Written ahead front left right) :
    right.inTemplateText = left.inTemplateText := by
  rw [Scanner.inTemplateText, hwritten.options, hwritten.part, Scanner.inTemplateText]

theorem Written.left_front (hwritten : Written (Gap.spelling left.gap ++ ahead) front left right) :
    left.front = ahead ++ front := by
  have hsplit := left.spelling_gap_append_front.trans hwritten.left_remaining
  rw [List.append_assoc] at hsplit
  exact List.append_cancel_left hsplit

theorem Written.right_front (hwritten : Written (Gap.spelling left.gap ++ ahead) front left right)
    (hgap : right.gap = left.gap) : right.front = ahead ++ ';' :: front := by
  rw [Scanner.front, hgap, hwritten.remaining, List.append_assoc, List.drop_left]

theorem Written.lexeme?_in_text {back : List Char} (htext : left.inTemplateText = true)
    (hlexeme : left.lexeme? = some lexeme)
    (hwritten :
      Written (Gap.spelling left.gap ++ (lexeme.spelling ++ '$' :: '\x7b' :: back)) front left
        right) :
    right.gap = left.gap ∧ right.lexeme? = some lexeme := by
  obtain ⟨hgap, -, hsome⟩ := lexeme?_of_text htext (by simp [hlexeme])
  have htemplate : templateText left.remaining = lexeme.spelling :=
    congrArg Lexeme.spelling (Option.some.inj (hsome.symm.trans hlexeme))
  have hleft : left.remaining = lexeme.spelling ++ '$' :: '\x7b' :: (back ++ front) := by
    simpa [hgap] using hwritten.left_remaining
  have hright : right.remaining = lexeme.spelling ++ '$' :: '\x7b' :: (back ++ ';' :: front) := by
    simpa [hgap] using hwritten.remaining
  rw [← hlexeme]
  exact lexeme?_stable_of_text htext (hwritten.inTemplateText.trans htext) htemplate hleft hright

theorem Written.lexeme?_in_script (htext : left.inTemplateText = false)
    (hlexeme : left.lexeme? = some lexeme) (hfront : front ≠ [])
    (hwritten : Written (Gap.spelling left.gap ++ (lexeme.spelling ++ ahead)) front left right)
    (hdot : ahead = ['.'] → ∀ c ∈ front.head?, Text.isDigit c = false) :
    right.gap = left.gap ∧ right.lexeme? = some lexeme := by
  have hleft := hwritten.left_front
  rw [List.append_assoc] at hleft
  have hright : right.remaining =
      Gap.spelling left.gap ++ (lexeme.spelling ++ (ahead ++ ';' :: front)) := by
    simpa using hwritten.remaining
  have hfirst := hlexeme
  rw [lexeme?_of_script htext, hleft] at hfirst
  have hback := separated_semicolon front
  have hclosed : ahead ++ front = [] → lexeme.flags.unterminated = false := fun hnil =>
    absurd (List.append_eq_nil_iff.mp hnil).2 hfront
  exact lexeme?_stable_of_script hwritten.options htext (hwritten.inTemplateText.trans htext) hleft
    hright (stopsAlike_splice ahead front hback) (Lexeme.first?_splice hfirst rfl hclosed hback hdot)

/-- The next token stays the same when a semicolon is written behind it, if nothing is parted that
belongs together. -/
theorem Written.lexeme? (hlexeme : left.lexeme? = some lexeme) (hfront : front ≠ [])
    (hwritten : Written (Gap.spelling left.gap ++ (lexeme.spelling ++ ahead)) front left right)
    (hdot : ahead = ['.'] → ∀ c ∈ front.head?, Text.isDigit c = false)
    (htext : left.inTemplateText = true → ∃ back, ahead = '$' :: '\x7b' :: back) :
    right.gap = left.gap ∧ right.lexeme? = some lexeme := by
  cases hin : left.inTemplateText with
  | true =>
      obtain ⟨back, rfl⟩ := htext hin
      exact hwritten.lexeme?_in_text hin hlexeme
  | false => exact hwritten.lexeme?_in_script hin hlexeme hfront hdot

theorem Written.next (hlexeme : left.lexeme? = some lexeme) (hfront : front ≠ [])
    (hwritten : Written (Gap.spelling left.gap ++ (lexeme.spelling ++ ahead)) front left right)
    (hdot : ahead = ['.'] → ∀ c ∈ front.head?, Text.isDigit c = false)
    (htext : left.inTemplateText = true → ∃ back, ahead = '$' :: '\x7b' :: back) :
    right.next.1 = left.next.1 ∧ Written ahead front left.next.2 right.next.2 := by
  obtain ⟨hgap, hlexeme'⟩ := hwritten.lexeme? hlexeme hfront hdot htext
  have htoken := token_eq_of_lexeme? hwritten.position hgap hlexeme hlexeme'
  have hleft : left.next.2.remaining = ahead ++ front := by
    rw [remaining_next_of_lexeme left hlexeme, hwritten.left_front, List.append_assoc,
      List.drop_left]
  have hright : right.next.2.remaining = ahead ++ ';' :: front := by
    rw [remaining_next_of_lexeme right hlexeme', hwritten.right_front hgap, List.append_assoc,
      List.drop_left]
  refine ⟨htoken, ?_⟩
  exact
    { options := by rw [options_next, options_next, hwritten.options]
      part := by
        apply part_next_eq_of_lexeme? hwritten.options hwritten.part hlexeme hlexeme'
        · simp [hleft, hfront]
        · simp [hright]
      position := by rw [position_next, position_next, htoken]
      left_remaining := hleft
      remaining := hright }

/-- Up to the token in front of which the semicolon is written, everything is read as before. -/
theorem Written.firstTokens {count : Nat} (hscript : (left.after count).InScript)
    (hwritten : Written (left.textBefore count) (left.after count).front left right) :
    right.firstTokens count = left.firstTokens count ∧
      Written (Gap.spelling (left.after count).gap) (left.after count).front (left.after count)
        (right.after count) := by
  induction count generalizing left right with
  | zero => exact ⟨rfl, hwritten⟩
  | succ count ih =>
      have hfront := front_ne_nil hscript.lexeme
      obtain ⟨lexeme, hlexeme⟩ : ∃ lexeme, left.lexeme? = some lexeme := by
        rw [← Option.ne_none_iff_exists']
        exact fun hnone => hscript.lexeme (lexeme?_after_eq_none hnone (count + 1))
      rw [textBefore, lexemeSpelling, hlexeme] at hwritten
      obtain ⟨htoken, hnext⟩ := hwritten.next hlexeme hfront
        (not_isDigit_of_textBefore hscript) fun htext => textBefore_of_text htext hscript
      obtain ⟨hrest, hafter⟩ := ih hscript hnext
      exact ⟨by rw [Scanner.firstTokens, htoken, hrest, Scanner.firstTokens], hafter⟩

theorem Written.next_semicolon (hscript : left.InScript)
    (hwritten : Written (Gap.spelling left.gap) left.front left right) :
    right.next.1.kind = .punctuation .semicolon ∧ right.next.2.options = left.options ∧
      right.next.2.part = left.part ∧ right.next.2.remaining = left.front ∧
      right.next.2.position = left.start + 1 := by
  have htext := hwritten.inTemplateText.trans hscript.text
  have hne := front_ne_nil hscript.lexeme
  have hstops : StopsAlike left.front (';' :: left.front) := .inr (separated_semicolon _)
  have hline : Gap.EndsLineAlike left.front (';' :: left.front) :=
    Gap.endsLineAlike_of_first?_eq_none hne (first?_front_of_script hscript.text) _
  obtain ⟨hgap, hfront⟩ := gap_stable_of_script hwritten.options hscript.text htext
    hwritten.remaining hstops hline hne (Gap.first?_semicolon _)
  have hlexeme : right.lexeme? = some .semicolon := by
    rw [lexeme?_of_script htext, hfront, Lexeme.first?_semicolon]
  have hstart : right.start = left.start := by rw [start, start, hgap, hwritten.position]
  refine ⟨?_, ?_, ?_, ?_, ?_⟩
  · rw [token_eq_tokenOf right hlexeme]
    rfl
  · rw [options_next, hwritten.options]
  · rw [part_next_of_lexeme right hlexeme, partAfter, htext, hwritten.part]
    cases left.part <;> rfl
  · rw [remaining_next_of_lexeme right hlexeme, hfront]
    rfl
  · rw [position_next_eq, hstart, lexemeSpelling, hlexeme]
    rfl

/-- A scanner that stands right in front of the next token of another one reads that token. -/
theorem lexeme?_of_remaining_eq_front {behind : Scanner} (htext : left.inTemplateText = false)
    (hoptions : behind.options = left.options) (hpart : behind.part = left.part)
    (hremaining : behind.remaining = left.front) :
    behind.inTemplateText = false ∧ behind.gap = [] ∧ behind.front = left.front ∧
      behind.lexeme? = left.lexeme? := by
  have htext' : behind.inTemplateText = false := by
    rw [Scanner.inTemplateText, hoptions, hpart]
    exact htext
  have hfirst : Gap.first? behind.options behind.remaining = none := by
    rw [hoptions, hremaining]
    exact first?_front_of_script htext
  obtain ⟨hgap, hfront⟩ := front_of_first?_eq_none htext' hfirst
  rw [hremaining] at hfront
  refine ⟨htext', hgap, hfront, ?_⟩
  rw [lexeme?_of_script htext', hfront, hoptions, lexeme?_of_script htext]

/-- Behind the semicolon the token is read that stood there, on the same line now, and everything
that follows. -/
theorem Written.next_next (hscript : left.InScript)
    (hwritten : Written (Gap.spelling left.gap) left.front left right) :
    right.next.2.next.1.kind = left.next.1.kind ∧
      right.next.2.next.1.flags.afterLineBreak = false ∧
      Agree 1 left.next.2 right.next.2.next.2 := by
  obtain ⟨-, hoptions, hpart, hremaining, hposition⟩ := hwritten.next_semicolon hscript
  generalize right.next.2 = behind at *
  obtain ⟨lexeme, hlexeme⟩ := Option.ne_none_iff_exists'.mp hscript.lexeme
  obtain ⟨htext, hgap, hfront, hlexeme'⟩ :=
    lexeme?_of_remaining_eq_front hscript.text hoptions hpart hremaining
  rw [hlexeme] at hlexeme'
  have hspelling : behind.lexemeSpelling = left.lexemeSpelling := by
    rw [lexemeSpelling, lexemeSpelling, hlexeme, hlexeme']
  have hstart : behind.start = left.start + 1 := by
    rw [start, hgap, hposition]
    rfl
  refine ⟨?_, ?_, ?_⟩
  · rw [token_eq_tokenOf behind hlexeme', token_eq_tokenOf left hlexeme]
    rfl
  · rw [afterLineBreak_token, hgap]
    rfl
  · constructor
    · rw [options_next, options_next, hoptions]
    · rw [part_next_of_lexeme behind hlexeme', part_next_of_lexeme left hlexeme, partAfter,
        partAfter, htext, hscript.text, hpart]
      rfl
    · rw [remaining_next_of_lexeme behind hlexeme', remaining_next_of_lexeme left hlexeme, hfront]
    · rw [position_next_eq, position_next_eq, hspelling, hstart]
      omega

end

/-! ### Whole texts -/

/-- A text with a semicolon written into it at a byte offset. -/
def withSemicolon (text : String) (offset : Nat) : String :=
  .ofList (Text.takeBytes offset text.toList ++ ';' :: Text.dropBytes offset text.toList)

theorem byteLength_withSemicolon (text : String) (offset : Nat) :
    Text.byteLength (withSemicolon text offset).toList = Text.byteLength text.toList + 1 := by
  have hsplit := congrArg Text.byteLength (Text.takeBytes_append_dropBytes offset text.toList)
  rw [Text.byteLength_append] at hsplit
  rw [withSemicolon, String.toList_ofList, Text.byteLength_append, Text.byteLength_cons, ← hsplit]
  have hsemicolon : (';').utf8Size = 1 := rfl
  omega

theorem written_withSemicolon (text : String) (options : Options) (count : Nat) :
    let target := (ofText text options).after count
    Written ((ofText text options).textBefore count) target.front (ofText text options)
      (ofText (withSemicolon text target.start) options) := by
  intro target
  have hsplit := remaining_eq_textBefore_append (ofText text options) count
  have hstart := start_after (ofText text options) count
  rw [remaining_ofText] at hsplit
  rw [position_ofText, Nat.zero_add] at hstart
  constructor
  · rfl
  · rfl
  · rw [position_ofText, position_ofText]
  · rw [remaining_ofText, hsplit]
  · rw [remaining_ofText, withSemicolon, String.toList_ofList, hsplit, hstart,
      Text.takeBytes_byteLength_append, Text.dropBytes_byteLength_append]

/-- Writing a semicolon in front of a token of a script brings in a token for it, and puts the token
behind it on the line of the semicolon. -/
theorem exists_tokens_withSemicolon {text : String} {options : Options} {count : Nat}
    (hscript : ((ofText text options).after count).InScript) :
    let target := (ofText text options).after count
    ∃ semicolon token,
      (ofText text options).tokens =
          (ofText text options).firstTokens count ++ target.next.1 :: target.next.2.tokens ∧
        (ofText (withSemicolon text target.start) options).tokens =
          (ofText text options).firstTokens count ++
            semicolon :: token :: target.next.2.tokens.map (·.shift 1) ∧
        semicolon.kind = .punctuation .semicolon ∧ token.kind = target.next.1.kind ∧
          token.flags.afterLineBreak = false := by
  intro target
  obtain ⟨hfirst, hthere⟩ := (written_withSemicolon text options count).firstTokens hscript
  obtain ⟨hsemicolon, -⟩ := hthere.next_semicolon hscript
  obtain ⟨hkind, hline, hagree⟩ := hthere.next_next hscript
  have htarget : target.next.1.kind ≠ .endOfText :=
    (kind_token_eq_endOfText_iff target).not.mpr hscript.lexeme
  generalize hnew : ofText (withSemicolon text target.start) options = new at *
  have hsemicolon_ne : (new.after count).next.1.kind ≠ .endOfText := by
    rw [hsemicolon]
    decide
  have hlexeme : (new.after count).lexeme? ≠ none :=
    (kind_token_eq_endOfText_iff _).not.mp hsemicolon_ne
  refine ⟨_, _, ?_, ?_, hsemicolon, hkind, hline⟩
  · rw [tokens_eq_firstTokens_append hscript.lexeme, tokens_of_token htarget]
  · rw [tokens_eq_firstTokens_append hlexeme, hfirst, tokens_of_token hsemicolon_ne,
      tokens_of_token (by rwa [hkind]), hagree.tokens]

end FormulaScript.Scanner
