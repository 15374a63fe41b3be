import FormulaScript.Proofs.Lexeme.Lookahead
import FormulaScript.Proofs.Scanner.Wrapping

/-!
# Looking ahead

A scanner never looks further than two characters beyond the end of a token before it hands the token
out. So two texts that begin alike have the same tokens up to where they part, except for those that
end within two characters of that place.
-/

namespace FormulaScript

/-- The shorter of two beginnings of a text is a beginning of the longer one. -/
theorem Text.isPrefix_of_byteLength_le {source front longer : List Char} (hfront : front <+: source)
    (hlonger : longer <+: source) (hle : byteLength front ≤ byteLength longer) :
    front <+: longer := by
  rcases List.prefix_or_prefix_of_prefix hfront hlonger with hpart | ⟨more, rfl⟩
  · exact hpart
  · rw [byteLength_append] at hle
    have hmore : more = [] := eq_nil_of_byteLength_eq_zero (by omega)
    simp [hmore]

namespace Scanner

/-- Two scanners stand at the same place of texts that go on alike for a while. -/
structure Beside (ahead : List Char) (left right : Scanner) : Prop where
  options : right.options = left.options
  part : right.part = left.part
  position : right.position = left.position
  left_remaining : ahead <+: left.remaining
  remaining : ahead <+: right.remaining

section

variable {left right : Scanner} {lexeme : Lexeme} {c d : Char} {rest rest' : List Char}

theorem lexeme?_ahead_in_text (htext : left.inTemplateText = true)
    (htext' : right.inTemplateText = true) (hlexeme : left.lexeme? = some lexeme)
    (hfront : left.front = lexeme.spelling ++ c :: d :: rest)
    (hremaining : right.remaining = Gap.spelling left.gap ++ (lexeme.spelling ++ c :: d :: rest')) :
    right.gap = left.gap ∧ right.lexeme? = some lexeme := by
  obtain ⟨hgap, hall, hsome⟩ := lexeme?_of_text htext (by simp [hlexeme])
  have htemplate : templateText left.remaining = lexeme.spelling :=
    congrArg Lexeme.spelling (Option.some.inj (hsome.symm.trans hlexeme))
  have hbehind : left.next.2.remaining = c :: d :: rest := by
    rw [remaining_next_of_lexeme left hlexeme, hfront, List.drop_left]
  -- With something behind it, literal text ends where a substitution opens.
  obtain ⟨-, inner, hinner⟩ := next_of_text htext (by simp [hbehind])
  obtain ⟨rfl, rfl, rfl⟩ : c = '$' ∧ d = '\x7b' ∧ rest = inner := by
    simpa using hbehind.symm.trans hinner
  rw [hgap] at hremaining
  rw [← hlexeme]
  exact lexeme?_stable_of_text htext htext' htemplate (hall.symm.trans hfront) hremaining

theorem Beside.lexeme? {ahead : List Char} (hbeside : Beside ahead left right)
    (hlexeme : left.lexeme? = some lexeme)
    (hleft : left.remaining = Gap.spelling left.gap ++ (lexeme.spelling ++ c :: d :: rest))
    (hright : right.remaining = Gap.spelling left.gap ++ (lexeme.spelling ++ c :: d :: rest')) :
    right.gap = left.gap ∧ right.lexeme? = some lexeme := by
  have hfront : left.front = lexeme.spelling ++ c :: d :: rest := by
    rw [front, hleft, List.drop_left]
  have hsame : right.inTemplateText = left.inTemplateText := by
    rw [inTemplateText, hbeside.options, hbeside.part, inTemplateText]
  cases htext : left.inTemplateText with
  | true => exact lexeme?_ahead_in_text htext (hsame.trans htext) hlexeme hfront hright
  | false =>
      have hfirst := hlexeme
      rw [lexeme?_of_script htext, hfront] at hfirst
      have hstops : StopsAlike (c :: d :: rest) (c :: d :: rest') := .inl rfl
      exact lexeme?_stable_of_script hbeside.options htext (hsame.trans htext) hfront hright hstops
        (Lexeme.first?_ahead hfirst)

/-- Both scanners read the token that is next, if two more characters behind it are the same. -/
theorem Beside.next {ahead beyond : List Char} (hbeside : Beside ahead left right)
    (hahead : Gap.spelling left.gap ++ (left.lexemeSpelling ++ beyond) <+: ahead)
    (hroom : 2 ≤ beyond.length) :
    right.next.1 = left.next.1 ∧ Beside beyond left.next.2 right.next.2 := by
  obtain ⟨rest, hrest⟩ := hahead.trans hbeside.left_remaining
  obtain ⟨rest', hrest'⟩ := hahead.trans hbeside.remaining
  have hbehind : left.next.2.remaining = beyond ++ rest := by
    have hsplit := hrest.trans left.remaining_eq_append
    simpa using hsplit.symm
  obtain ⟨c, d, more, rfl⟩ : ∃ c d more, beyond = c :: d :: more := by
    match beyond with
    | c :: d :: more => exact ⟨c, d, more, rfl⟩
  obtain ⟨lexeme, hlexeme⟩ := left.exists_lexeme_of_remaining_next (by simp [hbehind])
  rw [lexemeSpelling_of_lexeme left hlexeme] at hrest hrest'
  have hleft : left.remaining =
      Gap.spelling left.gap ++ (lexeme.spelling ++ c :: d :: (more ++ rest)) := by
    simpa using hrest.symm
  have hright : right.remaining =
      Gap.spelling left.gap ++ (lexeme.spelling ++ c :: d :: (more ++ rest')) := by
    simpa using hrest'.symm
  obtain ⟨hgap, hlexeme'⟩ := hbeside.lexeme? hlexeme hleft hright
  have hbehind' : right.next.2.remaining = c :: d :: more ++ rest' := by
    have hsplit := hrest'.trans right.remaining_eq_append
    rw [hgap, lexemeSpelling_of_lexeme right hlexeme'] at hsplit
    simpa using hsplit.symm
  have htoken := token_eq_of_lexeme? hbeside.position hgap hlexeme hlexeme'
  refine ⟨htoken, ?_⟩
  exact
    { options := by rw [options_next, options_next, hbeside.options]
      part := by
        apply part_next_eq_of_lexeme? hbeside.options hbeside.part hlexeme hlexeme'
        · simp [hbehind]
        · simp [hbehind']
      position := by rw [position_next, position_next, htoken]
      left_remaining := ⟨rest, hbehind.symm⟩
      remaining := ⟨rest', hbehind'.symm⟩ }

/-! ### A whole run -/

/-- No token ends before the first one. -/
theorem position_next_le_stop {scanner : Scanner} {index : Nat} {token : Token}
    (htoken : scanner.tokens[index]? = some token) :
    scanner.next.2.position ≤ token.span.stop := by
  induction index generalizing scanner with
  | zero =>
      rw [getElem?_zero_tokens] at htoken
      rw [position_next, Option.some.inj htoken]
  | succ index ih =>
      obtain ⟨-, hrest⟩ := getElem?_succ_tokens htoken
      calc scanner.next.2.position
          ≤ scanner.next.2.next.1.span.start := position_le_start_token _
        _ ≤ scanner.next.2.next.1.span.stop := start_le_stop_token _
        _ = scanner.next.2.next.2.position := (position_next _).symm
        _ ≤ token.span.stop := ih hrest

/-- As long as a token with two more characters behind it is still to come, the next one is read by
both scanners. -/
theorem Beside.next_of_room {ahead front : List Char} {index : Nat} {token : Token}
    (hbeside : Beside ahead left right) (htoken : left.tokens[index]? = some token)
    (hfront : front ++ [c, d] <+: ahead)
    (hstop : left.position + Text.byteLength front = token.span.stop) :
    right.next.1 = left.next.1 ∧
      ∃ more, Beside (more ++ [c, d]) left.next.2 right.next.2 ∧
        left.next.2.position + Text.byteLength more = token.span.stop := by
  have hposition : left.next.2.position =
      left.position + Text.byteLength (Gap.spelling left.gap ++ left.lexemeSpelling) := by
    rw [position_next_eq, start, Text.byteLength_append, Nat.add_assoc]
  have hle := position_next_le_stop htoken
  have hpassed : Gap.spelling left.gap ++ left.lexemeSpelling <+: left.remaining := by
    rw [remaining_eq_append left, ← List.append_assoc]
    exact List.prefix_append _ _
  have hthrough : front <+: left.remaining :=
    (List.prefix_append _ _).trans (hfront.trans hbeside.left_remaining)
  obtain ⟨more, rfl⟩ : Gap.spelling left.gap ++ left.lexemeSpelling <+: front := by
    apply Text.isPrefix_of_byteLength_le hpassed hthrough
    omega
  rw [Text.byteLength_append] at hstop
  have hahead : Gap.spelling left.gap ++ (left.lexemeSpelling ++ (more ++ [c, d])) <+: ahead := by
    simpa using hfront
  obtain ⟨hnext, hbehind⟩ := hbeside.next hahead (by simp)
  exact ⟨hnext, more, hbehind, by omega⟩

theorem Beside.getElem?_tokens {ahead front : List Char} {index : Nat} {token : Token}
    (hbeside : Beside ahead left right) (htoken : left.tokens[index]? = some token)
    (hfront : front ++ [c, d] <+: ahead)
    (hstop : left.position + Text.byteLength front = token.span.stop) :
    right.tokens[index]? = some token := by
  induction index generalizing left right ahead front with
  | zero =>
      obtain ⟨hnext, -⟩ := hbeside.next_of_room htoken hfront hstop
      rw [getElem?_zero_tokens, hnext, ← getElem?_zero_tokens, htoken]
  | succ index ih =>
      obtain ⟨hnext, more, hbehind, hmore⟩ := hbeside.next_of_room htoken hfront hstop
      obtain ⟨hkind, hrest⟩ := getElem?_succ_tokens htoken
      have hkind' : right.next.1.kind ≠ .endOfText := by rwa [hnext]
      rw [tokens_of_token hkind', List.getElem?_cons_succ]
      exact ih hbehind hrest List.prefix_rfl hmore

end

/-- **Lookahead.** When two texts begin alike, and a token of the one has two more characters behind it
there, the other one has the same token at the same index. If the text fits, words hold the place of
the token as it is. -/
theorem lookahead_bounded {first second : String} {options : Options} {common : List Char}
    (hfirst : common <+: first.toList) (hsecond : common <+: second.toList) {index : Nat}
    {token : Token} (htoken : (ofText first options).tokens[index]? = some token)
    (hroom : ∃ front c d, front ++ [c, d] <+: common ∧ Text.byteLength front = token.span.stop) :
    (ofText second options).tokens[index]? = some token ∧
      (Text.Fits first → token.wrap = token) := by
  obtain ⟨front, c, d, hfront, hstop⟩ := hroom
  have hbeside : Beside common (ofText first options) (ofText second options) := by
    constructor
    · rfl
    · rfl
    · rfl
    · rwa [remaining_ofText]
    · rwa [remaining_ofText]
  refine ⟨hbeside.getElem?_tokens htoken hfront ?_, fun hfits =>
    (charts_ofText first options).wrap_of_mem_tokens hfits (List.mem_of_getElem? htoken)⟩
  rw [position_ofText, Nat.zero_add, hstop]

/-- Behind the first question mark two more characters are the same, behind the second one only one. -/
theorem lookahead_bounded_question :
    let common := ['?', ' ', '?', '.']
    let scanner := ofText "? ?.b" ⟨.script, false⟩
    let other := ofText "? ?.5" ⟨.script, false⟩
    common <+: "? ?.b".toList ∧ common <+: "? ?.5".toList ∧
      ∃ token, scanner.tokens[0]? = some token ∧ other.tokens[0]? = some token ∧
        token.wrap = token ∧ scanner.tokens[1]? ≠ other.tokens[1]? := by
  intro common scanner other
  have hfirst : common <+: "? ?.b".toList := by decide
  have hsecond : common <+: "? ?.5".toList := by decide
  have htoken : scanner.tokens[0]? = some scanner.next.1 := getElem?_zero_tokens scanner
  have hroom : ∃ front c d, front ++ [c, d] <+: common ∧
      Text.byteLength front = scanner.next.1.span.stop :=
    ⟨['?'], ' ', '?', by decide, by decide +kernel⟩
  obtain ⟨hother, hwords⟩ := lookahead_bounded hfirst hsecond htoken hroom
  exact ⟨hfirst, hsecond, _, htoken, hother, hwords (by decide), by decide +kernel⟩

end Scanner

end FormulaScript
