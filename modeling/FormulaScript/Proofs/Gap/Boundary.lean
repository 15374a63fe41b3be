import FormulaScript.Proofs.Gap.Spelling
import FormulaScript.Proofs.Lexeme.Start
import Mathlib.Data.List.TakeWhile

/-!
# Where a gap ends

The pieces of a gap stay the same in front of any other text that stops them as well and begins with
no further piece.
-/

namespace FormulaScript.Gap

/-! ### Comments, blanks and line breaks -/

theorem commentBody?_cons {c : Char} {back : List Char}
    (hclosing : ¬(c = '*' ∧ back.head? = some '/')) :
    commentBody? (c :: back) = (commentBody? back).map (c :: ·) := by
  rw [commentBody?.eq_def]
  split
  · simp_all
  · rename_i hcons
    obtain ⟨rfl, rfl⟩ := List.cons.inj hcons
    rfl
  · simp_all

/-- Nothing behind the end of a comment matters to it. -/
theorem commentBody?_stable {body : List Char} (rest rest' : List Char)
    (hbody : commentBody? (body ++ ['*', '/'] ++ rest) = some body) :
    commentBody? (body ++ ['*', '/'] ++ rest') = some body := by
  induction body with
  | nil => rfl
  | cons c body ih =>
      have hhead : (body ++ ['*', '/'] ++ rest').head? = (body ++ ['*', '/'] ++ rest).head? := by
        cases body <;> rfl
      have hclosing : ¬(c = '*' ∧ (body ++ ['*', '/'] ++ rest).head? = some '/') := by
        rintro ⟨rfl, hslash⟩
        obtain ⟨back, hback⟩ := List.head?_eq_some_iff.mp hslash
        rw [List.cons_append, List.cons_append, hback] at hbody
        cases hbody
      have hclosing' := hclosing
      rw [← hhead] at hclosing'
      rw [List.cons_append, List.cons_append] at hbody ⊢
      rw [commentBody?_cons hclosing] at hbody
      obtain ⟨inner, hinner, hcons⟩ := Option.map_eq_some_iff.mp hbody
      obtain rfl := (List.cons.inj hcons).2
      rw [commentBody?_cons hclosing', ih hinner]
      rfl

theorem trivia?_of_not_slash {c : Char} {back : List Char}
    (hslash : ¬(c = '/' ∧ (back.head? = some '/' ∨ back.head? = some '*'))) :
    trivia? (c :: back) =
      if Text.endsLine c then some (.lineBreak c)
      else if Text.isBlank c then some (.blank c)
      else none := by
  rw [trivia?.eq_def]
  split <;> simp_all

theorem not_slash_of_trivia?_eq_none {c : Char} {back : List Char}
    (htrivia : trivia? (c :: back) = none) :
    ¬(c = '/' ∧ (back.head? = some '/' ∨ back.head? = some '*')) := by
  rintro ⟨rfl, hhead | hhead⟩
  · obtain ⟨rest, rfl⟩ := List.head?_eq_some_iff.mp hhead
    cases htrivia
  · obtain ⟨rest, rfl⟩ := List.head?_eq_some_iff.mp hhead
    rw [trivia?] at htrivia
    split at htrivia <;> cases htrivia

section

variable {text rest rest' : List Char}

theorem trivia?_stable_none (hstops : StopsAlike rest rest') (htext : text ≠ [])
    (htrivia : trivia? (text ++ rest) = none) : trivia? (text ++ rest') = none := by
  obtain ⟨c, text, rfl⟩ := List.exists_cons_of_ne_nil htext
  rw [List.cons_append] at htrivia ⊢
  have hslash := not_slash_of_trivia?_eq_none htrivia
  have hslash' : ¬(c = '/' ∧
      ((text ++ rest').head? = some '/' ∨ (text ++ rest').head? = some '*')) := by
    rintro ⟨rfl, hhead⟩
    refine hslash ⟨rfl, ?_⟩
    cases text with
    | cons next text => exact hhead
    | nil => exact hhead.imp (hstops.head?_eq_some (by decide)) (hstops.head?_eq_some (by decide))
  rw [trivia?_of_not_slash hslash] at htrivia
  rwa [trivia?_of_not_slash hslash']

end

/-- What a piece of blanks or a comment is read from. -/
def Piece.ReadFrom (characters : List Char) : Piece → Prop
  | .lineBreak c => Text.endsLine c ∧ characters.head? = some c
  | .blank c => Text.endsLine c = false ∧ Text.isBlank c ∧ characters.head? = some c
  | .lineComment body =>
      ∃ rest, characters = '/' :: '/' :: rest ∧ rest.takeWhile (!Text.endsLine ·) = body
  | .blockComment body => ∃ rest, characters = '/' :: '*' :: rest ∧ commentBody? rest = some body
  | .unclosedComment body => characters = '/' :: '*' :: body ∧ commentBody? body = none
  | .invalid _ => False

theorem readFrom_of_trivia? {characters : List Char} {piece : Piece}
    (htrivia : trivia? characters = some piece) : piece.ReadFrom characters := by
  unfold trivia? at htrivia
  split at htrivia
  · obtain rfl := Option.some.inj htrivia
    exact ⟨_, rfl, rfl⟩
  · split at htrivia
    · rename_i hbody
      obtain rfl := Option.some.inj htrivia
      exact ⟨_, rfl, hbody⟩
    · rename_i hbody
      obtain rfl := Option.some.inj htrivia
      exact ⟨rfl, hbody⟩
  · split_ifs at htrivia with hline hblank
    · obtain rfl := Option.some.inj htrivia
      exact ⟨hline, rfl⟩
    · obtain rfl := Option.some.inj htrivia
      exact ⟨by simpa using hline, hblank, rfl⟩
  · cases htrivia

theorem trivia?_of_readFrom {characters : List Char} {piece : Piece}
    (hread : piece.ReadFrom characters) : trivia? characters = some piece := by
  cases piece with
  | lineBreak c =>
      obtain ⟨hline, hhead⟩ := hread
      obtain ⟨back, rfl⟩ := List.head?_eq_some_iff.mp hhead
      rw [trivia?_of_not_slash, if_pos hline]
      rintro ⟨rfl, -⟩
      cases hline
  | blank c =>
      obtain ⟨hline, hblank, hhead⟩ := hread
      obtain ⟨back, rfl⟩ := List.head?_eq_some_iff.mp hhead
      rw [trivia?_of_not_slash, if_neg (by simp [hline]), if_pos hblank]
      rintro ⟨rfl, -⟩
      cases hblank
  | lineComment body =>
      obtain ⟨rest, rfl, rfl⟩ := hread
      rfl
  | blockComment body =>
      obtain ⟨rest, rfl, hbody⟩ := hread
      rw [trivia?, hbody]
  | unclosedComment body =>
      obtain ⟨rfl, hbody⟩ := hread
      rw [trivia?, hbody]
  | invalid c => cases hread

theorem trivia?_eq_some_iff {characters : List Char} {piece : Piece} :
    trivia? characters = some piece ↔ piece.ReadFrom characters :=
  ⟨readFrom_of_trivia?, trivia?_of_readFrom⟩

section

variable {rest rest' : List Char}

theorem takeWhile_append_eq_left {body : List Char}
    (hbody : ∀ c ∈ body, Text.endsLine c = false) :
    (body ++ rest).takeWhile (!Text.endsLine ·) = body ↔
      ∀ c ∈ rest.head?, Text.endsLine c = true := by
  have hkeep : ∀ c ∈ body, (!Text.endsLine c) = true := by simpa using hbody
  rw [List.takeWhile_append_of_pos hkeep, List.append_right_eq_self, takeWhile_eq_nil_iff_head?]
  simp

theorem endsLine_of_mem_lineComment {body : List Char}
    (htrivia : trivia? ((Piece.lineComment body).spelling ++ rest) = some (.lineComment body)) :
    ∀ c ∈ body, Text.endsLine c = false := by
  obtain ⟨back, -, hbody⟩ := trivia?_eq_some_iff.mp htrivia
  intro c hc
  rw [← hbody] at hc
  simpa using List.mem_takeWhile_imp hc

/-- A line ends behind a comment up to its end, if anything stands there. -/
theorem endsLine_behind_lineComment {body : List Char}
    (htrivia : trivia? ((Piece.lineComment body).spelling ++ rest) = some (.lineComment body)) :
    ∀ c ∈ rest.head?, Text.endsLine c = true := by
  have hkeep := endsLine_of_mem_lineComment htrivia
  obtain ⟨back, hback, hbody⟩ := trivia?_eq_some_iff.mp htrivia
  obtain rfl : body ++ rest = back := by simpa [Piece.spelling] using hback
  exact (takeWhile_append_eq_left hkeep).mp hbody

/-- What is written behind a closed piece is no matter to it, and a line comment is closed by the end
of its line. -/
theorem trivia?_stable {piece : Piece} (htrivia : trivia? (piece.spelling ++ rest) = some piece)
    (hclosed : ∀ body, piece ≠ .unclosedComment body)
    (hline : ∀ body, piece = .lineComment body → ∀ c ∈ rest'.head?, Text.endsLine c = true) :
    trivia? (piece.spelling ++ rest') = some piece := by
  cases piece with
  | lineBreak c =>
      rw [trivia?_eq_some_iff] at htrivia ⊢
      exact ⟨htrivia.1, rfl⟩
  | blank c =>
      rw [trivia?_eq_some_iff] at htrivia ⊢
      exact ⟨htrivia.1, htrivia.2.1, rfl⟩
  | lineComment body =>
      have hkeep := endsLine_of_mem_lineComment htrivia
      exact trivia?_eq_some_iff.mpr
        ⟨body ++ rest', rfl, (takeWhile_append_eq_left hkeep).mpr (hline body rfl)⟩
  | blockComment body =>
      obtain ⟨back, hback, hbody⟩ := trivia?_eq_some_iff.mp htrivia
      obtain rfl : body ++ ['*', '/'] ++ rest = back := by simpa [Piece.spelling] using hback
      exact trivia?_eq_some_iff.mpr
        ⟨_, by simp [Piece.spelling], commentBody?_stable _ rest' hbody⟩
  | unclosedComment body => exact absurd rfl (hclosed body)
  | invalid c => exact absurd (trivia?_eq_some_iff.mp htrivia) id

theorem eq_nil_of_unclosedComment {body : List Char}
    (htrivia : trivia? ((Piece.unclosedComment body).spelling ++ rest) =
      some (.unclosedComment body)) : rest = [] := by
  obtain ⟨hrest, -⟩ := trivia?_eq_some_iff.mp htrivia
  simpa [Piece.spelling] using hrest

end

/-! ### What stands behind a gap -/

section

variable {options options' : Options} {rest rest' : List Char}

theorem first?_eq_none_iff [Text.Letters] {characters : List Char} :
    first? options characters = none ↔
      trivia? characters = none ∧ (characters = [] ∨ Lexeme.first? options characters ≠ none) := by
  unfold first?
  cases trivia? characters with
  | some piece => simp
  | none => cases characters <;> cases Lexeme.first? options _ <;> simp

theorem first?_eq_some_iff [Text.Letters] {characters : List Char} {piece : Piece} :
    first? options characters = some piece ↔
      trivia? characters = some piece ∨
        trivia? characters = none ∧ Lexeme.first? options characters = none ∧
          ∃ c back, characters = c :: back ∧ piece = .invalid c := by
  unfold first?
  cases trivia? characters with
  | some other => simp
  | none => cases characters <;> cases Lexeme.first? options _ <;> simp [eq_comm]

theorem endsLine_of_first?_eq_none {characters : List Char}
    (hfirst : first? options characters = none) :
    ∀ c ∈ characters.head?, Text.endsLine c = false := by
  intro c hc
  obtain ⟨back, rfl⟩ := List.head?_eq_some_iff.mp hc
  have htrivia := (first?_eq_none_iff.mp hfirst).1
  rw [trivia?_of_not_slash (not_slash_of_trivia?_eq_none htrivia)] at htrivia
  by_contra hline
  rw [Bool.not_eq_false] at hline
  rw [if_pos hline] at htrivia
  cases htrivia

/-- A line that ends at the one text ends at the other as well. -/
def EndsLineAlike (rest rest' : List Char) : Prop :=
  (∀ c ∈ rest.head?, Text.endsLine c = true) → ∀ c ∈ rest'.head?, Text.endsLine c = true

theorem EndsLineAlike.append (hline : EndsLineAlike rest rest') (text : List Char) :
    EndsLineAlike (text ++ rest) (text ++ rest') := by
  cases text with
  | nil => exact hline
  | cons c text => exact id

/-- No line ends where a lexeme begins. -/
theorem endsLineAlike_of_first?_eq_none (hrest : rest ≠ []) (hfirst : first? options rest = none)
    (rest' : List Char) : EndsLineAlike rest rest' := by
  intro hends
  obtain ⟨c, back, rfl⟩ := List.exists_cons_of_ne_nil hrest
  have hfeed := hends c rfl
  rw [endsLine_of_first?_eq_none hfirst c rfl] at hfeed
  cases hfeed

/-- A piece that is closed stays the same in front of text that stops it as well. -/
theorem first?_stable (hunicode : options'.unicodeIdentifiers = options.unicodeIdentifiers)
    {piece : Piece} (hstops : StopsAlike rest rest') (hline : EndsLineAlike rest rest')
    (hclosed : ∀ body, piece ≠ .unclosedComment body)
    (hfirst : first? options (piece.spelling ++ rest) = some piece) :
    first? options' (piece.spelling ++ rest') = some piece := by
  rw [first?_eq_some_iff] at hfirst ⊢
  rcases hfirst with htrivia | ⟨htrivia, hlexeme, c, back, -, rfl⟩
  · refine .inl (trivia?_stable htrivia hclosed ?_)
    rintro body rfl
    exact hline (endsLine_behind_lineComment htrivia)
  · have htrivia' := trivia?_stable_none hstops (Piece.spelling_ne_nil (.invalid c)) htrivia
    exact .inr ⟨htrivia', Lexeme.first?_eq_none_of_unicode hunicode hlexeme, c, _, rfl, rfl⟩

/-- No piece begins where a lexeme does. -/
theorem first?_stable_none {text : List Char} (htext : text ≠ []) (hstops : StopsAlike rest rest')
    (hfirst : first? options (text ++ rest) = none)
    (hlexeme : Lexeme.first? options (text ++ rest') ≠ none) :
    first? options (text ++ rest') = none :=
  first?_eq_none_iff.mpr
    ⟨trivia?_stable_none hstops htext (first?_eq_none_iff.mp hfirst).1, .inr hlexeme⟩

/-- A gap in front of some text stays the same in front of other text that stops it as well. -/
theorem read_stable {back back' : List Char} (hstops : StopsAlike back back')
    (hline : EndsLineAlike back back') (hback : back ≠ []) (hback' : first? options back' = none)
    {characters : List Char} (hcharacters : characters = spelling (read options characters) ++ back) :
    read options (spelling (read options characters) ++ back') = read options characters := by
  induction characters using read_induction options with
  | done characters hfirst =>
      rw [read_of_first?_eq_none hfirst]
      exact read_of_first?_eq_none hback'
  | step piece rest hfirst ih =>
      have hread : read options (piece.spelling ++ rest) = piece :: read options rest := by
        rw [read_of_first?_eq_some hfirst, List.drop_left]
      rw [hread, spelling_cons, List.append_assoc] at hcharacters ⊢
      have hrest := List.append_cancel_left hcharacters
      have hclosed : ∀ body, piece ≠ .unclosedComment body := by
        rintro body rfl
        have hnil := eq_nil_of_unclosedComment ((first?_eq_some_iff.mp hfirst).resolve_right ?_)
        · rw [hrest] at hnil
          exact hback (List.append_eq_nil_iff.mp hnil).2
        · rintro ⟨-, -, c, -, -, hinvalid⟩
          cases hinvalid
      rw [hrest] at hfirst
      have hfirst' := first?_stable rfl (hstops.append _) (hline.append _) hclosed hfirst
      rw [read_of_first?_eq_some hfirst', List.drop_left, ih hrest]

theorem first?_semicolon (front : List Char) : first? options (';' :: front) = none :=
  first?_eq_none_iff.mpr ⟨rfl, .inr (by simp [Lexeme.first?_semicolon])⟩

end

end FormulaScript.Gap
