import FormulaScript.Proofs.Gap.Boundary

/-!
# What gaps are made of

The pieces of a gap, told by the characters they are spelled with and by what follows them, and the
characters in a gap that begin neither a piece nor a lexeme.
-/

namespace FormulaScript.Gap

/-! ### Comments -/

/-- No comment is closed within the text. -/
def Unclosed (body : List Char) : Prop :=
  ¬['*', '/'] <:+: body

theorem unclosed_nil : Unclosed [] := by
  simp [Unclosed]

theorem unclosed_cons {c : Char} {back : List Char} :
    Unclosed (c :: back) ↔ ¬(c = '*' ∧ back.head? = some '/') ∧ Unclosed back := by
  have hopens : ['*', '/'] <+: c :: back ↔ c = '*' ∧ back.head? = some '/' := by
    cases back <;> simp [List.cons_prefix_cons, eq_comm]
  rw [Unclosed, List.infix_cons_iff, hopens, not_or, Unclosed]

theorem unclosed_of_commentBody?_eq_none {characters : List Char}
    (hbody : commentBody? characters = none) : Unclosed characters := by
  induction characters with
  | nil => exact unclosed_nil
  | cons c back ih =>
      have hclosing : ¬(c = '*' ∧ back.head? = some '/') := by
        rintro ⟨rfl, hhead⟩
        obtain ⟨rest, rfl⟩ := List.head?_eq_some_iff.mp hhead
        cases hbody
      rw [commentBody?_cons hclosing, Option.map_eq_none_iff] at hbody
      exact unclosed_cons.mpr ⟨hclosing, ih hbody⟩

/-- A comment is closed where that is first possible. -/
theorem unclosed_of_commentBody? {body rest : List Char}
    (hbody : commentBody? (body ++ '*' :: '/' :: rest) = some body) : Unclosed (body ++ ['*']) := by
  induction body with
  | nil => simp [unclosed_cons, unclosed_nil]
  | cons c body ih =>
      rw [List.cons_append] at hbody ⊢
      have hhead : (body ++ ['*']).head? = (body ++ '*' :: '/' :: rest).head? := by
        cases body <;> rfl
      have hclosing : ¬(c = '*' ∧ (body ++ '*' :: '/' :: rest).head? = some '/') := by
        rintro ⟨rfl, hslash⟩
        obtain ⟨back, hback⟩ := List.head?_eq_some_iff.mp hslash
        rw [hback] at hbody
        cases hbody
      rw [commentBody?_cons hclosing] at hbody
      obtain ⟨inner, hinner, hcons⟩ := Option.map_eq_some_iff.mp hbody
      obtain rfl := (List.cons.inj hcons).2
      exact unclosed_cons.mpr ⟨by rwa [hhead], ih hinner⟩

/-! ### Pieces and what follows them -/

/-- What it is for a piece to stand in front of the rest of a text. -/
def Piece.StandsBefore (options : Options) (rest : List Char) : Piece → Prop
  | .lineBreak c => c = '\n' ∨ c = '\r'
  | .blank c => Text.isBlank c
  | .lineComment body =>
      (∀ c ∈ body, c ≠ '\n' ∧ c ≠ '\r') ∧
        (rest = [] ∨ rest.head? = some '\n' ∨ rest.head? = some '\r')
  | .blockComment body => Unclosed (body ++ ['*'])
  | .unclosedComment body => Unclosed body ∧ rest = []
  | .invalid c => c ≠ '\n' ∧ c ≠ '\r' ∧ ¬Text.isBlank c ∧ ¬Lexeme.BeginsWith options c

/-- Pieces that stand one behind the other in front of the rest of a text. -/
def StandsBefore (options : Options) (rest : List Char) : List Piece → Prop
  | [] => True
  | piece :: pieces =>
      piece.StandsBefore options (spelling pieces ++ rest) ∧ StandsBefore options rest pieces

theorem endsLine_eq_true_iff {c : Char} : Text.endsLine c = true ↔ c = '\n' ∨ c = '\r' := by
  simp [Text.endsLine]

theorem endsLine_eq_false_iff {c : Char} : Text.endsLine c = false ↔ c ≠ '\n' ∧ c ≠ '\r' := by
  simp [Text.endsLine]

theorem endsLine_of_isBlank {c : Char} (hblank : Text.isBlank c) : Text.endsLine c = false := by
  refine endsLine_eq_false_iff.mpr ⟨?_, ?_⟩ <;>
    · rintro rfl
      revert hblank
      decide

section

variable {options : Options} {rest : List Char}

/-- The pieces that are read cross a line when one of their characters ends it. -/
theorem Piece.StandsBefore.crossesLine_eq {piece : Piece}
    (hstands : piece.StandsBefore options rest) :
    piece.crossesLine = piece.spelling.any Text.endsLine := by
  cases piece with
  | lineBreak c =>
      have hends : Text.endsLine c = true := endsLine_eq_true_iff.mpr hstands
      simp [crossesLine, spelling, hends]
  | blank c => simp [crossesLine, spelling, endsLine_of_isBlank hstands]
  | lineComment body =>
      have hinside : ∀ c ∈ body, Text.endsLine c = false := fun c hc =>
        endsLine_eq_false_iff.mpr (hstands.1 c hc)
      simpa [crossesLine, spelling, Text.endsLine] using hinside
  | blockComment body => simp [crossesLine, spelling, Text.endsLine]
  | unclosedComment body => simp [crossesLine, spelling, Text.endsLine]
  | invalid c =>
      obtain ⟨hfeed, hreturn, -, -⟩ := hstands
      simp [crossesLine, spelling, endsLine_eq_false_iff.mpr ⟨hfeed, hreturn⟩]

theorem StandsBefore.crossesLine_iff {pieces : List Piece}
    (hstands : StandsBefore options rest pieces) :
    crossesLine pieces = true ↔ ∃ c ∈ spelling pieces, c = '\n' ∨ c = '\r' := by
  induction pieces with
  | nil => simp [crossesLine, spelling]
  | cons piece pieces ih =>
      obtain ⟨hpiece, hpieces⟩ := hstands
      have hcons : crossesLine (piece :: pieces) = (piece.crossesLine || crossesLine pieces) := rfl
      rw [hcons, Bool.or_eq_true, ih hpieces, hpiece.crossesLine_eq, List.any_eq_true, spelling_cons]
      simp only [endsLine_eq_true_iff, List.mem_append, or_and_right, exists_or]

theorem standsBefore_of_readFrom {piece : Piece}
    (hread : piece.ReadFrom (piece.spelling ++ rest)) : piece.StandsBefore options rest := by
  cases piece with
  | lineBreak c => exact endsLine_eq_true_iff.mp hread.1
  | blank c => exact hread.2.1
  | lineComment body =>
      obtain ⟨back, hback, hbody⟩ := hread
      obtain rfl : body ++ rest = back := by simpa [Piece.spelling] using hback
      have hkeep : ∀ c ∈ body, (!Text.endsLine c) = true := by
        intro c hc
        rw [← hbody] at hc
        exact List.mem_takeWhile_imp (p := (!Text.endsLine ·)) hc
      rw [List.takeWhile_append_of_pos hkeep, List.append_right_eq_self,
        takeWhile_eq_nil_iff_head?] at hbody
      refine ⟨fun c hc => endsLine_eq_false_iff.mp (by simpa using hkeep c hc), ?_⟩
      cases rest with
      | nil => exact .inl rfl
      | cons c rest =>
          have hends : Text.endsLine c = true := by simpa using hbody c rfl
          exact .inr ((endsLine_eq_true_iff.mp hends).imp (congrArg some) (congrArg some))
  | blockComment body =>
      obtain ⟨back, hback, hbody⟩ := hread
      obtain rfl : body ++ '*' :: '/' :: rest = back := by simpa [Piece.spelling] using hback
      exact unclosed_of_commentBody? hbody
  | unclosedComment body =>
      obtain ⟨hback, hbody⟩ := hread
      exact ⟨unclosed_of_commentBody?_eq_none hbody, by simpa [Piece.spelling] using hback⟩
  | invalid c => cases hread

theorem standsBefore_of_first? {piece : Piece}
    (hfirst : first? options (piece.spelling ++ rest) = some piece) :
    piece.StandsBefore options rest := by
  rcases first?_eq_some_iff.mp hfirst with htrivia | ⟨htrivia, hlexeme, c, back, hback, rfl⟩
  · exact standsBefore_of_readFrom (trivia?_eq_some_iff.mp htrivia)
  · rw [hback] at htrivia hlexeme
    rw [trivia?_of_not_slash (not_slash_of_trivia?_eq_none htrivia)] at htrivia
    split_ifs at htrivia with hline hblank
    obtain ⟨hfeed, hreturn⟩ := endsLine_eq_false_iff.mp (by simpa using hline)
    exact ⟨hfeed, hreturn, hblank, Lexeme.first?_cons_eq_none_iff.mp hlexeme⟩

theorem standsBefore_read (options : Options) (characters : List Char) :
    StandsBefore options (characters.drop (spelling (read options characters)).length)
      (read options characters) := by
  induction characters using read_induction options with
  | done characters hfirst =>
      rw [read_of_first?_eq_none hfirst]
      trivial
  | step piece rest hfirst ih =>
      have hrest := List.prefix_iff_eq_append.mp (spelling_read_isPrefix options rest)
      rw [read_of_first?_eq_some hfirst, List.drop_left, spelling_cons, List.length_append,
        ← List.drop_drop, List.drop_left]
      exact ⟨standsBefore_of_first? (by rwa [hrest]), ih⟩

end

/-! ### Gaps that something is written behind -/

section

variable {options options' : Options}

/-- A piece that is closed stays the same in front of more text, from a line feed on. -/
theorem first?_lineFeed (hunicode : options'.unicodeIdentifiers = options.unicodeIdentifiers)
    {piece : Piece} {rest : List Char} (hfirst : first? options (piece.spelling ++ rest) = some piece)
    (hclosed : ∀ body, piece ≠ .unclosedComment body) (back : List Char) :
    first? options' (piece.spelling ++ (rest ++ '\n' :: back)) = some piece := by
  have hback : Separated ('\n' :: back) := separated_cons (by decide) back
  have hstops : StopsAlike rest (rest ++ '\n' :: back) := by
    simpa using stopsAlike_splice rest [] hback
  refine first?_stable hunicode hstops ?_ hclosed hfirst
  intro hends
  cases rest with
  | nil => simp [Text.endsLine]
  | cons c rest => exact hends

/-- A gap whose comments are closed stays the same in front of more text, from a line feed on. -/
theorem read_lineFeed (hunicode : options'.unicodeIdentifiers = options.unicodeIdentifiers)
    {characters front : List Char} (hfront : spelling (read options characters) ++ front = characters)
    (hclosed : ∀ body, .unclosedComment body ∉ read options characters) (back : List Char) :
    read options' (characters ++ '\n' :: back) =
      read options characters ++ read options' (front ++ '\n' :: back) := by
  induction characters using read_induction options with
  | done characters hfirst =>
      rw [read_of_first?_eq_none hfirst] at hfront ⊢
      rw [← hfront]
      rfl
  | step piece rest hfirst ih =>
      have hread : read options (piece.spelling ++ rest) = piece :: read options rest := by
        rw [read_of_first?_eq_some hfirst, List.drop_left]
      rw [hread, spelling_cons, List.append_assoc] at hfront
      rw [hread] at hclosed ⊢
      have hpiece : ∀ body, piece ≠ .unclosedComment body := by
        rintro body rfl
        exact hclosed body List.mem_cons_self
      have hrest : ∀ body, .unclosedComment body ∉ read options rest := fun body hmem =>
        hclosed body (List.mem_cons_of_mem _ hmem)
      have hfirst' := first?_lineFeed hunicode hfirst hpiece back
      rw [List.append_assoc, read_of_first?_eq_some hfirst', List.drop_left,
        ih (List.append_cancel_left hfront) hrest, List.cons_append]

end

example : read {} "/*/*/ \\/*/".toList =
    [.blockComment ['/'], .blank ' ', .invalid '\\', .unclosedComment ['/']] := by
  decide +kernel

/-! ### Invalid characters -/

/-- The characters of a gap that begin neither a piece of a gap nor a lexeme, with their offsets. -/
def invalidCharacters (offset : Nat) : List Piece → List (Nat × Char)
  | [] => []
  | .invalid c :: pieces => (offset, c) :: invalidCharacters (offset + c.utf8Size) pieces
  | piece :: pieces => invalidCharacters (offset + piece.byteLength) pieces

end Gap

/-- What is reported about an invalid character at an offset. -/
def Diagnostic.ofInvalid (place : Nat × Char) : Diagnostic where
  message := .invalidCharacter
  span? := some ⟨place.1, place.1 + place.2.utf8Size⟩
  text := "Invalid character '" ++ String.singleton place.2 ++ "'."

def Diagnostic.isInvalid (diagnostic : Diagnostic) : Bool :=
  diagnostic.message = .invalidCharacter

theorem Template.format_invalidCharacter (c : Char) :
    Template.format Message.invalidCharacter.template [.singleton c] =
      "Invalid character '" ++ String.singleton c ++ "'." := by
  rw [← String.toList_inj]
  simp [format, fill, placeholder, Message.template, replaceAll]

namespace Gap

theorem diagnostic?_invalid (c : Char) (offset : Nat) :
    (Piece.invalid c).diagnostic? offset = some (.ofInvalid (offset, c)) := by
  have hsize : (Piece.invalid c).byteLength = c.utf8Size := rfl
  simp [Piece.diagnostic?, Piece.report?, Diagnostic.ofMessage, Diagnostic.ofInvalid,
    Template.format_invalidCharacter, hsize]

theorem filter_isInvalid_diagnostics (offset : Nat) (pieces : List Piece) :
    (diagnostics offset pieces).filter Diagnostic.isInvalid =
      (invalidCharacters offset pieces).map Diagnostic.ofInvalid := by
  induction pieces generalizing offset with
  | nil => rfl
  | cons piece pieces ih =>
      rw [diagnostics, List.filter_append, ih]
      cases piece with
      | invalid c =>
          rw [diagnostic?_invalid]
          rfl
      | _ => rfl

end FormulaScript.Gap
