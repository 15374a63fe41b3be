import FormulaScript.Proofs.Scanner.Reports

/-!
# Tokens and gaps make up the text

Each token of a text has a gap in front of it, and the two make up a tile. The tiles of a run lie one
behind the other, from the beginning of the text to its end, and what stands in the gaps is white
space, comments and characters that are reported one by one.
-/

namespace FormulaScript

/-- An offset between two characters of a text, or at one of its ends. -/
def Text.IsBoundary (characters : List Char) (offset : Nat) : Prop :=
  ∃ front back, characters = front ++ back ∧ byteLength front = offset

/-- A token with its spelling, and with the gap in front of it. -/
structure Tile where
  gap : List Gap.Piece
  spelling : List Char
  token : Token

namespace Tile

def text (tile : Tile) : List Char :=
  Gap.spelling tile.gap ++ tile.spelling

def textOf (tiles : List Tile) : List Char :=
  tiles.flatMap text

/-- The tile lies at an offset, in front of the rest of a text. -/
structure LiesAt (options : Options) (offset : Nat) (rest : List Char) (tile : Tile) : Prop where
  gap : Gap.StandsBefore options (tile.spelling ++ rest) tile.gap
  start : tile.token.span.start = offset + Text.byteLength (Gap.spelling tile.gap)
  stop : tile.token.span.stop = offset + Text.byteLength tile.text
  templateText : tile.token.flags.templateText → tile.gap = []

/-- Tiles that lie one behind the other, the first of them at an offset. -/
def Laid (options : Options) : Nat → List Tile → Prop
  | _, [] => True
  | offset, tile :: rest =>
      tile.LiesAt options offset (textOf rest) ∧
        Laid options (offset + Text.byteLength tile.text) rest

/-- The characters in the gaps that begin neither a piece of a gap nor a lexeme, with their
offsets. -/
def invalidCharacters : Nat → List Tile → List (Nat × Char)
  | _, [] => []
  | offset, tile :: rest =>
      Gap.invalidCharacters offset tile.gap ++
        invalidCharacters (offset + Text.byteLength tile.text) rest

theorem textOf_cons (tile : Tile) (rest : List Tile) :
    textOf (tile :: rest) = tile.text ++ textOf rest := rfl

section

variable {options : Options} {offset : Nat} {rest : List Char} {tile : Tile} {tiles : List Tile}

theorem LiesAt.start_le_stop (hlies : tile.LiesAt options offset rest) :
    tile.token.span.start ≤ tile.token.span.stop := by
  rw [hlies.start, hlies.stop, text, Text.byteLength_append]
  omega

theorem Laid.ascend (hlaid : Laid options offset tiles) :
    Token.Ascend offset (tiles.map Tile.token) := by
  induction tiles generalizing offset with
  | nil => trivial
  | cons tile tiles ih =>
      obtain ⟨hlies, hrest⟩ := hlaid
      refine ⟨?_, hlies.start_le_stop, ?_⟩
      · rw [hlies.start]
        exact Nat.le_add_right _ _
      · rw [hlies.stop]
        exact ih hrest

theorem Laid.isBoundary {front : List Char} (hlaid : Laid options (Text.byteLength front) tiles) :
    ∀ token ∈ tiles.map Tile.token,
      Text.IsBoundary (front ++ textOf tiles) token.span.start ∧
        Text.IsBoundary (front ++ textOf tiles) token.span.stop := by
  induction tiles generalizing front with
  | nil => simp
  | cons tile tiles ih =>
      obtain ⟨hlies, hrest⟩ := hlaid
      rw [← Text.byteLength_append] at hrest
      rw [textOf_cons, ← List.append_assoc, List.map_cons, List.forall_mem_cons]
      refine ⟨⟨?_, ?_⟩, ih hrest⟩
      · refine ⟨front ++ Gap.spelling tile.gap, tile.spelling ++ textOf tiles, ?_, ?_⟩
        · simp [text]
        · rw [Text.byteLength_append, hlies.start]
      · exact ⟨front ++ tile.text, textOf tiles, rfl, by rw [Text.byteLength_append, hlies.stop]⟩

end

end Tile

namespace Scanner

variable (scanner : Scanner)

def tile : Tile :=
  ⟨scanner.gap, scanner.lexemeSpelling, scanner.next.1⟩

theorem remaining_eq_tile_append :
    scanner.remaining = scanner.tile.text ++ scanner.next.2.remaining := by
  rw [tile, Tile.text, List.append_assoc, ← remaining_eq_append]

theorem position_next_eq_tile :
    scanner.next.2.position = scanner.position + Text.byteLength scanner.tile.text := by
  rw [position_next_eq, start, tile, Tile.text, Text.byteLength_append, Nat.add_assoc]

theorem gap_eq_nil_of_templateText (htoken : scanner.next.1.flags.templateText) :
    scanner.gap = [] := by
  cases htext : scanner.inTemplateText with
  | true => simp [gap, htext]
  | false =>
      cases hlexeme : scanner.lexeme? with
      | none =>
          rw [token_eq_endToken scanner hlexeme] at htoken
          cases htoken
      | some lexeme =>
          rw [token_eq_tokenOf scanner hlexeme] at htoken
          have hflag : lexeme.flags.templateText = true := htoken
          rw [lexeme?_of_script htext] at hlexeme
          rw [Lexeme.templateText_of_first? hlexeme] at hflag
          cases hflag

theorem liesAt_tile :
    scanner.tile.LiesAt scanner.options scanner.position scanner.next.2.remaining where
  gap := by
    have hgap := scanner.standsBefore_gap
    rwa [front_eq_lexemeSpelling_append] at hgap
  start := scanner.start_token
  stop := by rw [← position_next_eq_tile, position_next, tile]
  templateText := scanner.gap_eq_nil_of_templateText

/-! ### Invalid characters -/

theorem isInvalid_tokenReport? : ∀ diagnostic ∈ scanner.tokenReport?, ¬diagnostic.isInvalid := by
  intro diagnostic hreport
  rw [tokenReport?] at hreport
  cases hlexeme : scanner.lexeme? with
  | none =>
      rw [hlexeme, endReport?] at hreport
      cases hpart : scanner.part with
      | text => simp [hpart] at hreport
      | substitution depth =>
          obtain rfl : _ = diagnostic := by simpa [hpart] using hreport
          simp [Diagnostic.isInvalid, Diagnostic.ofMessage]
  | some lexeme =>
      rw [hlexeme] at hreport
      obtain ⟨problem, hproblem, rfl⟩ := Option.map_eq_some_iff.mp hreport
      have hwithin := problem_within_of_lexeme? hlexeme problem hproblem
      simp [Diagnostic.isInvalid, Diagnostic.ofMessage, hwithin.message_ne_invalidCharacter]

/-- Each invalid character in the gap is reported, and no other invalid character is. -/
theorem filter_isInvalid_reports :
    scanner.reports.filter Diagnostic.isInvalid =
      (Gap.invalidCharacters scanner.position scanner.gap).map Diagnostic.ofInvalid := by
  have htoken : scanner.tokenReport?.toList.filter Diagnostic.isInvalid = [] := by
    simpa [List.filter_eq_nil_iff] using scanner.isInvalid_tokenReport?
  rw [reports, List.filter_append, Gap.filter_isInvalid_diagnostics, htoken, List.append_nil]

def invalidReports : List Diagnostic :=
  scanner.diagnostics.toList.filter Diagnostic.isInvalid

theorem invalidReports_next :
    scanner.next.2.invalidReports =
      scanner.invalidReports ++
        (Gap.invalidCharacters scanner.position scanner.gap).map Diagnostic.ofInvalid := by
  rw [invalidReports, diagnostics_next, List.filter_append, filter_isInvalid_reports,
    invalidReports]

/-! ### A whole run -/

structure TiledBy (scanner : Scanner) (tiles : List Tile) : Prop where
  tokens : tiles.map Tile.token = scanner.tokens
  text : Tile.textOf tiles = scanner.remaining
  laid : Tile.Laid scanner.options scanner.position tiles
  reports : scanner.run.2.invalidReports =
    scanner.invalidReports ++
      (Tile.invalidCharacters scanner.position tiles).map Diagnostic.ofInvalid

variable {scanner}

theorem tiledBy_of_end (hkind : scanner.next.1.kind = .endOfText) :
    scanner.TiledBy [scanner.tile] := by
  have hnil := remaining_next_of_end scanner ((kind_token_eq_endOfText_iff scanner).mp hkind)
  have hlies := scanner.liesAt_tile
  have htext := scanner.remaining_eq_tile_append
  rw [hnil] at hlies htext
  constructor
  · rw [tokens_of_end hkind]
    rfl
  · exact htext.symm
  · exact ⟨hlies, trivial⟩
  · rw [run_of_end hkind, invalidReports_next, Tile.invalidCharacters, Tile.invalidCharacters,
      List.append_nil]
    rfl

theorem TiledBy.cons (hkind : scanner.next.1.kind ≠ .endOfText) {tiles : List Tile}
    (htiled : scanner.next.2.TiledBy tiles) : scanner.TiledBy (scanner.tile :: tiles) := by
  obtain ⟨htokens, htext, hlaid, hreports⟩ := htiled
  rw [options_next, position_next_eq_tile] at hlaid
  constructor
  · rw [tokens_of_token hkind, List.map_cons, htokens]
    rfl
  · rw [Tile.textOf_cons, htext, ← remaining_eq_tile_append]
  · exact ⟨htext ▸ scanner.liesAt_tile, hlaid⟩
  · rw [run_of_token hkind, hreports, invalidReports_next, position_next_eq_tile,
      Tile.invalidCharacters, List.map_append, List.append_assoc]
    rfl

theorem exists_tiledBy (scanner : Scanner) : ∃ tiles, scanner.TiledBy tiles := by
  induction scanner using run_induction with
  | last scanner hkind => exact ⟨_, tiledBy_of_end hkind⟩
  | step scanner hkind ih =>
      obtain ⟨tiles, htiled⟩ := ih
      exact ⟨_, htiled.cons hkind⟩

/-- **Tiling.** The tokens of a text up to its end, with the gaps in front of them, make up the text
without a remainder. All of them begin and end between characters, the end token stands at the end
of the text, and each invalid character in a gap is reported by itself. -/
theorem tokens_tiled (text : String) (options : Options) :
    let scanner := ofText text options
    (∃ tiles : List Tile,
        tiles.map Tile.token = scanner.tokens ∧
          Tile.textOf tiles = text.toList ∧
          Tile.Laid options 0 tiles ∧
          scanner.run.2.diagnostics.toList.filter Diagnostic.isInvalid =
            (Tile.invalidCharacters 0 tiles).map Diagnostic.ofInvalid) ∧
      Token.Ascend 0 scanner.tokens ∧
      (∀ token ∈ scanner.tokens,
        Text.IsBoundary text.toList token.span.start ∧
          Text.IsBoundary text.toList token.span.stop) ∧
      ∃ last, scanner.tokens = scanner.body ++ [last] ∧ last.kind = .endOfText ∧
        last.span = .empty (Text.byteLength text.toList) := by
  intro scanner
  obtain ⟨tiles, htokens, htext, hlaid, hreports⟩ := exists_tiledBy scanner
  have hlast := exists_tokens_eq_body_concat scanner
  rw [remaining_ofText] at htext hlast
  rw [position_ofText, Nat.zero_add] at hlast
  refine ⟨⟨tiles, htokens, htext, hlaid, hreports⟩, ?_, ?_, hlast⟩
  · rw [← htokens]
    exact hlaid.ascend
  · have hlaid' : Tile.Laid options (Text.byteLength []) tiles := hlaid
    rw [← htokens, ← htext]
    exact hlaid'.isBoundary

end Scanner

end FormulaScript
