import FormulaScript.Gap
import FormulaScript.Text.Cursor

/-!
Scanning turns a text into tokens, one at a time. It never fails: what cannot be read as written
becomes the token closest to it, or is skipped, and leaves a diagnostic.
-/

namespace FormulaScript

/-- Where reading stands in a template. A script is read outside of substitutions throughout. -/
inductive Section where
  | text
  /-- A substitution with a number of open braces, its own included. -/
  | substitution (depth : Nat)
deriving DecidableEq, Repr

/-- The section after a token. The brace that closes a substitution leads back to the text. -/
def Section.after : Section → Token.Kind → Section
  | .substitution depth, .punctuation .openBrace => .substitution (depth + 1)
  | .substitution depth, .punctuation .dollarOpenBrace => .substitution (depth + 1)
  | .substitution depth, .punctuation .closeBrace =>
      if depth ≤ 1 then .text else .substitution (depth - 1)
  | part, _ => part

/-- What a word holds of the depth. -/
def Section.wrap : Section → Section
  | .text => .text
  | .substitution depth => .substitution (depth % wordSize)

structure Scanner where
  options : Options
  cursor : Cursor
  part : Section := .text
  /-- A line break was skipped since the last time this was taken. -/
  lineCrossed : Bool := false
  diagnostics : Array Diagnostic := #[]

namespace Scanner

def ofText (text : String) (options : Options) : Scanner :=
  { options := options, cursor := .ofText text }

/-- What words hold of the scanner. -/
def wrap (scanner : Scanner) : Scanner :=
  { scanner with
    cursor := scanner.cursor.wrap
    part := scanner.part.wrap
    diagnostics := scanner.diagnostics.map Diagnostic.wrap }

def remaining (scanner : Scanner) : List Char :=
  scanner.cursor.remaining

def position (scanner : Scanner) : Nat :=
  scanner.cursor.position

/-- The line feeds up to the cursor. -/
def lines (scanner : Scanner) : LineBreaks :=
  scanner.cursor.lines

def takeLineCrossed (scanner : Scanner) : Bool × Scanner :=
  (scanner.lineCrossed, { scanner with lineCrossed := false })

def flushDiagnostics (scanner : Scanner) : Array Diagnostic × Scanner :=
  (scanner.diagnostics, { scanner with diagnostics := #[] })

def inTemplateText (scanner : Scanner) : Bool :=
  scanner.options.mode == .template && scanner.part == .text

def consume (scanner : Scanner) (spelling : List Char) : Scanner :=
  { scanner with cursor := scanner.cursor.advanceBy spelling.length }

def report (scanner : Scanner) (diagnostics : List Diagnostic) : Scanner :=
  { scanner with diagnostics := scanner.diagnostics ++ diagnostics }

def skip (scanner : Scanner) (gap : List Gap.Piece) : Scanner :=
  { (scanner.report (Gap.diagnostics scanner.position gap)).consume (Gap.spelling gap) with
    lineCrossed := scanner.lineCrossed || Gap.crossesLine gap }

/-- Makes the lexeme under the cursor a token. -/
def take (scanner : Scanner) (lexeme : Lexeme) (afterLineBreak : Bool) : Token × Scanner :=
  let start := scanner.position
  let token : Token :=
    { kind := lexeme.kind
      span := ⟨start, start + lexeme.byteLength⟩
      content := lexeme.content
      flags := { lexeme.flags with afterLineBreak := afterLineBreak } }
  let diagnostic? := lexeme.problem?.map fun problem =>
    .ofMessage problem.message [] (some ⟨start, start + problem.length⟩)
  (token,
    { (scanner.report diagnostic?.toList).consume lexeme.spelling with
      part := scanner.part.after lexeme.kind })

/-- The token at the end of the text. A substitution that is open there is reported, and given up. -/
def finish (scanner : Scanner) (afterLineBreak : Bool) : Token × Scanner :=
  let span := .empty scanner.position
  let token : Token :=
    { kind := .endOfText, span := span, flags := { afterLineBreak := afterLineBreak } }
  match scanner.part with
  | .text => (token, scanner)
  | .substitution _ =>
      let diagnostic := .ofMessage .unterminatedSubstitution [] (some span)
      (token, { scanner.report [diagnostic] with part := .text })

variable [Text.Letters]

def nextInScript (scanner : Scanner) : Token × Scanner :=
  let gap := Gap.read scanner.options scanner.remaining
  let next := scanner.skip gap
  match Lexeme.first? next.options next.remaining with
  | some lexeme => next.take lexeme (Gap.crossesLine gap)
  | none => next.finish (Gap.crossesLine gap)

/-- The text before the next substitution. -/
def templateText : List Char → List Char
  | '$' :: '\x7b' :: _ => []
  | c :: rest => c :: templateText rest
  | [] => []

def textLexeme (text : List Char) : Lexeme :=
  { Lexeme.verbatim (.literal .string) text with flags := { templateText := true } }

/-- Before a substitution there is a text token even when there is no text. -/
def nextInText (scanner : Scanner) : Token × Scanner :=
  if scanner.remaining.isEmpty then scanner.finish false
  else
    let (token, next) := scanner.take (textLexeme (templateText scanner.remaining)) false
    (token, { next with part := if next.remaining.isEmpty then .text else .substitution 0 })

/-- The next token. At the end of the text this is an end token, however often it is asked for. -/
def next (scanner : Scanner) : Token × Scanner :=
  if scanner.inTemplateText then scanner.nextInText else scanner.nextInScript

end Scanner

end FormulaScript
