import FormulaScript.Layout.Basic
import FormulaScript.Scanner.Basic

/-!
A stream hands out the tokens of a text one at a time, with their layout completed.
-/

namespace FormulaScript.Layout

structure Stream where
  scanner : Scanner
  state : State := {}
  /-- The token to hand out next, when it is known already. -/
  waiting : Option Token := none
  ended : Bool := false

namespace Stream

/-- A stream of what a scanner has left. -/
def ofScanner (scanner : Scanner) : Stream :=
  { scanner := scanner }

def ofText (text : String) (options : Options) : Stream :=
  .ofScanner (.ofText text options)

/-- What words hold of the stream. -/
def wrap (stream : Stream) : Stream :=
  { stream with
    scanner := stream.scanner.wrap
    state := stream.state.wrap
    waiting := stream.waiting.map Token.wrap }

def lines (stream : Stream) : LineBreaks :=
  stream.scanner.lines

def region (stream : Stream) (token : Token) : Region :=
  stream.lines.region token.span

def diagnostics (stream : Stream) : Array Diagnostic :=
  stream.scanner.diagnostics

def flushDiagnostics (stream : Stream) : Array Diagnostic × Stream :=
  let (diagnostics, scanner) := stream.scanner.flushDiagnostics
  (diagnostics, { stream with scanner := scanner })

/-- Hands out a token, behind which another one may wait. -/
def emit (stream : Stream) (token : Token) (waiting : Option Token) : Token × Stream :=
  (token, { stream with state := stream.state.emit token.kind, waiting := waiting })

/-- The next token. At the end of the text this is an end token, however often it is asked for. -/
def pull (stream : Stream) : Token × Stream :=
  match stream.waiting with
  | some token => stream.emit token none
  | none =>
      let (token, scanner) := stream.scanner.next
      let (lineCrossed, scanner) := scanner.takeLineCrossed
      let (insertion, state) := stream.state.place token.kind lineCrossed
      let stream := { stream with scanner := scanner, state := state }
      match insertion with
      | none => stream.emit token none
      | some (.before kind) => stream.emit (.inserted kind token.span.start) (some token)
      | some (.after kind) => stream.emit token (some (.inserted kind token.span.stop))

/-- The next token up to and with the first end token, and nothing after it. -/
def next? (stream : Stream) : Option Token × Stream :=
  if stream.ended then (none, stream)
  else
    let (token, stream) := stream.pull
    (some token, { stream with ended := token.kind == .endOfText })

end Stream

end FormulaScript.Layout
