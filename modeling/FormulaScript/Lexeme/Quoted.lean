import FormulaScript.Token.Basic

/-!
Quoted text. It runs from a mark to the next one that is not escaped, across line breaks, or to the
end of the text.
-/

namespace FormulaScript

inductive Quote where
  | double | single | backtick
deriving DecidableEq, Repr

namespace Quote

def all : List Quote :=
  [.double, .single, .backtick]

def mark : Quote → Char
  | .double => '\x22'
  | .single => '\x27'
  | .backtick => '\x60'

/-- What stands before a mark that belongs to the contents. -/
def escape? : Quote → Option Char
  | .double => some '\x22'
  | .single => none
  | .backtick => some '\\'

def literal : Quote → Literal
  | .double | .single => .string
  | .backtick => .template

def unterminated : Quote → Message
  | .double | .single => .unterminatedString
  | .backtick => .unterminatedTemplate

/-- How contents are written between the marks. -/
def encode (quote : Quote) : List Char → List Char
  | [] => []
  | c :: rest =>
      if c = quote.mark then quote.escape?.toList ++ c :: quote.encode rest
      else c :: quote.encode rest

end Quote

/-- What follows an opening mark: the contents, how they and the closing mark are spelled, and whether there is a closing mark. -/
structure Quoted where
  contents : List Char
  spelling : List Char
  closed : Bool
deriving DecidableEq, Repr

namespace Quoted

def cons (content : Char) (spelling : List Char) (quoted : Quoted) : Quoted :=
  { quoted with
    contents := content :: quoted.contents
    spelling := spelling ++ quoted.spelling }

def read (quote : Quote) : List Char → Quoted
  | [] => ⟨[], [], false⟩
  | [c] => if c = quote.mark then ⟨[], [c], true⟩ else ⟨[c], [c], false⟩
  | c :: next :: rest =>
      if quote.escape? = some c ∧ next = quote.mark then
        cons quote.mark [c, next] (read quote rest)
      else if c = quote.mark then ⟨[], [c], true⟩
      else cons c [c] (read quote (next :: rest))

def lexeme (quote : Quote) (quoted : Quoted) : Lexeme :=
  let spelling := quote.mark :: quoted.spelling
  { kind := .literal quote.literal
    spelling := spelling
    content := .text (.ofList quoted.contents)
    flags := { unterminated := !quoted.closed }
    problem? :=
      if quoted.closed then none else some ⟨quote.unterminated, Text.byteLength spelling⟩ }

def first? : List Char → Option Lexeme
  | [] => none
  | c :: rest =>
      (Quote.all.find? (·.mark == c)).map fun quote => (read quote rest).lexeme quote

end Quoted

end FormulaScript
