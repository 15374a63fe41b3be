import FormulaScript.Lexeme.Hex
import FormulaScript.Lexeme.Operator
import FormulaScript.Lexeme.Quoted

/-!
Words, and with them the lexeme at the front of a script.
-/

namespace FormulaScript

variable [Text.Letters]

namespace Word

/-- The run of identifier characters at the front, when the first of them may begin an identifier. -/
def run? (unicode : Bool) : List Char → Option (List Char)
  | [] => none
  | c :: rest =>
      if Text.beginsIdentifier unicode c then
        some (c :: rest.takeWhile (Text.continuesIdentifier unicode))
      else none

/-- A run is a keyword or an identifier; the colon right after `default` belongs to it. -/
def classify (run rest : List Char) : Lexeme :=
  match Keyword.ofLexeme? (.ofList run) with
  | none => .verbatim .identifier run
  | some word =>
      if word = .defaultWord ∧ rest.head? = some ':' then
        .verbatim (.punctuation .defaultColon) (run ++ [':'])
      else .verbatim (.keyword word) run

def first? (unicode : Bool) (characters : List Char) : Option Lexeme :=
  (run? unicode characters).map fun run => classify run (characters.drop run.length)

end Word

namespace Lexeme

/-- A number begins with a digit, or with a point before one. -/
def beginsNumber : List Char → Bool
  | '.' :: c :: _ => Text.isDigit c
  | c :: _ => Text.isDigit c
  | [] => false

/-- The numeric literal at the front. -/
def number? (characters : List Char) : Option Lexeme :=
  if beginsNumber characters then
    match HexLiteral.first? characters with
    | some literal => some literal.lexeme
    | none => some (DecimalLiteral.first characters).lexeme
  else none

/-- The lexeme at the front, `none` where none begins. Numbers come before operators for the sake of a leading point, and operators before words for the sake of a substitution. -/
def first? (options : Options) (characters : List Char) : Option Lexeme :=
  number? characters <|> Quoted.first? characters <|>
    (Operator.first? options.mode characters).map Operator.lexeme <|>
    Word.first? options.unicodeIdentifiers characters

theorem first?_nil (options : Options) : first? options [] = none := by
  obtain ⟨mode, unicode⟩ := options
  cases mode <;> rfl

end Lexeme

end FormulaScript
