import FormulaScript.Text.LineBreaks

/-!
What scanning reports about places it could not read as written. Nothing it reports is fatal. The
text of a message is a template, whose placeholders are the indices of the arguments in braces.
-/

namespace FormulaScript.Template

/-- Replaces the occurrences of a pattern from left to right, without overlap. -/
def replaceAll (pattern replacement : List Char) : List Char → List Char
  | [] => []
  | c :: rest =>
      if pattern.isPrefixOf (c :: rest) then
        replacement ++ replaceAll pattern replacement (rest.drop (pattern.length - 1))
      else c :: replaceAll pattern replacement rest
termination_by characters => characters.length

def placeholder (index : Nat) : List Char :=
  '\x7b' :: Nat.toDigits 10 index ++ ['\x7d']

/-- Fills in the arguments from the first to the last, each into what the ones before it have left. -/
def fill (template : List Char) (arguments : List (List Char)) : List Char :=
  arguments.zipIdx.foldl
    (fun text (argument, index) => replaceAll (placeholder index) argument text) template

/-- The text of a template with its arguments. -/
def format (template : String) (arguments : List String) : String :=
  .ofList (fill template.toList (arguments.map String.toList))

end FormulaScript.Template

namespace FormulaScript

inductive Message where
  | unterminatedString
  | unclosedComment
  | invalidCharacter
  | unterminatedTemplate
  | missingHexDigits
  | unterminatedSubstitution
deriving DecidableEq, Repr

namespace Message

def code : Message → Nat
  | .unterminatedString => 1002
  | .unclosedComment => 1010
  | .invalidCharacter => 1127
  | .unterminatedTemplate => 1160
  | .missingHexDigits => 1125
  | .unterminatedSubstitution => 1161

def template : Message → String
  | .unterminatedString => "Unterminated string literal."
  | .unclosedComment => "'*/' expected."
  | .invalidCharacter => "Invalid character '\x7b0\x7d'."
  | .unterminatedTemplate => "Unterminated template literal."
  | .missingHexDigits => "Hexadecimal digit expected."
  | .unterminatedSubstitution => "Unterminated '$\x7b' substitution."

end Message

structure Diagnostic where
  message : Message
  span? : Option Span
  text : String
deriving DecidableEq, Repr

namespace Diagnostic

def ofMessage (message : Message) (arguments : List String) (span? : Option Span) : Diagnostic :=
  ⟨message, span?, Template.format message.template arguments⟩

/-- What words hold of the diagnostic. -/
def wrap (diagnostic : Diagnostic) : Diagnostic :=
  { diagnostic with span? := diagnostic.span?.map Span.wrap }

def code (diagnostic : Diagnostic) : Nat :=
  diagnostic.message.code

def display (diagnostic : Diagnostic) : String :=
  s!"warning FS{diagnostic.code}: {diagnostic.text}"

/-- The diagnostic behind the region it refers to. -/
def render (diagnostic : Diagnostic) (lines : LineBreaks) : String :=
  match diagnostic.span? with
  | some span => s!"{(lines.region span).display}: {diagnostic.display}"
  | none => diagnostic.display

end Diagnostic

end FormulaScript
