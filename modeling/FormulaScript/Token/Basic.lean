import FormulaScript.Diagnostic.Basic
import FormulaScript.Number.Basic
import FormulaScript.Token.Flags
import FormulaScript.Token.Kind

namespace FormulaScript

/-- What a token means beyond its kind. -/
inductive Token.Content where
  | none
  /-- The spelling of a word or mark, or the contents of a string. -/
  | text (text : String)
  | number (number : Number)
deriving DecidableEq, Repr

structure Token where
  kind : Token.Kind
  span : Span
  content : Token.Content := .none
  flags : Token.Flags := {}
deriving DecidableEq, Repr

namespace Token

/-- A token that takes no room, since it does not stand in the text. -/
def inserted (kind : Kind) (offset : Nat) : Token :=
  { kind := kind, span := .empty offset, flags := { inserted := true } }

/-- What words hold of the token. -/
def wrap (token : Token) : Token :=
  { token with span := token.span.wrap }

def text? (token : Token) : Option String :=
  match token.content with
  | .text text => some text
  | _ => none

def number? (token : Token) : Option Number :=
  match token.content with
  | .number number => some number
  | _ => none

def length (token : Token) : Nat :=
  token.span.length

def isEmpty (token : Token) : Bool :=
  token.span.isEmpty

def isInserted (token : Token) : Bool :=
  token.flags.inserted

def isUnterminated (token : Token) : Bool :=
  token.flags.unterminated

def followsLineBreak (token : Token) : Bool :=
  token.flags.afterLineBreak

end Token

structure Lexeme.Problem where
  message : Message
  /-- How many bytes of the lexeme it refers to, from the first one on. -/
  length : Nat
deriving DecidableEq, Repr

/-- A token without a place: what can be read off the front of a text. -/
structure Lexeme where
  kind : Token.Kind
  spelling : List Char
  content : Token.Content
  flags : Token.Flags := {}
  problem? : Option Lexeme.Problem := none
deriving DecidableEq, Repr

namespace Lexeme

/-- A lexeme that means its spelling. -/
def verbatim (kind : Token.Kind) (spelling : List Char) : Lexeme :=
  { kind := kind, spelling := spelling, content := .text (.ofList spelling) }

def byteLength (lexeme : Lexeme) : Nat :=
  Text.byteLength lexeme.spelling

end Lexeme

end FormulaScript
