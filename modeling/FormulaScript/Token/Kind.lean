import FormulaScript.Token.Keyword
import FormulaScript.Token.Punctuation

/-!
The kinds of tokens, and the three classes of them that decide where one statement ends and the next
begins.
-/

namespace FormulaScript

inductive Literal where
  | numeric | long | string | template
deriving DecidableEq, Repr

inductive Token.Kind where
  | unknown
  | endOfText
  | literal (form : Literal)
  | identifier
  | punctuation (mark : Punctuation)
  | keyword (word : Keyword)
deriving DecidableEq, Repr

def Literal.all : List Literal :=
  [.numeric, .long, .string, .template]

def Literal.name : Literal → String
  | .numeric => "NumericLiteral"
  | .long => "LongLiteral"
  | .string => "StringLiteral"
  | .template => "TemplateLiteral"

namespace Token.Kind

instance : Inhabited Kind := ⟨.unknown⟩

/-- All kinds, in the order of their codes. -/
def all : List Kind :=
  [.unknown, .endOfText] ++ Literal.all.map .literal ++ [.identifier] ++
    Punctuation.all.map .punctuation ++ Keyword.all.map .keyword

def code (kind : Kind) : Nat :=
  all.idxOf kind

def ofCode? (code : Nat) : Option Kind :=
  all[code]?

def name : Kind → String
  | .unknown => "Unknown"
  | .endOfText => "EndOfFileToken"
  | .literal form => form.name
  | .identifier => "Identifier"
  | .punctuation mark => mark.name
  | .keyword word => word.name

def isLiteral : Kind → Bool
  | .literal _ => true
  | _ => false

def isPunctuation : Kind → Bool
  | .punctuation _ => true
  | _ => false

def isKeyword : Kind → Bool
  | .keyword _ => true
  | _ => false

def punctuationText? : Kind → Option String
  | .punctuation mark => some mark.text
  | _ => none

def keywordText? : Kind → Option String
  | .keyword word => some word.text
  | _ => none

/-- The text that all tokens of a kind share, in quotes, or else the name of the kind. -/
def display (kind : Kind) : String :=
  match kind.punctuationText? <|> kind.keywordText? with
  | some text => "'" ++ text ++ "'"
  | none => kind.name

/-- Whether a statement may end on the token. -/
def endsStatement : Kind → Bool
  | .literal _ | .identifier => true
  | .punctuation .closeParen | .punctuation .closeBracket | .punctuation .closeBrace => true
  | .keyword word =>
      (word matches .trueWord | .falseWord | .nullWord | .thisWord | .breakWord | .continueWord)
  | _ => false

/-- Whether the token carries on the statement before it, even on a new line. -/
def continuesStatement : Kind → Bool
  | .keyword .orWord | .keyword .inWord | .keyword .likeWord => true
  | .punctuation mark =>
      (mark matches .dot | .questionDot | .comma | .plus | .minus | .asterisk | .slash | .percent |
        .equals | .equalsEquals | .exclamationEquals | .lessThan | .greaterThan |
        .lessThanEquals | .greaterThanEquals | .ampersand | .bar | .caret |
        .ampersandAmpersand | .barBar | .question | .colon | .equalsGreaterThan | .openParen)
  | _ => false

/-- Whether the token on a new line can only begin a statement. -/
def beginsStatement : Kind → Bool
  | .literal _ | .identifier => true
  | .punctuation .openBrace | .punctuation .openBracket => true
  | .punctuation .atSign | .punctuation .hash => true
  | .keyword word =>
      (word matches .functionWord | .ifWord | .forWord | .whileWord | .switchWord | .returnWord |
        .varWord | .letWord | .constWord | .exportWord | .importWord | .cimportWord | .tryWord |
        .throwWord | .breakWord | .continueWord | .deleteWord | .trueWord | .falseWord |
        .nullWord | .thisWord)
  | _ => false

end Token.Kind

end FormulaScript
