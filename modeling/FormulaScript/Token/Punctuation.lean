namespace FormulaScript

/-- Delimiters, operators, and the two compound marks that open a substitution and a default branch. -/
inductive Punctuation where
  | openBrace | closeBrace | openParen | closeParen | openBracket | closeBracket | dot | dotDotDot
  | semicolon | comma | questionDot | lessThan | greaterThan | lessThanEquals | greaterThanEquals
  | equalsEquals | exclamationEquals | equalsGreaterThan | plus | minus | asterisk | slash
  | percent | ampersand | bar | caret | exclamation | ampersandAmpersand | barBar | question
  | colon | atSign | hash | equals | dollarOpenBrace | defaultColon
deriving DecidableEq, Repr

namespace Punctuation

/-- All punctuation, in the order of the declaration. -/
def all : List Punctuation :=
  [.openBrace, .closeBrace, .openParen, .closeParen, .openBracket, .closeBracket, .dot,
    .dotDotDot, .semicolon, .comma, .questionDot, .lessThan, .greaterThan, .lessThanEquals,
    .greaterThanEquals, .equalsEquals, .exclamationEquals, .equalsGreaterThan, .plus, .minus,
    .asterisk, .slash, .percent, .ampersand, .bar, .caret, .exclamation, .ampersandAmpersand,
    .barBar, .question, .colon, .atSign, .hash, .equals, .dollarOpenBrace, .defaultColon]

/-- The canonical spelling. -/
def text : Punctuation → String
  | .openBrace => "\x7b"
  | .closeBrace => "\x7d"
  | .openParen => "("
  | .closeParen => ")"
  | .openBracket => "["
  | .closeBracket => "]"
  | .dot => "."
  | .dotDotDot => "..."
  | .semicolon => ";"
  | .comma => ","
  | .questionDot => "?."
  | .lessThan => "<"
  | .greaterThan => ">"
  | .lessThanEquals => "<="
  | .greaterThanEquals => ">="
  | .equalsEquals => "=="
  | .exclamationEquals => "!="
  | .equalsGreaterThan => "=>"
  | .plus => "+"
  | .minus => "-"
  | .asterisk => "*"
  | .slash => "/"
  | .percent => "%"
  | .ampersand => "&"
  | .bar => "|"
  | .caret => "^"
  | .exclamation => "!"
  | .ampersandAmpersand => "&&"
  | .barBar => "||"
  | .question => "?"
  | .colon => ":"
  | .atSign => "@"
  | .hash => "#"
  | .equals => "="
  | .dollarOpenBrace => "$\x7b"
  | .defaultColon => "default:"

def name : Punctuation → String
  | .openBrace => "OpenBraceToken"
  | .closeBrace => "CloseBraceToken"
  | .openParen => "OpenParenToken"
  | .closeParen => "CloseParenToken"
  | .openBracket => "OpenBracketToken"
  | .closeBracket => "CloseBracketToken"
  | .dot => "DotToken"
  | .dotDotDot => "DotDotDotToken"
  | .semicolon => "SemicolonToken"
  | .comma => "CommaToken"
  | .questionDot => "QuestionDotToken"
  | .lessThan => "LessThanToken"
  | .greaterThan => "GreaterThanToken"
  | .lessThanEquals => "LessThanEqualsToken"
  | .greaterThanEquals => "GreaterThanEqualsToken"
  | .equalsEquals => "EqualsEqualsToken"
  | .exclamationEquals => "ExclamationEqualsToken"
  | .equalsGreaterThan => "EqualsGreaterThanToken"
  | .plus => "PlusToken"
  | .minus => "MinusToken"
  | .asterisk => "AsteriskToken"
  | .slash => "SlashToken"
  | .percent => "PercentToken"
  | .ampersand => "AmpersandToken"
  | .bar => "BarToken"
  | .caret => "CaretToken"
  | .exclamation => "ExclamationToken"
  | .ampersandAmpersand => "AmpersandAmpersandToken"
  | .barBar => "BarBarToken"
  | .question => "QuestionToken"
  | .colon => "ColonToken"
  | .atSign => "AtToken"
  | .hash => "HashToken"
  | .equals => "EqualsToken"
  | .dollarOpenBrace => "DollarOpenBraceToken"
  | .defaultColon => "DefaultColonToken"

end Punctuation

end FormulaScript
