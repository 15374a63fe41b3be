import FormulaScript.Token.Basic
import FormulaScript.Options.Basic
import FormulaScript.Text.Character

/-!
Operators and delimiters: the longest spelling at the front of a text wins.
-/

namespace FormulaScript

structure Operator where
  spelling : List Char
  mark : Punctuation
deriving DecidableEq, Repr

namespace Operator

/-- The spellings of a script, longer ones first. Some marks have more than one. -/
def scriptSpellings : List Operator :=
  [⟨['.', '.', '.'], .dotDotDot⟩, ⟨['=', '=', '='], .equalsEquals⟩,
    ⟨['!', '=', '='], .exclamationEquals⟩,
    ⟨['?', '.'], .questionDot⟩, ⟨['<', '>'], .exclamationEquals⟩, ⟨['<', '='], .lessThanEquals⟩,
    ⟨['>', '='], .greaterThanEquals⟩, ⟨['=', '='], .equalsEquals⟩,
    ⟨['=', '>'], .equalsGreaterThan⟩, ⟨['!', '='], .exclamationEquals⟩,
    ⟨['&', '&'], .ampersandAmpersand⟩, ⟨['|', '|'], .barBar⟩,
    ⟨['('], .openParen⟩, ⟨[')'], .closeParen⟩, ⟨['\x7b'], .openBrace⟩, ⟨['\x7d'], .closeBrace⟩,
    ⟨['['], .openBracket⟩, ⟨[']'], .closeBracket⟩, ⟨[';'], .semicolon⟩, ⟨[','], .comma⟩,
    ⟨[':'], .colon⟩, ⟨['@'], .atSign⟩, ⟨['#'], .hash⟩, ⟨['^'], .caret⟩, ⟨['+'], .plus⟩,
    ⟨['-'], .minus⟩, ⟨['*'], .asterisk⟩, ⟨['%'], .percent⟩, ⟨['/'], .slash⟩, ⟨['~'], .bar⟩,
    ⟨['.'], .dot⟩, ⟨['?'], .question⟩, ⟨['<'], .lessThan⟩, ⟨['>'], .greaterThan⟩,
    ⟨['='], .equals⟩, ⟨['!'], .exclamation⟩, ⟨['&'], .ampersand⟩, ⟨['|'], .bar⟩]

/-- In a template a substitution may open wherever an operator may stand. -/
def spellings : Mode → List Operator
  | .script => scriptSpellings
  | .template => ⟨['$', '\x7b'], .dollarOpenBrace⟩ :: scriptSpellings

/-- Whether the operator stands at the front. A question mark before a fraction stays on its own. -/
def begins (operator : Operator) (characters : List Char) : Bool :=
  operator.spelling.isPrefixOf characters &&
    !(operator.mark == .questionDot && (characters.drop 2).head?.any Text.isDigit)

def first? (mode : Mode) (characters : List Char) : Option Operator :=
  (spellings mode).find? (·.begins characters)

def lexeme (operator : Operator) : Lexeme :=
  .verbatim (.punctuation operator.mark) operator.spelling

end Operator

end FormulaScript
