namespace FormulaScript

/-- The reserved words. -/
inductive Keyword where
  | asWord | breakWord | caseWord | catchWord | cimportWord | constWord | continueWord
  | defaultWord | deleteWord | eeWord | elseWord | evaluatorWord | exportWord | falseWord
  | finallyWord | forWord | fromWord | functionWord | ifWord | importWord | inWord | letWord
  | likeWord | newWord | notWord | nullWord | ofWord | orWord | requestWord | returnWord
  | switchWord | thisWord | throwWord | trueWord | tryWord | varWord | whileWord
deriving DecidableEq, Repr

namespace Keyword

/-- All keywords, in the order of the declaration. -/
def all : List Keyword :=
  [.asWord, .breakWord, .caseWord, .catchWord, .cimportWord, .constWord, .continueWord,
    .defaultWord, .deleteWord, .eeWord, .elseWord, .evaluatorWord, .exportWord, .falseWord,
    .finallyWord, .forWord, .fromWord, .functionWord, .ifWord, .importWord, .inWord, .letWord,
    .likeWord, .newWord, .notWord, .nullWord, .ofWord, .orWord, .requestWord, .returnWord,
    .switchWord, .thisWord, .throwWord, .trueWord, .tryWord, .varWord, .whileWord]

/-- The spelling in lower case. -/
def text : Keyword → String
  | .asWord => "as"
  | .breakWord => "break"
  | .caseWord => "case"
  | .catchWord => "catch"
  | .cimportWord => "cimport"
  | .constWord => "const"
  | .continueWord => "continue"
  | .defaultWord => "default"
  | .deleteWord => "delete"
  | .eeWord => "_ee"
  | .elseWord => "else"
  | .evaluatorWord => "_evaluator"
  | .exportWord => "export"
  | .falseWord => "false"
  | .finallyWord => "finally"
  | .forWord => "for"
  | .fromWord => "from"
  | .functionWord => "function"
  | .ifWord => "if"
  | .importWord => "import"
  | .inWord => "in"
  | .letWord => "let"
  | .likeWord => "like"
  | .newWord => "new"
  | .notWord => "not"
  | .nullWord => "null"
  | .ofWord => "of"
  | .orWord => "or"
  | .requestWord => "request"
  | .returnWord => "return"
  | .switchWord => "switch"
  | .thisWord => "this"
  | .throwWord => "throw"
  | .trueWord => "true"
  | .tryWord => "try"
  | .varWord => "var"
  | .whileWord => "while"

def name : Keyword → String
  | .asWord => "AsKeyword"
  | .breakWord => "BreakKeyword"
  | .caseWord => "CaseKeyword"
  | .catchWord => "CatchKeyword"
  | .cimportWord => "CImportKeyword"
  | .constWord => "ConstKeyword"
  | .continueWord => "ContinueKeyword"
  | .defaultWord => "DefaultKeyword"
  | .deleteWord => "DeleteKeyword"
  | .eeWord => "EeKeyword"
  | .elseWord => "ElseKeyword"
  | .evaluatorWord => "EvaluatorKeyword"
  | .exportWord => "ExportKeyword"
  | .falseWord => "FalseKeyword"
  | .finallyWord => "FinallyKeyword"
  | .forWord => "ForKeyword"
  | .fromWord => "FromKeyword"
  | .functionWord => "FunctionKeyword"
  | .ifWord => "IfKeyword"
  | .importWord => "ImportKeyword"
  | .inWord => "InKeyword"
  | .letWord => "LetKeyword"
  | .likeWord => "LikeKeyword"
  | .newWord => "NewKeyword"
  | .notWord => "NotKeyword"
  | .nullWord => "NullKeyword"
  | .ofWord => "OfKeyword"
  | .orWord => "OrKeyword"
  | .requestWord => "RequestKeyword"
  | .returnWord => "ReturnKeyword"
  | .switchWord => "SwitchKeyword"
  | .thisWord => "ThisKeyword"
  | .throwWord => "ThrowKeyword"
  | .trueWord => "TrueKeyword"
  | .tryWord => "TryKeyword"
  | .varWord => "VarKeyword"
  | .whileWord => "WhileKeyword"

/-- The length in bytes of the longest keyword. -/
def maxLength : Nat := 10

/-- The keyword that a lexeme spells. Keywords are recognised in either case of ASCII letters. -/
def ofLexeme? (lexeme : String) : Option Keyword :=
  if lexeme.utf8ByteSize ≤ maxLength then all.find? (·.text == lexeme.toLower) else none

end Keyword

end FormulaScript
