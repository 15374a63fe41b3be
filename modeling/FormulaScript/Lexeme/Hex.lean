import FormulaScript.Lexeme.Decimal

/-!
Hexadecimal literals, which a suffix makes long.
-/

namespace FormulaScript

structure HexLiteral where
  mark : Char
  digits : List Char
  suffix? : Option Char
deriving DecidableEq, Repr

namespace HexLiteral

def isMark (c : Char) : Bool :=
  c == 'x' || c == 'X'

def isSuffix (c : Char) : Bool :=
  c == 'l' || c == 'L'

def first? : List Char → Option HexLiteral
  | '0' :: mark :: rest =>
      if isMark mark then
        some
          ⟨mark, rest.takeWhile Text.isHexDigit,
            (rest.dropWhile Text.isHexDigit).head?.filter isSuffix⟩
      else none
  | _ => none

def spelling (literal : HexLiteral) : List Char :=
  '0' :: literal.mark :: (literal.digits ++ literal.suffix?.toList)

/-- Gathers the digits one by one, and rounds after each of them. -/
def approximate (digits : List Char) : Number.Magnitude :=
  digits.foldl (fun value digit => (value.mulNat 16).addNat (Text.digitValue digit)) .zero

def isLong (literal : HexLiteral) : Bool :=
  literal.suffix?.isSome

def number (literal : HexLiteral) : Number :=
  let exact := Text.digitsValue 16 literal.digits
  if maxInteger < exact then .float (.signed false (approximate literal.digits))
  else if literal.isLong then .long exact
  else .integer exact

/-- How many bytes stand before the digits. -/
def markLength : Nat := 2

def lexeme (literal : HexLiteral) : Lexeme :=
  { kind := .literal (if literal.isLong then .long else .numeric)
    spelling := literal.spelling
    content := .number literal.number
    flags := { hexadecimal := true, long := literal.isLong }
    problem? := if literal.digits.isEmpty then some ⟨.missingHexDigits, markLength⟩ else none }

end HexLiteral

end FormulaScript
