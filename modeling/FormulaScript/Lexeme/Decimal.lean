import FormulaScript.Token.Basic
import FormulaScript.Text.Character

/-!
Decimal literals: digits, a point with more digits, and an exponent. Each of these parts may be
missing.
-/

namespace FormulaScript

/-- The greatest integer that a literal denotes exactly. -/
def maxInteger : Nat := (1 <<< 63) - 1

structure Exponent where
  mark : Char
  signs : List Char
  digits : List Char
deriving DecidableEq, Repr

namespace Exponent

def isMark (c : Char) : Bool :=
  c == 'e' || c == 'E'

def isSign (c : Char) : Bool :=
  c == '+' || c == '-'

def first? : List Char → Option Exponent
  | [] => none
  | c :: rest =>
      if isMark c then
        some ⟨c, rest.takeWhile isSign, (rest.dropWhile isSign).takeWhile Text.isDigit⟩
      else none

def spelling (exponent : Exponent) : List Char :=
  exponent.mark :: (exponent.signs ++ exponent.digits)

/-- Exponents count up to this value. -/
def limit : Nat := (1 <<< 31) - 1

/-- Each minus sign turns the exponent around. -/
def isNegative (exponent : Exponent) : Bool :=
  exponent.signs.count '-' % 2 == 1

def magnitude (exponent : Exponent) : Nat :=
  exponent.digits.foldl (fun value digit => min (10 * value + Text.digitValue digit) limit) 0

def value (exponent : Exponent) : Int :=
  if exponent.isNegative then -exponent.magnitude else exponent.magnitude

end Exponent

structure DecimalLiteral where
  whole : List Char
  fraction? : Option (List Char)
  exponent? : Option Exponent
deriving DecidableEq, Repr

namespace DecimalLiteral

/-- The longest decimal literal at the front. -/
def first (characters : List Char) : DecimalLiteral :=
  let whole := characters.takeWhile Text.isDigit
  match characters.dropWhile Text.isDigit with
  | '.' :: rest =>
      ⟨whole, some (rest.takeWhile Text.isDigit), Exponent.first? (rest.dropWhile Text.isDigit)⟩
  | rest => ⟨whole, none, Exponent.first? rest⟩

def spelling (literal : DecimalLiteral) : List Char :=
  literal.whole ++ (literal.fraction?.elim [] ('.' :: ·)) ++
    (literal.exponent?.elim [] Exponent.spelling)

def fractionDigits (literal : DecimalLiteral) : List Char :=
  literal.fraction?.getD []

def digits (literal : DecimalLiteral) : List Char :=
  literal.whole ++ literal.fractionDigits

def exponent (literal : DecimalLiteral) : Int :=
  literal.exponent?.elim 0 Exponent.value

/-- No greater power of ten is an integer that a literal denotes exactly. -/
def maxIntegerPower : Nat := 18

/-- Without a point and without a negative exponent a literal is an integer while that fits. -/
def integer? (significand : Nat) (exponent : Int) (pointed : Bool) : Option Nat :=
  if pointed = false ∧ 0 ≤ exponent ∧ exponent ≤ maxIntegerPower then
    let value := significand * Nat.pow 10 exponent.toNat
    if value ≤ maxInteger then some value else none
  else none

/-- Powers of ten count down to this value. -/
def minPower : Int := -Exponent.limit - 1

/-- The number that digits denote, of which the last `fractionLength` stand after a point. -/
def numberOf (digits : List Char) (fractionLength : Nat) (exponent : Int) (pointed : Bool) :
    Number :=
  let significand := Text.digitsValue 10 digits
  match integer? significand exponent pointed with
  | some value => .integer value
  | none =>
      .float (.signed false (.ofDecimal significand (max (exponent - fractionLength) minPower)))

def number (literal : DecimalLiteral) : Number :=
  numberOf literal.digits literal.fractionDigits.length literal.exponent literal.fraction?.isSome

def lexeme (literal : DecimalLiteral) : Lexeme :=
  { kind := .literal .numeric
    spelling := literal.spelling
    content := .number literal.number
    flags := { scientific := literal.exponent?.isSome } }

end DecimalLiteral

end FormulaScript
