import FormulaScript.Text.IdentifierRanges

/-!
The classes of characters that scanning tells apart.
-/

namespace FormulaScript.Text

/-- Only these end a line; the Unicode separators of lines and paragraphs are blanks. -/
def endsLine (c : Char) : Bool :=
  c == '\n' || c == '\r'

def isBlank (c : Char) : Bool :=
  c == ' ' || c == '\t' || c == '\x0b' || c == '\x0c' || c == '\u00a0' || c == '\u1680' ||
    ('\u2000' ≤ c && c ≤ '\u200a') || c == '\u2028' || c == '\u2029' || c == '\u202f' ||
    c == '\u205f' || c == '\u3000' || c == '\ufeff'

def isDigit (c : Char) : Bool :=
  c.isDigit

def isHexDigit (c : Char) : Bool :=
  c.isDigit || ('a' ≤ c && c ≤ 'f') || ('A' ≤ c && c ≤ 'F')

/-- The value of a hexadecimal digit, of which the decimal digits are a part. -/
def digitValue (c : Char) : Nat :=
  if c.isDigit then c.toNat - '0'.toNat
  else if 'a' ≤ c then c.toNat - 'a'.toNat + 10
  else c.toNat - 'A'.toNat + 10

/-- The number that digits denote in a base. -/
def digitsValue (base : Nat) (digits : List Char) : Nat :=
  digits.foldl (fun value digit => base * value + digitValue digit) 0

def isAscii (c : Char) : Bool :=
  c.toNat < 128

/-- The letters beyond ASCII: those that may begin an identifier, and those that may go on with
one. -/
class Letters where
  begins : Char → Bool
  continues : Char → Bool

/-- The letters by the Unicode tables. All that runs goes by these. -/
instance unicodeLetters : Letters :=
  ⟨isXidStart, isXidContinue⟩

variable [Letters]

/-- Letters beyond ASCII begin an identifier only when `unicode` is set. -/
def beginsIdentifier (unicode : Bool) (c : Char) : Bool :=
  c.isAlpha || c == '_' || c == '$' || (unicode && !isAscii c && Letters.begins c)

def continuesIdentifier (unicode : Bool) (c : Char) : Bool :=
  c.isAlphanum || c == '_' || c == '$' || (unicode && !isAscii c && Letters.continues c)

end FormulaScript.Text
