import FormulaScript.Json.Value
import FormulaScript.Text.Character

/-!
The tokens of JSON text, which are its structural marks and its scalar values.
-/

namespace FormulaScript.Json

inductive Token where
  | mark (c : Char)
  | scalar (value : Value)

def isSpace (c : Char) : Bool :=
  c == ' ' || c == '\t' || c == '\n' || c == '\r'

def isMark (c : Char) : Bool :=
  c == '[' || c == ']' || c == '\x7b' || c == '\x7d' || c == ',' || c == ':'

/-- The character that a short escape stands for. -/
def shortEscape? : Char → Option Char
  | '\x22' => some '\x22'
  | '\\' => some '\\'
  | '/' => some '/'
  | 'b' => some '\x08'
  | 'f' => some '\x0c'
  | 'n' => some '\n'
  | 'r' => some '\r'
  | 't' => some '\t'
  | _ => none

/-- What follows an opening quotation mark: the units up to the closing one, and how many characters spell them and the closing mark. -/
def stringUnits? : List Char → Option (List StringUnit × Nat)
  | [] => none
  | '\x22' :: _ => some ([], 1)
  | '\\' :: 'u' :: a :: b :: c :: d :: rest =>
      if [a, b, c, d].all Text.isHexDigit then
        (stringUnits? rest).map fun (units, length) =>
          (.code (Text.digitsValue 16 [a, b, c, d]) :: units, length + 6)
      else none
  | '\\' :: escaped :: rest =>
      match shortEscape? escaped with
      | some c => (stringUnits? rest).map fun (units, length) => (.char c :: units, length + 2)
      | none => none
  | c :: rest =>
      if c < ' ' then none
      else (stringUnits? rest).map fun (units, length) => (.char c :: units, length + 1)

/-- A nonempty run of digits at the front. -/
def digits? (characters : List Char) : Option (List Char) :=
  match characters.takeWhile Text.isDigit with
  | [] => none
  | digits => some digits

/-- An optional minus sign, and an integer without needless zeros. -/
def integerPart? (characters : List Char) : Option (List Char) :=
  match characters with
  | '-' :: rest => (unsigned? rest).map ('-' :: ·)
  | _ => unsigned? characters
where
  unsigned? : List Char → Option (List Char)
    | '0' :: _ => some ['0']
    | characters => digits? characters

def fractionPart? : List Char → Option (List Char)
  | '.' :: rest => (digits? rest).map ('.' :: ·)
  | _ => some []

def exponentPart? : List Char → Option (List Char)
  | 'e' :: rest => (signed? rest).map ('e' :: ·)
  | 'E' :: rest => (signed? rest).map ('E' :: ·)
  | _ => some []
where
  signed? : List Char → Option (List Char)
    | '+' :: rest => (digits? rest).map ('+' :: ·)
    | '-' :: rest => (digits? rest).map ('-' :: ·)
    | characters => digits? characters

def number? (characters : List Char) : Option (List Char) := do
  let integer ← integerPart? characters
  let fraction ← fractionPart? (characters.drop integer.length)
  let exponent ← exponentPart? (characters.drop (integer.length + fraction.length))
  return integer ++ fraction ++ exponent

/-- The values that are written as words. -/
def words : List (List Char × Value) :=
  [(['n', 'u', 'l', 'l'], .null), (['t', 'r', 'u', 'e'], .bool true),
    (['f', 'a', 'l', 's', 'e'], .bool false)]

/-- The token at the front, and how many characters spell it. -/
def Token.first? (characters : List Char) : Option (Token × Nat) :=
  match characters with
  | [] => none
  | c :: rest =>
      if isMark c then some (.mark c, 1)
      else if c = '\x22' then
        (stringUnits? rest).map fun (units, length) => (.scalar (.string units), length + 1)
      else
        match words.find? (·.1.isPrefixOf characters) with
        | some (word, value) => some (.scalar value, word.length)
        | none =>
            (number? characters).map fun spelling =>
              (.scalar (.number spelling), spelling.length)

/-- The tokens of a text, with white space between them. -/
def tokens? : List Char → Option (List Token)
  | [] => some []
  | c :: rest =>
      if isSpace c then tokens? rest
      else
        match Token.first? (c :: rest) with
        | none => none
        | some (token, length) => (tokens? (rest.drop (length - 1))).map (token :: ·)
termination_by characters => characters.length

end FormulaScript.Json
