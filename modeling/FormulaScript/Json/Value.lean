/-!
JSON values. Strings are kept as they are written, since only some of them name characters.
-/

namespace FormulaScript.Json

/-- A character, or a UTF-16 code unit given by its number. -/
inductive StringUnit where
  | char (c : Char)
  | code (unit : Nat)
deriving DecidableEq, Repr

inductive Value where
  | null
  | bool (value : Bool)
  | number (spelling : List Char)
  | string (units : List StringUnit)
  | array (items : List Value)
  | object (members : List (List StringUnit × Value))

def isHighSurrogate (unit : Nat) : Bool :=
  0xD800 ≤ unit && unit ≤ 0xDBFF

def isLowSurrogate (unit : Nat) : Bool :=
  0xDC00 ≤ unit && unit ≤ 0xDFFF

def fromSurrogates (high low : Nat) : Char :=
  .ofNat (0x10000 + (high - 0xD800) * 0x400 + (low - 0xDC00))

/-- The characters of a string, `none` when a surrogate has no partner. -/
def characters? : List StringUnit → Option (List Char)
  | [] => some []
  | .char c :: rest => (characters? rest).map (c :: ·)
  | .code high :: .code low :: rest =>
      if isHighSurrogate high then
        if isLowSurrogate low then (characters? rest).map (fromSurrogates high low :: ·) else none
      else if isLowSurrogate high then none
      else (characters? (.code low :: rest)).map (.ofNat high :: ·)
  | .code unit :: rest =>
      if isHighSurrogate unit || isLowSurrogate unit then none
      else (characters? rest).map (.ofNat unit :: ·)

def decode? (units : List StringUnit) : Option String :=
  (characters? units).map .ofList

end FormulaScript.Json
