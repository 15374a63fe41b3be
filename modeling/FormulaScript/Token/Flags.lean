namespace FormulaScript.Token

structure Flags where
  /-- A line break was skipped before the token. -/
  afterLineBreak : Bool := false
  /-- The token ran into the end of the text. -/
  unterminated : Bool := false
  /-- The token does not stand in the text. -/
  inserted : Bool := false
  hexadecimal : Bool := false
  scientific : Bool := false
  /-- The token is the literal text around substitutions. -/
  templateText : Bool := false
  long : Bool := false
deriving DecidableEq, Repr, Inhabited

namespace Flags

/-- The flags from the least significant bit on. -/
def toList (flags : Flags) : List Bool :=
  [flags.afterLineBreak, flags.unterminated, flags.inserted, flags.hexadecimal,
    flags.scientific, flags.templateText, flags.long]

def bits (flags : Flags) : Nat :=
  flags.toList.foldr (fun flag rest => flag.toNat + 2 * rest) 0

def ofBits (bits : Nat) : Flags where
  afterLineBreak := bits.testBit 0
  unterminated := bits.testBit 1
  inserted := bits.testBit 2
  hexadecimal := bits.testBit 3
  scientific := bits.testBit 4
  templateText := bits.testBit 5
  long := bits.testBit 6

/-- Whether a flag that only numeric literals carry is set. -/
def isNumeric (flags : Flags) : Bool :=
  flags.hexadecimal || flags.scientific || flags.long

end Flags

end FormulaScript.Token
