import FormulaScript.Number.Binary64

/-!
The values of numeric literals, and their texts. The text of a binary64 value is the shortest one: the
fewest digits that read back as the value, and of those the nearest to it, written without an
exponent.
-/

namespace FormulaScript.Number

/-- The decimal `digits * 10 ^ power`. -/
structure Decimal where
  digits : Nat
  power : Int
deriving DecidableEq, Repr

namespace Decimal

/-- Whether `doubled / 2` lies among the values that round to the rank, given in the same units: the midpoints to its neighbours belong to an even rank. -/
def readsBack (rank low doubled high : Nat) : Bool :=
  if rank % 2 = 0 then low ≤ doubled && doubled ≤ high else low < doubled && doubled < high

/-- The multiple of `10 ^ power` nearest to the value at `rank` that reads back as it; a tie goes up. -/
def onGrid? (rank : Nat) (power : Int) : Option Decimal :=
  let scale := Nat.pow 10 (-power).toNat
  let step := Nat.pow 10 power.toNat <<< scaleBits
  let value := unitsAt rank * scale
  let low := (unitsAt (rank - 1) + unitsAt rank) * scale
  let high := (unitsAt rank + unitsAt (rank + 1)) * scale
  let floor := value / step
  let below := readsBack rank low (2 * (floor * step)) high
  let above := readsBack rank low (2 * ((floor + 1) * step)) high
  if above && (!below || step ≤ 2 * (value % step)) then some ⟨floor + 1, power⟩
  else if below then some ⟨floor, power⟩
  else none

/-- The powers of ten of the grids, from coarse to fine. -/
def gridPowers : List Int :=
  (List.range (maxGridPower + scaleBits + 1)).map fun (index : Nat) => (maxGridPower : Int) - index
where
  /-- No finite value reaches this power of ten. -/
  maxGridPower : Nat := 309

/-- The coarsest grid with a point that reads back gives the fewest digits. On the finest grid every value is a point. -/
def shortest (magnitude : Magnitude) : Decimal :=
  (gridPowers.findSome? (onGrid? magnitude.rank)).getD
    ⟨magnitude.units * Nat.pow 5 scaleBits, -(scaleBits : Int)⟩

/-- Digits and a point where one is needed, never an exponent. -/
def positional (decimal : Decimal) : String :=
  let digits := (Nat.toDigits 10 decimal.digits)
  match decimal.power with
  | .ofNat power => .ofList (digits ++ List.replicate power '0')
  | .negSucc power =>
      let places := power + 1
      let padded := List.replicate (places + 1 - digits.length) '0' ++ digits
      .ofList
        (padded.take (padded.length - places) ++ '.' :: padded.drop (padded.length - places))

end Decimal

def Magnitude.display (magnitude : Magnitude) : String :=
  if magnitude = .infinity then "inf"
  else if magnitude = .zero then "0"
  else (Decimal.shortest magnitude).positional

/-- A zero keeps its sign, and a NaN has none. -/
def Binary64.display : Binary64 → String
  | .nan => "NaN"
  | .signed negative magnitude => (if negative then "-" else "") ++ magnitude.display

end FormulaScript.Number

namespace FormulaScript

/-- The value of a numeric literal. -/
inductive Number where
  | integer (value : Int)
  | float (value : Number.Binary64)
  /-- An integer written with the suffix of long ones. -/
  | long (value : Int)
deriving DecidableEq, Repr

namespace Number

def toBinary64 : Number → Binary64
  | .integer value => .ofInt value
  | .float value => value
  | .long value => .ofInt value

def toInt? : Number → Option Int
  | .integer value => some value
  | .float _ => none
  | .long value => some value

def isInteger (number : Number) : Bool :=
  number.toInt?.isSome

def display : Number → String
  | .integer value => value.repr
  | .float value => value.display
  | .long value => value.repr ++ "L"

end Number

end FormulaScript
