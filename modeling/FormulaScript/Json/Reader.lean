import FormulaScript.Json.Token

/-!
Reading a value from its tokens, with a stack of the arrays and objects that are open.
-/

namespace FormulaScript.Json

/-- An open array, or an open object with the key that waits for its value. Contents are kept last first. -/
inductive Frame where
  | array (items : List Value)
  | object (members : List (List StringUnit × Value)) (key : List StringUnit)

/-- What may come next. -/
inductive Expected where
  | value
  /-- A value or the end of an array. -/
  | firstItem
  | key
  /-- A key or the end of an object. -/
  | firstKey
  | colon
  /-- A comma or the end of what is open. -/
  | separator

inductive Reader where
  | reading (frames : List Frame) (expected : Expected)
  | done (value : Value)

namespace Reader

/-- Takes a complete value into the innermost frame. -/
def deliver (value : Value) : List Frame → Reader
  | [] => .done value
  | .array items :: outer => .reading (.array (value :: items) :: outer) .separator
  | .object members key :: outer =>
      .reading (.object ((key, value) :: members) [] :: outer) .separator

/-- Closes the innermost frame with the mark that fits it. -/
def close? (c : Char) : List Frame → Option Reader
  | .array items :: outer =>
      if c = ']' then some (deliver (.array items.reverse) outer) else none
  | .object members _ :: outer =>
      if c = '\x7d' then some (deliver (.object members.reverse) outer) else none
  | [] => none

def beginValue? (frames : List Frame) : Token → Option Reader
  | .scalar value => some (deliver value frames)
  | .mark '[' => some (.reading (.array [] :: frames) .firstItem)
  | .mark '\x7b' => some (.reading (.object [] [] :: frames) .firstKey)
  | .mark _ => none

def beginMember? (frames : List Frame) (token : Token) : Option Reader :=
  match frames, token with
  | .object members _ :: outer, .scalar (.string key) =>
      some (.reading (.object members key :: outer) .colon)
  | _, _ => none

/-- What a comma asks for. -/
def afterComma? : List Frame → Option Expected
  | .array _ :: _ => some .value
  | .object _ _ :: _ => some .key
  | [] => none

def step? (reader : Reader) (token : Token) : Option Reader :=
  match reader with
  | .done _ => none
  | .reading frames expected =>
      match expected, token with
      | .value, token => beginValue? frames token
      | .firstItem, .mark ']' => close? ']' frames
      | .firstItem, token => beginValue? frames token
      | .key, token => beginMember? frames token
      | .firstKey, .mark '\x7d' => close? '\x7d' frames
      | .firstKey, token => beginMember? frames token
      | .colon, .mark ':' => some (.reading frames .value)
      | .colon, _ => none
      | .separator, .mark ',' => (afterComma? frames).map (.reading frames)
      | .separator, .mark c => close? c frames
      | .separator, .scalar _ => none

end Reader

/-- The value that a text consists of. -/
def parse? (text : String) : Option Value := do
  let tokens ← tokens? text.toList
  match ← tokens.foldlM Reader.step? (.reading [] .value) with
  | .done value => return value
  | .reading _ _ => none

end FormulaScript.Json
