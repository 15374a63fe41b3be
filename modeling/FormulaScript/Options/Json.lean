import FormulaScript.Json.Reader
import FormulaScript.Options.Basic

/-!
Options as a JSON object. Keys that name no option are ignored, and options without a key take their
defaults.
-/

namespace FormulaScript.Options

def modeKey : String := "mode"

def unicodeKey : String := "unicodeIdentifiers"

/-- The value of a key that may appear at most once, or else a default. -/
def field? {α : Type} (members : List (String × Json.Value)) (key : String) (default : α)
    (read? : Json.Value → Option α) : Option α :=
  match members.filter (·.1 == key) with
  | [] => some default
  | [(_, value)] => read? value
  | _ => none

/-- Here a mode goes by its exact name. -/
def mode? : Json.Value → Option Mode
  | .string units => do
      let text ← Json.decode? units
      Mode.all.find? (·.name == text)
  | _ => none

def flag? : Json.Value → Option Bool
  | .bool flag => some flag
  | _ => none

def ofValue? : Json.Value → Option Options
  | .object members => do
      let members ← members.mapM fun (key, value) => (Json.decode? key).map (·, value)
      let mode ← field? members modeKey .script mode?
      let unicodeIdentifiers ← field? members unicodeKey false flag?
      return ⟨mode, unicodeIdentifiers⟩
  | _ => none

def ofJson (content : String) : Except OptionsError Options :=
  match (Json.parse? content).bind ofValue? with
  | some options => .ok options
  | none => .error .malformedJson

def toJson (options : Options) : String :=
  let flag := if options.unicodeIdentifiers then "true" else "false"
  "\x7b\"" ++ modeKey ++ "\":\"" ++ options.mode.name ++ "\",\"" ++ unicodeKey ++ "\":" ++ flag ++
    "\x7d"

end FormulaScript.Options
