namespace FormulaScript

/-- How a text is read. -/
inductive Mode where
  /-- The whole text is a script. -/
  | script
  /-- The text is literal, with scripts substituted into it. -/
  | template
deriving DecidableEq, Repr, Inhabited

structure Options where
  mode : Mode := .script
  unicodeIdentifiers : Bool := false
deriving DecidableEq, Repr, Inhabited

inductive OptionsError where
  | malformedJson
  | unknownMode (text : String)
deriving DecidableEq, Repr

namespace Mode

def all : List Mode :=
  [.script, .template]

def name : Mode → String
  | .script => "script"
  | .template => "template"

/-- The mode of a name, in either case of ASCII letters. -/
def ofText (text : String) : Except OptionsError Mode :=
  match all.find? (·.name == text.toLower) with
  | some mode => .ok mode
  | none => .error (.unknownMode text)

end Mode

def OptionsError.message : OptionsError → String
  | .malformedJson => "invalid scanner options"
  | .unknownMode text =>
      "unknown source mode `" ++ text ++ "`, expected `script` or `template`"

end FormulaScript
