import FormulaScript.Lexeme.Spelling
import FormulaScript.Proofs.Checked.Basic
import FormulaScript.Proofs.Lexeme.Quoted

/-!
# Checked reading of a lexeme

What a lexeme means is cut out of the text between the offsets at which it stands, and the digits of
a number are counted in words. Both are without a fault in a text whose length fits into a word.
-/

namespace FormulaScript

open Checked

theorem Text.SuffixAt.length_le {source characters front : List Char} {start : Nat}
    (hat : SuffixAt source start characters) (hfront : front <+: characters) :
    front.length ≤ byteLength source := by
  have htotal := hat.add_byteLength
  have hlength := length_le_byteLength characters
  have hprefix := hfront.length_le
  omega

/-! ### Numbers -/

namespace Checked

/-- A count in a signed word. -/
def natInt32 (value : Nat) : Except Fault Nat := do
  let word ← int32 value
  .ok word.toNat

theorem natInt32_eq_ok {value : Nat} (hvalue : value < 2 ^ 31) : natInt32 value = .ok value := by
  rw [natInt32, bind_ok (int32_eq_ok (by omega) (by exact_mod_cast hvalue)), Int.toNat_natCast]

/-- Counts one by one, in words of some kind. -/
def countIn (word : Nat → Except Fault Nat) (characters : List Char) : Except Fault Nat :=
  characters.foldlM (fun count _ => word (count + 1)) 0

theorem countIn_eq_ok {word : Nat → Except Fault Nat} {limit : Nat}
    (hword : ∀ value, value < limit → word value = .ok value) {characters : List Char}
    (hlength : characters.length < limit) : countIn word characters = .ok characters.length := by
  have hfold (rest : List Char) (count : Nat) (hcount : count + rest.length < limit) :
      rest.foldlM (fun count _ => word (count + 1)) count = .ok (count + rest.length) := by
    induction rest generalizing count with
    | nil => rfl
    | cons c rest ih =>
        rw [List.length_cons] at hcount ⊢
        rw [List.foldlM_cons, bind_ok (hword (count + 1) (by omega)), ih (count + 1) (by omega),
          Nat.add_assoc, Nat.add_comm 1]
  simpa [countIn] using hfold characters 0 (by omega)

end Checked

namespace Exponent

/-- The exponent stops at its limit, so that the next digit can be put behind it. -/
def magnitudeChecked (exponent : Exponent) : Except Fault Nat :=
  exponent.digits.foldlM
    (fun value digit => natInt32 (min (10 * value + Text.digitValue digit) limit)) 0

/-- The digits are counted as well, since a sign belongs to the exponent only in front of them. -/
def valueChecked (exponent : Exponent) : Except Fault Int := do
  let _ ← countIn (uint32 ·) exponent.digits
  let magnitude ← exponent.magnitudeChecked
  if exponent.isNegative then int32 (-magnitude) else .ok magnitude

theorem magnitudeChecked_eq_ok (exponent : Exponent) :
    exponent.magnitudeChecked = .ok exponent.magnitude := by
  have hstep (value : Nat) (digit : Char) (_ : True) :
      natInt32 (min (10 * value + Text.digitValue digit) limit) =
        .ok (min (10 * value + Text.digitValue digit) limit) :=
    natInt32_eq_ok (Nat.lt_of_le_of_lt (Nat.min_le_right _ _) (by decide))
  exact foldlM_eq_ok hstep (fun _ _ _ => trivial) exponent.digits trivial

theorem magnitude_le (exponent : Exponent) : exponent.magnitude ≤ limit := by
  rw [magnitude]
  cases hdigits : exponent.digits.reverse with
  | nil => simp [List.reverse_eq_nil_iff.mp hdigits]
  | cons digit front =>
      have hsplit : exponent.digits = front.reverse ++ [digit] := by
        rw [← List.reverse_reverse exponent.digits, hdigits, List.reverse_cons]
      rw [hsplit, List.foldl_append, List.foldl_cons, List.foldl_nil]
      exact Nat.min_le_right _ _

theorem valueChecked_eq_ok {exponent : Exponent} (hlength : exponent.digits.length < 2 ^ 31) :
    exponent.valueChecked = .ok exponent.value := by
  have hle : exponent.magnitude ≤ 2 ^ 31 - 1 := exponent.magnitude_le
  rw [valueChecked, value, bind_ok (countIn_eq_ok (fun _ => uint32_eq_ok) (by omega)),
    bind_ok exponent.magnitudeChecked_eq_ok]
  split_ifs
  · exact int32_eq_ok (by omega) (by omega)
  · rfl

end Exponent

namespace DecimalLiteral

def lexemeChecked (literal : DecimalLiteral) : Except Fault Lexeme := do
  let fractionLength ← countIn natInt32 literal.fractionDigits
  let exponent ← literal.exponent?.elim (.ok 0) Exponent.valueChecked
  let number := numberOf literal.digits fractionLength exponent literal.fraction?.isSome
  .ok { literal.lexeme with content := .number number }

theorem lexemeChecked_eq_ok {literal : DecimalLiteral}
    (hlength : literal.spelling.length < 2 ^ 31) :
    literal.lexemeChecked = .ok literal.lexeme := by
  obtain ⟨whole, fraction?, exponent?⟩ := literal
  have hfraction : (fraction?.getD []).length < 2 ^ 31 := by
    cases fraction? with
    | none => exact Nat.two_pow_pos 31
    | some digits =>
        simp only [spelling, Option.elim_some, List.length_append, List.length_cons] at hlength
        rw [Option.getD_some]
        omega
  have hexponent : exponent?.elim (.ok 0) Exponent.valueChecked =
      .ok (exponent?.elim 0 Exponent.value) := by
    cases exponent? with
    | none => rfl
    | some exponent =>
        simp only [spelling, Option.elim_some, Exponent.spelling, List.length_append,
          List.length_cons] at hlength
        exact Exponent.valueChecked_eq_ok (by omega)
  rw [lexemeChecked, fractionDigits, bind_ok (countIn_eq_ok (fun _ => natInt32_eq_ok) hfraction),
    bind_ok hexponent]
  rfl

end DecimalLiteral

namespace Lexeme

def numberChecked? (characters : List Char) : Except Fault (Option Lexeme) :=
  if beginsNumber characters then
    match HexLiteral.first? characters with
    | some literal => .ok (some literal.lexeme)
    | none => do
        let lexeme ← (DecimalLiteral.first characters).lexemeChecked
        .ok (some lexeme)
  else .ok none

theorem numberChecked?_eq_ok {characters : List Char} (hlength : characters.length < 2 ^ 31) :
    numberChecked? characters = .ok (number? characters) := by
  have hdecimal := (DecimalLiteral.spelling_first_isPrefix characters).length_le
  rw [numberChecked?, number?]
  split_ifs
  · cases HexLiteral.first? characters with
    | some literal => rfl
    | none =>
        dsimp only
        rw [bind_ok (DecimalLiteral.lexemeChecked_eq_ok (by omega))]
  · rfl

/-! ### What is cut out of the text -/

/-- The lexeme with its contents cut out of the text, where they are what it is spelled with. -/
def cutOut (source : List Char) (start : Nat) (lexeme : Lexeme) : Except Fault Lexeme := do
  let spelling ← Text.sliceChecked source start (start + lexeme.byteLength)
  .ok { lexeme with content := .text (.ofList spelling) }

theorem cutOut_eq_ok {source characters : List Char} {start : Nat}
    (hat : Text.SuffixAt source start characters) {lexeme : Lexeme}
    (hspelling : lexeme.spelling <+: characters)
    (hcontent : lexeme.content = .text (.ofList lexeme.spelling)) :
    lexeme.cutOut source start = .ok lexeme := by
  rw [cutOut, byteLength, bind_ok (Text.sliceChecked_eq_ok hat hspelling), ← hcontent]

end Lexeme

namespace Quoted

/-- Without escapes the contents stand between the marks as they are. -/
def lexemeChecked (source : List Char) (start : Nat) (quote : Quote) (quoted : Quoted) :
    Except Fault Lexeme :=
  match quote with
  | .single => do
      let lexeme := quoted.lexeme .single
      let stop := start + lexeme.byteLength - if quoted.closed then 1 else 0
      let contents ← Text.sliceChecked source (start + 1) stop
      .ok { lexeme with content := .text (.ofList contents) }
  | quote => .ok (quoted.lexeme quote)

def firstChecked? (source : List Char) (start : Nat) : List Char → Except Fault (Option Lexeme)
  | [] => .ok none
  | c :: rest =>
      match Quote.all.find? (·.mark == c) with
      | none => .ok none
      | some quote => do
          let lexeme ← (read quote rest).lexemeChecked source start quote
          .ok (some lexeme)

theorem lexemeChecked_eq_ok {source rest : List Char} {start : Nat} {quote : Quote}
    (hat : Text.SuffixAt source start (quote.mark :: rest)) :
    (read quote rest).lexemeChecked source start quote = .ok ((read quote rest).lexeme quote) := by
  cases quote with
  | double => rfl
  | backtick => rfl
  | single =>
      have hmark : Text.byteLength [Quote.single.mark] = 1 := rfl
      have hrest : Text.SuffixAt source (start + Text.byteLength [Quote.single.mark]) rest :=
        Text.SuffixAt.drop hat
      rw [hmark] at hrest
      have hspelling := spelling_read .single rest
      rw [Quote.encode_single] at hspelling
      have hcontents : (read .single rest).contents <+: rest :=
        List.IsPrefix.trans (by rw [hspelling]; exact List.prefix_append _ _)
          (spelling_read_isPrefix .single rest)
      have hstop : start + ((read .single rest).lexeme .single).byteLength -
          (if (read .single rest).closed then 1 else 0) =
            start + 1 + Text.byteLength (read .single rest).contents := by
        rw [Text.byteLength_cons, Text.byteLength_nil] at hmark
        rw [Lexeme.byteLength, lexeme, Text.byteLength_cons, hspelling, Text.byteLength_append]
        split_ifs
        · rw [Text.byteLength_cons, Text.byteLength_nil]
          omega
        · rw [Text.byteLength_nil]
          omega
      rw [lexemeChecked, hstop, bind_ok (Text.sliceChecked_eq_ok hrest hcontents)]
      rfl

theorem firstChecked?_eq_ok {source characters : List Char} {start : Nat}
    (hat : Text.SuffixAt source start characters) :
    firstChecked? source start characters = .ok (first? characters) := by
  cases characters with
  | nil => rfl
  | cons c rest =>
      rw [firstChecked?, first?]
      cases hquote : Quote.all.find? (·.mark == c) with
      | none => rfl
      | some quote =>
          have hmark : quote.mark = c := by simpa using List.find?_some hquote
          rw [← hmark] at hat
          dsimp only
          rw [bind_ok (lexemeChecked_eq_ok hat)]
          rfl

end Quoted

namespace Word

/-- The run is cut out to be looked up, and then the lexeme, to which a colon may belong as well. -/
def firstChecked? (unicode : Bool) (source : List Char) (start : Nat) (characters : List Char) :
    Except Fault (Option Lexeme) :=
  match run? unicode characters with
  | none => .ok none
  | some run => do
      let name ← Text.sliceChecked source start (start + Text.byteLength run)
      let lexeme ← (classify name (characters.drop run.length)).cutOut source start
      .ok (some lexeme)

theorem content_classify (run rest : List Char) :
    (classify run rest).content = .text (.ofList (classify run rest).spelling) := by
  unfold classify
  split
  · rfl
  · split <;> rfl

theorem firstChecked?_eq_ok (unicode : Bool) {source characters : List Char} {start : Nat}
    (hat : Text.SuffixAt source start characters) :
    firstChecked? unicode source start characters = .ok (first? unicode characters) := by
  cases hrun : run? unicode characters with
  | none => rw [firstChecked?, first?, hrun, Option.map_none]
  | some run =>
      have hfirst : first? unicode characters =
          some (classify run (characters.drop run.length)) := by
        rw [first?, hrun, Option.map_some]
      have hspelling := (spelling_isPrefix_of_first? hfirst).1
      rw [firstChecked?, hrun, hfirst]
      dsimp only
      rw [bind_ok (Text.sliceChecked_eq_ok hat (run?_isPrefix hrun).1),
        bind_ok (Lexeme.cutOut_eq_ok hat hspelling (content_classify _ _))]

end Word

namespace Lexeme

/-- The lexeme at the front of what stands at an offset of the source. -/
def firstChecked? (options : Options) (source : List Char) (start : Nat) (characters : List Char) :
    Except Fault (Option Lexeme) := do
  match ← numberChecked? characters with
  | some lexeme => .ok (some lexeme)
  | none =>
    match ← Quoted.firstChecked? source start characters with
    | some lexeme => .ok (some lexeme)
    | none =>
      match Operator.first? options.mode characters with
      | some operator => do
          let lexeme ← operator.lexeme.cutOut source start
          .ok (some lexeme)
      | none => Word.firstChecked? options.unicodeIdentifiers source start characters

theorem firstChecked?_eq_ok (options : Options) {source characters : List Char} {start : Nat}
    (hat : Text.SuffixAt source start characters) (hlength : Text.byteLength source < 2 ^ 31) :
    firstChecked? options source start characters = .ok (first? options characters) := by
  have hle := hat.length_le List.prefix_rfl
  rw [firstChecked?, first?, bind_ok (numberChecked?_eq_ok (by omega))]
  cases number? characters with
  | some lexeme => rfl
  | none =>
      dsimp only
      rw [bind_ok (Quoted.firstChecked?_eq_ok hat)]
      cases Quoted.first? characters with
      | some lexeme => rfl
      | none =>
          cases hoperator : Operator.first? options.mode characters with
          | some operator =>
              have hspelling := Operator.spelling_isPrefix_of_first? hoperator
              dsimp only
              rw [bind_ok (cutOut_eq_ok hat hspelling rfl)]
              rfl
          | none => exact Word.firstChecked?_eq_ok _ hat

end Lexeme

end FormulaScript
