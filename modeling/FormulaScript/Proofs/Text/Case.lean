import FormulaScript.Proofs.Text.Cursor
import FormulaScript.Text.Character
import Mathlib

/-!
# Upper and lower case

Only the letters of ASCII have two cases here. A letter takes as many bytes in either case, belongs
to the same classes of characters, and is the same digit, and no other character becomes one by a
change of case.
-/

namespace FormulaScript

namespace Text

def upperLetters : List Char :=
  (List.range 26).map fun index => Char.ofNat ('A'.toNat + index)

theorem toLower_eq_or_mem (c : Char) : c.toLower = c ∨ c ∈ upperLetters := by
  by_cases hupper : c.isUpper
  · have hbounds : 65 ≤ c.toNat ∧ c.toNat ≤ 90 := of_decide_eq_true hupper
    have hindex : 'A'.toNat + (c.toNat - 65) = c.toNat := by
      change 65 + (c.toNat - 65) = c.toNat
      omega
    right
    rw [upperLetters, List.mem_map]
    refine ⟨c.toNat - 65, List.mem_range.mpr (by omega), ?_⟩
    rw [hindex, Char.ofNat_toNat]
  · exact .inl (Char.toLower_eq_of_not_isUpper hupper)

/-- What does not tell the cases of a letter apart does not tell those of a character apart. -/
theorem apply_toLower {α : Type} (f : Char → α)
    (hletters : upperLetters.map (fun c => f c.toLower) = upperLetters.map f) (c : Char) :
    f c.toLower = f c := by
  rcases toLower_eq_or_mem c with hsame | hletter
  · rw [hsame]
  · exact List.map_inj_left.mp hletters c hletter

theorem utf8Size_toLower (c : Char) : c.toLower.utf8Size = c.utf8Size :=
  apply_toLower Char.utf8Size (by decide +kernel) c

theorem digitValue_toLower (c : Char) : digitValue c.toLower = digitValue c :=
  apply_toLower digitValue (by decide) c

theorem toLower_of_not_isAlpha {c : Char} (hc : c.isAlpha = false) : c.toLower = c := by
  rw [Char.isAlpha, Bool.or_eq_false_iff] at hc
  exact Char.toLower_eq_of_not_isUpper (by simp [hc.1])

theorem toLower_eq_iff {mark : Char} (hmark : mark.isAlpha = false) (c : Char) :
    c.toLower = mark ↔ c = mark := by
  constructor
  · rintro rfl
    rw [Char.isAlpha_toLower_eq_isAlpha] at hmark
    exact (toLower_of_not_isAlpha hmark).symm
  · rintro rfl
    exact toLower_of_not_isAlpha hmark

/-! ### Classes of characters -/

/-- A class of characters that has each letter in both cases or in none. -/
def IgnoresCase (keep : Char → Bool) : Prop :=
  ∀ c, keep c.toLower = keep c

theorem ignoresCase_of_letters {keep : Char → Bool}
    (hletters : upperLetters.map (fun c => keep c.toLower) = upperLetters.map keep) :
    IgnoresCase keep :=
  apply_toLower keep hletters

theorem ignoresCase_endsLine : IgnoresCase endsLine :=
  ignoresCase_of_letters (by decide)

theorem ignoresCase_isBlank : IgnoresCase isBlank :=
  ignoresCase_of_letters (by decide)

theorem ignoresCase_isDigit : IgnoresCase isDigit :=
  ignoresCase_of_letters (by decide)

theorem ignoresCase_isHexDigit : IgnoresCase isHexDigit :=
  ignoresCase_of_letters (by decide)

theorem ignoresCase_beginsIdentifier (unicode : Bool) :
    IgnoresCase (beginsIdentifier unicode) :=
  ignoresCase_of_letters (by cases unicode <;> decide)

theorem ignoresCase_continuesIdentifier (unicode : Bool) :
    IgnoresCase (continuesIdentifier unicode) :=
  ignoresCase_of_letters (by cases unicode <;> decide)

theorem toLower_of_not_begins {unicode : Bool} {c : Char}
    (hbegins : beginsIdentifier unicode c = false) : c.toLower = c := by
  have hletters : upperLetters.all (beginsIdentifier unicode) := by cases unicode <;> decide
  rcases toLower_eq_or_mem c with hsame | hletter
  · exact hsame
  · rw [List.all_eq_true.mp hletters c hletter] at hbegins
    cases hbegins

theorem IgnoresCase.not {keep : Char → Bool} (hkeep : IgnoresCase keep) :
    IgnoresCase (!keep ·) :=
  fun c => congrArg Bool.not (hkeep c)

/-! ### Texts -/

def lower (characters : List Char) : List Char :=
  characters.map Char.toLower

section

variable {keep : Char → Bool} {characters : List Char}

@[simp]
theorem lower_nil : lower [] = [] := rfl

@[simp]
theorem lower_cons (c : Char) (back : List Char) : lower (c :: back) = c.toLower :: lower back :=
  rfl

@[simp]
theorem lower_append (front back : List Char) : lower (front ++ back) = lower front ++ lower back :=
  List.map_append

@[simp]
theorem length_lower (characters : List Char) : (lower characters).length = characters.length :=
  List.length_map _

theorem isEmpty_lower (characters : List Char) : (lower characters).isEmpty = characters.isEmpty :=
  List.isEmpty_map

theorem drop_lower (count : Nat) (characters : List Char) :
    (lower characters).drop count = lower (characters.drop count) :=
  (List.map_drop).symm

theorem head?_lower (characters : List Char) :
    (lower characters).head? = characters.head?.map Char.toLower :=
  List.head?_map

theorem head?_lower_eq_some_iff {mark : Char} (hmark : mark.isAlpha = false) :
    (lower characters).head? = some mark ↔ characters.head? = some mark := by
  rw [head?_lower, Option.map_eq_some_iff]
  constructor
  · rintro ⟨c, hhead, hc⟩
    rw [hhead, (toLower_eq_iff hmark c).mp hc]
  · exact fun hhead => ⟨mark, hhead, (toLower_eq_iff hmark mark).mpr rfl⟩

theorem byteLength_lower (characters : List Char) :
    byteLength (lower characters) = byteLength characters := by
  induction characters with
  | nil => rfl
  | cons c rest ih => rw [lower_cons, byteLength_cons, byteLength_cons, ih, utf8Size_toLower]

theorem takeWhile_lower (hkeep : IgnoresCase keep) (characters : List Char) :
    (lower characters).takeWhile keep = lower (characters.takeWhile keep) := by
  have hsame : keep ∘ Char.toLower = keep := funext hkeep
  rw [lower, List.takeWhile_map, hsame, lower]

theorem dropWhile_lower (hkeep : IgnoresCase keep) (characters : List Char) :
    (lower characters).dropWhile keep = lower (characters.dropWhile keep) := by
  have hsame : keep ∘ Char.toLower = keep := funext hkeep
  rw [lower, List.dropWhile_map, hsame, lower]

theorem any_lower (hkeep : IgnoresCase keep) (characters : List Char) :
    (lower characters).any keep = characters.any keep := by
  have hsame : keep ∘ Char.toLower = keep := funext hkeep
  rw [lower, List.any_map, hsame]

theorem foldl_lower {α : Type} {step : α → Char → α}
    (hstep : ∀ value c, step value c.toLower = step value c) (start : α) (characters : List Char) :
    (lower characters).foldl step start = characters.foldl step start := by
  have hsame : (fun value c => step value c.toLower) = step :=
    funext fun value => funext (hstep value)
  rw [lower, List.foldl_map, hsame]

theorem digitsValue_lower (base : Nat) (digits : List Char) :
    digitsValue base (lower digits) = digitsValue base digits :=
  foldl_lower (fun value c => by rw [digitValue_toLower]) 0 digits

theorem count_lower {mark : Char} (hmark : mark.isAlpha = false) (characters : List Char) :
    (lower characters).count mark = characters.count mark := by
  induction characters with
  | nil => rfl
  | cons c rest ih =>
      have hhead : (c.toLower == mark) = (c == mark) := by
        rw [Bool.eq_iff_iff, beq_iff_eq, beq_iff_eq]
        exact toLower_eq_iff hmark c
      rw [lower_cons, List.count_cons, List.count_cons, ih, hhead]

theorem lower_lower (characters : List Char) : lower (lower characters) = lower characters := by
  have hsame : Char.toLower ∘ Char.toLower = Char.toLower :=
    funext Char.toLower_toLower_eq_toLower
  rw [lower, lower, List.map_map, hsame]

theorem lower_eq_self (hcharacters : ∀ c ∈ characters, c.isAlpha = false) :
    lower characters = characters := by
  have hsame : characters.map Char.toLower = characters.map id :=
    List.map_inj_left.mpr fun c hmem => toLower_of_not_isAlpha (hcharacters c hmem)
  rw [lower, hsame, List.map_id]

theorem utf8ByteSize_lower (characters : List Char) :
    (String.ofList (lower characters)).utf8ByteSize = (String.ofList characters).utf8ByteSize := by
  rw [String.utf8ByteSize_ofList, String.utf8ByteSize_ofList]
  induction characters with
  | nil => rfl
  | cons c rest ih =>
      rw [lower_cons, String.utf8Len_cons, String.utf8Len_cons, ih, utf8Size_toLower]

theorem toLower_ofList (characters : List Char) :
    (String.ofList characters).toLower = .ofList (lower characters) := by
  apply String.toList_injective
  rw [String.toLower, String.toList_map, String.toList_ofList, String.toList_ofList, lower]

theorem toLower_toUpper (string : String) : string.toUpper.toLower = string.toLower := by
  apply String.toList_injective
  simp [String.toLower, String.toUpper, String.toList_map, Function.comp_def]

theorem toUpper_toLower (string : String) : string.toLower.toUpper = string.toUpper := by
  apply String.toList_injective
  simp [String.toLower, String.toUpper, String.toList_map, Function.comp_def]

theorem toUpper_eq_iff {string other : String} :
    string.toUpper = other.toUpper ↔ string.toLower = other.toLower := by
  constructor <;> intro hsame
  · rw [← toLower_toUpper, hsame, toLower_toUpper]
  · rw [← toUpper_toLower, hsame, toUpper_toLower]

theorem utf8ByteSize_toLower (string : String) :
    string.toLower.utf8ByteSize = string.utf8ByteSize := by
  have hsize := utf8ByteSize_lower string.toList
  rwa [← toLower_ofList, String.ofList_toList] at hsize

end

end Text

/-! ### Line feeds -/

theorem LineBreaks.scan_lower (offset : Nat) (characters : List Char) :
    scan offset (Text.lower characters) = scan offset characters := by
  induction characters generalizing offset with
  | nil => rfl
  | cons c rest ih =>
      have hfeed : c.toLower = '\n' ↔ c = '\n' := Text.toLower_eq_iff (by decide) c
      rw [Text.lower_cons, scan, scan, ih, Text.utf8Size_toLower]
      simp only [hfeed]

namespace Cursor

variable {source source' : List Char} {left right : Cursor}

theorem lower_current (cursor : Cursor) :
    Text.lower cursor.current.toList = (Text.lower cursor.remaining).head?.toList := by
  rw [Text.head?_lower, head?_remaining]
  cases cursor.current <;> rfl

/-- At the same place of two texts that differ in case only, the same line feeds are known. -/
theorem Tracks.lines_eq (hleft : left.Tracks source) (hright : right.Tracks source')
    (hsource : Text.lower source' = Text.lower source)
    (hremaining : Text.lower right.remaining = Text.lower left.remaining) :
    right.lines = left.lines := by
  obtain ⟨passed, hsplit, -, hlines⟩ := hleft
  obtain ⟨passed', hsplit', -, hlines'⟩ := hright
  have hpassed : Text.lower passed' = Text.lower passed := by
    rw [hsplit, hsplit', Text.lower_append, Text.lower_append, hremaining] at hsource
    exact List.append_cancel_right hsource
  have hcurrent : Text.lower right.current.toList = Text.lower left.current.toList := by
    rw [lower_current, lower_current, hremaining]
  apply LineBreaks.eq_of_toList_eq
  calc right.lines.offsets.toList
      = LineBreaks.scan 0 (Text.lower (passed' ++ right.current.toList)) := by
        rw [hlines', LineBreaks.scan_lower]
    _ = LineBreaks.scan 0 (Text.lower (passed ++ left.current.toList)) := by
        rw [Text.lower_append, Text.lower_append, hpassed, hcurrent]
    _ = left.lines.offsets.toList := by rw [LineBreaks.scan_lower, hlines]

end Cursor

end FormulaScript
