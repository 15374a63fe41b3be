import FormulaScript.Lexeme.Spelling
import Mathlib.Tactic.Common

/-!
# Where a lexeme ends

A lexeme ends before the first character that cannot carry it on, and semicolons, spaces and line
feeds carry no lexeme on. So a lexeme stays the same when such a separator, or nothing at all, is
written somewhere behind it in place of what was there, with one exception: a point that is parted
from its digits would join a question mark.
-/

namespace FormulaScript

/-- Characters that carry no lexeme on. -/
def separators : List Char :=
  [';', ' ', '\n']

/-- The text is empty or begins with a separator. -/
def Separated (back : List Char) : Prop :=
  ∀ c ∈ back.head?, c ∈ separators

theorem separated_cons {c : Char} (hc : c ∈ separators) (back : List Char) :
    Separated (c :: back) := by
  intro head hhead
  rwa [← Option.some.inj hhead]

theorem separated_semicolon (back : List Char) : Separated (';' :: back) :=
  separated_cons (by decide) back

/-- What stops at the one text stops at the other as well, if it stops at separators. -/
def StopsAlike (rest rest' : List Char) : Prop :=
  rest'.head? = rest.head? ∨ Separated rest'

section Runs

variable {rest rest' : List Char} {keep : Char → Bool}

theorem StopsAlike.keep_eq_false (hstops : StopsAlike rest rest')
    (hkeep : separators.all (!keep ·)) (hrest : ∀ c ∈ rest.head?, keep c = false) :
    ∀ c ∈ rest'.head?, keep c = false := by
  intro c hc
  rcases hstops with hsame | hseparated
  · exact hrest c (hsame ▸ hc)
  · simpa using List.all_eq_true.mp hkeep c (hseparated c hc)

/-- A character that is no separator stands in front of the one text only if it does of the other. -/
theorem StopsAlike.head?_eq_some (hstops : StopsAlike rest rest') {c : Char}
    (hc : c ∉ separators) (hhead : rest'.head? = some c) : rest.head? = some c := by
  rcases hstops with hsame | hseparated
  · rw [← hsame, hhead]
  · exact absurd (hseparated c hhead) hc

theorem StopsAlike.append (hstops : StopsAlike rest rest') (text : List Char) :
    StopsAlike (text ++ rest) (text ++ rest') := by
  cases text with
  | nil => exact hstops
  | cons c text => exact .inl rfl

theorem takeWhile_eq_nil_iff_head? (characters : List Char) :
    characters.takeWhile keep = [] ↔ ∀ c ∈ characters.head?, keep c = false := by
  cases characters <;> simp [List.takeWhile_cons]

theorem dropWhile_eq_self_of_head? {characters : List Char}
    (hhead : ∀ c ∈ characters.head?, keep c = false) : characters.dropWhile keep = characters := by
  cases characters with
  | nil => rfl
  | cons c rest => simp [hhead c rfl]

/-- A run that ends within some text does not depend on what follows. -/
theorem exists_run (hstops : StopsAlike rest rest')
    (hkeep : separators.all (!keep ·)) (text : List Char)
    (hle : ((text ++ rest).takeWhile keep).length ≤ text.length) :
    ∃ run back, text = run ++ back ∧
      (text ++ rest).takeWhile keep = run ∧ (text ++ rest).dropWhile keep = back ++ rest ∧
      (text ++ rest').takeWhile keep = run ∧ (text ++ rest').dropWhile keep = back ++ rest' := by
  induction text with
  | nil =>
      have hrun := List.length_eq_zero_iff.mp (Nat.le_zero.mp hle)
      have hhead := (takeWhile_eq_nil_iff_head? rest).mp hrun
      have hhead' := hstops.keep_eq_false hkeep hhead
      exact ⟨[], [], rfl, hrun, dropWhile_eq_self_of_head? hhead,
        (takeWhile_eq_nil_iff_head? rest').mpr hhead', dropWhile_eq_self_of_head? hhead'⟩
  | cons c text ih =>
      by_cases hc : keep c
      · have hle' : ((text ++ rest).takeWhile keep).length ≤ text.length := by
          simpa [hc] using hle
        obtain ⟨run, back, rfl, htake, hdrop, htake', hdrop'⟩ := ih hle'
        refine ⟨c :: run, back, rfl, ?_, ?_, ?_, ?_⟩ <;>
          simp_all
      · refine ⟨[], c :: text, rfl, ?_, ?_, ?_, ?_⟩ <;> simp [hc]

end Runs

/-! ### Numbers -/

section Numbers

variable {text rest rest' : List Char}

theorem Exponent.first?_stable (hstops : StopsAlike rest rest')
    (hle : ((first? (text ++ rest)).elim [] spelling).length ≤ text.length) :
    first? (text ++ rest') = first? (text ++ rest) := by
  cases text with
  | nil =>
      have hhead : ∀ c ∈ rest.head?, isMark c = false := by
        intro c hc
        cases rest with
        | nil => cases hc
        | cons head rest =>
            obtain rfl := Option.some.inj hc
            by_contra hmark
            rw [Bool.not_eq_false] at hmark
            simp [first?, hmark, spelling] at hle
      have hhead' := hstops.keep_eq_false (by decide) hhead
      cases rest <;> cases rest' <;> simp_all [first?]
  | cons c text =>
      by_cases hmark : isMark c
      · simp only [List.cons_append, first?, hmark, if_true, Option.elim_some, spelling,
          List.length_cons, List.length_append] at hle ⊢
        have hsign : separators.all (!isSign ·) := by decide
        have hdigit : separators.all (!Text.isDigit ·) := by decide
        obtain ⟨signs, back, rfl, hsigns, hback, hsigns', hback'⟩ :=
          exists_run hstops hsign text (by omega)
        rw [hsigns, hback] at hle ⊢
        rw [List.length_append] at hle
        obtain ⟨digits, tail, rfl, hdigits, -, hdigits', -⟩ :=
          exists_run hstops hdigit back (by omega)
        rw [hsigns', hback', hdigits, hdigits']
      · simp [first?, hmark]

theorem DecimalLiteral.first_of_point {characters fraction : List Char}
    (hdrop : characters.dropWhile Text.isDigit = '.' :: fraction) :
    first characters =
      ⟨characters.takeWhile Text.isDigit, some (fraction.takeWhile Text.isDigit),
        Exponent.first? (fraction.dropWhile Text.isDigit)⟩ := by
  rw [first, hdrop]
  rfl

theorem DecimalLiteral.first_of_no_point {characters back : List Char}
    (hdrop : characters.dropWhile Text.isDigit = back) (hpoint : back.head? ≠ some '.') :
    first characters = ⟨characters.takeWhile Text.isDigit, none, Exponent.first? back⟩ := by
  rw [first, hdrop]
  split
  · exact absurd rfl hpoint
  · rfl

theorem DecimalLiteral.first_stable (hstops : StopsAlike rest rest')
    (hle : (first (text ++ rest)).spelling.length ≤ text.length) :
    first (text ++ rest') = first (text ++ rest) := by
  have hdigit : separators.all (!Text.isDigit ·) := by decide
  have hwhole : (first (text ++ rest)).whole = (text ++ rest).takeWhile Text.isDigit := by
    unfold first
    split <;> rfl
  have hwhole_le : ((text ++ rest).takeWhile Text.isDigit).length ≤ text.length := by
    rw [← hwhole]
    simp only [spelling, List.length_append] at hle
    omega
  obtain ⟨whole, back, rfl, htake, hdrop, htake', hdrop'⟩ :=
    exists_run hstops hdigit text hwhole_le
  by_cases hpoint : (back ++ rest).head? = some '.'
  · cases back with
    | nil =>
        -- The point and what follows it would belong to the literal.
        obtain ⟨fraction, rfl⟩ : ∃ fraction, rest = '.' :: fraction := by
          cases rest <;> simp_all
        rw [first_of_point hdrop, htake] at hle
        simp only [spelling, Option.elim_some, List.length_append, List.length_cons,
          List.length_nil] at hle
        omega
    | cons c back =>
        obtain rfl : c = '.' := by simpa using hpoint
        rw [List.cons_append] at hdrop hdrop'
        rw [first_of_point hdrop, htake] at hle ⊢
        rw [first_of_point hdrop', htake']
        simp only [spelling, Option.elim_some, List.length_append, List.length_cons] at hle
        obtain ⟨fraction, tail, rfl, hfraction, htail, hfraction', htail'⟩ :=
          exists_run hstops hdigit back (by omega)
        rw [hfraction, htail] at hle ⊢
        rw [List.length_append] at hle
        rw [hfraction', htail', Exponent.first?_stable hstops (by omega)]
  · have hpoint' : (back ++ rest').head? ≠ some '.' := by
      cases back with
      | nil => exact fun hhead => hpoint (hstops.head?_eq_some (by decide) hhead)
      | cons c back => exact hpoint
    rw [first_of_no_point hdrop hpoint, htake] at hle ⊢
    rw [first_of_no_point hdrop' hpoint', htake']
    simp only [spelling, Option.elim_none, List.append_nil, List.length_append] at hle
    rw [Exponent.first?_stable hstops (by omega)]

theorem HexLiteral.first?_zero (mark : Char) (back : List Char) :
    first? ('0' :: mark :: back) =
      if isMark mark then
        some ⟨mark, back.takeWhile Text.isHexDigit,
          (back.dropWhile Text.isHexDigit).head?.filter isSuffix⟩
      else none := rfl

theorem HexLiteral.exists_of_first? {characters : List Char} {literal : HexLiteral}
    (hfirst : first? characters = some literal) :
    ∃ mark back, characters = '0' :: mark :: back ∧ isMark mark = true := by
  unfold first? at hfirst
  split at hfirst
  · split_ifs at hfirst with hmark
    exact ⟨_, _, rfl, hmark⟩
  · cases hfirst

theorem HexLiteral.first?_eq_none_iff {characters : List Char} :
    first? characters = none ↔
      ∀ mark back, characters = '0' :: mark :: back → isMark mark = false := by
  constructor
  · rintro hfirst mark back rfl
    by_contra hmark
    rw [Bool.not_eq_false] at hmark
    rw [first?_zero, if_pos hmark] at hfirst
    cases hfirst
  · intro hmarks
    rw [Option.eq_none_iff_forall_ne_some]
    intro literal hfirst
    obtain ⟨mark, back, hcharacters, hmark⟩ := exists_of_first? hfirst
    rw [hmarks mark back hcharacters] at hmark
    cases hmark

theorem HexLiteral.suffix?_stable_none (hstops : StopsAlike rest rest')
    (hnone : rest.head?.filter isSuffix = none) : rest'.head?.filter isSuffix = none := by
  rw [Option.filter_eq_none_iff] at hnone ⊢
  intro c hc
  have hhead : ∀ c ∈ rest.head?, isSuffix c = false := by simpa using hnone
  rw [hstops.keep_eq_false (by decide) hhead c hc]
  decide

theorem HexLiteral.first?_stable {literal : HexLiteral} (hstops : StopsAlike rest rest')
    (hfirst : first? (text ++ rest) = some literal)
    (hle : literal.spelling.length ≤ text.length) : first? (text ++ rest') = some literal := by
  have hdigit : separators.all (!Text.isHexDigit ·) := by decide
  obtain ⟨mark, back, htext, hmark⟩ := exists_of_first? hfirst
  rw [htext, first?_zero, if_pos hmark] at hfirst
  obtain rfl := Option.some.inj hfirst
  simp only [spelling, List.length_cons, List.length_append] at hle
  rcases text with _ | ⟨zero, _ | ⟨mark', text⟩⟩
  · simp at hle
  · simp at hle
  · obtain ⟨rfl, rfl, rfl⟩ : zero = '0' ∧ mark' = mark ∧ text ++ rest = back := by
      simpa using htext
    simp only [List.length_cons] at hle
    obtain ⟨digits, back, rfl, hdigits, hback, hdigits', hback'⟩ :=
      exists_run hstops hdigit text (by omega)
    rw [List.cons_append, List.cons_append, first?_zero, if_pos hmark, hdigits, hdigits', hback,
      hback']
    cases back with
    | cons _ _ => rfl
    | nil =>
        -- The text is all digits, so that no suffix fits in.
        rw [hdigits, hback, List.nil_append, List.length_append, List.length_nil] at hle
        have hsuffix : rest.head?.filter isSuffix = none := by
          rw [← Option.toList_eq_nil_iff, ← List.length_eq_zero_iff]
          omega
        rw [List.nil_append, List.nil_append, hsuffix, suffix?_stable_none hstops hsuffix]

theorem HexLiteral.first?_stable_none (hstops : StopsAlike rest rest') (htext : text ≠ [])
    (hfirst : first? (text ++ rest) = none) : first? (text ++ rest') = none := by
  rw [first?_eq_none_iff] at hfirst ⊢
  intro mark back hback
  rcases text with _ | ⟨c, _ | ⟨mark', text⟩⟩
  · exact absurd rfl htext
  · obtain ⟨rfl, rfl⟩ := List.cons.inj hback
    have hhead : ∀ c ∈ rest.head?, isMark c = false := by
      intro c hc
      obtain ⟨back, rfl⟩ := List.head?_eq_some_iff.mp hc
      exact hfirst c back rfl
    exact hstops.keep_eq_false (by decide) hhead mark rfl
  · obtain ⟨rfl, rfl, -⟩ : c = '0' ∧ mark' = mark ∧ text ++ rest' = back := by simpa using hback
    exact hfirst mark' (text ++ rest) rfl

/-- Only a point by itself needs what follows to tell whether a number begins with it. -/
theorem Lexeme.beginsNumber_append (htext : text ≠ []) (hpoint : text ≠ ['.']) :
    beginsNumber (text ++ rest') = beginsNumber (text ++ rest) := by
  match text with
  | [c] =>
      have hc : c ≠ '.' := fun h => hpoint (by rw [h])
      simp [beginsNumber, hc]
  | '.' :: c :: text => rfl
  | c :: d :: text =>
      by_cases hc : c = '.'
      · rw [hc]
        rfl
      · simp [beginsNumber, hc]

theorem Lexeme.beginsNumber_point (hstops : StopsAlike rest rest')
    (hbegins : beginsNumber ('.' :: rest) = false) : beginsNumber ('.' :: rest') = false := by
  have hhead : ∀ c ∈ rest.head?, Text.isDigit c = false := by
    intro c hc
    cases rest with
    | nil => cases hc
    | cons head rest =>
        obtain rfl := Option.some.inj hc
        exact hbegins
  have hhead' := hstops.keep_eq_false (by decide) hhead
  cases rest' with
  | nil => rfl
  | cons c rest' => exact hhead' c rfl

theorem Lexeme.number?_stable_none (hstops : StopsAlike rest rest') (htext : text ≠ [])
    (hnumber : number? (text ++ rest) = none) : number? (text ++ rest') = none := by
  have hbegins : beginsNumber (text ++ rest) = false := by
    by_contra hbegins
    rw [Bool.not_eq_false] at hbegins
    rw [number?, if_pos hbegins] at hnumber
    split at hnumber <;> cases hnumber
  have hbegins' : beginsNumber (text ++ rest') = false := by
    by_cases hpoint : text = ['.']
    · subst hpoint
      exact beginsNumber_point hstops hbegins
    · rwa [beginsNumber_append htext hpoint]
  rw [number?, if_neg (by simp [hbegins'])]

/-- A point before a digit begins a number that goes on beyond it. -/
theorem Lexeme.exists_number?_of_point {digit : Char} (hdigit : Text.isDigit digit)
    (rest : List Char) :
    ∃ lexeme, number? ('.' :: digit :: rest) = some lexeme ∧ 2 ≤ lexeme.spelling.length := by
  have hbegins : beginsNumber ('.' :: digit :: rest) = true := hdigit
  have hhex : HexLiteral.first? ('.' :: digit :: rest) = none := rfl
  have hdrop : ('.' :: digit :: rest).dropWhile Text.isDigit = '.' :: digit :: rest := by
    have hpoint : Text.isDigit '.' = false := by decide
    simp [hpoint]
  refine ⟨_, by rw [number?, if_pos hbegins, hhex], ?_⟩
  rw [DecimalLiteral.first_of_point hdrop]
  simp [DecimalLiteral.lexeme, DecimalLiteral.spelling, hdigit]
  omega

theorem Lexeme.number?_stable {lexeme : Lexeme} (hstops : StopsAlike rest rest')
    (hnumber : number? (text ++ rest) = some lexeme)
    (hle : lexeme.spelling.length ≤ text.length) : number? (text ++ rest') = some lexeme := by
  have hne : text ≠ [] := by
    rintro rfl
    exact (spelling_isPrefix_of_number? hnumber).2 (List.length_eq_zero_iff.mp (by simpa using hle))
  by_cases hbegins : beginsNumber (text ++ rest) = true
  · have hpoint : text ≠ ['.'] := by
      rintro rfl
      obtain ⟨digit, back, rfl, hdigit⟩ :
          ∃ digit back, rest = digit :: back ∧ Text.isDigit digit := by
        cases rest with
        | nil => cases hbegins
        | cons digit back => exact ⟨digit, back, rfl, hbegins⟩
      obtain ⟨other, hother, hlength⟩ := exists_number?_of_point hdigit back
      obtain rfl := Option.some.inj (hnumber.symm.trans hother)
      simp only [List.length_singleton] at hle
      omega
    rw [number?, if_pos hbegins] at hnumber
    rw [number?, if_pos ((beginsNumber_append hne hpoint).trans hbegins)]
    cases hhex : HexLiteral.first? (text ++ rest) with
    | some literal =>
        rw [hhex] at hnumber
        obtain rfl := Option.some.inj hnumber
        rw [HexLiteral.first?_stable hstops hhex hle]
    | none =>
        rw [hhex] at hnumber
        obtain rfl := Option.some.inj hnumber
        rw [HexLiteral.first?_stable_none hstops hne hhex, DecimalLiteral.first_stable hstops hle]
  · rw [number?, if_neg hbegins] at hnumber
    cases hnumber

end Numbers

/-! ### Quoted text and words -/

section Words

variable {text rest rest' : List Char}

/-- Whether a character escapes the mark behind it. -/
def Quote.Escapes (quote : Quote) (c : Char) (back : List Char) : Prop :=
  quote.escape? = some c ∧ back.head? = some quote.mark

theorem Quoted.read_escape {quote : Quote} {c : Char} (hescape : quote.escape? = some c)
    (back : List Char) :
    read quote (c :: quote.mark :: back) = cons quote.mark [c, quote.mark] (read quote back) := by
  rw [read, if_pos ⟨hescape, rfl⟩]

theorem Quoted.read_mark {quote : Quote} {back : List Char}
    (hescapes : ¬quote.Escapes quote.mark back) :
    read quote (quote.mark :: back) = ⟨[], [quote.mark], true⟩ := by
  cases back with
  | nil => rw [read, if_pos rfl]
  | cons next back =>
      have hnext : ¬(quote.escape? = some quote.mark ∧ next = quote.mark) :=
        fun h => hescapes ⟨h.1, congrArg some h.2⟩
      rw [read, if_neg hnext, if_pos rfl]

theorem Quoted.read_other {quote : Quote} {c : Char} {back : List Char}
    (hescapes : ¬quote.Escapes c back) (hmark : c ≠ quote.mark) :
    read quote (c :: back) = cons c [c] (read quote back) := by
  cases back with
  | nil => simp [read, hmark, cons]
  | cons next back =>
      have hnext : ¬(quote.escape? = some c ∧ next = quote.mark) :=
        fun h => hescapes ⟨h.1, congrArg some h.2⟩
      rw [read, if_neg hnext, if_neg hmark]

theorem Quoted.spelling_read_ne_nil (quote : Quote) {characters : List Char}
    (hne : characters ≠ []) : (read quote characters).spelling ≠ [] := by
  fun_cases read quote characters <;> simp_all [cons]

/-- Quoted text that is closed is followed by no second mark. If anything follows it, it is closed. -/
theorem Quoted.read_stable (hstops : StopsAlike rest rest') (quote : Quote) :
    ∀ text, (rest = [] → (read quote (text ++ rest)).closed) →
      (read quote (text ++ rest)).spelling = text →
        read quote (text ++ rest') = read quote (text ++ rest)
  | [], hclosed, hspelling => by
      have hrest : rest ≠ [] := by
        rintro rfl
        exact Bool.false_ne_true (hclosed rfl)
      exact absurd hspelling (spelling_read_ne_nil quote hrest)
  | c :: text, hclosed, hspelling => by
      rw [List.cons_append] at hspelling hclosed ⊢
      rw [List.cons_append]
      by_cases hescapes : quote.Escapes c (text ++ rest)
      · obtain ⟨hescape, hhead⟩ := hescapes
        match text with
        | [] =>
            obtain ⟨back, rfl⟩ : ∃ back, rest = quote.mark :: back := by
              cases rest <;> simp_all
            rw [List.nil_append, read_escape hescape] at hspelling
            simp [cons] at hspelling
        | next :: text =>
            obtain rfl : next = quote.mark := by simpa using hhead
            rw [List.cons_append, read_escape hescape] at hspelling hclosed ⊢
            rw [List.cons_append, read_escape hescape,
              read_stable hstops quote text hclosed (by simpa [cons] using hspelling)]
      · by_cases hmark : c = quote.mark
        · subst hmark
          rw [read_mark hescapes] at hspelling ⊢
          obtain rfl : text = [] := by simpa using hspelling
          apply read_mark
          rintro ⟨hescape, hhead⟩
          have hmark : quote.mark ∉ separators := by cases quote <;> decide
          exact hescapes ⟨hescape, hstops.head?_eq_some hmark hhead⟩
        · rw [read_other hescapes hmark] at hspelling hclosed ⊢
          have hback : (read quote (text ++ rest)).spelling = text := by
            simpa [cons] using hspelling
          have hread := read_stable hstops quote text hclosed hback
          have hescapes' : ¬quote.Escapes c (text ++ rest') := by
            cases text with
            | cons next text => exact hescapes
            | nil =>
                rintro ⟨hescape, hhead⟩
                have hmark' : quote.mark ∉ separators := by cases quote <;> decide
                exact hescapes ⟨hescape, hstops.head?_eq_some hmark' hhead⟩
          rw [read_other hescapes' hmark, hread]

theorem Quoted.first?_stable {lexeme : Lexeme} (hstops : StopsAlike rest rest')
    (hclosed : rest = [] → lexeme.flags.unterminated = false)
    (hfirst : first? (text ++ rest) = some lexeme) (hspelling : lexeme.spelling = text) :
    first? (text ++ rest') = some lexeme := by
  match text with
  | [] => exact absurd hspelling (spelling_ne_nil_of_first? hfirst)
  | c :: text =>
      obtain ⟨quote, hquote, rfl⟩ := Option.map_eq_some_iff.mp hfirst
      have hread : (read quote (text ++ rest)).spelling = text := (List.cons.inj hspelling).2
      have hread_closed : rest = [] → (read quote (text ++ rest)).closed := fun hnil => by
        simpa [lexeme] using hclosed hnil
      refine Option.map_eq_some_iff.mpr ⟨quote, hquote, ?_⟩
      exact congrArg (lexeme quote) (read_stable hstops quote text hread_closed hread)

theorem Quoted.first?_stable_none (htext : text ≠ []) (hfirst : first? (text ++ rest) = none) :
    first? (text ++ rest') = none := by
  match text with
  | c :: text =>
      rw [List.cons_append, first?, Option.map_eq_none_iff] at hfirst ⊢
      exact hfirst

/-- A run that is spelled by itself is not followed by a colon that it takes in. -/
theorem Word.classify_stable (hstops : StopsAlike rest rest') {run : List Char}
    (hspelling : (classify run rest).spelling = run) : classify run rest' = classify run rest := by
  unfold classify at hspelling ⊢
  cases hword : Keyword.ofLexeme? (.ofList run) with
  | none => rfl
  | some word =>
      rw [hword] at hspelling
      have hcolon : ¬(word = .defaultWord ∧ rest.head? = some ':') := by
        intro hcolon
        dsimp only at hspelling
        rw [if_pos hcolon] at hspelling
        simp [Lexeme.verbatim] at hspelling
      have hcolon' : ¬(word = .defaultWord ∧ rest'.head? = some ':') := by
        rintro ⟨hdefault, hhead⟩
        exact hcolon ⟨hdefault, hstops.head?_eq_some (by decide) hhead⟩
      dsimp only
      rw [if_neg hcolon, if_neg hcolon']

theorem Word.first?_of_begins [Text.Letters] {unicode : Bool} {c : Char}
    (hbegins : Text.beginsIdentifier unicode c) (back : List Char) :
    first? unicode (c :: back) =
      some (classify (c :: back.takeWhile (Text.continuesIdentifier unicode))
        (back.dropWhile (Text.continuesIdentifier unicode))) := by
  have hdrop (run tail : List Char) (hsplit : run ++ tail = back) :
      back.drop run.length = tail := by
    rw [← hsplit, List.drop_left]
  rw [first?, run?, if_pos hbegins, Option.map_some, List.length_cons, List.drop_succ_cons,
    hdrop _ _ List.takeWhile_append_dropWhile]

theorem Word.length_le_spelling_classify (run back : List Char) :
    run.length ≤ (classify run back).spelling.length := by
  rcases spelling_classify run back with hplain | ⟨hcolon, -⟩
  · exact Nat.le_of_eq (congrArg List.length hplain).symm
  · rw [hcolon, List.length_append]
    omega

theorem Word.first?_stable {unicode : Bool} {lexeme : Lexeme} (hstops : StopsAlike rest rest')
    (hfirst : first? unicode (text ++ rest) = some lexeme) (hspelling : lexeme.spelling = text) :
    first? unicode (text ++ rest') = some lexeme := by
  have hcontinues : separators.all (!Text.continuesIdentifier unicode ·) := by
    cases unicode <;> decide
  match text with
  | [] => exact absurd hspelling (spelling_isPrefix_of_first? hfirst).2
  | c :: text =>
      by_cases hbegins : Text.beginsIdentifier unicode c = true
      · rw [List.cons_append, first?_of_begins hbegins] at hfirst ⊢
        obtain rfl := Option.some.inj hfirst
        have hle : ((text ++ rest).takeWhile (Text.continuesIdentifier unicode)).length ≤
            text.length := by
          have hrun := length_le_spelling_classify
            (c :: (text ++ rest).takeWhile (Text.continuesIdentifier unicode))
            ((text ++ rest).dropWhile (Text.continuesIdentifier unicode))
          rw [hspelling, List.length_cons, List.length_cons] at hrun
          omega
        obtain ⟨run, back, rfl, hrun, hback, hrun', hback'⟩ :=
          exists_run hstops hcontinues text hle
        rw [hrun, hback] at hspelling ⊢
        rw [hrun', hback']
        cases back with
        | nil =>
            rw [List.append_nil] at hspelling
            rw [List.nil_append] at hspelling ⊢
            rw [List.nil_append, classify_stable hstops hspelling]
        | cons next back => rfl
      · rw [List.cons_append, first?, run?, if_neg hbegins] at hfirst
        cases hfirst

end Words

/-! ### A separator written somewhere behind -/

section Splice

variable {mode : Mode} {text ahead front back : List Char}

theorem stopsAlike_splice (ahead front : List Char) (hback : Separated back) :
    StopsAlike (ahead ++ front) (ahead ++ back) := by
  cases ahead with
  | nil => exact .inr hback
  | cons c ahead => exact .inl rfl

theorem isPrefix_of_separated {characters : List Char} (hback : Separated back)
    (hmem : ∀ c ∈ separators, c ∉ characters) (hpart : characters <+: text ++ back) :
    characters <+: text := by
  induction text generalizing characters with
  | nil =>
      cases characters with
      | nil => exact List.nil_prefix
      | cons head characters =>
          obtain ⟨rest, rfl⟩ := hpart
          exact absurd List.mem_cons_self (hmem head (hback head rfl))
  | cons head text ih =>
      cases characters with
      | nil => exact List.nil_prefix
      | cons first characters =>
          obtain ⟨rfl, htail⟩ := List.cons_prefix_cons.mp hpart
          refine List.cons_prefix_cons.mpr ⟨rfl, ih (fun c hc => ?_) htail⟩
          exact List.not_mem_of_not_mem_cons (hmem c hc)

namespace Operator

/-- No operator goes on with a separator, and only one looks at what follows it. -/
theorem shape_of_mem_spellings {operator : Operator} (hmem : operator ∈ spellings mode) :
    (∀ c ∈ separators, c ∉ operator.spelling.tail) ∧
      (operator.mark = .questionDot ↔ operator.spelling = ['?', '.']) := by
  have hall : ∀ mode, ∀ operator ∈ spellings mode,
      separators.all (· ∉ operator.spelling.tail) ∧
        (operator.mark = .questionDot ↔ operator.spelling = ['?', '.']) := by
    intro mode
    cases mode <;> decide
  obtain ⟨hseparators, hquestion⟩ := hall mode operator hmem
  exact ⟨by simpa using hseparators, hquestion⟩

theorem begins_iff {operator : Operator} {characters : List Char} :
    operator.begins characters ↔
      operator.spelling <+: characters ∧
        (operator.mark = .questionDot →
          ∀ c ∈ (characters.drop 2).head?, Text.isDigit c = false) := by
  rw [begins, Bool.and_eq_true, List.isPrefixOf_iff_prefix]
  apply and_congr_right
  intro _
  cases (characters.drop 2).head? with
  | none => simp
  | some c => simpa using imp_iff_not_or.symm

/-- Any operator at the front stood there before the separator was written. -/
theorem begins_of_splice {operator : Operator} (hmem : operator ∈ spellings mode)
    (htext : text ≠ []) (hback : Separated back)
    (hdot : text ++ ahead = ['?', '.'] → ∀ c ∈ front.head?, Text.isDigit c = false)
    (hbegins : operator.begins (text ++ (ahead ++ back))) :
    operator.begins (text ++ (ahead ++ front)) := by
  obtain ⟨hseparators, hquestion⟩ := shape_of_mem_spellings hmem
  obtain ⟨hpart, hdigit⟩ := begins_iff.mp hbegins
  rw [← List.append_assoc] at hpart hdigit
  have hinside : operator.spelling <+: text ++ ahead := by
    obtain ⟨c, text, rfl⟩ := List.exists_cons_of_ne_nil htext
    cases hspelling : operator.spelling with
    | nil => exact List.nil_prefix
    | cons head tail =>
        rw [hspelling] at hpart hseparators
        obtain ⟨rfl, htail⟩ := List.cons_prefix_cons.mp hpart
        exact List.cons_prefix_cons.mpr ⟨rfl, isPrefix_of_separated hback hseparators htail⟩
  rw [begins_iff, ← List.append_assoc]
  refine ⟨hinside.trans (List.prefix_append _ _), ?_⟩
  intro hmark
  have hdigit := hdigit hmark
  rw [hquestion.mp hmark] at hinside
  obtain ⟨more, hmore⟩ := hinside
  rw [← hmore] at hdigit hdot ⊢
  cases more with
  | nil => exact hdot rfl
  | cons c more => exact hdigit

theorem begins_splice_of_spelling {operator : Operator} (hmem : operator ∈ spellings mode)
    (hspelling : operator.spelling = text) (hback : Separated back)
    (hbegins : operator.begins (text ++ (ahead ++ front))) :
    operator.begins (text ++ (ahead ++ back)) := by
  obtain ⟨-, hquestion⟩ := shape_of_mem_spellings hmem
  obtain ⟨-, hdigit⟩ := begins_iff.mp hbegins
  rw [begins_iff, hspelling]
  refine ⟨List.prefix_append _ _, ?_⟩
  intro hmark
  have hdigit := hdigit hmark
  obtain rfl : text = ['?', '.'] := hspelling.symm.trans (hquestion.mp hmark)
  exact (stopsAlike_splice ahead front hback).keep_eq_false (by decide) hdigit

theorem first?_splice {operator : Operator}
    (hfirst : first? mode (text ++ (ahead ++ front)) = some operator)
    (hspelling : operator.spelling = text) (hback : Separated back)
    (hdot : ahead = ['.'] → ∀ c ∈ front.head?, Text.isDigit c = false) :
    first? mode (text ++ (ahead ++ back)) = some operator := by
  have hmem := List.mem_of_find?_eq_some hfirst
  have htext : text ≠ [] := hspelling ▸ spelling_ne_nil hmem
  obtain ⟨hbegins, before, after, hsplit, hbefore⟩ := List.find?_eq_some_iff_append.mp hfirst
  have hdot' : text ++ ahead = ['?', '.'] → ∀ c ∈ front.head?, Text.isDigit c = false := by
    intro htwo
    match text, htwo with
    | ['?'], htwo => exact hdot (List.cons.inj htwo).2
    | ['?', '.'], htwo =>
        -- Then the operator is the one that looks at what follows it.
        obtain rfl : ahead = [] := by simpa using htwo
        have hmark := (shape_of_mem_spellings hmem).2.mpr hspelling
        exact (begins_iff.mp hbegins).2 hmark
    | c :: d :: e :: text, htwo => simp at htwo
  have hbegins' := begins_splice_of_spelling hmem hspelling hback hbegins
  refine List.find?_eq_some_iff_append.mpr ⟨hbegins', before, after, hsplit, ?_⟩
  intro other hother
  have hother_mem : other ∈ spellings mode := hsplit ▸ List.mem_append_left _ hother
  have hnot := hbefore other hother
  rw [Bool.not_eq_true'] at hnot ⊢
  by_contra hsome
  rw [Bool.not_eq_false] at hsome
  rw [begins_of_splice hother_mem htext hback hdot' hsome] at hnot
  cases hnot

theorem first?_splice_none (htext : text ≠ []) (hback : Separated back)
    (hfirst : first? mode (text ++ (ahead ++ front)) = none) :
    first? mode (text ++ (ahead ++ back)) = none := by
  rw [first?, List.find?_eq_none] at hfirst ⊢
  intro operator hmem hbegins
  refine hfirst operator hmem (begins_of_splice hmem htext hback (fun htwo => ?_) hbegins)
  -- A question mark is an operator whatever follows it.
  have hquestion : (⟨['?'], .question⟩ : Operator) ∈ spellings mode := by cases mode <;> decide
  refine absurd (begins_iff.mpr ⟨?_, fun hmark => by cases hmark⟩) (hfirst _ hquestion)
  rw [← List.append_assoc, htwo]
  exact ⟨'.' :: front, rfl⟩

end Operator

namespace Lexeme

variable {options : Options}

theorem first?_eq_some_iff [Text.Letters] {characters : List Char} {lexeme : Lexeme} :
    first? options characters = some lexeme ↔
      number? characters = some lexeme ∨
        number? characters = none ∧
          (Quoted.first? characters = some lexeme ∨
            Quoted.first? characters = none ∧
              ((∃ operator, Operator.first? options.mode characters = some operator ∧
                  operator.lexeme = lexeme) ∨
                Operator.first? options.mode characters = none ∧
                  Word.first? options.unicodeIdentifiers characters = some lexeme)) := by
  simp only [first?, Option.orElse_eq_orElse, Option.orElse_eq_or, Option.or_eq_some_iff,
    Option.map_eq_some_iff, Option.map_eq_none_iff]

/-- A lexeme stays the same in front of text that stops it as well, if the operators do. -/
theorem first?_stable {rest rest' : List Char} {lexeme : Lexeme} (hstops : StopsAlike rest rest')
    (hfirst : first? options (text ++ rest) = some lexeme) (hspelling : lexeme.spelling = text)
    (hclosed : rest = [] → lexeme.flags.unterminated = false)
    (hoperator : ∀ operator, Operator.first? options.mode (text ++ rest) = some operator →
      operator.spelling = text → Operator.first? options.mode (text ++ rest') = some operator)
    (hnone : Operator.first? options.mode (text ++ rest) = none →
      Operator.first? options.mode (text ++ rest') = none) :
    first? options (text ++ rest') = some lexeme := by
  have htext : text ≠ [] := hspelling ▸ spelling_ne_nil_of_first? hfirst
  rw [first?_eq_some_iff] at hfirst ⊢
  rcases hfirst with hnumber | ⟨hnumber, hfirst⟩
  · exact .inl (number?_stable hstops hnumber (hspelling ▸ Nat.le_refl _))
  refine .inr ⟨number?_stable_none hstops htext hnumber, ?_⟩
  rcases hfirst with hquoted | ⟨hquoted, hfirst⟩
  · exact .inl (Quoted.first?_stable hstops hclosed hquoted hspelling)
  refine .inr ⟨Quoted.first?_stable_none htext hquoted, ?_⟩
  rcases hfirst with ⟨operator, hfirst, rfl⟩ | ⟨hfirst, hword⟩
  · exact .inl ⟨operator, hoperator operator hfirst hspelling, rfl⟩
  · exact .inr ⟨hnone hfirst, Word.first?_stable hstops hword hspelling⟩

/-- A lexeme stays the same when a separator is written behind it, unless it is quoted text that
would go on at the end of the text. -/
theorem first?_splice {lexeme : Lexeme}
    (hfirst : first? options (text ++ (ahead ++ front)) = some lexeme)
    (hspelling : lexeme.spelling = text)
    (hclosed : ahead ++ front = [] → lexeme.flags.unterminated = false) (hback : Separated back)
    (hdot : ahead = ['.'] → ∀ c ∈ front.head?, Text.isDigit c = false) :
    first? options (text ++ (ahead ++ back)) = some lexeme := by
  have htext : text ≠ [] := hspelling ▸ spelling_ne_nil_of_first? hfirst
  apply first?_stable (stopsAlike_splice ahead front hback) hfirst hspelling hclosed
  · intro operator hoperator hsame
    exact Operator.first?_splice hoperator hsame hback hdot
  · exact Operator.first?_splice_none htext hback

/-- A lexeme stays the same when other text follows it, behind a separator if there is any. Quoted
text that is not closed is followed by nothing, and goes on being so. -/
theorem first?_separated {lexeme : Lexeme}
    (hfirst : first? options (lexeme.spelling ++ front) = some lexeme) (hback : Separated back)
    (hempty : front = [] → back = []) : first? options (lexeme.spelling ++ back) = some lexeme := by
  by_cases hfront : front = []
  · rw [hempty hfront]
    rwa [hfront] at hfirst
  · have hsplice : first? options (lexeme.spelling ++ ([] ++ back)) = some lexeme :=
      first?_splice hfirst rfl (fun hnil => absurd hnil hfront) hback fun hnil => by cases hnil
    exact hsplice

def semicolon : Lexeme :=
  Operator.lexeme ⟨[';'], .semicolon⟩

theorem first?_semicolon (options : Options) (back : List Char) :
    first? options (';' :: back) = some semicolon := by
  obtain ⟨mode, unicode⟩ := options
  cases mode <;> rfl

end Lexeme

end Splice

end FormulaScript
