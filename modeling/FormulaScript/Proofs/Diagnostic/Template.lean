import FormulaScript.Diagnostic.Basic
import Mathlib.Data.List.Induction
import Mathlib.Tactic.Common

/-!
# Placeholders and arguments

The arguments are filled in one after another, each into the whole text that the ones before it have
left. A placeholder begins with a brace and holds no other one, so two of them never overlap, and
none of the template is lost before its turn. What an argument brings along may complete one more,
though, which a later argument then replaces: as long as the count of no placeholder has grown when
its turn comes, every placeholder of the template is replaced and nothing else.
-/

namespace FormulaScript.Template

/-! ### Replacing one pattern -/

/-- How often a pattern stands in a text. -/
def occurrences (pattern : List Char) : List Char → Nat
  | [] => 0
  | c :: rest => (if pattern <+: c :: rest then 1 else 0) + occurrences pattern rest

section

variable {mark c : Char} {pattern body replacement front text rest : List Char}

@[simp]
theorem replaceAll_nil : replaceAll pattern replacement [] = [] := by
  rw [replaceAll]

theorem replaceAll_cons_of_not (hpattern : ¬pattern <+: c :: rest) :
    replaceAll pattern replacement (c :: rest) = c :: replaceAll pattern replacement rest := by
  rw [replaceAll, if_neg (by rwa [List.isPrefixOf_iff_prefix])]

theorem replaceAll_pattern_append :
    replaceAll (mark :: body) replacement (mark :: body ++ rest) =
      replacement ++ replaceAll (mark :: body) replacement rest := by
  have hleads : mark :: body <+: mark :: (body ++ rest) := ⟨rest, rfl⟩
  rw [List.cons_append, replaceAll, if_pos (by rwa [List.isPrefixOf_iff_prefix])]
  simp

/-- A text is read from left to right, by occurrences of a pattern and by single characters. -/
@[elab_as_elim]
theorem pattern_induction {motive : List Char → Prop} (mark : Char) (body : List Char)
    (nil : motive [])
    (pattern : ∀ rest, motive rest → motive (mark :: body ++ rest))
    (keep : ∀ c rest, ¬mark :: body <+: c :: rest → motive rest → motive (c :: rest))
    (text : List Char) : motive text := by
  induction hlength : text.length using Nat.strongRecOn generalizing text with
  | _ length ih =>
      by_cases hpattern : mark :: body <+: text
      · obtain ⟨rest, rfl⟩ := hpattern
        exact pattern rest (ih rest.length (by simp at hlength; omega) rest rfl)
      · cases text with
        | nil => exact nil
        | cons c rest =>
            exact keep c rest hpattern (ih rest.length (by simp at hlength; omega) rest rfl)

@[simp]
theorem occurrences_nil : occurrences pattern [] = 0 := rfl

theorem occurrences_cons :
    occurrences pattern (c :: rest) =
      (if pattern <+: c :: rest then 1 else 0) + occurrences pattern rest := rfl

theorem occurrences_le_append (pattern front rest : List Char) :
    occurrences pattern rest ≤ occurrences pattern (front ++ rest) := by
  induction front with
  | nil => exact Nat.le_refl _
  | cons c front ih => exact Nat.le_trans ih (Nat.le_add_left _ _)

theorem replaceAll_eq_self (hnone : occurrences pattern text = 0) :
    replaceAll pattern replacement text = text := by
  induction text with
  | nil => exact replaceAll_nil
  | cons c rest ih =>
      obtain ⟨hhead, hrest⟩ := Nat.add_eq_zero_iff.mp hnone
      rw [replaceAll_cons_of_not fun hpattern => by simp [hpattern] at hhead, ih hrest]

/-- What follows the next mark is no matter to an occurrence that begins in front of it. -/
theorem leads_append_mark_iff (hbody : mark ∉ body) :
    body <+: front ++ mark :: rest ↔ body <+: front := by
  refine ⟨fun hleads => ?_, fun hleads => hleads.trans (List.prefix_append _ _)⟩
  rcases List.prefix_or_prefix_of_prefix hleads (List.prefix_append front (mark :: rest)) with
    hshort | ⟨_ | ⟨c, beyond⟩, rfl⟩
  · exact hshort
  · simp
  · rw [List.prefix_append_right_inj, List.cons_prefix_cons] at hleads
    simp [hleads.1] at hbody

theorem pattern_leads_append_mark_iff (hbody : mark ∉ body) :
    mark :: body <+: c :: front ++ mark :: rest ↔ mark :: body <+: c :: front := by
  rw [List.cons_append, List.cons_prefix_cons, List.cons_prefix_cons, leads_append_mark_iff hbody]

theorem pattern_not_leads_of_ne (hne : mark ≠ c) : ¬mark :: body <+: c :: rest :=
  fun hleads => hne (List.cons_prefix_cons.mp hleads).1

theorem replaceAll_append_of_notMem (hfront : mark ∉ front) :
    replaceAll (mark :: body) replacement (front ++ rest) =
      front ++ replaceAll (mark :: body) replacement rest := by
  induction front with
  | nil => rfl
  | cons c front ih =>
      obtain ⟨hne, hfront⟩ := not_or.mp (mt List.mem_cons.mpr hfront)
      rw [List.cons_append, replaceAll_cons_of_not (pattern_not_leads_of_ne hne), ih hfront,
        List.cons_append]

theorem occurrences_append_of_notMem (hfront : mark ∉ front) :
    occurrences (mark :: body) (front ++ rest) = occurrences (mark :: body) rest := by
  induction front with
  | nil => rfl
  | cons c front ih =>
      obtain ⟨hne, hfront⟩ := not_or.mp (mt List.mem_cons.mpr hfront)
      rw [List.cons_append, occurrences_cons, if_neg (pattern_not_leads_of_ne hne), ih hfront,
        Nat.zero_add]

/-- The text may be cut in front of any mark. -/
theorem replaceAll_append_mark (hbody : mark ∉ body) (front : List Char) :
    replaceAll (mark :: body) replacement (front ++ mark :: rest) =
      replaceAll (mark :: body) replacement front ++
        replaceAll (mark :: body) replacement (mark :: rest) := by
  induction front using pattern_induction mark body with
  | nil => rw [replaceAll_nil, List.nil_append, List.nil_append]
  | pattern front ih =>
      rw [List.append_assoc, replaceAll_pattern_append, ih, replaceAll_pattern_append,
        List.append_assoc]
  | keep c front hkeep ih =>
      have hlonger : ¬mark :: body <+: c :: (front ++ mark :: rest) :=
        mt (pattern_leads_append_mark_iff hbody).mp hkeep
      rw [List.cons_append, replaceAll_cons_of_not hlonger, ih, replaceAll_cons_of_not hkeep,
        List.cons_append]

theorem occurrences_append_mark (hbody : mark ∉ body) (front : List Char) :
    occurrences (mark :: body) (front ++ mark :: rest) =
      occurrences (mark :: body) front + occurrences (mark :: body) (mark :: rest) := by
  induction front with
  | nil => simp
  | cons c front ih =>
      have hhead : mark :: body <+: c :: (front ++ mark :: rest) ↔ mark :: body <+: c :: front :=
        pattern_leads_append_mark_iff hbody
      simp only [List.cons_append, occurrences_cons, hhead, ih, Nat.add_assoc]

theorem occurrences_pattern_append (hbody : mark ∉ body) :
    occurrences (mark :: body) (mark :: body ++ rest) = 1 + occurrences (mark :: body) rest := by
  have hleads : mark :: body <+: mark :: (body ++ rest) := ⟨rest, rfl⟩
  rw [List.cons_append, occurrences_cons, if_pos hleads, occurrences_append_of_notMem hbody]

end

/-! ### Placeholders -/

/-- A placeholder behind its opening brace. -/
def placeholderTail (index : Nat) : List Char :=
  Nat.toDigits 10 index ++ ['\x7d']

theorem placeholder_eq (index : Nat) : placeholder index = '\x7b' :: placeholderTail index := rfl

theorem isDigit_of_mem_index {index : Nat} {c : Char} (hmem : c ∈ Nat.toDigits 10 index) :
    c.isDigit :=
  Nat.isDigit_of_mem_toDigits (by decide) (by decide) hmem

theorem brace_notMem_placeholderTail (index : Nat) : '\x7b' ∉ placeholderTail index := by
  intro hmem
  rcases List.mem_append.mp hmem with hmem | hmem
  · exact absurd (isDigit_of_mem_index hmem) (by decide)
  · exact absurd (List.mem_singleton.mp hmem) (by decide)

theorem takeWhile_isDigit_placeholderTail (index : Nat) (rest : List Char) :
    (placeholderTail index ++ rest).takeWhile Char.isDigit = Nat.toDigits 10 index := by
  rw [placeholderTail, List.append_assoc,
    List.takeWhile_append_of_pos fun c => isDigit_of_mem_index, List.singleton_append,
    List.takeWhile_cons_of_neg (by decide), List.append_nil]

/-- No placeholder is the beginning of another one. -/
theorem eq_of_placeholder_leads {index other : Nat} {rest : List Char}
    (hleads : placeholder index <+: placeholder other ++ rest) : index = other := by
  obtain ⟨beyond, happend⟩ := hleads
  have htails : placeholderTail index ++ beyond = placeholderTail other ++ rest :=
    (List.cons.inj happend).2
  have hdigits : Nat.toDigits 10 index = Nat.toDigits 10 other := by
    rw [← takeWhile_isDigit_placeholderTail index beyond, htails,
      takeWhile_isDigit_placeholderTail]
  rw [← @Nat.ofDigitChars_toDigits 10 index (by decide) (by decide), hdigits,
    Nat.ofDigitChars_toDigits (by decide) (by decide)]

section

variable {index other : Nat} {argument text rest front : List Char}

theorem replaceAll_placeholder_append :
    replaceAll (placeholder index) argument (placeholder index ++ rest) =
      argument ++ replaceAll (placeholder index) argument rest :=
  replaceAll_pattern_append

theorem occurrences_placeholder_append :
    occurrences (placeholder index) (placeholder index ++ rest) =
      1 + occurrences (placeholder index) rest :=
  occurrences_pattern_append (brace_notMem_placeholderTail index)

theorem replaceAll_append_placeholder (front : List Char) :
    replaceAll (placeholder index) argument (front ++ (placeholder index ++ rest)) =
      replaceAll (placeholder index) argument front ++
        (argument ++ replaceAll (placeholder index) argument rest) := by
  rw [← replaceAll_placeholder_append]
  exact replaceAll_append_mark (brace_notMem_placeholderTail index) front

theorem occurrences_append_placeholder (front : List Char) :
    occurrences (placeholder index) (front ++ (placeholder index ++ rest)) =
      occurrences (placeholder index) front + (1 + occurrences (placeholder index) rest) := by
  rw [← occurrences_placeholder_append]
  exact occurrences_append_mark (brace_notMem_placeholderTail index) front

theorem occurrences_placeholder_append_of_ne (hne : index ≠ other) :
    occurrences (placeholder index) (placeholder other ++ rest) =
      occurrences (placeholder index) rest := by
  have hhead : ¬placeholder index <+: placeholder other ++ rest := mt eq_of_placeholder_leads hne
  rw [placeholder_eq other, List.cons_append] at hhead ⊢
  rw [occurrences_cons, if_neg hhead, Nat.zero_add, placeholder_eq index,
    occurrences_append_of_notMem (brace_notMem_placeholderTail other)]

/-- Replacing one placeholder leaves the others where they are. -/
theorem occurrences_le_replaceAll (hne : index ≠ other) (argument text : List Char) :
    occurrences (placeholder index) text ≤
      occurrences (placeholder index) (replaceAll (placeholder other) argument text) := by
  induction text using pattern_induction '\x7b' (placeholderTail other) with
  | nil => exact Nat.zero_le _
  | pattern rest ih =>
      calc occurrences (placeholder index) (placeholder other ++ rest)
          = occurrences (placeholder index) rest := occurrences_placeholder_append_of_ne hne
        _ ≤ occurrences (placeholder index) (replaceAll (placeholder other) argument rest) := ih
        _ ≤ occurrences (placeholder index)
              (argument ++ replaceAll (placeholder other) argument rest) :=
            occurrences_le_append _ _ _
        _ = _ := by rw [← replaceAll_placeholder_append]; rfl
  | keep c rest hkeep ih =>
      rw [placeholder_eq index, placeholder_eq other] at ih ⊢
      rw [replaceAll_cons_of_not hkeep, occurrences_cons, occurrences_cons]
      -- An occurrence at this place holds no other brace, so that it is kept whole.
      have hhead (hleads : '\x7b' :: placeholderTail index <+: c :: rest) :
          '\x7b' :: placeholderTail index <+:
            c :: replaceAll ('\x7b' :: placeholderTail other) argument rest := by
        obtain ⟨rfl, beyond, rfl⟩ := List.cons_prefix_cons.mp hleads
        rw [replaceAll_append_of_notMem (brace_notMem_placeholderTail index)]
        exact List.cons_prefix_cons.mpr ⟨rfl, List.prefix_append _ _⟩
      split_ifs with hbefore hafter
      · omega
      · exact absurd (hhead hbefore) hafter
      · omega
      · omega

end

/-! ### Templates as pieces -/

/-- A placeholder of an argument, or a character that belongs to none. -/
inductive Piece where
  | char (c : Char)
  | hole (index : Nat)
deriving DecidableEq, Repr

/-- What stands in the place of a piece once the arguments are filled in. -/
def Piece.filled (arguments : List (List Char)) : Piece → List Char
  | .char c => [c]
  | .hole index => arguments[index]?.getD (placeholder index)

/-- The pieces of a text, where the placeholders of some indices are looked for. -/
inductive Splits (isHole : Nat → Prop) : List Char → List Piece → Prop
  | nil : Splits isHole [] []
  | hole {index : Nat} {text : List Char} {pieces : List Piece} (hhole : isHole index)
      (hrest : Splits isHole text pieces) :
      Splits isHole (placeholder index ++ text) (.hole index :: pieces)
  | char {c : Char} {text : List Char} {pieces : List Piece}
      (hnone : ∀ index, isHole index → ¬placeholder index <+: c :: text)
      (hrest : Splits isHole text pieces) : Splits isHole (c :: text) (.char c :: pieces)

section

variable {isHole : Nat → Prop} {index : Nat} {argument text : List Char}
  {arguments : List (List Char)} {pieces others : List Piece}

theorem exists_splits (isHole : Nat → Prop) (text : List Char) :
    ∃ pieces, Splits isHole text pieces := by
  induction hlength : text.length using Nat.strongRecOn generalizing text with
  | _ length ih =>
      by_cases hhole : ∃ index, isHole index ∧ placeholder index <+: text
      · obtain ⟨index, hhole, rest, rfl⟩ := hhole
        rw [placeholder_eq, List.cons_append, List.length_cons, List.length_append] at hlength
        obtain ⟨pieces, hsplits⟩ := ih rest.length (by omega) rest rfl
        exact ⟨_, hsplits.hole hhole⟩
      · cases text with
        | nil => exact ⟨_, .nil⟩
        | cons c rest =>
            obtain ⟨pieces, hsplits⟩ := ih rest.length (by simp at hlength; omega) rest rfl
            exact ⟨_, hsplits.char fun index hindex hleads => hhole ⟨index, hindex, hleads⟩⟩

/-- There is but one way to split a text. -/
theorem Splits.unique (hsplits : Splits isHole text pieces) (hothers : Splits isHole text others) :
    pieces = others := by
  induction hsplits generalizing others with
  | nil =>
      cases hothers with
      | nil => rfl
  | @hole index text pieces hhole hrest ih =>
      generalize hwhole : placeholder index ++ text = whole at hothers
      cases hothers with
      | nil => simp [placeholder_eq] at hwhole
      | @hole other text' pieces' hhole' hrest' =>
          obtain rfl := eq_of_placeholder_leads ⟨text, hwhole⟩
          obtain rfl := List.append_cancel_left hwhole
          rw [ih hrest']
      | char hnone hrest' => exact absurd ⟨text, hwhole⟩ (hnone index hhole)
  | @char c text pieces hnone hrest ih =>
      generalize hwhole : c :: text = whole at hothers
      cases hothers with
      | nil => cases hwhole
      | @hole other text' pieces' hhole' hrest' =>
          exact absurd ⟨text', hwhole.symm⟩ (hnone other hhole')
      | char hnone' hrest' =>
          obtain ⟨rfl, rfl⟩ := List.cons.inj hwhole
          rw [ih hrest']

theorem Splits.flatMap_filled_nil (hsplits : Splits isHole text pieces) :
    pieces.flatMap (Piece.filled []) = text := by
  induction hsplits with
  | nil => rfl
  | hole hhole hrest ih =>
      rw [List.flatMap_cons, ih]
      rfl
  | char hnone hrest ih =>
      rw [List.flatMap_cons, ih]
      rfl

/-- The pieces tell every occurrence of a placeholder that was looked for. -/
theorem Splits.occurrences_eq (hsplits : Splits isHole text pieces) (hhole : isHole index) :
    occurrences (placeholder index) text = pieces.count (.hole index) := by
  induction hsplits with
  | nil => rfl
  | @hole other text pieces hother hrest ih =>
      by_cases heq : index = other
      · subst heq
        rw [occurrences_placeholder_append, ih, List.count_cons_self, Nat.add_comm]
      · rw [occurrences_placeholder_append_of_ne heq, ih,
          List.count_cons_of_ne (by simpa using Ne.symm heq)]
  | char hnone hrest ih =>
      rw [occurrences_cons, if_neg (hnone index hhole), ih, Nat.zero_add,
        List.count_cons_of_ne (by simp)]

/-- With one placeholder to look for, replacing it fills in its pieces. -/
theorem Splits.replaceAll_eq (hsplits : Splits (· = index) text pieces)
    (hargument : arguments[index]? = some argument) :
    replaceAll (placeholder index) argument text = pieces.flatMap (Piece.filled arguments) := by
  induction hsplits with
  | nil => exact replaceAll_nil
  | hole hhole hrest ih =>
      obtain rfl := hhole
      rw [replaceAll_placeholder_append, ih, List.flatMap_cons, Piece.filled, hargument]
      rfl
  | char hnone hrest ih =>
      rw [replaceAll_cons_of_not (hnone index rfl), ih, List.flatMap_cons]
      rfl

/-! ### One argument after another -/

theorem filled_length (arguments : List (List Char)) :
    Piece.filled arguments (.hole arguments.length) = placeholder arguments.length := by
  simp [Piece.filled]

theorem filled_concat_length (arguments : List (List Char)) (argument : List Char) :
    Piece.filled (arguments ++ [argument]) (.hole arguments.length) = argument := by
  simp [Piece.filled]

theorem filled_concat_of_ne {piece : Piece} (hne : piece ≠ .hole arguments.length)
    (argument : List Char) :
    Piece.filled (arguments ++ [argument]) piece = Piece.filled arguments piece := by
  cases piece with
  | char c => rfl
  | hole index =>
      have hindex : index ≠ arguments.length := fun heq => hne (heq ▸ rfl)
      rw [Piece.filled, Piece.filled]
      congr 1
      rcases Nat.lt_or_gt_of_ne hindex with hlt | hgt
      · exact List.getElem?_append_left hlt
      · rw [List.getElem?_eq_none (by simp; omega), List.getElem?_eq_none (by omega)]

theorem count_le_occurrences_flatMap (arguments : List (List Char)) (pieces : List Piece) :
    pieces.count (.hole arguments.length) ≤
      occurrences (placeholder arguments.length) (pieces.flatMap (Piece.filled arguments)) := by
  induction pieces with
  | nil => exact Nat.zero_le _
  | cons piece pieces ih =>
      rw [List.flatMap_cons]
      by_cases hpiece : piece = .hole arguments.length
      · rw [hpiece, filled_length, occurrences_placeholder_append, List.count_cons_self]
        omega
      · rw [List.count_cons_of_ne hpiece]
        exact Nat.le_trans ih (occurrences_le_append _ _ _)

/-- Where the placeholder of the next argument stands for its pieces only, replacing it fills in
these. The induction is on the pieces, behind a text that has been passed. -/
theorem replaceAll_flatMap (arguments : List (List Char)) (argument : List Char)
    (pieces : List Piece) (front : List Char)
    (hocc : occurrences (placeholder arguments.length)
      (front ++ pieces.flatMap (Piece.filled arguments)) =
        pieces.count (.hole arguments.length)) :
    replaceAll (placeholder arguments.length) argument
        (front ++ pieces.flatMap (Piece.filled arguments)) =
      front ++ pieces.flatMap (Piece.filled (arguments ++ [argument])) := by
  induction pieces generalizing front with
  | nil =>
      rw [List.flatMap_nil, List.append_nil] at hocc ⊢
      rw [replaceAll_eq_self hocc, List.flatMap_nil, List.append_nil]
  | cons piece pieces ih =>
      rw [List.flatMap_cons] at hocc ⊢
      by_cases hpiece : piece = .hole arguments.length
      · have hle := count_le_occurrences_flatMap arguments pieces
        rw [hpiece, filled_length, occurrences_append_placeholder, List.count_cons_self] at hocc
        have hfront : occurrences (placeholder arguments.length) front = 0 := by omega
        have hrest := ih [] (by rw [List.nil_append]; omega)
        rw [List.nil_append, List.nil_append] at hrest
        rw [hpiece, filled_length, replaceAll_append_placeholder, replaceAll_eq_self hfront, hrest,
          List.flatMap_cons, filled_concat_length]
      · rw [List.count_cons_of_ne hpiece, ← List.append_assoc] at hocc
        rw [← List.append_assoc, ih _ hocc, List.flatMap_cons, filled_concat_of_ne hpiece,
          List.append_assoc]

theorem fill_concat (template : List Char) (arguments : List (List Char))
    (argument : List Char) :
    fill template (arguments ++ [argument]) =
      replaceAll (placeholder arguments.length) argument (fill template arguments) := by
  simp [fill, List.zipIdx_append]

/-- No placeholder of the template is lost before its turn. -/
theorem occurrences_le_fill (template : List Char) (hle : arguments.length ≤ index) :
    occurrences (placeholder index) template ≤
      occurrences (placeholder index) (fill template arguments) := by
  induction arguments using List.reverseRecOn with
  | nil => exact Nat.le_refl _
  | append_singleton arguments argument ih =>
      rw [List.length_append, List.length_singleton] at hle
      rw [fill_concat]
      exact Nat.le_trans (ih (by omega)) (occurrences_le_replaceAll (by omega) _ _)

/-- As long as no placeholder is new, the pieces of the template are filled in. -/
theorem fill_eq_flatMap {template : List Char} (hsplits : Splits isHole template pieces)
    (hholes : ∀ index < arguments.length, isHole index)
    (hfresh : ∀ index < arguments.length,
      occurrences (placeholder index) (fill template (arguments.take index)) =
        occurrences (placeholder index) template) :
    fill template arguments = pieces.flatMap (Piece.filled arguments) := by
  induction arguments using List.reverseRecOn with
  | nil => exact hsplits.flatMap_filled_nil.symm
  | append_singleton arguments argument ih =>
      have hlength : (arguments ++ [argument]).length = arguments.length + 1 := by simp
      rw [hlength] at hholes hfresh
      have hbefore : fill template arguments = pieces.flatMap (Piece.filled arguments) := by
        refine ih (fun index hindex => hholes index (by omega)) fun index hindex => ?_
        have hindex' := hfresh index (by omega)
        rwa [List.take_append_of_le_length (by omega)] at hindex'
      have hlast := hfresh arguments.length (by omega)
      rw [List.take_left, hsplits.occurrences_eq (hholes _ (by omega)), hbefore] at hlast
      rw [fill_concat, hbefore]
      exact replaceAll_flatMap arguments argument pieces [] hlast

end

/-! ### Messages -/

theorem toList_format (template : String) (arguments : List String) :
    (format template arguments).toList =
      fill template.toList (arguments.map String.toList) := by
  rw [format, String.toList_ofList]

/-- **Placeholders.** The arguments are filled in one after another, each in the place of its
placeholder in what the ones before it have left, where no placeholder of the template has been
lost. As long as none has been added either, the message is the template with every placeholder of
an argument replaced by it and everything else unchanged, and there is only one way to read the
template so. -/
theorem format_placeholders (template : String) (arguments : List String) :
    let texts := arguments.map String.toList
    let stage (count : Nat) : List Char := (format template (arguments.take count)).toList
    (∀ index < arguments.length,
      occurrences (placeholder index) template.toList ≤
          occurrences (placeholder index) (stage index) ∧
        ∃ pieces, Splits (· = index) (stage index) pieces ∧
          stage (index + 1) = pieces.flatMap (Piece.filled texts)) ∧
      ∃ pieces, (∀ others, Splits (· < arguments.length) template.toList others ↔ others = pieces) ∧
        ((∀ index < arguments.length,
            occurrences (placeholder index) (stage index) =
              occurrences (placeholder index) template.toList) →
          format template arguments = .ofList (pieces.flatMap (Piece.filled texts))) := by
  intro texts stage
  have hstage (count : Nat) : stage count = fill template.toList (texts.take count) := by
    rw [← List.map_take]
    exact toList_format template _
  have hlength : texts.length = arguments.length := List.length_map _
  constructor
  · intro index hindex
    rw [← hlength] at hindex
    rw [hstage, hstage]
    refine ⟨occurrences_le_fill _ (List.length_take_le _ _), ?_⟩
    obtain ⟨pieces, hsplits⟩ := exists_splits (· = index) (fill template.toList (texts.take index))
    refine ⟨pieces, hsplits, ?_⟩
    have hnext := fill_concat template.toList (texts.take index) texts[index]
    rw [List.length_take_of_le (Nat.le_of_lt hindex)] at hnext
    rw [List.take_succ_eq_append_getElem hindex, hnext]
    exact hsplits.replaceAll_eq (List.getElem?_eq_getElem hindex)
  · obtain ⟨pieces, hsplits⟩ := exists_splits (· < arguments.length) template.toList
    refine ⟨pieces, fun others => ⟨fun hothers => hothers.unique hsplits, ?_⟩, fun hfresh => ?_⟩
    · rintro rfl
      exact hsplits
    · simp only [hstage, ← hlength] at hfresh
      rw [format]
      exact congrArg String.ofList (fill_eq_flatMap hsplits (by simp) hfresh)

/-- Arguments that are full of braces, of which none makes up a placeholder of a later one. -/
theorem format_placeholders_braces :
    let template := "\x7b1\x7d\x7b0\x7d"
    let arguments := ["\x7b0\x7d", "\x7d\x7b"]
    (∀ index < 2,
      occurrences (placeholder index) (format template (arguments.take index)).toList =
        occurrences (placeholder index) template.toList) ∧
      format template arguments = "\x7d\x7b\x7b0\x7d" := by
  intro template arguments
  have hfresh : ∀ index < 2,
      occurrences (placeholder index) (format template (arguments.take index)).toList =
        occurrences (placeholder index) template.toList := by
    decide +kernel
  obtain ⟨-, pieces, hpieces, hformat⟩ := format_placeholders template arguments
  have hlast : Splits (· < arguments.length) (placeholder 0 ++ []) [.hole 0] :=
    .hole Nat.zero_lt_two .nil
  have hsplits : Splits (· < arguments.length) template.toList [.hole 1, .hole 0] := by
    have htemplate : template.toList = placeholder 1 ++ (placeholder 0 ++ []) := by decide +kernel
    rw [htemplate]
    exact hlast.hole Nat.one_lt_two
  obtain rfl := (hpieces _).mp hsplits
  exact ⟨hfresh, hformat hfresh⟩

/-- An argument that brings the placeholder of a later one along, which is replaced in turn. -/
theorem not_format_once :
    ¬∀ (template : String) (arguments : List String) (pieces : List Piece),
      Splits (· < arguments.length) template.toList pieces →
        format template arguments =
          .ofList (pieces.flatMap (Piece.filled (arguments.map String.toList))) := by
  intro honce
  have hsplits : Splits (· < 2) "\x7b0\x7d".toList [.hole 0] := by
    have htemplate : "\x7b0\x7d".toList = placeholder 0 ++ [] := by decide +kernel
    rw [htemplate]
    exact .hole Nat.zero_lt_two .nil
  have hformat := honce "\x7b0\x7d" ["\x7b1\x7d", "x"] _ hsplits
  exact absurd hformat (by decide +kernel)

end FormulaScript.Template
