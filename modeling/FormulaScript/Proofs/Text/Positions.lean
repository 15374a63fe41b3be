import FormulaScript.Proofs.Checked.Text

/-!
# Lines and columns

The line feeds in front of an offset are in front of every later offset too, and the last of them
tells where the line begins. So positions come in the order of their offsets, and with the start of
the line a position leads back to its offset.
-/

namespace FormulaScript

namespace Position

/-- Positions come line by line, and along a line by their columns. -/
def Before (position other : Position) : Prop :=
  position.line < other.line ∨ position.line = other.line ∧ position.column < other.column

variable {position other : Position}

theorem Before.asymm (hbefore : position.Before other) : ¬other.Before position := by
  unfold Before at hbefore ⊢
  omega

theorem Before.ne (hbefore : position.Before other) : position ≠ other := by
  rintro rfl
  exact hbefore.asymm hbefore

end Position

namespace LineBreaks

/-! ### Recorded line feeds -/

/-- The offsets, recorded one after the other. -/
def ofOffsets (offsets : List Nat) : LineBreaks :=
  offsets.foldl record empty

/-- An offset that is not past the line feeds before it is the last of them. -/
theorem mem_record_iff {breaks : LineBreaks} {offset : Nat}
    (hbefore : ∀ feed ∈ breaks.offsets.toList, feed ≤ offset) (feed : Nat) :
    feed ∈ (breaks.record offset).offsets.toList ↔
      feed ∈ breaks.offsets.toList ∨ feed = offset := by
  by_cases hlater : ∀ last ∈ breaks.offsets.back?, last < offset
  · rw [record, dif_pos hlater, Array.toList_push, List.mem_append, List.mem_singleton]
  · rw [record, dif_neg hlater]
    push Not at hlater
    obtain ⟨last, hlast, hle⟩ := hlater
    rw [← Array.getLast?_toList] at hlast
    have hmem : last ∈ breaks.offsets.toList := List.mem_of_getLast? hlast
    obtain rfl : last = offset := Nat.le_antisymm (hbefore last hmem) hle
    refine ⟨.inl, ?_⟩
    rintro (hfeed | rfl)
    · exact hfeed
    · exact hmem

theorem mem_foldl_record_iff {offsets : List Nat} {breaks : LineBreaks}
    (hordered : offsets.Pairwise (· ≤ ·))
    (hbefore : ∀ offset ∈ offsets, ∀ feed ∈ breaks.offsets.toList, feed ≤ offset) (feed : Nat) :
    feed ∈ (offsets.foldl record breaks).offsets.toList ↔
      feed ∈ breaks.offsets.toList ∨ feed ∈ offsets := by
  induction offsets generalizing breaks with
  | nil => simp
  | cons offset offsets ih =>
      obtain ⟨hoffset, hrest⟩ := List.pairwise_cons.mp hordered
      have hrecord := mem_record_iff (hbefore offset List.mem_cons_self)
      have hbefore' : ∀ later ∈ offsets, ∀ feed ∈ (breaks.record offset).offsets.toList,
          feed ≤ later := by
        intro later hlater feed hfeed
        rcases (hrecord feed).mp hfeed with hold | rfl
        · exact hbefore later (List.mem_cons_of_mem _ hlater) feed hold
        · exact hoffset later hlater
      rw [List.foldl_cons, ih hrest hbefore', hrecord, List.mem_cons, or_assoc]

theorem mem_ofOffsets_iff {offsets : List Nat} (hordered : offsets.Pairwise (· ≤ ·)) (feed : Nat) :
    feed ∈ (ofOffsets offsets).offsets.toList ↔ feed ∈ offsets := by
  have hempty : ∀ offset ∈ offsets, ∀ feed ∈ empty.offsets.toList, feed ≤ offset :=
    fun _ _ _ hfeed => absurd hfeed List.not_mem_nil
  rw [ofOffsets, mem_foldl_record_iff hordered hempty]
  exact or_iff_right List.not_mem_nil

/-- Tables of the same line feeds are the same, since the order is settled. -/
theorem eq_of_mem_iff {breaks other : LineBreaks}
    (hmem : ∀ feed, feed ∈ breaks.offsets.toList ↔ feed ∈ other.offsets.toList) :
    breaks = other :=
  eq_of_toList_eq (breaks.increasing.eq_of_mem_iff other.increasing hmem)

/-- A line feed stands at the offset. -/
def FeedAt (characters : List Char) (offset : Nat) : Prop :=
  ∃ front back, characters = front ++ '\n' :: back ∧ offset = Text.byteLength front

theorem feedAt_cons_iff (c : Char) (rest : List Char) (offset : Nat) :
    FeedAt (c :: rest) offset ↔
      c = '\n' ∧ offset = 0 ∨ ∃ distance, FeedAt rest distance ∧ offset = c.utf8Size + distance := by
  constructor
  · rintro ⟨front, back, hsplit, rfl⟩
    rcases List.cons_eq_append_iff.mp hsplit with ⟨rfl, hback⟩ | ⟨front, rfl, hrest⟩
    · exact .inl ⟨(List.cons.inj hback).1.symm, rfl⟩
    · exact .inr ⟨_, ⟨front, back, hrest, rfl⟩, rfl⟩
  · rintro (⟨rfl, rfl⟩ | ⟨_, ⟨front, back, rfl, rfl⟩, rfl⟩)
    · exact ⟨[], rest, rfl, rfl⟩
    · exact ⟨c :: front, back, rfl, rfl⟩

theorem mem_scan_iff (characters : List Char) (offset feed : Nat) :
    feed ∈ scan offset characters ↔
      ∃ distance, FeedAt characters distance ∧ feed = offset + distance := by
  induction characters generalizing offset with
  | nil =>
      refine iff_of_false List.not_mem_nil ?_
      rintro ⟨_, ⟨front, back, hsplit, -⟩, -⟩
      simp at hsplit
  | cons c rest ih =>
      have hrest : (∃ distance, FeedAt rest distance ∧ feed = offset + c.utf8Size + distance) ↔
          ∃ distance, (∃ behind, FeedAt rest behind ∧ distance = c.utf8Size + behind) ∧
            feed = offset + distance := by
        constructor
        · rintro ⟨behind, hbehind, rfl⟩
          exact ⟨_, ⟨behind, hbehind, rfl⟩, Nat.add_assoc _ _ _⟩
        · rintro ⟨_, ⟨behind, hbehind, rfl⟩, rfl⟩
          exact ⟨behind, hbehind, (Nat.add_assoc _ _ _).symm⟩
      simp only [feedAt_cons_iff, or_and_right, exists_or, ← hrest, ← ih, scan]
      split_ifs with hfeed
      · simp [hfeed]
      · simp [hfeed]

theorem mem_ofText_iff (text : String) (feed : Nat) :
    feed ∈ (ofText text).offsets.toList ↔ FeedAt text.toList feed := by
  rw [ofText, List.toList_toArray, mem_scan_iff]
  simp

/-! ### Lines -/

/-- The line of an offset starts behind the last line feed in front of the offset, or where the text
does when there is none. -/
structure StartsLine (breaks : LineBreaks) (offset start : Nat) : Prop where
  le : start ≤ offset
  behind : ∀ feed ∈ breaks.offsets.toList, feed < offset → feed < start
  origin : start = 0 ∨ ∃ feed ∈ breaks.offsets.toList, start = feed + 1

theorem startsLine_lineStart (breaks : LineBreaks) (offset : Nat) :
    breaks.StartsLine offset (breaks.lineStart (breaks.countBefore offset)) := by
  have hcounted := any_getElem?_lt_iff breaks.increasing
  rw [countBefore_eq_countP]
  cases hcount : breaks.offsets.toList.countP (· < offset) with
  | zero =>
      refine ⟨Nat.zero_le _, fun feed hfeed hlt => ?_, .inl rfl⟩
      exact absurd (decide_eq_true hlt) (List.countP_eq_zero.mp hcount feed hfeed)
  | succ last =>
      have hlast := (hcounted offset last).mpr (hcount ▸ Nat.lt_succ_self last)
      rw [Option.any_eq_true] at hlast
      obtain ⟨feed, hfeed, hlt⟩ := hlast
      have hlt' : feed < offset := of_decide_eq_true hlt
      rw [lineStart, ← Array.getElem?_toList, hfeed]
      refine ⟨hlt', fun other hother hbefore => ?_, .inr ⟨feed, List.mem_of_getElem? hfeed, rfl⟩⟩
      -- A line feed behind the last one that is counted would have to be counted as well.
      obtain ⟨index, hindex⟩ := List.mem_iff_getElem?.mp hother
      have hle : index < last + 1 := by
        rw [← hcount, ← hcounted, hindex]
        exact decide_eq_true hbefore
      have hself : ¬index < breaks.offsets.toList.countP (· < other) := by
        rw [← hcounted, hindex]
        simp
      change other < feed + 1
      by_contra hbehind
      have hlast : last < breaks.offsets.toList.countP (· < other) := by
        rw [← hcounted, hfeed]
        simpa using hbehind
      omega

/-! ### The order of positions -/

theorem countBefore_mono (breaks : LineBreaks) {offset offset' : Nat} (hle : offset ≤ offset') :
    breaks.countBefore offset ≤ breaks.countBefore offset' := by
  rw [countBefore_eq_countP, countBefore_eq_countP]
  refine List.countP_mono_left fun feed _ hfeed => ?_
  exact decide_eq_true (Nat.lt_of_lt_of_le (of_decide_eq_true hfeed) hle)

theorem position_before_of_lt (breaks : LineBreaks) {offset offset' : Nat}
    (hlt : offset < offset') : (breaks.position offset).Before (breaks.position offset') := by
  rcases Nat.lt_or_eq_of_le (breaks.countBefore_mono (Nat.le_of_lt hlt)) with hline | hline
  · exact .inl (Nat.succ_lt_succ hline)
  · have hstart := (breaks.startsLine_lineStart offset).le
    refine .inr ⟨congrArg (· + 1) hline, ?_⟩
    rw [position, position, ← hline]
    dsimp only
    omega

theorem position_before_iff (breaks : LineBreaks) (offset offset' : Nat) :
    (breaks.position offset).Before (breaks.position offset') ↔ offset < offset' := by
  refine ⟨fun hbefore => ?_, breaks.position_before_of_lt⟩
  by_contra hge
  rcases Nat.lt_or_eq_of_le (Nat.le_of_not_lt hge) with hlt | rfl
  · exact hbefore.asymm (breaks.position_before_of_lt hlt)
  · exact hbefore.ne rfl

theorem position_injective (breaks : LineBreaks) : Function.Injective breaks.position := by
  intro offset offset' hposition
  rcases Nat.lt_trichotomy offset offset' with hlt | heq | hlt
  · exact absurd hposition (breaks.position_before_of_lt hlt).ne
  · exact heq
  · exact absurd hposition.symm (breaks.position_before_of_lt hlt).ne

theorem first_region (breaks : LineBreaks) (span : Span) :
    (breaks.region span).first = breaks.position span.start := by
  rw [region]
  split_ifs <;> rfl

/-- The last position is that of the last byte, and an empty span has its only position twice. -/
theorem last_region (breaks : LineBreaks) (span : Span) :
    (breaks.region span).last = breaks.position (max span.start (span.stop - 1)) := by
  rw [region]
  split_ifs with hempty
  · rw [Nat.max_eq_left (by omega)]
    rfl
  · rw [Nat.max_eq_right (by omega)]

theorem first_region_eq_or_before (breaks : LineBreaks) (span : Span) :
    (breaks.region span).first = (breaks.region span).last ∨
      (breaks.region span).first.Before (breaks.region span).last := by
  rw [first_region, last_region, position_before_iff, breaks.position_injective.eq_iff]
  omega

theorem isPoint_region_iff (breaks : LineBreaks) (span : Span) :
    (breaks.region span).isPoint = true ↔ span.stop ≤ span.start + 1 := by
  rw [Region.isPoint, beq_iff_eq, first_region, last_region, breaks.position_injective.eq_iff]
  omega

/-! ### All offsets -/

/-- **Lines and columns.** Offsets recorded in order, some of them more than once, are the line feeds
of the table. Each offset has a line more than there are line feeds in front of it, and a column
counted from where that line starts, which leads back to the offset. All of this fits into words of
32 bits. Positions come in the order of their offsets, so a region never ends before it begins, and
it is a point just when its span has one byte at most. -/
theorem offsets_resolved {offsets : List Nat} (hordered : offsets.Pairwise (· ≤ ·)) :
    let breaks : LineBreaks := ofOffsets offsets
    let feeds := breaks.offsets.toList
    (∀ feed, feed ∈ feeds ↔ feed ∈ offsets) ∧
      (∀ text : String, (∀ offset, offset ∈ offsets ↔ FeedAt text.toList offset) →
        breaks = ofText text) ∧
      (∀ offset < 2 ^ 32 - 1, ∃ start, breaks.StartsLine offset start ∧
        breaks.positionChecked offset = .ok (breaks.position offset) ∧
        breaks.position offset = ⟨1 + feeds.countP (· < offset), offset - start + 1⟩ ∧
        offset = start + (breaks.position offset).column - 1) ∧
      (∀ offset offset',
        (breaks.position offset).Before (breaks.position offset') ↔ offset < offset') ∧
      Function.Injective breaks.position ∧
      ∀ span : Span, span.start < 2 ^ 32 - 1 → span.stop < 2 ^ 32 →
        let region := breaks.region span
        breaks.regionChecked span = .ok region ∧
          (region.first = region.last ∨ region.first.Before region.last) ∧
          (region.isPoint = true ↔ span.stop ≤ span.start + 1) := by
  intro breaks feeds
  have hmem := mem_ofOffsets_iff hordered
  refine ⟨hmem, fun text htext => ?_, fun offset hoffset => ?_,
    breaks.position_before_iff, breaks.position_injective, fun span hstart hstop => ?_⟩
  · refine eq_of_mem_iff fun feed => ?_
    rw [hmem, htext, mem_ofText_iff]
  · have hstart := breaks.startsLine_lineStart offset
    have hposition : breaks.position offset =
        ⟨1 + feeds.countP (· < offset),
          offset - breaks.lineStart (breaks.countBefore offset) + 1⟩ := by
      rw [position, countBefore_eq_countP, Nat.add_comm 1]
    refine ⟨_, hstart, breaks.positionChecked_eq_ok (by omega), hposition, ?_⟩
    have hle := hstart.le
    rw [hposition]
    dsimp only
    omega
  · exact ⟨breaks.regionChecked_eq_ok_of_lt (by omega) hstop,
      breaks.first_region_eq_or_before span, breaks.isPoint_region_iff span⟩

/-- A line feed that is recorded twice, and one behind a carriage return. -/
theorem offsets_resolved_repeated :
    let offsets := [3, 3, 6]
    let text := "abc\nd\r\nf"
    let breaks := ofOffsets offsets
    offsets.Pairwise (· ≤ ·) ∧ (∀ offset, offset ∈ offsets ↔ FeedAt text.toList offset) ∧
      breaks = ofText text ∧ breaks.positionChecked 6 = .ok ⟨2, 3⟩ ∧
      breaks.regionChecked ⟨3, 7⟩ = .ok ⟨⟨1, 4⟩, ⟨2, 3⟩⟩ ∧
      (breaks.region ⟨6, 7⟩).isPoint = true := by
  intro offsets text breaks
  have hordered : offsets.Pairwise (· ≤ ·) := by decide
  have htext : ∀ offset, offset ∈ offsets ↔ FeedAt text.toList offset := by
    intro offset
    have hfeeds : (ofText text).offsets.toList = [3, 6] := by decide
    rw [← mem_ofText_iff, hfeeds]
    simp [offsets]
  obtain ⟨-, hwhole, hpositions, -, -, hregions⟩ := offsets_resolved hordered
  obtain ⟨-, -, hposition, -, -⟩ := hpositions 6 (by decide)
  obtain ⟨hregion, -, -⟩ := hregions ⟨3, 7⟩ (by decide) (by decide)
  obtain ⟨-, -, hpoint⟩ := hregions ⟨6, 7⟩ (by decide) (by decide)
  have h6 : breaks.position 6 = ⟨2, 3⟩ := by decide +kernel
  have h37 : breaks.region ⟨3, 7⟩ = ⟨⟨1, 4⟩, ⟨2, 3⟩⟩ := by decide +kernel
  refine ⟨hordered, htext, hwhole text htext, ?_, ?_, hpoint.mpr (by decide)⟩
  · rw [← h6]
    exact hposition
  · rw [← h37]
    exact hregion

end LineBreaks

end FormulaScript
