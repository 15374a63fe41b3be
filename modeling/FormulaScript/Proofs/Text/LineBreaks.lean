import FormulaScript.Text.LineBreaks
import Mathlib.Tactic.Common

/-!
# What an offset is resolved by

An offset is resolved by the line feeds in front of it, and the ones behind it are no matter. So
while a text is being read, the line feeds up to the cursor resolve every offset up to there as all
line feeds of the text do.
-/

namespace FormulaScript

/-- Nothing of the span lies beyond an offset. -/
def Span.EndsBy (span : Span) (limit : Nat) : Prop :=
  span.start ≤ limit ∧ span.stop ≤ limit

theorem Span.EndsBy.mono {span : Span} {limit offset : Nat} (hends : span.EndsBy limit)
    (hle : limit ≤ offset) : span.EndsBy offset :=
  ⟨Nat.le_trans hends.1 hle, Nat.le_trans hends.2 hle⟩

theorem Span.EndsBy.wrap_eq_self {span : Span} {limit : Nat} (hends : span.EndsBy limit)
    (hlimit : limit < wordSize) : span.wrap = span := by
  rw [wrap, Nat.mod_eq_of_lt (Nat.lt_of_le_of_lt hends.1 hlimit),
    Nat.mod_eq_of_lt (Nat.lt_of_le_of_lt hends.2 hlimit)]

namespace LineBreaks

theorem eq_of_toList_eq {breaks other : LineBreaks}
    (hoffsets : breaks.offsets.toList = other.offsets.toList) : breaks = other := by
  obtain ⟨offsets, _⟩ := breaks
  obtain ⟨offsets', _⟩ := other
  obtain rfl : offsets = offsets' := Array.toList_inj.mp hoffsets
  rfl

theorem lt_of_mem_scan {offset feed : Nat} {characters : List Char}
    (hfeed : feed ∈ scan offset characters) : feed < offset + Text.byteLength characters := by
  induction characters generalizing offset with
  | nil => cases hfeed
  | cons c rest ih =>
      have hpos := c.utf8Size_pos
      rw [Text.byteLength_cons, ← Nat.add_assoc]
      rw [scan] at hfeed
      split_ifs at hfeed
      · rcases List.mem_cons.mp hfeed with rfl | hrest
        · omega
        · exact ih hrest
      · exact ih hfeed

theorem scan_append (offset : Nat) (front back : List Char) :
    scan offset (front ++ back) =
      scan offset front ++ scan (offset + Text.byteLength front) back := by
  induction front generalizing offset with
  | nil => rfl
  | cons c front ih =>
      rw [List.cons_append, scan, scan, ih, Text.byteLength_cons, Nat.add_assoc]
      split_ifs <;> rfl

/-- A line feed past all the ones before it is recorded. -/
theorem toList_record {breaks : LineBreaks} {offset : Nat}
    (hlater : ∀ feed ∈ breaks.offsets.toList, feed < offset) :
    (breaks.record offset).offsets.toList = breaks.offsets.toList ++ [offset] := by
  have hlast : ∀ last ∈ breaks.offsets.back?, last < offset := by
    intro last hlast
    rw [← Array.getLast?_toList] at hlast
    exact hlater last (List.mem_of_getLast? hlast)
  rw [record, dif_pos hlast, Array.toList_push]

/-! ### Words -/

/-- Line feeds that have words are recorded as they are. -/
theorem toList_foldl_record {feeds : List Nat} {breaks : LineBreaks}
    (hincreasing : (breaks.offsets.toList ++ feeds).Pairwise (· < ·))
    (hwords : ∀ feed ∈ feeds, feed < wordSize) :
    (feeds.foldl (fun wrapped offset => wrapped.record (offset % wordSize)) breaks).offsets.toList =
      breaks.offsets.toList ++ feeds := by
  induction feeds generalizing breaks with
  | nil => simp
  | cons feed rest ih =>
      obtain ⟨hfeed, hrest⟩ := List.forall_mem_cons.mp hwords
      have hlater : ∀ earlier ∈ breaks.offsets.toList, earlier < feed := fun earlier hearlier =>
        (List.pairwise_append.mp hincreasing).2.2 earlier hearlier feed List.mem_cons_self
      have hrecord : (breaks.record feed).offsets.toList = breaks.offsets.toList ++ [feed] :=
        toList_record hlater
      have hnext : ((breaks.record feed).offsets.toList ++ rest).Pairwise (· < ·) := by
        rwa [hrecord, List.append_assoc, List.singleton_append]
      rw [List.foldl_cons, Nat.mod_eq_of_lt hfeed, ih hnext hrest, hrecord, List.append_assoc,
        List.singleton_append]

theorem wrap_eq_self {breaks : LineBreaks}
    (hwords : ∀ feed ∈ breaks.offsets.toList, feed < wordSize) : breaks.wrap = breaks := by
  have hincreasing : (empty.offsets.toList ++ breaks.offsets.toList).Pairwise (· < ·) :=
    breaks.increasing
  exact eq_of_toList_eq (toList_foldl_record hincreasing hwords)

/-! ### Searching -/

/-- Among increasing offsets, those in front of an offset come first. -/
theorem any_getElem?_lt_iff {feeds : List Nat} (hincreasing : feeds.Pairwise (· < ·))
    (offset index : Nat) :
    (feeds[index]?).any (· < offset) = true ↔ index < feeds.countP (· < offset) := by
  induction feeds generalizing index with
  | nil => simp
  | cons feed rest ih =>
      obtain ⟨hfeed, hrest⟩ := List.pairwise_cons.mp hincreasing
      by_cases hbefore : feed < offset
      · rw [List.countP_cons_of_pos (by simpa using hbefore)]
        cases index with
        | zero => simpa using hbefore
        | succ index => simpa using ih hrest index
      · have hnone : rest.countP (· < offset) = 0 := by
          rw [List.countP_eq_zero]
          intro other hother
          have hlt := hfeed other hother
          simp only [decide_eq_true_eq]
          omega
        rw [List.countP_cons_of_neg (by simpa using hbefore), hnone]
        cases index with
        | zero => simpa using hbefore
        | succ index => simpa [hnone] using ih hrest index

theorem bisect_eq_countP {feeds : Array Nat} (hincreasing : feeds.toList.Pairwise (· < ·))
    (offset low high : Nat) (hlow : low ≤ feeds.toList.countP (· < offset))
    (hhigh : feeds.toList.countP (· < offset) ≤ high) :
    bisect feeds offset low high = feeds.toList.countP (· < offset) := by
  -- The count stays between the bounds, and the feed in the middle tells on which side of it.
  fun_induction bisect feeds offset low high with
  | case1 low high hlt middle hbefore ih =>
      rw [← Array.getElem?_toList, any_getElem?_lt_iff hincreasing] at hbefore
      exact ih hbefore hhigh
  | case2 low high hlt middle hbefore ih =>
      rw [← Array.getElem?_toList, any_getElem?_lt_iff hincreasing] at hbefore
      exact ih hlow (Nat.le_of_not_lt hbefore)
  | case3 low high hge => omega

theorem countBefore_eq_countP (breaks : LineBreaks) (offset : Nat) :
    breaks.countBefore offset = breaks.offsets.toList.countP (· < offset) :=
  bisect_eq_countP breaks.increasing offset 0 breaks.size (Nat.zero_le _) List.countP_le_length

/-! ### Line feeds up to an offset -/

/-- The line feeds of the whole up to an offset, or even a few more of them. -/
def CompleteUpTo (breaks whole : LineBreaks) (limit : Nat) : Prop :=
  ∃ later, whole.offsets.toList = breaks.offsets.toList ++ later ∧ ∀ feed ∈ later, limit ≤ feed

section

variable {breaks whole : LineBreaks} {limit offset : Nat}

theorem CompleteUpTo.countBefore (hcomplete : breaks.CompleteUpTo whole limit)
    (hle : offset ≤ limit) : whole.countBefore offset = breaks.countBefore offset := by
  obtain ⟨later, hwhole, hlater⟩ := hcomplete
  have hnone : later.countP (· < offset) = 0 := by
    rw [List.countP_eq_zero]
    intro feed hfeed
    have hlimit := hlater feed hfeed
    simp only [decide_eq_true_eq]
    omega
  rw [countBefore_eq_countP, countBefore_eq_countP, hwhole, List.countP_append, hnone,
    Nat.add_zero]

theorem CompleteUpTo.lineStart (hcomplete : breaks.CompleteUpTo whole limit) {before : Nat}
    (hbefore : before ≤ breaks.offsets.toList.length) :
    whole.lineStart before = breaks.lineStart before := by
  obtain ⟨later, hwhole, -⟩ := hcomplete
  cases before with
  | zero => rfl
  | succ index =>
      rw [LineBreaks.lineStart, LineBreaks.lineStart, ← Array.getElem?_toList,
        ← Array.getElem?_toList, hwhole, List.getElem?_append_left hbefore]

theorem CompleteUpTo.position (hcomplete : breaks.CompleteUpTo whole limit)
    (hle : offset ≤ limit) : breaks.position offset = whole.position offset := by
  have hbefore : breaks.countBefore offset ≤ breaks.offsets.toList.length := by
    rw [countBefore_eq_countP]
    exact List.countP_le_length
  rw [LineBreaks.position, LineBreaks.position, hcomplete.countBefore hle,
    hcomplete.lineStart hbefore]

theorem CompleteUpTo.region (hcomplete : breaks.CompleteUpTo whole limit) {span : Span}
    (hends : span.EndsBy limit) : breaks.region span = whole.region span := by
  have hlast : span.stop - 1 ≤ limit := Nat.le_trans (Nat.sub_le _ _) hends.2
  rw [LineBreaks.region, LineBreaks.region, hcomplete.position hends.1, hcomplete.position hlast]

end

end LineBreaks

end FormulaScript
