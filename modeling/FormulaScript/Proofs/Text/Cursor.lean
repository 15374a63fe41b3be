import FormulaScript.Proofs.Text.LineBreaks
import FormulaScript.Text.Cursor

/-!
# Where a cursor stands

A cursor has passed the text in front of it, counts its bytes, and has recorded the line feeds up to
and with the character under it.
-/

namespace FormulaScript.Cursor

theorem position_advance (cursor : Cursor) :
    cursor.advance.position = cursor.position + Text.byteLength (cursor.remaining.take 1) := by
  obtain ⟨source, position, current, ahead, unread, lines⟩ := cursor
  match current, ahead with
  | none, _ => rfl
  | some _, [] => rfl
  | some _, _ :: _ => rfl

theorem position_advanceBy (cursor : Cursor) (count : Nat) :
    (cursor.advanceBy count).position =
      cursor.position + Text.byteLength (cursor.remaining.take count) := by
  induction count generalizing cursor with
  | zero => simp [advanceBy]
  | succ count ih =>
      have htake : cursor.remaining.take (count + 1) =
          cursor.remaining.take 1 ++ cursor.remaining.tail.take count := by
        cases cursor.remaining <;> simp
      rw [advanceBy, ih, position_advance, remaining_advance, htake, Text.byteLength_append,
        Nat.add_assoc]

theorem head?_remaining (cursor : Cursor) : cursor.remaining.head? = cursor.current := by
  rw [remaining]
  cases cursor.current <;> rfl

/-- The line feed that comes under the cursor is recorded. -/
theorem lines_advance {cursor : Cursor} {c : Char} (hcurrent : cursor.current = some c) :
    cursor.advance.lines =
      if cursor.advance.current = some '\n' then cursor.lines.record cursor.advance.position
      else cursor.lines := by
  obtain ⟨source, position, current, ahead, unread, lines⟩ := cursor
  obtain rfl : current = some c := hcurrent
  match ahead with
  | [] => rfl
  | _ :: _ => rfl

@[simp]
theorem source_advance (cursor : Cursor) : cursor.advance.source = cursor.source := by
  obtain ⟨source, position, current, ahead, unread, lines⟩ := cursor
  match current, ahead with
  | none, _ => rfl
  | some _, [] => rfl
  | some _, _ :: _ => rfl

/-- Where no character is left under the cursor, none is left to be read either. -/
def Exhausts (cursor : Cursor) : Prop :=
  cursor.current = none → cursor.ahead = [] ∧ cursor.unread = []

theorem Exhausts.remaining_eq {cursor : Cursor} (hexhausts : cursor.Exhausts) :
    cursor.remaining = cursor.current.toList ++ cursor.ahead ++ cursor.unread := by
  cases hcurrent : cursor.current with
  | none =>
      obtain ⟨hahead, hunread⟩ := hexhausts hcurrent
      simp [remaining, hcurrent, hahead, hunread]
  | some c => simp [remaining, hcurrent]

theorem Exhausts.advance {cursor : Cursor} (hexhausts : cursor.Exhausts) :
    cursor.advance.Exhausts := by
  intro hnone
  obtain ⟨source, position, current, ahead, unread, lines⟩ := cursor
  match current, ahead with
  | none, _ => exact hexhausts rfl
  | some _, next :: _ => cases hnone
  | some _, [] =>
      have hunread : unread = [] := List.head?_eq_none_iff.mp hnone
      rw [hunread]
      exact ⟨rfl, rfl⟩

theorem exhausts_ofText (text : String) : (ofText text).Exhausts := by
  intro hnone
  have htext : text.toList = [] := List.head?_eq_none_iff.mp hnone
  exact ⟨rfl, congrArg List.tail htext⟩

theorem advanceBy_add (cursor : Cursor) (count more : Nat) :
    cursor.advanceBy (count + more) = (cursor.advanceBy count).advanceBy more := by
  induction count generalizing cursor with
  | zero => rw [Nat.zero_add, advanceBy]
  | succ count ih => rw [Nat.add_right_comm, advanceBy, ih, advanceBy]

/-! ### To the end of a line -/

/-- The cursor has reached the end of a line where nothing of the line is left. -/
theorem atLineEnd_iff (cursor : Cursor) :
    cursor.atLineEnd = true ↔ cursor.remaining.takeWhile (!Text.endsLine ·) = [] := by
  rw [atLineEnd, ← head?_remaining]
  cases cursor.remaining with
  | nil => simp
  | cons c rest => cases hends : Text.endsLine c <;> simp [hends]

theorem walkToLineEnd_eq_advanceBy (cursor : Cursor) :
    cursor.walkToLineEnd =
      cursor.advanceBy (cursor.remaining.takeWhile (!Text.endsLine ·)).length := by
  fun_induction walkToLineEnd cursor with
  | case1 cursor hend => rw [(atLineEnd_iff cursor).mp hend, List.length_nil, advanceBy]
  | case2 cursor hend ih =>
      rw [ih, remaining_advance]
      rw [atLineEnd_iff] at hend
      cases hremaining : cursor.remaining with
      | nil => simp [hremaining] at hend
      | cons c rest =>
          rw [hremaining] at hend
          have hc : (!Text.endsLine c) = true := by
            by_contra hc
            exact hend (List.takeWhile_cons_of_neg hc)
          rw [List.tail_cons, List.takeWhile_cons_of_pos (p := (!Text.endsLine ·)) hc,
            List.length_cons, advanceBy]

theorem jumpToLineEnd_advance {cursor : Cursor} (hahead : cursor.ahead = [])
    (hend : ¬cursor.atLineEnd) : cursor.advance.jumpToLineEnd = cursor.jumpToLineEnd := by
  obtain ⟨source, position, current, ahead, unread, lines⟩ := cursor
  obtain rfl : ahead = [] := hahead
  cases current with
  | none => simp [atLineEnd] at hend
  | some c =>
      cases unread with
      | nil => simp_all [advance, jumpToLineEnd, atLineEnd, settle]
      | cons d unread =>
          cases hends : Text.endsLine d with
          | true =>
              have hnone : (d :: unread).takeWhile (!Text.endsLine ·) = [] := by simp [hends]
              have hall : (d :: unread).dropWhile (!Text.endsLine ·) = d :: unread := by
                simp [hends]
              simp only [atLineEnd, Option.all_some, Bool.not_eq_true] at hend
              simp [advance, jumpToLineEnd, atLineEnd, settle, hend, hends, hnone, hall]
          | false =>
              -- A line feed would end the line.
              have hfeed : d ≠ '\n' := by
                rintro rfl
                cases hends
              simp_all [advance, jumpToLineEnd, atLineEnd, settle, Nat.add_assoc]

theorem ahead_advance {cursor : Cursor} (hahead : cursor.ahead = []) :
    cursor.advance.ahead = [] := by
  obtain ⟨source, position, current, ahead, unread, lines⟩ := cursor
  obtain rfl : ahead = [] := hahead
  cases current <;> rfl

/-- To jump to the end of a line is to walk there. -/
theorem jumpToLineEnd_eq_walkToLineEnd {cursor : Cursor} (hahead : cursor.ahead = []) :
    cursor.jumpToLineEnd = cursor.walkToLineEnd := by
  fun_induction walkToLineEnd cursor with
  | case1 cursor hend => rw [jumpToLineEnd, if_pos hend]
  | case2 cursor hend ih =>
      rw [← jumpToLineEnd_advance hahead (by simpa using hend), ih (ahead_advance hahead)]

theorem toLineEnd_eq_advanceBy (cursor : Cursor) :
    cursor.toLineEnd =
      cursor.advanceBy (cursor.remaining.takeWhile (!Text.endsLine ·)).length := by
  rw [toLineEnd]
  split_ifs with hahead
  · rw [jumpToLineEnd_eq_walkToLineEnd (List.isEmpty_iff.mp hahead), walkToLineEnd_eq_advanceBy]
  · exact walkToLineEnd_eq_advanceBy cursor

/-! ### In a text -/

/-- The cursor stands in a text, and its line feeds are those up to the current character. -/
def Tracks (source : List Char) (cursor : Cursor) : Prop :=
  ∃ passed, source = passed ++ cursor.remaining ∧ cursor.position = Text.byteLength passed ∧
    cursor.lines.offsets.toList = LineBreaks.scan 0 (passed ++ cursor.current.toList)

section

variable {source : List Char} {cursor : Cursor}

theorem Tracks.advance (htracks : cursor.Tracks source) : cursor.advance.Tracks source := by
  obtain ⟨passed, hsource, hposition, hlines⟩ := htracks
  cases hcurrent : cursor.current with
  | none =>
      have hsame : cursor.advance = cursor := by rw [Cursor.advance, hcurrent]
      rw [hsame]
      exact ⟨passed, hsource, hposition, hlines⟩
  | some c =>
      obtain ⟨rest, hremaining⟩ :=
        List.head?_eq_some_iff.mp (cursor.head?_remaining.trans hcurrent)
      have hposition' : cursor.advance.position = Text.byteLength (passed ++ [c]) := by
        rw [position_advance, hposition, hremaining, Text.byteLength_append]
        rfl
      refine ⟨passed ++ [c], ?_, hposition', ?_⟩
      · rw [remaining_advance, hsource, hremaining]
        simp
      · rw [hcurrent] at hlines
        rw [lines_advance hcurrent, hposition', LineBreaks.scan_append, Nat.zero_add]
        cases cursor.advance.current with
        | none => simpa [LineBreaks.scan] using hlines
        | some next =>
            by_cases hfeed : next = '\n'
            · -- What was recorded stands in front of the new position, so the feed is a later one.
              have hlater : ∀ feed ∈ cursor.lines.offsets.toList,
                  feed < Text.byteLength (passed ++ [c]) := by
                intro feed hmem
                rw [hlines] at hmem
                simpa using LineBreaks.lt_of_mem_scan hmem
              rw [if_pos (congrArg some hfeed), LineBreaks.toList_record hlater, hlines]
              simp [LineBreaks.scan, hfeed]
            · simpa [LineBreaks.scan, hfeed] using hlines

theorem Tracks.advanceBy (htracks : cursor.Tracks source) (count : Nat) :
    (cursor.advanceBy count).Tracks source := by
  induction count generalizing cursor with
  | zero => exact htracks
  | succ count ih => exact ih htracks.advance

theorem tracks_ofText (text : String) : (ofText text).Tracks text.toList := by
  refine ⟨[], ?_, rfl, ?_⟩
  · change text.toList = text.toList.head?.elim [] (· :: ([] ++ text.toList.tail))
    cases text.toList <;> rfl
  · change (if text.toList.head? = some '\n' then LineBreaks.empty.record 0
      else LineBreaks.empty).offsets.toList = LineBreaks.scan 0 ([] ++ text.toList.head?.toList)
    cases text.toList with
    | nil => rfl
    | cons c rest =>
        by_cases hfeed : c = '\n'
        · simp only [List.head?_cons, hfeed, if_true]
          rfl
        · simp [LineBreaks.scan, hfeed, LineBreaks.empty]

end

/-- The line feeds of a cursor resolve what it has passed. -/
theorem Tracks.completeUpTo {text : String} {cursor : Cursor}
    (htracks : cursor.Tracks text.toList) :
    cursor.lines.CompleteUpTo (.ofText text) cursor.position := by
  obtain ⟨passed, hsource, hposition, hlines⟩ := htracks
  have hcurrent : cursor.remaining = cursor.current.toList ++ cursor.remaining.tail := by
    rw [← head?_remaining]
    cases cursor.remaining <;> rfl
  rw [hcurrent, ← List.append_assoc] at hsource
  refine ⟨LineBreaks.scan (0 + Text.byteLength (passed ++ cursor.current.toList))
    cursor.remaining.tail, ?_, ?_⟩
  · rw [hlines, ← LineBreaks.scan_append, ← hsource]
    rfl
  · intro feed hfeed
    have hle := LineBreaks.le_of_mem_scan hfeed
    rw [Text.byteLength_append] at hle
    omega

theorem Tracks.position_add_remaining {source : List Char} {cursor : Cursor}
    (htracks : cursor.Tracks source) :
    cursor.position + Text.byteLength cursor.remaining = Text.byteLength source := by
  obtain ⟨passed, hsource, hposition, -⟩ := htracks
  rw [hposition, ← Text.byteLength_append, ← hsource]

/-- Every line feed that is recorded has a word. -/
theorem Tracks.wrap_eq_self {text : String} {cursor : Cursor}
    (htracks : cursor.Tracks text.toList) (hfits : Text.Fits text) : cursor.wrap = cursor := by
  obtain ⟨later, hwhole, -⟩ := htracks.completeUpTo
  have hwords : ∀ feed ∈ cursor.lines.offsets.toList, feed < wordSize := by
    intro feed hmem
    have hscan : feed ∈ LineBreaks.scan 0 text.toList := by
      change feed ∈ (LineBreaks.ofText text).offsets.toList
      rw [hwhole]
      exact List.mem_append_left later hmem
    have hlt := LineBreaks.lt_of_mem_scan hscan
    rw [Nat.zero_add] at hlt
    exact Nat.lt_trans hlt hfits
  rw [wrap, LineBreaks.wrap_eq_self hwords]

/-- What is ahead of a cursor is cut out of the text by its offsets. -/
theorem Tracks.slice {source : List Char} {cursor : Cursor} (htracks : cursor.Tracks source)
    {middle back : List Char} (hremaining : cursor.remaining = middle ++ back) :
    Text.slice source cursor.position (cursor.position + Text.byteLength middle) = middle := by
  obtain ⟨passed, hsource, hposition, -⟩ := htracks
  rw [hsource, hposition, hremaining]
  exact Text.slice_append _ _ _

/-- At the end of the text all its line feeds are recorded. -/
theorem Tracks.lines_of_le {text : String} {cursor : Cursor}
    (htracks : cursor.Tracks text.toList) (hend : Text.byteLength text.toList ≤ cursor.position) :
    cursor.lines = .ofText text := by
  have htotal := htracks.position_add_remaining
  have hremaining : cursor.remaining = [] := Text.eq_nil_of_byteLength_eq_zero (by omega)
  obtain ⟨passed, hsource, -, hlines⟩ := htracks
  have hcurrent : cursor.current = none := by
    rw [← head?_remaining, hremaining]
    rfl
  rw [hremaining, List.append_nil] at hsource
  rw [hcurrent, Option.toList_none, List.append_nil, ← hsource] at hlines
  exact LineBreaks.eq_of_toList_eq hlines

end FormulaScript.Cursor
