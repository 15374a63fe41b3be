import FormulaScript.Proofs.Checked.Text

/-!
# A cursor is an index

A cursor shows the character at an index into its text, the offset of that character and the line
feeds up to it. Whatever is asked of the cursor, the index tells what comes next, and it does not
matter which characters have been looked at ahead of time.
-/

namespace FormulaScript

namespace Cursor

/-- The character under a cursor, its offset and the line feeds that are recorded. -/
structure View where
  current : Option Char
  position : Nat
  feeds : List Nat
deriving DecidableEq, Repr

def view (cursor : Cursor) : View :=
  ⟨cursor.current, cursor.position, cursor.lines.offsets.toList⟩

/-! ### Indices -/

/-- The offset of the character at an index, or the length of the text where there is none. -/
def offsetAt (source : List Char) (index : Nat) : Nat :=
  Text.byteLength (source.take index)

def View.ofIndex (source : List Char) (index : Nat) : View :=
  { current := source[index]?
    position := offsetAt source index
    feeds := ((List.range (index + 1)).filter (source[·]? = some '\n')).map (offsetAt source) }

def moveIndex (source : List Char) (index : Nat) : Call → Nat
  | .peek _ => index
  | .advance => min (index + 1) source.length
  | .advanceBy count => min (index + count) source.length
  | .toLineEnd => index + (source.drop index).findIdx Text.endsLine

variable {source : List Char} {index : Nat} {cursor : Cursor}

theorem scan_take (source : List Char) (count : Nat) :
    LineBreaks.scan 0 (source.take count) =
      ((List.range count).filter (source[·]? = some '\n')).map (offsetAt source) := by
  induction count with
  | zero => rfl
  | succ count ih =>
      rw [List.take_add_one, LineBreaks.scan_append, ih, Nat.zero_add, List.range_succ,
        List.filter_append, List.map_append]
      congr 1
      cases hc : source[count]? with
      | none => simp [LineBreaks.scan, hc]
      | some c => by_cases hfeed : c = '\n' <;> simp [LineBreaks.scan, hc, hfeed, offsetAt]

theorem length_takeWhile_not (characters : List Char) :
    (characters.takeWhile (!Text.endsLine ·)).length = characters.findIdx Text.endsLine := by
  induction characters with
  | nil => rfl
  | cons c rest ih =>
      rw [List.findIdx_cons]
      cases hends : Text.endsLine c <;> simp [hends, ih]

/-! ### A cursor at an index -/

/-- The cursor is at an index into a text. -/
structure Stands (source : List Char) (index : Nat) (cursor : Cursor) : Prop where
  source_eq : cursor.source = source
  tracks : cursor.Tracks source
  remaining_eq : cursor.remaining = source.drop index
  index_le : index ≤ source.length
  exhausts : cursor.Exhausts

theorem stands_ofText (text : String) : (ofText text).Stands text.toList 0 := by
  have htracks := tracks_ofText text
  refine ⟨rfl, htracks, ?_, Nat.zero_le _, exhausts_ofText text⟩
  obtain ⟨passed, hsource, hposition, -⟩ := htracks
  obtain rfl : passed = [] := Text.eq_nil_of_byteLength_eq_zero hposition.symm
  exact hsource.symm

theorem Stands.current_eq (hstands : cursor.Stands source index) :
    cursor.current = source[index]? := by
  rw [← head?_remaining, hstands.remaining_eq, List.head?_drop]

theorem Stands.view_eq (hstands : cursor.Stands source index) :
    cursor.view = .ofIndex source index := by
  have hcurrent := hstands.current_eq
  obtain ⟨passed, hsource, hposition, hlines⟩ := hstands.tracks
  have hpassed : passed = source.take index := by
    have hsplit := List.take_append_drop index source
    rw [hstands.remaining_eq] at hsource
    exact List.append_cancel_right (hsource.symm.trans hsplit.symm)
  rw [hcurrent, hpassed, ← List.take_add_one, scan_take] at hlines
  rw [view, hcurrent, hposition, hlines, hpassed]
  rfl

theorem Stands.advance (hstands : cursor.Stands source index) :
    cursor.advance.Stands source (min (index + 1) source.length) := by
  refine ⟨(source_advance cursor).trans hstands.source_eq, hstands.tracks.advance, ?_,
    Nat.min_le_right _ _, hstands.exhausts.advance⟩
  rw [remaining_advance, hstands.remaining_eq, List.tail_drop]
  rcases Nat.le_total (index + 1) source.length with hle | hle
  · rw [Nat.min_eq_left hle]
  · rw [Nat.min_eq_right hle, List.drop_eq_nil_of_le hle, List.drop_length]

theorem Stands.advanceBy (hstands : cursor.Stands source index) (count : Nat) :
    (cursor.advanceBy count).Stands source (min (index + count) source.length) := by
  induction count generalizing cursor index with
  | zero =>
      rw [Nat.add_zero, Nat.min_eq_left hstands.index_le]
      exact hstands
  | succ count ih =>
      have hmoved : min (min (index + 1) source.length + count) source.length =
          min (index + (count + 1)) source.length := by omega
      rw [← hmoved]
      exact ih hstands.advance

theorem Stands.toLineEnd (hstands : cursor.Stands source index) :
    cursor.toLineEnd.Stands source (moveIndex source index .toLineEnd) := by
  have hend : (source.drop index).findIdx Text.endsLine ≤ (source.drop index).length :=
    List.findIdx_le_length
  have hle := hstands.index_le
  have hmoved : moveIndex source index .toLineEnd =
      min (index + (source.drop index).findIdx Text.endsLine) source.length := by
    rw [List.length_drop] at hend
    rw [moveIndex]
    omega
  rw [toLineEnd_eq_advanceBy, length_takeWhile_not, hstands.remaining_eq, hmoved]
  exact hstands.advanceBy _

theorem Stands.fetch (hstands : cursor.Stands source index) (count : Nat) :
    (cursor.fetch count).Stands source index :=
  ⟨hstands.source_eq, hstands.tracks.fetch count,
    (remaining_fetch cursor count).trans hstands.remaining_eq, hstands.index_le,
    hstands.exhausts.fetch count⟩

/-- What waits ahead comes first in the text that is left, and what is missing is read. -/
theorem Stands.fst_peek (hstands : cursor.Stands source index) (count : Nat) :
    (cursor.peek count).1 = source[index + count]? := by
  have hlater : source[index + count]? = cursor.remaining[count]? := by
    rw [hstands.remaining_eq, List.getElem?_drop]
  rw [hlater]
  cases count with
  | zero => rw [← List.head?_eq_getElem?, head?_remaining, peek]
  | succ place =>
      have hfetched : (cursor.peek (place + 1)).1 =
          (cursor.ahead ++ cursor.unread.take (place + 1 - cursor.ahead.length))[place]? := rfl
      have hbehind : cursor.remaining[place + 1]? = (cursor.ahead ++ cursor.unread)[place]? := by
        rw [hstands.exhausts.remaining_eq]
        cases hcurrent : cursor.current with
        | none =>
            obtain ⟨hahead, hunread⟩ := hstands.exhausts hcurrent
            simp [hahead, hunread]
        | some c => rfl
      rw [hfetched, hbehind]
      rcases Nat.lt_or_ge place cursor.ahead.length with hwaits | hmissing
      · rw [List.getElem?_append_left hwaits, List.getElem?_append_left hwaits]
      · rw [List.getElem?_append_right hmissing, List.getElem?_append_right hmissing,
          List.getElem?_take_of_lt (by omega)]

/-- **One call.** The index moves as the call says. -/
theorem Stands.perform (hstands : cursor.Stands source index) (call : Call) :
    (cursor.perform call).Stands source (moveIndex source index call) := by
  cases call with
  | peek count =>
      rw [Cursor.perform, snd_peek]
      exact hstands.fetch _
  | advance => exact hstands.advance
  | advanceBy count => exact hstands.advanceBy count
  | toLineEnd => exact hstands.toLineEnd

/-- **Any calls.** -/
theorem Stands.performAll (hstands : cursor.Stands source index) (calls : List Call) :
    (cursor.performAll calls).Stands source (calls.foldl (moveIndex source) index) := by
  induction calls generalizing cursor index with
  | nil => exact hstands
  | cons call calls ih => exact ih (hstands.perform call)

/-! ### What a cursor shows -/

/-- The cursor shows what is at an index into a text, and so it does whatever comes next. -/
structure Shows (source : List Char) (index : Nat) (cursor : Cursor) : Prop where
  index_le : index ≤ source.length
  view : cursor.view = .ofIndex source index
  peek : ∀ count, (cursor.peek count).1 = source[index + count]? ∧
    (cursor.peek count).2.view = cursor.view
  walk : cursor.walkToLineEnd.view = .ofIndex source (moveIndex source index .toLineEnd)
  jump : cursor.ahead = [] →
    cursor.jumpToLineEnd.view = .ofIndex source (moveIndex source index .toLineEnd)
  increasing : cursor.view.feeds.Pairwise (· < ·)
  ended : cursor.current = none → cursor.position = Text.byteLength source ∧
    ∀ calls, (cursor.performAll calls).view = cursor.view

theorem Stands.moveIndex_eq (hstands : cursor.Stands source index)
    (hcurrent : cursor.current = none) (call : Call) : moveIndex source index call = index := by
  have hindex : index = source.length := by
    rw [hstands.current_eq, List.getElem?_eq_none_iff] at hcurrent
    exact Nat.le_antisymm hstands.index_le hcurrent
  cases call <;> simp [moveIndex, hindex]

theorem Stands.shows (hstands : cursor.Stands source index) : cursor.Shows source index := by
  have hend := hstands.toLineEnd.view_eq
  have hwalk : cursor.toLineEnd = cursor.walkToLineEnd := by
    rw [toLineEnd_eq_advanceBy, walkToLineEnd_eq_advanceBy]
  rw [hwalk] at hend
  refine ⟨hstands.index_le, hstands.view_eq, fun count => ⟨hstands.fst_peek count, ?_⟩, hend,
    fun hahead => ?_, cursor.lines.increasing, fun hcurrent => ⟨?_, fun calls => ?_⟩⟩
  · rw [snd_peek, (hstands.fetch _).view_eq, hstands.view_eq]
  · rw [jumpToLineEnd_eq_walkToLineEnd hahead, hend]
  · have htotal := hstands.tracks.position_add_remaining
    obtain ⟨hahead, hunread⟩ := hstands.exhausts hcurrent
    rw [hstands.exhausts.remaining_eq, hcurrent, hahead, hunread] at htotal
    exact htotal
  · have hstays : calls.foldl (moveIndex source) index = index := by
      induction calls with
      | nil => rfl
      | cons call calls ih => rw [List.foldl_cons, hstands.moveIndex_eq hcurrent, ih]
    rw [(hstands.performAll calls).view_eq, hstays, hstands.view_eq]

end Cursor

end FormulaScript
