import FormulaScript.Proofs.Text.Index

/-!
# A cursor that knows an offset

The text that a cursor has not read is known by the offset of its first character as well. A cursor
that reads its text there, and that looks for the end of a line there when nothing waits ahead, does
the same in every call.
-/

namespace FormulaScript

/-- A cursor that knows the text it has not read by the offset of its first character. -/
structure OffsetCursor where
  source : List Char
  position : Nat
  current : Option Char
  ahead : List Char
  readOffset : Nat
  lines : LineBreaks
deriving Repr

namespace OffsetCursor

def unread (cursor : OffsetCursor) : List Char :=
  Text.dropBytes cursor.readOffset cursor.source

/-- Reads one more character. -/
def decode (cursor : OffsetCursor) : Option Char × OffsetCursor :=
  match cursor.unread with
  | [] => (none, cursor)
  | c :: _ => (some c, { cursor with readOffset := cursor.readOffset + c.utf8Size })

def settle (cursor : OffsetCursor) : OffsetCursor :=
  { cursor with
    lines :=
      if cursor.current = some '\n' then cursor.lines.record cursor.position else cursor.lines }

/-- Reads the character that comes under the cursor. -/
def load (cursor : OffsetCursor) : OffsetCursor :=
  let (current, behind) := cursor.decode
  settle { behind with current := current }

def ofText (text : String) : OffsetCursor :=
  load
    { source := text.toList
      position := 0
      current := none
      ahead := []
      readOffset := 0
      lines := .empty }

/-- Reads so many characters more, as long as there are any. -/
def fetch (cursor : OffsetCursor) : Nat → OffsetCursor
  | 0 => cursor
  | count + 1 =>
      match cursor.decode with
      | (none, _) => cursor
      | (some c, behind) => fetch { behind with ahead := behind.ahead ++ [c] } count

def peek (cursor : OffsetCursor) : Nat → Option Char × OffsetCursor
  | 0 => (cursor.current, cursor)
  | index + 1 =>
      let fetched := cursor.fetch (index + 1 - cursor.ahead.length)
      (fetched.ahead[index]?, fetched)

def advance (cursor : OffsetCursor) : OffsetCursor :=
  match cursor.current with
  | none => cursor
  | some c =>
      let passed := { cursor with position := cursor.position + c.utf8Size }
      match cursor.ahead with
      | next :: ahead => settle { passed with current := some next, ahead := ahead }
      | [] => load passed

def advanceBy (cursor : OffsetCursor) : Nat → OffsetCursor
  | 0 => cursor
  | count + 1 => cursor.advance.advanceBy count

def atLineEnd (cursor : OffsetCursor) : Bool :=
  cursor.current.all Text.endsLine

/-- Consumes one character after the other, up to the end of the line. -/
def walk (cursor : OffsetCursor) : Nat → OffsetCursor
  | 0 => cursor
  | count + 1 => if cursor.atLineEnd then cursor else cursor.advance.walk count

/-- Looks for the end of the line from the offset of what is unread. -/
def jump (cursor : OffsetCursor) : OffsetCursor :=
  if cursor.atLineEnd then cursor
  else
    let stop := cursor.readOffset + Text.byteLength (cursor.unread.takeWhile (!Text.endsLine ·))
    if cursor.unread.any Text.endsLine then
      load { cursor with position := stop, readOffset := stop }
    else
      let stop := Text.byteLength cursor.source
      { cursor with position := stop, current := none, readOffset := stop }

/-- No line has more characters than the text. -/
def toLineEnd (cursor : OffsetCursor) : OffsetCursor :=
  if cursor.ahead.isEmpty then cursor.jump else cursor.walk cursor.source.length

def perform (cursor : OffsetCursor) : Cursor.Call → OffsetCursor
  | .peek count => (cursor.peek count).2
  | .advance => cursor.advance
  | .advanceBy count => cursor.advanceBy count
  | .toLineEnd => cursor.toLineEnd

def performAll (cursor : OffsetCursor) (calls : List Cursor.Call) : OffsetCursor :=
  calls.foldl perform cursor

end OffsetCursor

namespace Cursor

/-- The cursor with the offset of what is unread in place of its characters. -/
def toOffsets (cursor : Cursor) : OffsetCursor :=
  { source := cursor.source
    position := cursor.position
    current := cursor.current
    ahead := cursor.ahead
    readOffset := cursor.readOffset
    lines := cursor.lines }

variable {source : List Char} {index : Nat} {cursor : Cursor}

theorem Stands.suffixAt (hstands : cursor.Stands source index) :
    Text.SuffixAt cursor.source cursor.readOffset cursor.unread := by
  obtain ⟨passed, hsource, hposition, -⟩ := hstands.tracks
  have hat : Text.SuffixAt cursor.source cursor.position cursor.remaining :=
    ⟨passed, hstands.source_eq.trans hsource, hposition⟩
  rw [hstands.exhausts.remaining_eq] at hat
  exact hat.drop

/-- The offset is that of the characters. -/
theorem Stands.unread_toOffsets (hstands : cursor.Stands source index) :
    cursor.toOffsets.unread = cursor.unread := by
  obtain ⟨passed, hsource, hoffset⟩ := hstands.suffixAt
  change Text.dropBytes cursor.readOffset cursor.source = cursor.unread
  rw [hsource, hoffset, Text.dropBytes_byteLength_append]

/-- Where nothing waits ahead, the character that comes under the cursor is the first unread one. -/
theorem load_eq {position : Nat} {unread : List Char}
    (hunread : Text.dropBytes position source = unread) (current : Option Char)
    (lines : LineBreaks) :
    OffsetCursor.load ⟨source, position, current, [], position, lines⟩ =
      (settle ⟨source, position, unread.head?, [], unread.tail, lines⟩).toOffsets := by
  have hrest : OffsetCursor.unread ⟨source, position, current, [], position, lines⟩ = unread :=
    hunread
  rw [OffsetCursor.load, OffsetCursor.decode, hrest]
  cases unread with
  | nil => rfl
  | cons c rest => rfl

theorem toOffsets_ofText (text : String) :
    (ofText text).toOffsets = OffsetCursor.ofText text := by
  rw [OffsetCursor.ofText, load_eq (Text.dropBytes_zero text.toList)]
  rfl

theorem Stands.toOffsets_fetch (hstands : cursor.Stands source index) (count : Nat) :
    (cursor.fetch count).toOffsets = cursor.toOffsets.fetch count := by
  induction count generalizing cursor with
  | zero => simp [Cursor.fetch, OffsetCursor.fetch]
  | succ count ih =>
      have hunread := hstands.unread_toOffsets
      rw [OffsetCursor.fetch, OffsetCursor.decode, hunread]
      cases hrest : cursor.unread with
      | nil => simp [Cursor.fetch, toOffsets, readOffset, hrest]
      | cons c rest =>
          have hone := fetch_one hrest
          have hoffset : (cursor.fetch 1).readOffset = cursor.readOffset + c.utf8Size := by
            simp [hone, readOffset, Nat.add_assoc]
          rw [fetch_succ, ih (hstands.fetch 1)]
          simp only [toOffsets, hoffset]
          rw [hone]

theorem Stands.toOffsets_peek (hstands : cursor.Stands source index) (count : Nat) :
    cursor.toOffsets.peek count = ((cursor.peek count).1, (cursor.peek count).2.toOffsets) := by
  cases count with
  | zero => simp [peek, OffsetCursor.peek, toOffsets, readOffset]
  | succ place =>
      have hfetch := hstands.toOffsets_fetch (place + 1 - cursor.ahead.length)
      rw [OffsetCursor.peek, show cursor.toOffsets.ahead = cursor.ahead from rfl, ← hfetch]
      rfl

theorem Stands.toOffsets_advance (hstands : cursor.Stands source index) :
    cursor.advance.toOffsets = cursor.toOffsets.advance := by
  have hunread := hstands.unread_toOffsets
  obtain ⟨source', position, current, ahead, unread, lines⟩ := cursor
  cases current with
  | none => rfl
  | some c =>
      cases ahead with
      | cons next ahead =>
          have hoffset : position + Text.byteLength (c :: next :: ahead) =
              position + c.utf8Size + Text.byteLength (next :: ahead) := by
            rw [Text.byteLength_cons c, Nat.add_assoc]
          change _ = OffsetCursor.settle ⟨source', position + c.utf8Size, some next, ahead,
            position + Text.byteLength (c :: next :: ahead), lines⟩
          rw [hoffset]
          rfl
      | nil => exact (load_eq hunread (some c) lines).symm

theorem Stands.toOffsets_advanceBy (hstands : cursor.Stands source index) (count : Nat) :
    (cursor.advanceBy count).toOffsets = cursor.toOffsets.advanceBy count := by
  induction count generalizing cursor index with
  | zero => rfl
  | succ count ih =>
      rw [Cursor.advanceBy, ih hstands.advance, hstands.toOffsets_advance,
        OffsetCursor.advanceBy]

theorem Stands.toOffsets_walk (hstands : cursor.Stands source index) {bound : Nat}
    (hbound : cursor.remaining.length ≤ bound) :
    cursor.walkToLineEnd.toOffsets = cursor.toOffsets.walk bound := by
  induction bound generalizing cursor index with
  | zero =>
      have hremaining := List.eq_nil_of_length_eq_zero (Nat.le_zero.mp hbound)
      have hend : cursor.atLineEnd = true := by
        rw [atLineEnd_iff, hremaining]
        rfl
      rw [walkToLineEnd, if_pos hend, OffsetCursor.walk]
  | succ bound ih =>
      rw [walkToLineEnd, OffsetCursor.walk]
      by_cases hend : cursor.atLineEnd
      · rw [if_pos hend, if_pos (show cursor.toOffsets.atLineEnd = true from hend)]
      · have hlt := cursor.length_remaining_advance_lt hend
        rw [if_neg hend, if_neg (show ¬cursor.toOffsets.atLineEnd = true from hend),
          ih hstands.advance (by omega), hstands.toOffsets_advance]

/-- Where nothing waits ahead, what is unread begins behind the current character. -/
theorem Stands.toOffsets_jump (hstands : cursor.Stands source index)
    (hahead : cursor.ahead = []) : cursor.jumpToLineEnd.toOffsets = cursor.toOffsets.jump := by
  have hunread := hstands.unread_toOffsets
  have hat := hstands.suffixAt
  obtain ⟨source', position, current, ahead, unread, lines⟩ := cursor
  obtain rfl : ahead = [] := hahead
  by_cases hend : current.all Text.endsLine
  · exact (congrArg toOffsets (if_pos hend)).trans (if_pos hend).symm
  · set skipped := unread.takeWhile (!Text.endsLine ·)
    set rest := unread.dropWhile (!Text.endsLine ·) with hrest
    set stop := position + Text.byteLength (current.toList ++ skipped)
    have hsplit : unread = skipped ++ rest := List.takeWhile_append_dropWhile.symm
    have hstop : position + Text.byteLength (current.toList ++ []) + Text.byteLength skipped =
        stop := by
      simp [stop, Nat.add_assoc]
    have hbehind : Text.SuffixAt source' stop rest := by
      rw [← hstop]
      exact Text.SuffixAt.drop (hsplit ▸ hat)
    have hwalked : jumpToLineEnd ⟨source', position, current, [], unread, lines⟩ =
        settle ⟨source', stop, rest.head?, [], rest.tail, lines⟩ := if_neg hend
    have hjumped : (toOffsets ⟨source', position, current, [], unread, lines⟩).jump =
        if unread.any Text.endsLine then OffsetCursor.load ⟨source', stop, current, [], stop, lines⟩
        else
          ⟨source', Text.byteLength source', none, [], Text.byteLength source', lines⟩ := by
      rw [← hstop]
      refine (if_neg hend).trans ?_
      rw [hunread]
      rfl
    rw [hwalked, hjumped]
    split_ifs with hany
    · obtain ⟨passed, hsource, hpassed⟩ := hbehind
      have hdrop : Text.dropBytes stop source' = rest := by
        rw [hsource, hpassed, Text.dropBytes_byteLength_append]
      exact (load_eq hdrop current lines).symm
    · have hnil : rest = [] := by
        rw [hrest, List.dropWhile_eq_nil_iff]
        simpa using hany
      have hlength := hbehind.add_byteLength
      rw [hnil] at hlength ⊢
      rw [← hlength]
      rfl

theorem Stands.toOffsets_toLineEnd (hstands : cursor.Stands source index) :
    cursor.toLineEnd.toOffsets = cursor.toOffsets.toLineEnd := by
  rw [Cursor.toLineEnd, OffsetCursor.toLineEnd]
  by_cases hahead : cursor.ahead.isEmpty
  · rw [if_pos hahead, if_pos (show cursor.toOffsets.ahead.isEmpty = true from hahead),
      hstands.toOffsets_jump (List.isEmpty_iff.mp hahead)]
  · have hbound : cursor.remaining.length ≤ cursor.toOffsets.source.length := by
      change _ ≤ cursor.source.length
      rw [hstands.remaining_eq, hstands.source_eq, List.length_drop]
      exact Nat.sub_le _ _
    rw [if_neg hahead, if_neg (show ¬cursor.toOffsets.ahead.isEmpty = true from hahead),
      hstands.toOffsets_walk hbound]

theorem Stands.toOffsets_perform (hstands : cursor.Stands source index) (call : Call) :
    (cursor.perform call).toOffsets = cursor.toOffsets.perform call := by
  cases call with
  | peek count => rw [OffsetCursor.perform, hstands.toOffsets_peek, Cursor.perform]
  | advance => exact hstands.toOffsets_advance
  | advanceBy count => exact hstands.toOffsets_advanceBy count
  | toLineEnd => exact hstands.toOffsets_toLineEnd

theorem Stands.toOffsets_performAll (hstands : cursor.Stands source index) (calls : List Call) :
    (cursor.performAll calls).toOffsets = cursor.toOffsets.performAll calls := by
  induction calls generalizing cursor index with
  | nil => rfl
  | cons call calls ih =>
      have hnext := ih (hstands.perform call)
      rwa [hstands.toOffsets_perform call] at hnext

/-! ### Any calls in any order -/

/-- What a machine is left with, whose words hold the line feeds after every call. -/
def performAllWrapped (cursor : Cursor) (calls : List Call) : Cursor :=
  calls.foldl (fun cursor call => (cursor.perform call).wrap) cursor

theorem Stands.performAllWrapped_eq {text : String} (hstands : cursor.Stands text.toList index)
    (hfits : Text.Fits text) (calls : List Call) :
    cursor.performAllWrapped calls = cursor.performAll calls := by
  induction calls generalizing cursor index with
  | nil => rfl
  | cons call calls ih =>
      have hnext := hstands.perform call
      rw [performAllWrapped, List.foldl_cons, hnext.tracks.wrap_eq_self hfits]
      exact ih hnext

/-- **A cursor is an index.** After any calls the cursor shows what is at the index that the calls have
led to. An offset in place of the unread text makes no difference, nor do words that hold the line
feeds, since the text fits. While its length fits into a signed word, neither do checks. -/
theorem shows_index {text : String} (hfits : Text.Fits text) (calls : List Call) :
    let source := text.toList
    let cursor := (ofText text).performAll calls
    let offsets := (OffsetCursor.ofText text).performAll calls
    cursor.Shows source (calls.foldl (moveIndex source) 0) ∧
      (ofText text).performAllWrapped calls = cursor ∧ offsets = cursor.toOffsets ∧
      (∀ count, offsets.peek count = ((cursor.peek count).1, (cursor.peek count).2.toOffsets)) ∧
      (Text.byteLength source < 2 ^ 31 →
        (ofTextChecked text).bind (performAllChecked · calls) = .ok cursor) := by
  intro source cursor offsets
  have hstart := stands_ofText text
  have hstands : cursor.Stands source (calls.foldl (moveIndex source) 0) := hstart.performAll calls
  have hoffsets : offsets = cursor.toOffsets := by
    rw [hstart.toOffsets_performAll calls, toOffsets_ofText]
  refine ⟨hstands.shows, hstart.performAllWrapped_eq hfits calls, hoffsets, fun count => ?_, fun hlength => ?_⟩
  · rw [hoffsets, hstands.toOffsets_peek]
  · rw [ofTextChecked_eq_ok]
    exact performAllChecked_eq_ok (reads_ofText hlength) calls

/-- Characters past the end of a line have been looked at, so this end is walked to. Behind the end of
the text nothing moves any more. -/
theorem shows_index_lookahead :
    let text := "é#a\n\nb"
    let calls : List Call := [.advance, .peek 9, .toLineEnd, .advance, .toLineEnd, .advanceBy 7]
    let source := text.toList
    let cursor := (ofText text).performAll calls
    let offsets := (OffsetCursor.ofText text).performAll calls
    (Text.Fits text ∧ Text.byteLength source < 2 ^ 31) ∧ cursor.view = ⟨none, 7, [4, 5]⟩ ∧
      cursor.Shows source (calls.foldl (moveIndex source) 0) ∧
      (ofText text).performAllWrapped calls = cursor ∧ offsets = cursor.toOffsets ∧
      (ofTextChecked text).bind (performAllChecked · calls) = .ok cursor := by
  intro text calls source cursor offsets
  have hlength : Text.byteLength source < 2 ^ 31 := by decide +kernel
  have hfits : Text.Fits text := by decide +kernel
  obtain ⟨hshows, hwords, hoffsets, -, hchecked⟩ := shows_index hfits calls
  exact ⟨⟨hfits, hlength⟩, by decide +kernel, hshows, hwords, hoffsets, hchecked hlength⟩

end Cursor

end FormulaScript
