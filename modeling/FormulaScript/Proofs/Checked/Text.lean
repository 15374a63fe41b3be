import FormulaScript.Proofs.Checked.Basic
import FormulaScript.Proofs.Text.Cursor

/-!
# Checked reading of a text

What a cursor does with its slices and offsets checked, and how offsets are resolved by the line
feeds that it has recorded. A text whose length fits into a word is read without a fault, whatever
the cursor is asked for and in whatever order.
-/

namespace FormulaScript

open Checked

/-! ### Line feeds -/

namespace LineBreaks

def recordChecked (breaks : LineBreaks) (offset : Nat) : Except Fault LineBreaks := do
  let offset ← uint32 offset
  if breaks.offsets.back?.all (· < offset) then .ok (breaks.record offset)
  else .error (.lineFeed offset)

def lineStartChecked (breaks : LineBreaks) : Nat → Except Fault Nat
  | 0 => .ok 0
  | index + 1 =>
      match breaks.offsets[index]? with
      | some feed => uint32 ((feed : Int) + 1)
      | none => .error (.index index)

def positionChecked (breaks : LineBreaks) (offset : Nat) : Except Fault Position := do
  let before ← uint32 (breaks.countBefore offset)
  let start ← breaks.lineStartChecked before
  let line ← uint32 ((before : Int) + 1)
  let distance ← uint32 ((offset : Int) - start)
  let column ← uint32 ((distance : Int) + 1)
  .ok ⟨line, column⟩

def regionChecked (breaks : LineBreaks) (span : Span) : Except Fault Region := do
  let first ← breaks.positionChecked span.start
  if span.stop ≤ span.start then .ok (.point first)
  else do
    let stop ← uint32 ((span.stop : Int) - 1)
    let last ← breaks.positionChecked stop
    .ok ⟨first, last⟩

theorem recordChecked_eq_ok {breaks : LineBreaks} {offset : Nat} (hoffset : offset < 2 ^ 32)
    (hlater : ∀ feed ∈ breaks.offsets.toList, feed < offset) :
    breaks.recordChecked offset = .ok (breaks.record offset) := by
  rw [recordChecked, bind_ok (uint32_eq_ok hoffset), if_pos]
  rw [Option.all_eq_true]
  intro last hlast
  rw [← Array.getLast?_toList] at hlast
  simpa using hlater last (List.mem_of_getLast? hlast)

/-- Distinct line feeds between two offsets are no more than the offsets leave room for. -/
theorem countP_le_sub {feeds : List Nat} (hincreasing : feeds.Pairwise (· < ·)) {least : Nat}
    (hleast : ∀ feed ∈ feeds, least ≤ feed) (offset : Nat) :
    feeds.countP (· < offset) ≤ offset - least := by
  induction feeds generalizing least with
  | nil => exact Nat.zero_le _
  | cons feed rest ih =>
      obtain ⟨hfeed, hrest⟩ := List.pairwise_cons.mp hincreasing
      have hle := hleast feed List.mem_cons_self
      have hcount : rest.countP (· < offset) ≤ offset - (feed + 1) := ih hrest hfeed
      rw [List.countP_cons]
      split_ifs with hbefore
      · simp only [decide_eq_true_eq] at hbefore
        omega
      · omega

theorem countBefore_le (breaks : LineBreaks) (offset : Nat) :
    breaks.countBefore offset ≤ offset := by
  rw [countBefore_eq_countP]
  exact countP_le_sub breaks.increasing (fun _ _ => Nat.zero_le _) offset

/-- A line starts behind a line feed that was recorded, in front of the offset. -/
theorem lineStartChecked_eq_ok (breaks : LineBreaks) {offset : Nat} (hoffset : offset < 2 ^ 32) :
    breaks.lineStartChecked (breaks.countBefore offset) =
        .ok (breaks.lineStart (breaks.countBefore offset)) ∧
      breaks.lineStart (breaks.countBefore offset) ≤ offset := by
  cases hbefore : breaks.countBefore offset with
  | zero => exact ⟨rfl, Nat.zero_le _⟩
  | succ index =>
      have hindex : index < breaks.offsets.toList.countP (· < offset) := by
        rw [← countBefore_eq_countP]
        omega
      rw [← any_getElem?_lt_iff breaks.increasing, Array.getElem?_toList,
        Option.any_eq_true] at hindex
      obtain ⟨feed, hfeed, hlt⟩ := hindex
      have hlt' : feed < offset := by simpa using hlt
      rw [lineStartChecked, lineStart, hfeed]
      exact ⟨uint32_add_eq_ok (by omega), hlt'⟩

theorem positionChecked_eq_ok (breaks : LineBreaks) {offset : Nat} (hoffset : offset + 1 < 2 ^ 32) :
    breaks.positionChecked offset = .ok (breaks.position offset) := by
  have hcount := countBefore_le breaks offset
  obtain ⟨hstart, hle⟩ := lineStartChecked_eq_ok breaks (show offset < 2 ^ 32 by omega)
  rw [positionChecked, bind_ok (uint32_eq_ok (by omega)), bind_ok hstart,
    bind_ok (uint32_add_eq_ok (by omega)), bind_ok (uint32_sub_eq_ok hle (by omega)),
    bind_ok (uint32_add_eq_ok (by omega))]
  rfl

theorem regionChecked_eq_ok_of_lt (breaks : LineBreaks) {span : Span}
    (hstart : span.start + 1 < 2 ^ 32) (hstop : span.stop < 2 ^ 32) :
    breaks.regionChecked span = .ok (breaks.region span) := by
  rw [regionChecked, region, bind_ok (positionChecked_eq_ok breaks hstart)]
  split_ifs with hempty
  · rfl
  · have hlast : uint32 ((span.stop : Int) - 1) = .ok (span.stop - 1) :=
      uint32_sub_eq_ok (show 1 ≤ span.stop by omega) (by omega)
    rw [bind_ok hlast, bind_ok (positionChecked_eq_ok breaks (by omega))]

theorem regionChecked_eq_ok (breaks : LineBreaks) {span : Span} {limit : Nat}
    (hends : span.EndsBy limit) (hlimit : limit + 1 < 2 ^ 32) :
    breaks.regionChecked span = .ok (breaks.region span) := by
  obtain ⟨hstart, hstop⟩ := hends
  exact regionChecked_eq_ok_of_lt breaks (by omega) (by omega)

end LineBreaks

/-! ### Cursors -/

namespace Cursor

/-- Where the next character is to be read: behind the current one and the ones looked at. -/
def readOffset (cursor : Cursor) : Nat :=
  cursor.position + Text.byteLength (cursor.current.toList ++ cursor.ahead)

def settleChecked (cursor : Cursor) : Except Fault Cursor :=
  if cursor.current = some '\n' then do
    let lines ← cursor.lines.recordChecked cursor.position
    .ok { cursor with lines := lines }
  else .ok cursor

def ofTextChecked (text : String) : Except Fault Cursor := do
  let rest ← Text.suffixChecked text.toList 0
  settleChecked
    { source := text.toList
      position := 0
      current := rest.head?
      ahead := []
      unread := rest.tail
      lines := .empty }

/-- Reads so many characters more, as long as there are any. -/
def fetchChecked (cursor : Cursor) : Nat → Except Fault Cursor
  | 0 => .ok cursor
  | count + 1 => do
      match ← Text.suffixChecked cursor.source cursor.readOffset with
      | [] => .ok cursor
      | c :: rest => fetchChecked { cursor with ahead := cursor.ahead ++ [c], unread := rest } count

def peekChecked (cursor : Cursor) (count : Nat) : Except Fault (Option Char × Cursor) := do
  let fetched ← cursor.fetchChecked (count - cursor.ahead.length)
  match count with
  | 0 => .ok (cursor.current, fetched)
  | index + 1 => .ok (fetched.ahead[index]?, fetched)

def advanceChecked (cursor : Cursor) : Except Fault Cursor :=
  match cursor.current with
  | none => .ok cursor
  | some c => do
      let offset ← uint32 (cursor.position + c.utf8Size : Nat)
      match cursor.ahead with
      | next :: ahead =>
          settleChecked { cursor with position := offset, current := some next, ahead := ahead }
      | [] => do
          let rest ← Text.suffixChecked cursor.source cursor.readOffset
          settleChecked
            { cursor with position := offset, current := rest.head?, unread := rest.tail }

def advanceByChecked (cursor : Cursor) : Nat → Except Fault Cursor
  | 0 => .ok cursor
  | count + 1 => do
      let next ← cursor.advanceChecked
      next.advanceByChecked count

/-- Consumes one of the characters that are left after the other, up to the end of the line. -/
def walkChecked (cursor : Cursor) : List Char → Except Fault Cursor
  | [] => .ok cursor
  | _ :: rest =>
      if cursor.atLineEnd then .ok cursor
      else do
        let next ← cursor.advanceChecked
        next.walkChecked rest

def jumpChecked (cursor : Cursor) : Except Fault Cursor :=
  if cursor.atLineEnd then .ok cursor
  else do
    let rest ← Text.suffixChecked cursor.source cursor.readOffset
    let skipped := Text.byteLength (rest.takeWhile (!Text.endsLine ·))
    let offset ← uint32 (cursor.readOffset + skipped : Nat)
    let behind ← Text.suffixChecked cursor.source offset
    settleChecked { cursor with position := offset, current := behind.head?, unread := behind.tail }

def toLineEndChecked (cursor : Cursor) : Except Fault Cursor :=
  if cursor.ahead.isEmpty then cursor.jumpChecked else cursor.walkChecked cursor.remaining

/-! ### What a cursor relies on -/

/-- What a cursor has read and has not read yet make up its text, whose length fits into a word. -/
structure Reads (cursor : Cursor) : Prop where
  tracks : cursor.Tracks cursor.source
  exhausted : cursor.current = none → cursor.ahead = [] ∧ cursor.unread = []
  length_lt : Text.byteLength cursor.source < 2 ^ 31

variable {cursor : Cursor}

theorem Reads.remaining_eq (hreads : cursor.Reads) :
    cursor.remaining = cursor.current.toList ++ cursor.ahead ++ cursor.unread :=
  Exhausts.remaining_eq hreads.exhausted

theorem Reads.suffixAt (hreads : cursor.Reads) :
    Text.SuffixAt cursor.source cursor.position cursor.remaining := by
  obtain ⟨passed, hsource, hposition, -⟩ := hreads.tracks
  exact ⟨passed, hsource, hposition⟩

theorem Reads.position_le (hreads : cursor.Reads) :
    cursor.position ≤ Text.byteLength cursor.source :=
  Nat.le.intro hreads.suffixAt.add_byteLength

theorem Reads.position_lt (hreads : cursor.Reads) : cursor.position < 2 ^ 31 :=
  Nat.lt_of_le_of_lt hreads.position_le hreads.length_lt

theorem Reads.position_add_le (hreads : cursor.Reads) {c : Char}
    (hcurrent : cursor.current = some c) :
    cursor.position + c.utf8Size ≤ Text.byteLength cursor.source := by
  have htotal := hreads.tracks.position_add_remaining
  rw [remaining, hcurrent, Option.elim_some, Text.byteLength_cons] at htotal
  omega

theorem reads_ofText {text : String} (hlength : Text.byteLength text.toList < 2 ^ 31) :
    (ofText text).Reads :=
  ⟨tracks_ofText text, exhausts_ofText text, hlength⟩

theorem Reads.advance (hreads : cursor.Reads) : cursor.advance.Reads := by
  refine ⟨?_, Exhausts.advance hreads.exhausted, ?_⟩
  · rw [source_advance]
    exact hreads.tracks.advance
  · rw [source_advance]
    exact hreads.length_lt

theorem Reads.advanceBy (hreads : cursor.Reads) (count : Nat) : (cursor.advanceBy count).Reads := by
  induction count generalizing cursor with
  | zero => exact hreads
  | succ count ih => exact ih hreads.advance

theorem Reads.toLineEnd (hreads : cursor.Reads) : cursor.toLineEnd.Reads := by
  rw [toLineEnd_eq_advanceBy]
  exact hreads.advanceBy _

/-- The cursor with so many characters more looked at. -/
def fetch (cursor : Cursor) (count : Nat) : Cursor :=
  { cursor with
    ahead := cursor.ahead ++ cursor.unread.take count
    unread := cursor.unread.drop count }

theorem snd_peek (cursor : Cursor) (count : Nat) :
    (cursor.peek count).2 = cursor.fetch (count - cursor.ahead.length) := by
  cases count <;> rfl

theorem fetch_one {c : Char} {rest : List Char} (hunread : cursor.unread = c :: rest) :
    cursor.fetch 1 = { cursor with ahead := cursor.ahead ++ [c], unread := rest } := by
  simp [fetch, hunread]

theorem fetch_succ (cursor : Cursor) (count : Nat) :
    cursor.fetch (count + 1) = (cursor.fetch 1).fetch count := by
  cases hunread : cursor.unread <;> simp [fetch, hunread]

@[simp]
theorem remaining_fetch (cursor : Cursor) (count : Nat) :
    (cursor.fetch count).remaining = cursor.remaining := by
  simp [remaining, fetch]

theorem Tracks.fetch {source : List Char} (htracks : cursor.Tracks source) (count : Nat) :
    (cursor.fetch count).Tracks source := by
  obtain ⟨passed, hsource, hposition, hlines⟩ := htracks
  exact ⟨passed, (remaining_fetch cursor count).symm ▸ hsource, hposition, hlines⟩

theorem Exhausts.fetch (hexhausts : cursor.Exhausts) (count : Nat) :
    (cursor.fetch count).Exhausts := by
  intro hnone
  obtain ⟨hahead, hunread⟩ := hexhausts hnone
  simp [Cursor.fetch, hahead, hunread]

theorem Reads.fetch (hreads : cursor.Reads) (count : Nat) : (cursor.fetch count).Reads :=
  ⟨hreads.tracks.fetch count, Exhausts.fetch hreads.exhausted count, hreads.length_lt⟩

/-- The offset of the next character to be read lies between two characters. -/
theorem Reads.suffixChecked_eq_ok (hreads : cursor.Reads) :
    Text.suffixChecked cursor.source cursor.readOffset = .ok cursor.unread := by
  have hat := hreads.suffixAt
  rw [hreads.remaining_eq] at hat
  exact Text.suffixChecked_eq_ok hat.drop

/-- The line feeds that are recorded lie in front of the next character. -/
theorem Reads.lt_of_mem_lines (hreads : cursor.Reads) {c : Char}
    (hcurrent : cursor.current = some c) :
    ∀ feed ∈ cursor.lines.offsets.toList, feed < cursor.position + c.utf8Size := by
  obtain ⟨passed, -, hposition, hlines⟩ := hreads.tracks
  intro feed hfeed
  rw [hlines, hcurrent] at hfeed
  have hlt := LineBreaks.lt_of_mem_scan hfeed
  rw [Option.toList_some, Text.byteLength_append, Text.byteLength_cons, Text.byteLength_nil] at hlt
  omega

/-! ### No faults -/

theorem settleChecked_eq_ok (hposition : cursor.position < 2 ^ 32)
    (hlater : ∀ feed ∈ cursor.lines.offsets.toList, feed < cursor.position) :
    cursor.settleChecked = .ok cursor.settle := by
  rw [settleChecked, settle]
  split_ifs with hfeed
  · rw [bind_ok (LineBreaks.recordChecked_eq_ok hposition hlater)]
  · rfl

theorem ofTextChecked_eq_ok (text : String) : ofTextChecked text = .ok (.ofText text) := by
  have hsuffix : Text.suffixChecked text.toList 0 = .ok text.toList :=
    Text.suffixChecked_eq_ok ⟨[], rfl, rfl⟩
  rw [ofTextChecked, bind_ok hsuffix]
  exact settleChecked_eq_ok (by simp) (fun _ hfeed => by cases hfeed)

theorem fetchChecked_eq_ok (hreads : cursor.Reads) (count : Nat) :
    cursor.fetchChecked count = .ok (cursor.fetch count) := by
  induction count generalizing cursor with
  | zero => simp [fetchChecked, fetch]
  | succ count ih =>
      rw [fetchChecked, bind_ok hreads.suffixChecked_eq_ok]
      cases hunread : cursor.unread with
      | nil =>
          obtain ⟨source, position, current, ahead, unread, lines⟩ := cursor
          obtain rfl : unread = [] := hunread
          simp [fetch]
      | cons c rest =>
          dsimp only
          rw [← fetch_one hunread, ih (hreads.fetch 1), ← fetch_succ]

theorem peekChecked_eq_ok (hreads : cursor.Reads) (count : Nat) :
    cursor.peekChecked count = .ok (cursor.peek count) := by
  rw [peekChecked, bind_ok (fetchChecked_eq_ok hreads _)]
  cases count <;> rfl

theorem advanceChecked_eq_ok (hreads : cursor.Reads) :
    cursor.advanceChecked = .ok cursor.advance := by
  cases hcurrent : cursor.current with
  | none => rw [advanceChecked, advance, hcurrent]
  | some c =>
      have hle := hreads.position_add_le hcurrent
      have hlength := hreads.length_lt
      have hword : cursor.position + c.utf8Size < 2 ^ 32 := by omega
      rw [advanceChecked, advance, hcurrent]
      dsimp only
      rw [bind_ok (uint32_eq_ok hword)]
      cases hahead : cursor.ahead with
      | cons next ahead => exact settleChecked_eq_ok hword (hreads.lt_of_mem_lines hcurrent)
      | nil =>
          dsimp only
          rw [bind_ok hreads.suffixChecked_eq_ok]
          exact settleChecked_eq_ok hword (hreads.lt_of_mem_lines hcurrent)

theorem advanceByChecked_eq_ok (hreads : cursor.Reads) (count : Nat) :
    cursor.advanceByChecked count = .ok (cursor.advanceBy count) := by
  induction count generalizing cursor with
  | zero => rfl
  | succ count ih =>
      rw [advanceByChecked, bind_ok (advanceChecked_eq_ok hreads), ih hreads.advance, advanceBy]

theorem walkChecked_eq_ok (hreads : cursor.Reads) :
    cursor.walkChecked cursor.remaining = .ok cursor.walkToLineEnd := by
  fun_induction walkToLineEnd cursor with
  | case1 cursor hend =>
      cases cursor.remaining with
      | nil => rfl
      | cons c rest => rw [walkChecked, if_pos hend]
  | case2 cursor hend ih =>
      have ih' := ih hreads.advance
      rw [remaining_advance] at ih'
      cases hremaining : cursor.remaining with
      | nil => simp [atLineEnd_iff, hremaining] at hend
      | cons c rest =>
          rw [hremaining, List.tail_cons] at ih'
          rw [walkChecked, if_neg hend, bind_ok (advanceChecked_eq_ok hreads), ih']

theorem jumpChecked_eq_ok (hreads : cursor.Reads) (hahead : cursor.ahead = []) :
    cursor.jumpChecked = .ok cursor.jumpToLineEnd := by
  rw [jumpChecked, jumpToLineEnd]
  split_ifs with hend
  · rfl
  · obtain ⟨c, hcurrent⟩ : ∃ c, cursor.current = some c := by
      rw [← Option.ne_none_iff_exists']
      intro hnone
      simp [atLineEnd, hnone] at hend
    have hlines := hreads.lt_of_mem_lines hcurrent
    have hat := hreads.suffixAt
    rw [hreads.remaining_eq, hahead, hcurrent] at hat
    rw [bind_ok hreads.suffixChecked_eq_ok, hcurrent]
    dsimp only
    -- The unread text is the rest of the line and what is behind it.
    set skipped := cursor.unread.takeWhile (!Text.endsLine ·)
    set rest := cursor.unread.dropWhile (!Text.endsLine ·)
    have hunread : cursor.unread = skipped ++ rest := List.takeWhile_append_dropWhile.symm
    have hbehind : Text.SuffixAt cursor.source
        (cursor.position + Text.byteLength (c :: skipped)) rest := by
      rw [hunread] at hat
      exact Text.SuffixAt.drop (by simpa using hat)
    have hoffset : cursor.readOffset + Text.byteLength skipped =
        cursor.position + Text.byteLength (c :: skipped) := by
      simp [readOffset, hcurrent, hahead, Nat.add_assoc]
    have hword : cursor.position + Text.byteLength (c :: skipped) < 2 ^ 32 := by
      have htotal := hbehind.add_byteLength
      have hlength := hreads.length_lt
      omega
    rw [hoffset, bind_ok (uint32_eq_ok hword), bind_ok (Text.suffixChecked_eq_ok hbehind)]
    exact settleChecked_eq_ok hword fun feed hfeed =>
      Nat.lt_of_lt_of_le (hlines feed hfeed) (Nat.add_le_add_left (Nat.le_add_right _ _) _)

theorem toLineEndChecked_eq_ok (hreads : cursor.Reads) :
    cursor.toLineEndChecked = .ok cursor.toLineEnd := by
  rw [toLineEndChecked, toLineEnd]
  split_ifs with hahead
  · exact jumpChecked_eq_ok hreads (List.isEmpty_iff.mp hahead)
  · exact walkChecked_eq_ok hreads

/-! ### Any calls -/

/-- What a cursor can be asked for. -/
inductive Call where
  | peek (count : Nat) | advance | advanceBy (count : Nat) | toLineEnd
deriving DecidableEq, Repr

def perform (cursor : Cursor) : Call → Cursor
  | .peek count => (cursor.peek count).2
  | .advance => cursor.advance
  | .advanceBy count => cursor.advanceBy count
  | .toLineEnd => cursor.toLineEnd

def performChecked (cursor : Cursor) : Call → Except Fault Cursor
  | .peek count => do
      let (_, fetched) ← cursor.peekChecked count
      .ok fetched
  | .advance => cursor.advanceChecked
  | .advanceBy count => cursor.advanceByChecked count
  | .toLineEnd => cursor.toLineEndChecked

theorem Reads.perform (hreads : cursor.Reads) (call : Call) : (cursor.perform call).Reads := by
  cases call with
  | peek count =>
      rw [Cursor.perform, snd_peek]
      exact hreads.fetch _
  | advance => exact hreads.advance
  | advanceBy count => exact hreads.advanceBy count
  | toLineEnd => exact hreads.toLineEnd

theorem performChecked_eq_ok (hreads : cursor.Reads) (call : Call) :
    cursor.performChecked call = .ok (cursor.perform call) := by
  cases call with
  | peek count =>
      rw [performChecked, bind_ok (peekChecked_eq_ok hreads count)]
      rfl
  | advance => exact advanceChecked_eq_ok hreads
  | advanceBy count => exact advanceByChecked_eq_ok hreads count
  | toLineEnd => exact toLineEndChecked_eq_ok hreads

def performAll (cursor : Cursor) (calls : List Call) : Cursor :=
  calls.foldl perform cursor

def performAllChecked (cursor : Cursor) (calls : List Call) : Except Fault Cursor :=
  calls.foldlM performChecked cursor

theorem performAllChecked_eq_ok (hreads : cursor.Reads) (calls : List Call) :
    cursor.performAllChecked calls = .ok (cursor.performAll calls) :=
  foldlM_eq_ok (fun _ call hreads => performChecked_eq_ok hreads call)
    (fun _ call hreads => hreads.perform call) calls hreads

end Cursor

end FormulaScript
