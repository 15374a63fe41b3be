import FormulaScript.Text.Character
import FormulaScript.Text.LineBreaks

/-!
A cursor reads a text forward, one character at a time. Characters looked at ahead of time wait in
order until they are consumed, and every line feed is recorded as it comes under the cursor.
-/

namespace FormulaScript

structure Cursor where
  source : List Char
  position : Nat
  current : Option Char
  ahead : List Char
  unread : List Char
  lines : LineBreaks
deriving Repr

namespace Cursor

/-- Records the line feed under the cursor, if there is one. -/
def settle (cursor : Cursor) : Cursor :=
  { cursor with
    lines :=
      if cursor.current = some '\n' then cursor.lines.record cursor.position else cursor.lines }

def ofText (text : String) : Cursor :=
  settle
    { source := text.toList
      position := 0
      current := text.toList.head?
      ahead := []
      unread := text.toList.tail
      lines := .empty }

/-- What words hold of the cursor, whose own position is no word. -/
def wrap (cursor : Cursor) : Cursor :=
  { cursor with lines := cursor.lines.wrap }

/-- The text from the cursor to the end. -/
def remaining (cursor : Cursor) : List Char :=
  cursor.current.elim [] (· :: (cursor.ahead ++ cursor.unread))

def atEnd (cursor : Cursor) : Bool :=
  cursor.current.isNone

def slice (cursor : Cursor) (start stop : Nat) : String :=
  .ofList (Text.slice cursor.source start stop)

/-- The character `count` places past the current one. -/
def peek (cursor : Cursor) (count : Nat) : Option Char × Cursor :=
  let missing := count - cursor.ahead.length
  let fetched :=
    { cursor with
      ahead := cursor.ahead ++ cursor.unread.take missing
      unread := cursor.unread.drop missing }
  match count with
  | 0 => (cursor.current, fetched)
  | index + 1 => (fetched.ahead[index]?, fetched)

/-- Consumes the current character. -/
def advance (cursor : Cursor) : Cursor :=
  match cursor.current with
  | none => cursor
  | some c =>
      let passed := { cursor with position := cursor.position + c.utf8Size }
      match cursor.ahead with
      | next :: ahead => settle { passed with current := some next, ahead := ahead }
      | [] =>
          settle
            { passed with current := cursor.unread.head?, unread := cursor.unread.tail }

def advanceBy (cursor : Cursor) : Nat → Cursor
  | 0 => cursor
  | count + 1 => cursor.advance.advanceBy count

def atLineEnd (cursor : Cursor) : Bool :=
  cursor.current.all Text.endsLine

@[simp]
theorem remaining_settle (cursor : Cursor) : cursor.settle.remaining = cursor.remaining := rfl

@[simp]
theorem remaining_advance (cursor : Cursor) : cursor.advance.remaining = cursor.remaining.tail := by
  obtain ⟨source, position, current, ahead, unread, lines⟩ := cursor
  match current, ahead, unread with
  | none, _, _ => rfl
  | some _, _ :: _, _ => rfl
  | some _, [], [] => rfl
  | some _, [], _ :: _ => rfl

@[simp]
theorem remaining_advanceBy (cursor : Cursor) (count : Nat) :
    (cursor.advanceBy count).remaining = cursor.remaining.drop count := by
  induction count generalizing cursor with
  | zero => rfl
  | succ count ih => rw [advanceBy, ih, remaining_advance, List.drop_tail]

theorem length_remaining_advance_lt (cursor : Cursor) (hcurrent : ¬cursor.atLineEnd) :
    cursor.advance.remaining.length < cursor.remaining.length := by
  match hc : cursor.current with
  | none => simp [atLineEnd, hc] at hcurrent
  | some c =>
      rw [remaining_advance]
      simp [remaining, hc]

/-- Consumes one character after the other up to the end of the line. -/
def walkToLineEnd (cursor : Cursor) : Cursor :=
  if cursor.atLineEnd then cursor else cursor.advance.walkToLineEnd
termination_by cursor.remaining.length
decreasing_by exact cursor.length_remaining_advance_lt ‹_›

/-- Moves to the end of the line in one step, when no character waits ahead. -/
def jumpToLineEnd (cursor : Cursor) : Cursor :=
  if cursor.atLineEnd then cursor
  else
    let skipped := cursor.current.toList ++ cursor.unread.takeWhile (!Text.endsLine ·)
    let rest := cursor.unread.dropWhile (!Text.endsLine ·)
    settle
      { cursor with
        position := cursor.position + Text.byteLength skipped
        current := rest.head?
        unread := rest.tail }

/-- Moves to the next line feed, carriage return or end of the text, and stays where one of them is current. -/
def toLineEnd (cursor : Cursor) : Cursor :=
  if cursor.ahead.isEmpty then cursor.jumpToLineEnd else cursor.walkToLineEnd

end Cursor

end FormulaScript
