import FormulaScript.Text.Offset

/-!
The line feeds of a text, recorded by their offsets as the text is read. While only a part of the text
has been read, every later offset counts to the last line so far.
-/

namespace FormulaScript

/-- A place in a text, with lines and columns counted from one. -/
structure Position where
  line : Nat
  column : Nat
deriving DecidableEq, Repr, Inhabited

/-- The places of the first and the last byte of a piece of text. -/
structure Region where
  first : Position
  last : Position
deriving DecidableEq, Repr, Inhabited

def Position.display (position : Position) : String :=
  s!"{position.line}:{position.column}"

namespace Region

def point (position : Position) : Region :=
  ⟨position, position⟩

def isPoint (region : Region) : Bool :=
  region.first == region.last

/-- A point is written once, any other region with both of its ends. -/
def display (region : Region) : String :=
  if region.isPoint then region.first.display
  else s!"{region.first.display}-{region.last.display}"

end Region

structure LineBreaks where
  offsets : Array Nat
  increasing : offsets.toList.Pairwise (· < ·)
deriving DecidableEq, Repr

namespace LineBreaks

def empty : LineBreaks :=
  ⟨#[], .nil⟩

instance : Inhabited LineBreaks := ⟨empty⟩

def size (breaks : LineBreaks) : Nat :=
  breaks.offsets.size

def isEmpty (breaks : LineBreaks) : Bool :=
  breaks.offsets.isEmpty

theorem le_of_back?_eq {offsets : Array Nat} (hincreasing : offsets.toList.Pairwise (· < ·))
    {last : Nat} (hlast : offsets.back? = some last) : ∀ offset ∈ offsets.toList, offset ≤ last := by
  rw [← Array.getLast?_toList] at hlast
  obtain ⟨front, hfront⟩ := List.getLast?_eq_some_iff.mp hlast
  rw [hfront] at hincreasing ⊢
  intro offset hmem
  rcases List.mem_append.mp hmem with hbefore | hend
  · exact Nat.le_of_lt ((List.pairwise_append.mp hincreasing).2.2 offset hbefore last (by simp))
  · simp_all

theorem increasing_push {offsets : Array Nat} (hincreasing : offsets.toList.Pairwise (· < ·))
    {offset : Nat} (hlater : ∀ last ∈ offsets.back?, last < offset) :
    (offsets.push offset).toList.Pairwise (· < ·) := by
  rw [Array.toList_push, List.pairwise_append]
  refine ⟨hincreasing, List.pairwise_singleton _ _, ?_⟩
  intro earlier hearlier later hlater'
  obtain rfl : later = offset := by simpa using hlater'
  match hlast : offsets.back? with
  | none => simp_all
  | some last =>
      exact Nat.lt_of_le_of_lt (le_of_back?_eq hincreasing hlast earlier hearlier)
        (hlater last hlast)

/-- Records a line feed. Line feeds are met in order, so one that is not past the last is known already. -/
def record (breaks : LineBreaks) (offset : Nat) : LineBreaks :=
  if hlater : ∀ last ∈ breaks.offsets.back?, last < offset then
    ⟨breaks.offsets.push offset, increasing_push breaks.increasing hlater⟩
  else breaks

/-- What words hold of the line feeds, recorded one after the other. -/
def wrap (breaks : LineBreaks) : LineBreaks :=
  breaks.offsets.toList.foldl (fun wrapped offset => wrapped.record (offset % wordSize)) .empty

/-- The offsets of the line feeds of `characters`, the first of which stands at `offset`. -/
def scan (offset : Nat) : List Char → List Nat
  | [] => []
  | c :: rest =>
      if c = '\n' then offset :: scan (offset + c.utf8Size) rest
      else scan (offset + c.utf8Size) rest

theorem le_of_mem_scan {offset found : Nat} {characters : List Char}
    (hfound : found ∈ scan offset characters) : offset ≤ found := by
  induction characters generalizing offset with
  | nil => simp [scan] at hfound
  | cons c rest ih =>
      rw [scan] at hfound
      split at hfound
      · rcases List.mem_cons.mp hfound with rfl | hrest
        · exact Nat.le_refl _
        · exact Nat.le_trans (Nat.le_add_right _ _) (ih hrest)
      · exact Nat.le_trans (Nat.le_add_right _ _) (ih hfound)

theorem increasing_scan (offset : Nat) (characters : List Char) :
    (scan offset characters).Pairwise (· < ·) := by
  induction characters generalizing offset with
  | nil => exact .nil
  | cons c rest ih =>
      rw [scan]
      split
      · refine .cons (fun found hfound => ?_) (ih _)
        have hle := le_of_mem_scan hfound
        have hpos := c.utf8Size_pos
        omega
      · exact ih _

/-- All line feeds of a text. -/
def ofText (text : String) : LineBreaks :=
  ⟨(scan 0 text.toList).toArray, by simpa using increasing_scan 0 text.toList⟩

/-- The least index from `low` to `high` with no break before `offset`, when every index below `low` has one and none from `high` on does. -/
def bisect (offsets : Array Nat) (offset low high : Nat) : Nat :=
  if low < high then
    let middle := (low + high) / 2
    if (offsets[middle]?).any (· < offset) then bisect offsets offset (middle + 1) high
    else bisect offsets offset low middle
  else low
termination_by high - low

/-- The number of line feeds before an offset. A line feed belongs to the line it ends. -/
def countBefore (breaks : LineBreaks) (offset : Nat) : Nat :=
  bisect breaks.offsets offset 0 breaks.size

/-- Where a line starts, given the number of line feeds before it. -/
def lineStart (breaks : LineBreaks) : Nat → Nat
  | 0 => 0
  | index + 1 => (breaks.offsets[index]?).elim 0 (· + 1)

def position (breaks : LineBreaks) (offset : Nat) : Position :=
  let before := breaks.countBefore offset
  ⟨before + 1, offset - breaks.lineStart before + 1⟩

/-- The region from the first byte of a span to its last one, or the point where the span is empty. -/
def region (breaks : LineBreaks) (span : Span) : Region :=
  if span.stop ≤ span.start then .point (breaks.position span.start)
  else ⟨breaks.position span.start, breaks.position (span.stop - 1)⟩

end LineBreaks

end FormulaScript
