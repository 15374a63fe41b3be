/-!
Offsets into a text count UTF-8 bytes, while the text itself is read as a list of characters. A
machine keeps offsets in words of 32 bits, which hold all the offsets of a text that fits.
-/

namespace FormulaScript.Text

def byteLength : List Char → Nat
  | [] => 0
  | c :: rest => c.utf8Size + byteLength rest

/-- What follows the first `count` bytes; a cut inside a character moves to its end. -/
def dropBytes (count : Nat) : List Char → List Char
  | [] => []
  | c :: rest => if count = 0 then c :: rest else dropBytes (count - c.utf8Size) rest

/-- The first `count` bytes; a cut inside a character moves to its end. -/
def takeBytes (count : Nat) : List Char → List Char
  | [] => []
  | c :: rest => if count = 0 then [] else c :: takeBytes (count - c.utf8Size) rest

/-- The characters between two byte offsets. -/
def slice (characters : List Char) (start stop : Nat) : List Char :=
  takeBytes (stop - start) (dropBytes start characters)

@[simp]
theorem byteLength_nil : byteLength [] = 0 := rfl

@[simp]
theorem byteLength_cons (c : Char) (rest : List Char) :
    byteLength (c :: rest) = c.utf8Size + byteLength rest := rfl

@[simp]
theorem byteLength_append (front back : List Char) :
    byteLength (front ++ back) = byteLength front + byteLength back := by
  induction front with
  | nil => simp
  | cons c front ih => simp [ih, Nat.add_assoc]

theorem length_le_byteLength (characters : List Char) :
    characters.length ≤ byteLength characters := by
  induction characters with
  | nil => exact Nat.le_refl _
  | cons c rest ih =>
      have hpos := c.utf8Size_pos
      rw [List.length_cons, byteLength_cons]
      omega

theorem eq_nil_of_byteLength_eq_zero {characters : List Char}
    (hzero : byteLength characters = 0) : characters = [] := by
  cases characters with
  | nil => rfl
  | cons c rest =>
      have hpos := c.utf8Size_pos
      rw [byteLength_cons] at hzero
      omega

@[simp]
theorem dropBytes_zero (characters : List Char) : dropBytes 0 characters = characters := by
  cases characters <;> rfl

@[simp]
theorem takeBytes_zero (characters : List Char) : takeBytes 0 characters = [] := by
  cases characters <;> rfl

@[simp]
theorem dropBytes_byteLength_append (front back : List Char) :
    dropBytes (byteLength front) (front ++ back) = back := by
  induction front with
  | nil => simp
  | cons c front ih =>
      have hpos := c.utf8Size_pos
      simp [dropBytes, ih, Nat.ne_of_gt hpos]

theorem takeBytes_append_dropBytes (count : Nat) (characters : List Char) :
    takeBytes count characters ++ dropBytes count characters = characters := by
  induction characters generalizing count with
  | nil => rfl
  | cons c rest ih =>
      rw [takeBytes, dropBytes]
      split
      · rfl
      · rw [List.cons_append, ih]

theorem byteLength_dropBytes_le (count : Nat) (characters : List Char) :
    byteLength (dropBytes count characters) ≤ byteLength characters := by
  have hsplit := congrArg byteLength (takeBytes_append_dropBytes count characters)
  rw [byteLength_append] at hsplit
  omega

@[simp]
theorem takeBytes_byteLength_append (front back : List Char) :
    takeBytes (byteLength front) (front ++ back) = front := by
  induction front with
  | nil => simp
  | cons c front ih =>
      have hpos := c.utf8Size_pos
      simp [takeBytes, ih, Nat.ne_of_gt hpos]

/-- Offsets taken at the ends of a middle part cut out that part. -/
theorem slice_append (front middle back : List Char) :
    slice (front ++ (middle ++ back)) (byteLength front)
      (byteLength front + byteLength middle) = middle := by
  simp [slice]

end FormulaScript.Text

namespace FormulaScript

/-- The number of values of a word. Offsets and depths that are kept in words wrap around there. -/
def wordSize : Nat := 1 <<< 32

/-- Each offset of the text, its end included, has a word of its own. -/
def Text.Fits (text : String) : Prop :=
  Text.byteLength text.toList < wordSize

instance (text : String) : Decidable (Text.Fits text) :=
  inferInstanceAs (Decidable (_ < _))

/-- A half-open range of byte offsets. -/
structure Span where
  start : Nat
  stop : Nat
deriving DecidableEq, Repr, Inhabited

namespace Span

def empty (offset : Nat) : Span :=
  ⟨offset, offset⟩

/-- What words hold of the span. -/
def wrap (span : Span) : Span :=
  ⟨span.start % wordSize, span.stop % wordSize⟩

def length (span : Span) : Nat :=
  span.stop - span.start

def isEmpty (span : Span) : Bool :=
  span.start == span.stop

def contains (span : Span) (offset : Nat) : Bool :=
  span.start ≤ offset && offset < span.stop

/-- The least span that covers both. -/
def cover (span other : Span) : Span :=
  ⟨min span.start other.start, max span.stop other.stop⟩

/-- Interval notation, closed on the left and open on the right. -/
def display (span : Span) : String :=
  s!"[{span.start}, {span.stop})"

/-- The two ends with dots between them. -/
def dotted (span : Span) : String :=
  s!"{span.start}..{span.stop}"

end Span

end FormulaScript
