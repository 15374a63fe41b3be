import FormulaScript.Text.Offset
import FormulaScript.Token.Basic
import Mathlib

/-!
# Operations that are checked

What a machine does with offsets, counters and slices can fail: a value may not fit into its word,
and a slice may cut a character. A checked operation reports such a fault instead of going on.
-/

namespace FormulaScript

inductive Fault where
  /-- A slice that leaves the text, ends before it begins or cuts a character. -/
  | slice (start stop : Nat)
  /-- A span that ends before it begins. -/
  | span (start stop : Nat)
  /-- A line feed that is not past the ones before it. -/
  | lineFeed (offset : Nat)
  /-- A line feed that was never recorded. -/
  | index (index : Nat)
  /-- A value that does not fit into its word. -/
  | overflow (value : Int)
  /-- A token that is put where another one waits. -/
  | waiting (token : Token)
deriving DecidableEq, Repr

namespace Checked

/-- What is done with the value of a step that has no fault. -/
theorem bind_ok {α β : Type} {step : Except Fault α} {value : α} (hstep : step = .ok value)
    (next : α → Except Fault β) : (step >>= next) = next value := by
  rw [hstep]
  rfl

/-- A fold has no fault where none of its steps has one and each keeps what the next relies on. -/
theorem foldlM_eq_ok {σ ι : Type} {checked : σ → ι → Except Fault σ} {plain : σ → ι → σ}
    {Keeps : σ → Prop}
    (hstep : ∀ state item, Keeps state → checked state item = .ok (plain state item))
    (hkeeps : ∀ state item, Keeps state → Keeps (plain state item)) (items : List ι) {state : σ}
    (hstate : Keeps state) : items.foldlM checked state = .ok (items.foldl plain state) := by
  induction items generalizing state with
  | nil => rfl
  | cons item items ih =>
      rw [List.foldlM_cons, bind_ok (hstep state item hstate), ih (hkeeps state item hstate),
        List.foldl_cons]

/-- A signed word of 32 bits. -/
def int32 (value : Int) : Except Fault Int :=
  if -2 ^ 31 ≤ value ∧ value < 2 ^ 31 then .ok value else .error (.overflow value)

/-- An unsigned word of 32 bits. -/
def uint32 (value : Int) : Except Fault Nat :=
  if 0 ≤ value ∧ value < wordSize then .ok value.toNat else .error (.overflow value)

theorem int32_eq_ok {value : Int} (hlow : -2 ^ 31 ≤ value) (hhigh : value < 2 ^ 31) :
    int32 value = .ok value :=
  if_pos ⟨hlow, hhigh⟩

theorem uint32_eq_ok {value : Nat} (hvalue : value < 2 ^ 32) : uint32 value = .ok value := by
  have hword : (value : Int) < wordSize := Int.ofNat_lt.mpr hvalue
  rw [uint32, if_pos ⟨Int.natCast_nonneg value, hword⟩, Int.toNat_natCast]

theorem uint32_add_eq_ok {value : Nat} (hvalue : value + 1 < 2 ^ 32) :
    uint32 ((value : Int) + 1) = .ok (value + 1) := by
  exact_mod_cast uint32_eq_ok hvalue

theorem uint32_sub_eq_ok {value other : Nat} (hle : other ≤ value) (hvalue : value < 2 ^ 32) :
    uint32 ((value : Int) - other) = .ok (value - other) := by
  rw [← Int.ofNat_sub hle]
  exact uint32_eq_ok (by omega)

end Checked

open Checked

/-- A span between two offsets. -/
def Span.checked (start stop : Nat) : Except Fault Span := do
  let start ← uint32 start
  let stop ← uint32 stop
  if start ≤ stop then .ok ⟨start, stop⟩ else .error (.span start stop)

theorem Span.checked_eq_ok {start stop : Nat} (hle : start ≤ stop) (hstop : stop < 2 ^ 32) :
    checked start stop = .ok ⟨start, stop⟩ := by
  rw [checked, bind_ok (uint32_eq_ok (Nat.lt_of_le_of_lt hle hstop)), bind_ok (uint32_eq_ok hstop),
    if_pos hle]

namespace Text

/-- Whether an offset lies between two characters, or at one of the ends. -/
def isBoundary (source : List Char) (offset : Nat) : Bool :=
  byteLength (takeBytes offset source) = offset

/-- The characters between two offsets. -/
def sliceChecked (source : List Char) (start stop : Nat) : Except Fault (List Char) :=
  if start ≤ stop ∧ isBoundary source start ∧ isBoundary source stop then
    .ok (slice source start stop)
  else .error (.slice start stop)

/-- The characters from an offset to the end. -/
def suffixChecked (source : List Char) (start : Nat) : Except Fault (List Char) :=
  sliceChecked source start (byteLength source)

theorem isBoundary_byteLength (front back : List Char) :
    isBoundary (front ++ back) (byteLength front) = true := by
  simp [isBoundary]

/-- The characters stand at an offset of the source, and are all that is left of it from there. -/
def SuffixAt (source : List Char) (start : Nat) (characters : List Char) : Prop :=
  ∃ front, source = front ++ characters ∧ start = byteLength front

variable {source characters : List Char} {start : Nat}

theorem SuffixAt.drop {front : List Char} (hat : SuffixAt source start (front ++ characters)) :
    SuffixAt source (start + byteLength front) characters := by
  obtain ⟨passed, rfl, rfl⟩ := hat
  exact ⟨passed ++ front, (List.append_assoc _ _ _).symm, (byteLength_append _ _).symm⟩

theorem SuffixAt.add_byteLength (hat : SuffixAt source start characters) :
    start + byteLength characters = byteLength source := by
  obtain ⟨passed, rfl, rfl⟩ := hat
  exact (byteLength_append _ _).symm

/-- What is spelled at the front can be cut out. -/
theorem sliceChecked_eq_ok (hat : SuffixAt source start characters) {spelling : List Char}
    (hspelling : spelling <+: characters) :
    sliceChecked source start (start + byteLength spelling) = .ok spelling := by
  obtain ⟨front, rfl, rfl⟩ := hat
  obtain ⟨back, rfl⟩ := hspelling
  have hstop : isBoundary (front ++ (spelling ++ back)) (byteLength front + byteLength spelling) =
      true := by
    rw [← byteLength_append, ← List.append_assoc]
    exact isBoundary_byteLength _ _
  rw [sliceChecked, if_pos ⟨Nat.le_add_right _ _, isBoundary_byteLength _ _, hstop⟩, slice_append]

theorem suffixChecked_eq_ok (hat : SuffixAt source start characters) :
    suffixChecked source start = .ok characters := by
  rw [suffixChecked, ← hat.add_byteLength]
  exact sliceChecked_eq_ok hat List.prefix_rfl

example : sliceChecked ['é', 'a'] 1 2 = .error (.slice 1 2) := rfl

end Text

end FormulaScript
