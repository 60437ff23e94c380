import Transcript.Output
import Transcript.Word

/-!
Marks on lines. A mark names a range of lines, counted from 1, as output of one class. An edit replaces
the lines of a region by others; a mark keeps the lines that survive it.
-/
namespace Transcript

/-- A mark on the lines from `first` to `last`. -/
structure Mark where
  id : Nat
  first : Nat
  last : Nat
  highlight : Highlight
  deriving DecidableEq, Repr

/-- An edit of `length` lines: behind the first `start` lines, `removed` lines give way to `inserted`
lines. -/
structure Edit where
  length : Nat
  start : Nat
  removed : Nat
  inserted : Nat
  fits : start + removed ≤ length
  deriving DecidableEq, Repr

namespace Edit

/-- The number of lines up to the end of the region. -/
def stop (e : Edit) : Nat := e.start + e.removed

/-- Where a line below the region moves. A mark may name a line that is not there; such a line is read as
a signed word, and a negative one is above the first line and so moves there. -/
def shift (e : Edit) (line : Nat) : Nat :=
  let line : Int := if line ≤ e.length then line else Word.ofBits line
  (max (line + e.inserted - e.removed) 1).toNat

/-- If signed words can count the lines, every line is read as the signed word with the same bits. -/
theorem shift_eq_ofBits (e : Edit) (line : Nat) (h : (e.length : Int) < Word.bound) :
    e.shift line = (max (Word.ofBits line + e.inserted - e.removed) 1).toNat := by
  by_cases hline : line ≤ e.length
  · rw [shift, if_pos hline, Word.ofBits_of_lt (by omega)]
  · rw [shift, if_neg hline]

/-- A mark after an insertion: below the place it moves, and around the place it grows. -/
def insertInto (e : Edit) (m : Mark) : Mark :=
  if e.start < m.first then { m with first := e.shift m.first, last := e.shift m.last }
  else if e.start < m.last then { m with last := e.shift m.last }
  else m

/-- A mark after a replacement, before it is known whether it still covers a line. -/
def replaceIn (e : Edit) (m : Mark) : Mark :=
  if e.stop < m.first then { m with first := e.shift m.first, last := e.shift m.last }
  else if m.first ≤ e.start ∧ e.stop < m.last then { m with last := e.shift m.last }
  else if m.first ≤ e.start then { m with last := e.start }
  else { m with first := e.start + e.inserted + 1, last := e.shift m.last }

/-- A mark after an edit. A mark inside the region is lost. -/
def track? (e : Edit) (m : Mark) : Option Mark :=
  if e.removed = 0 then some (e.insertInto m)
  else if e.start < m.first ∧ m.last ≤ e.stop then none
  else
    let m' := e.replaceIn m
    if m'.first ≤ m'.last then some m' else none

end Edit

end Transcript
