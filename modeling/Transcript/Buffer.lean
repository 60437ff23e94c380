import Transcript.Mark

/-!
Buffers: lines of text with marks on them. A buffer always has a line: one that an edit empties gets an empty
line back.
-/
namespace Transcript

/-- The lines, or one empty line. -/
def atLeastOneLine (lines : List String) : List String :=
  if lines.isEmpty then [""] else lines

theorem atLeastOneLine_ne_nil (lines : List String) : atLeastOneLine lines ≠ [] := by
  cases lines <;> simp [atLeastOneLine]

theorem atLeastOneLine_of_ne_nil {lines : List String} (h : lines ≠ []) :
    atLeastOneLine lines = lines := by
  cases lines <;> simp_all [atLeastOneLine]

/-- Lines and marks. -/
structure Buffer where
  lines : List String
  marks : List Mark := []
  lines_ne_nil : lines ≠ []
  deriving DecidableEq, Repr

namespace Buffer

/-- A buffer with given lines and no marks. -/
def ofLines (lines : List String) : Buffer :=
  { lines := atLeastOneLine lines, lines_ne_nil := atLeastOneLine_ne_nil lines }

/-- The lines behind the first `start` up to the first `stop`. -/
def slice (b : Buffer) (start stop : Nat) : List String := (b.lines.take stop).drop start

/-- The edit that replaces the lines between two places by `inserted` lines. Places behind the last line
are the end, and a start behind the stop is the stop. -/
def editOf (b : Buffer) (start stop inserted : Nat) : Edit :=
  let stop := min stop b.lines.length
  let start := min start stop
  { length := b.lines.length
    start := start
    removed := stop - start
    inserted := inserted
    fits := by omega }

/-- Replaces the lines between two places. -/
def splice (b : Buffer) (start stop : Nat) (lines : List String) : Buffer :=
  let e := b.editOf start stop lines.length
  { lines := atLeastOneLine (b.lines.take e.start ++ lines ++ b.lines.drop e.stop)
    marks := b.marks.filterMap e.track?
    lines_ne_nil := atLeastOneLine_ne_nil _ }

def addMark (b : Buffer) (m : Mark) : Buffer := { b with marks := b.marks ++ [m] }

def clearMarks (b : Buffer) : Buffer := { b with marks := [] }

end Buffer

end Transcript
