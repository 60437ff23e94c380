import Transcript.Mark
import Transcript.Word

/-!
Finding one's way among the marks of a buffer. The marks in ascending order cut the lines into gaps and
outputs; new text goes where no mark is torn apart, and the cursor travels from output to output.
-/
namespace Transcript

namespace Mark

/-- Ascending by first line, then by last line, then by number. -/
def precedes (a b : Mark) : Bool :=
  if a.first ≠ b.first then a.first < b.first
  else if a.last ≠ b.last then a.last < b.last
  else a.id ≤ b.id

def covers (m : Mark) (line : Nat) : Bool := m.first ≤ line && line ≤ m.last

end Mark

def inLineOrder (marks : List Mark) : List Mark := marks.mergeSort Mark.precedes

/-- A part of a buffer. A gap whose last line is above its first line is empty. -/
inductive Segment where
  | gap (first last : Nat)
  | output (m : Mark)
  deriving DecidableEq, Repr

namespace Segment

def first : Segment → Nat
  | .gap first _ => first
  | .output m => m.first

def last : Segment → Nat
  | .gap _ last => last
  | .output m => m.last

def contains (s : Segment) (line : Nat) : Bool := s.first ≤ line && line ≤ s.last

end Segment

namespace Navigation

/-- The line below which new text tears no mark apart: the line itself, or the last line of the mark
that goes on below it. -/
def insertionPoint (marks : List Mark) (after : Nat) : Nat :=
  match (inLineOrder marks).find? fun m => m.first ≤ after && after < m.last with
  | some m => m.last
  | none => after

/-- Gaps and outputs from line `next` on, for marks in ascending order. -/
def segments (lastLine : Nat) : (next : Nat) → List Mark → List Segment
  | next, [] => [.gap next lastLine]
  | next, m :: ms => .gap next (m.first - 1) :: .output m :: segments lastLine (m.last + 1) ms

/-- The lines cut into gaps and outputs in turn, with a gap at either end. -/
def partition (marks : List Mark) (lastLine : Nat) : List Segment :=
  segments lastLine 1 (inLineOrder marks)

def outputs (segments : List Segment) : List Mark :=
  segments.filterMap fun
    | .output m => some m
    | .gap .. => none

/-! ## Travelling -/

/-- A journey: its direction, whether it goes to the ends of outputs or to their starts, and how many
of them it counts. -/
structure Journey where
  backward : Bool
  toEnd : Bool
  count : Nat
  deriving DecidableEq, Repr

namespace Journey

/-- The count as a signed word; it counts at least one. -/
def steps (j : Journey) : Int := Word.ofBits (max j.count 1)

/-- The line of a mark that the journey goes to. -/
def edge (j : Journey) (m : Mark) : Nat := if j.toEnd then m.last else m.first

/-- The index of the output to go to from `line`, a word, before it is brought into range. Inside an output
whose edge is still ahead, that edge is the first step. -/
def index? (j : Journey) (marks : List Mark) (line : Nat) : Option Int :=
  match marks.findIdx? (·.covers line) with
  | some i =>
    let ahead := (marks[i]?.any fun m =>
      if j.backward then !j.toEnd && m.first < line else j.toEnd && line < m.last)
    match j.backward, ahead with
    | false, true => do Word.sub? (← Word.add? i j.steps) 1
    | false, false => Word.add? i j.steps
    | true, true => do Word.sub? i (← Word.sub? j.steps 1)
    | true, false => Word.sub? i j.steps
  | none =>
    let above : Int := (marks.filter fun m => m.last < line).length
    if j.backward then Word.sub? above j.steps else do Word.sub? (← Word.add? above j.steps) 1

/-- The line to go to from `line`; never against the direction. There is none if an index does not fit
a word. -/
def target? (j : Journey) (marks : List Mark) (lastLine line : Nat) : Option Nat := do
  let ms := outputs (partition marks lastLine)
  if ms.isEmpty then return if j.backward then 1 else max lastLine 1
  else
    let index ← j.index? ms line
    let index := (min (max index 0) (ms.length - 1)).toNat
    let goal := (ms[index]?.map j.edge).getD line
    let against := if j.backward then line < goal else goal < line
    return if against then line else goal

end Journey

end Navigation

end Transcript
