import Transcript.Text

/-!
Statements. A statement is a line and the continuation lines below it, those that start with the marker.
Every line of a statement resolves to it; a continuation line with no other line above it belongs to
none.
-/
namespace Transcript

/-- The lines of a statement and where they stand, counted from 1. -/
structure Statement where
  lines : List String
  first : Nat
  last : Nat
  deriving DecidableEq, Repr

def defaultMarker : Char := '\\'

/-- Whether a line goes on with the line above it. -/
def isContinuation (marker : Char) (line : String) : Bool := line.toList.head? == some marker

/-- The line without one marker at its start. -/
def stripMarker (marker : Char) (line : String) : String :=
  if isContinuation marker line then String.ofList line.toList.tail else line

namespace Statement

/-- The index of the line that a cursor line, counted from 1, is nearest to. -/
def cursorIndex (lines : List String) (cursor : Nat) : Nat :=
  min (max cursor 1) lines.length - 1

/-- How many lines follow the line with index `i` as continuations. -/
def continuationsBelow (marker : Char) (lines : List String) (i : Nat) : Nat :=
  ((lines.drop (i + 1)).takeWhile (isContinuation marker)).length

/-- How many lines up to the line with index `i` are continuations without a gap. -/
def continuationsAbove (marker : Char) (lines : List String) (i : Nat) : Nat :=
  ((lines.take (i + 1)).reverse.takeWhile (isContinuation marker)).length

/-- The last line of the block under the cursor, 0 if there are no lines. -/
def blockEnd (marker : Char) (lines : List String) (cursor : Nat) : Nat :=
  if lines.isEmpty then 0
  else
    let i := cursorIndex lines cursor
    i + 1 + continuationsBelow marker lines i

/-- The statement under the cursor. There is none if all lines up to the cursor are continuations; no
lines at all are an empty statement. -/
def resolve? (marker : Char) (lines : List String) (cursor : Nat) : Option Statement :=
  if lines.isEmpty then some { lines := [""], first := 1, last := 1 }
  else
    let i := cursorIndex lines cursor
    let above := continuationsAbove marker lines i
    if above = i + 1 then none
    else
      let last := blockEnd marker lines cursor
      some { lines := (lines.take last).drop (i - above), first := i - above + 1, last := last }

/-- Whether nothing but white space and markers is written. -/
def isBlank (marker : Char) (s : Statement) : Bool :=
  s.lines.all fun l => Text.isBlankText (stripMarker marker l)

end Statement

end Transcript
