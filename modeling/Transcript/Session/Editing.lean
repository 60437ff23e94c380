import Transcript.Session

/-!
Editing in the buffer of a session: recalling statements, breaking lines, travelling between outputs and
the highlights to show.
-/
namespace Transcript.Session

variable {α β : Type}

def nearestLine (s : Session α β) (host : Host) (line : Nat) : Nat :=
  min (max line 1) (host.lineCount s.buffer)

/-- The lines that a recall replaces: the statement under the cursor, or the cursor line alone. -/
def recalled (s : Session α β) (host : Host) (cursor : Nat) : Statement :=
  match s.statement? host cursor with
  | some statement => statement
  | none =>
    let line := s.nearestLine host cursor
    { lines := host.slice s.buffer (line - 1) line, first := line, last := line }

/-- Replaces the statement under the cursor by the next one of the history, and gives the line of its
end. -/
def recallMove (s : Session α β) (host : Host) (cursor : Nat) (direction : Direction) :
    Except Failure (Nat × Session α β × Host) :=
  if ¬ s.isAlive host then .error (.sessionClosed s.buffer)
  else
    let old := s.recalled host cursor
    let (lines, history) := s.history.move direction old.lines
    .ok (old.first + max lines.length 1 - 1,
      { s with history := history },
      host.setLines s.buffer (old.first - 1) old.last lines)

/-- Breaks a line at a column; the part behind it goes on as a continuation. Gives the line of that
part. -/
def breakLine (s : Session α β) (host : Host) (line col : Nat) : Except Failure (Nat × Host) :=
  if ¬ s.isAlive host then .error (.sessionClosed s.buffer)
  else
    let line := s.nearestLine host line
    let (head, tail) := Text.cutAt col (host.lineAt s.buffer line).toList
    .ok (line + 1,
      host.setLines s.buffer (line - 1) line
        [String.ofList head, String.ofList (s.marker :: tail)])

/-- The line that a journey from a line leads to; none if a count is out of range. -/
def travel (s : Session α β) (host : Host) (journey : Navigation.Journey) (line : Nat) :
    Except Failure (Option Nat) :=
  if ¬ s.isAlive host then .error (.sessionClosed s.buffer)
  else .ok (journey.target? (host.marks s.buffer) (host.lineCount s.buffer) line)

/-- What a line shows: the class of the first mark that covers it, or that it is a continuation. -/
def highlightOf (marks : List Mark) (marker : Char) (line : Nat) (text : String) :
    Option Highlight :=
  match marks.find? (·.covers line) with
  | some m => some m.highlight
  | none => if isContinuation marker text then some .continuation else none

/-- The lines that show something, in order. -/
def highlights (s : Session α β) (host : Host) : Except Failure (List (Nat × Highlight)) :=
  if ¬ s.isAlive host then .error (.sessionClosed s.buffer)
  else
    let marks := inLineOrder (host.marks s.buffer)
    .ok ((host.lines s.buffer).zipIdx.filterMap fun (text, i) =>
      (highlightOf marks s.marker (i + 1) text).map fun h => (i + 1, h))

/-- The name of a language as a heading. -/
def languageHeading : Language → String
  | .lua => "Lua"
  | .vim => "Vim"

def summary (s : Session α β) : String :=
  "Session \x7b buf: " ++ toString s.buffer ++ ", context_buffer: " ++ toString s.context.buffer
    ++ ", context_window: " ++ toString s.context.window ++ ", lang: " ++ languageHeading s.language
    ++ ", indent: " ++ toString s.indent ++ ", history: " ++ toString s.history.size ++ ", .. \x7d"

end Transcript.Session
