import Transcript.Ex.Run
import Transcript.Output
import Transcript.Script.Run
import Transcript.Session.Completing
import Transcript.Session.Editing

/-!
A console drives a session over a host of its own, line by line. A typed line that ends in the marker goes
on in the next one; any other line ends the statement and submits it.
-/
namespace Transcript

/-- A session with the evaluators of both languages. -/
abbrev StandardSession := Session Script Ex

def StandardSession.new (buffer : Nat) (settings : Settings) : StandardSession :=
  Session.start buffer settings {} {}

/-- A host with one session: the statement that is typed starts on one line and goes on on another. -/
structure Console where
  host : Host
  session : StandardSession
  start : Nat
  cursor : Nat

/-- A line of output. -/
abbrev OutputLine := Highlight × String

/-- The answer to a typed line: the statement goes on, output, or the end of the session. -/
inductive Reply where
  | more
  | output (lines : List OutputLine)
  | quit
  deriving DecidableEq, Repr

namespace Console

def new (settings : Settings) : Console where
  host := Host.new
  session := StandardSession.new Host.new.current.buffer settings
  start := 1
  cursor := 1

/-- Whether a statement goes on. -/
def isContinuing (c : Console) : Bool := c.start < c.cursor

/-- The text without the marker at its end, and whether it was there. -/
def splitMarker (marker : Char) (text : List Char) : List Char × Bool :=
  if text.getLast? = some marker then (text.dropLast, true) else (text, false)

/-- The lines below `submitted` that a mark covers. -/
def freshOutput (c : Console) (submitted : Nat) (shown : List (Nat × Highlight)) :
    List OutputLine :=
  (shown.filter fun (line, h) => submitted < line && h != .continuation).map fun (line, h) =>
    (h, c.host.lineAt c.session.buffer line)

/-- Goes to an empty last line, and opens one unless the cursor is on it. -/
def toFreshLine (c : Console) (cursor : Nat) : Console :=
  let lines := c.host.lines c.session.buffer
  let count := lines.length
  if cursor = count ∧ lines.getLast?.all (· = "") then { c with start := count, cursor := count }
  else
    { c with
      host := c.host.setLines c.session.buffer count count [""]
      start := count + 1
      cursor := count + 1 }

/-- Types text at the end of the cursor line. -/
def type (c : Console) (text : List Char) : Console × List Char :=
  let line := (c.host.lineAt c.session.buffer c.cursor).toList ++ text
  ({ c with
      host := c.host.setLines c.session.buffer (c.cursor - 1) c.cursor [String.ofList line] },
    line)

/-- Feeds a typed line. -/
def feed (c : Console) (text : String) : Except Failure (Reply × Console) := do
  let (body, more) := splitMarker c.session.marker text.toList
  let (c, line) := c.type body
  if more then
    let (cursor, host) ← c.session.breakLine c.host c.cursor (Text.byteLength line)
    return (.more, { c with host := host, cursor := cursor })
  else
    let (submission, session, host) ← c.session.submit c.host c.cursor
    let after := { c with session := session, host := host }
    if submission.quit then return (.quit, after)
    else
      let shown ← session.highlights host
      return (.output (after.freshOutput c.cursor shown), after.toFreshLine submission.cursor)

/-- Drops the statement that is typed. -/
def cancel (c : Console) : Console :=
  { c with
    host := c.host.setLines c.session.buffer (c.start - 1) (c.host.lineCount c.session.buffer) [""]
    cursor := c.start }

/-- The candidates at a place of a typed line, and where they start, counted from 0. Without
candidates that is the place itself. -/
def candidates (c : Console) (text : String) (place : Nat) : Nat × List String :=
  let completion := c.session.completeAt text place
  if completion.isEmpty then (place, []) else (completion.offset - 1, completion.candidates)

/-! ## Running a source text -/

/-- Why a source text cannot be run. -/
inductive RunError where
  | refused (f : Failure)
  | unfinished
  deriving DecidableEq, Repr

def RunError.message : RunError → String
  | .refused f => f.message
  | .unfinished => "source ends inside a continued statement"

/-- Feeds lines up to the one that quits, and collects the output. -/
def feedAll (c : Console) : List String → Except Failure (List OutputLine × Console)
  | [] => .ok ([], c)
  | line :: rest => do
    let (reply, c) ← c.feed line
    match reply with
    | .quit => return ([], c)
    | .more => c.feedAll rest
    | .output lines =>
      let (later, c) ← c.feedAll rest
      return (lines ++ later, c)

/-- The output of a source text. The text must not end inside a statement. -/
def run (settings : Settings) (source : String) : Except RunError (List OutputLine) :=
  match (new settings).feedAll (Text.sourceLines source) with
  | .error f => .error (.refused f)
  | .ok (lines, c) => if c.isContinuing then .error .unfinished else .ok lines

end Console

end Transcript
