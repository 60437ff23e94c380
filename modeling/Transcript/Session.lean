import Transcript.Command.Input
import Transcript.Evaluator
import Transcript.Host
import Transcript.Navigation
import Transcript.Settings

/-!
Sessions. A session lives in one buffer and has two evaluators, one for each language. Dispatching a
statement evaluates it or runs a command; submitting one also records it in the history, puts the
output below it and opens a new line.
-/
namespace Transcript

/-- A session with evaluators whose states are `α` and `β`. -/
structure Session (α β : Type) where
  buffer : Nat
  context : Place
  language : Language
  indent : Nat
  redraw : Bool
  inspect : Bool
  marker : Char
  leader : Char
  history : History
  nextMark : Nat
  lua : α
  vim : β

/-- What follows a dispatch: a new line, the line as it is, or the end of the session. -/
inductive Next where
  | proceed
  | hold
  | exit
  deriving DecidableEq, Repr

/-- A dispatch: its output, what follows, and the session and host it leaves. -/
structure Dispatch (α β : Type) where
  output : Sink
  next : Next
  session : Session α β
  host : Host

/-- What a submission tells the editor. -/
structure Submission where
  cursor : Nat
  redraw : Bool
  quit : Bool
  deriving DecidableEq, Repr

namespace Session

variable {α β : Type}

/-- A session in a buffer, with given settings and evaluators. -/
def start (buffer : Nat) (settings : Settings) (lua : α) (vim : β) : Session α β where
  buffer := buffer
  context := { buffer := settings.buffer, window := settings.window }
  language := settings.language
  indent := min settings.indent maxIndent
  redraw := settings.redraw
  inspect := settings.inspect
  marker := settings.marker
  leader := settings.leader
  history := History.new settings.historySize
  nextMark := 1
  lua := lua
  vim := vim

/-- Whether the buffer of the session is valid. -/
def isAlive (s : Session α β) (host : Host) : Bool := host.hasBuffer s.buffer

/-- The statement under a cursor line. -/
def statement? (s : Session α β) (host : Host) (cursor : Nat) : Option Statement :=
  Statement.resolve? s.marker (host.lines s.buffer) cursor

/-! ## Overrides -/

/-- The overrides that are set and no longer valid. -/
def staleOverrides (s : Session α β) (host : Host) : List Override :=
  (if s.context.buffer ≠ 0 ∧ ¬ host.hasBuffer s.context.buffer then [.buffer] else [])
    ++ (if s.context.window ≠ 0 ∧ ¬ host.hasWindow s.context.window then [.window] else [])

def override (s : Session α β) : Override → Nat
  | .buffer => s.context.buffer
  | .window => s.context.window

/-- Sets an override. -/
def setOverride (s : Session α β) (o : Override) (n : Nat) : Session α β :=
  match o with
  | .buffer => { s with context := { s.context with buffer := n } }
  | .window => { s with context := { s.context with window := n } }

/-- Whether a number can be the value of an override. -/
def isLive (host : Host) : Override → Nat → Bool
  | .buffer, n => host.hasBuffer n
  | .window, n => host.hasWindow n

/-! ## Evaluating -/

/-- An error line for each of a list of refusals. -/
def complaints (failures : List Failure) : Sink :=
  failures.foldl (fun sink f => sink.push .error f.message) .empty

/-- The output of an evaluation: what was emitted, and a line for its end. -/
def outputOf (clean : String → String) (outcome : Outcome) (emitted : Sink) : Sink :=
  let sink := Sink.empty.extend emitted
  match outcome with
  | .done => sink
  | .value text => sink.push .value text
  | .hold => sink
  | .failed message => sink.push .error (clean message)
  | .crashed message => sink.push .error (message.getD "evaluator panicked")

def nextOf : Outcome → Next
  | .hold => .hold
  | _ => .proceed

def runIn [Evaluator σ] (state : σ) (program : List String) (view : View) : Sink × Next × σ :=
  let r := Evaluator.eval program view state
  (outputOf (Evaluator.cleanError r.state) r.outcome r.output, nextOf r.outcome, r.state)

/-- Evaluates a program in a language, with the overrides current meanwhile. Overrides that are no
longer valid are reset instead, and nothing is evaluated. -/
def evaluate [Evaluator α] [Evaluator β] (s : Session α β) (host : Host) (language : Language)
    (program : List String) : Dispatch α β :=
  let stale := s.staleOverrides host
  if stale ≠ [] then
    { output := complaints (stale.map Failure.staleContext)
      next := .proceed
      session := stale.foldl (fun s o => s.setOverride o 0) s
      host := host }
  else
    let inside := host.enter s.context
    let view : View := { place := inside.current, inspect := s.inspect }
    let (output, next, session) := match language with
      | .lua =>
        let (output, next, state) := runIn s.lua program view
        (output, next, { s with lua := state })
      | .vim =>
        let (output, next, state) := runIn s.vim program view
        (output, next, { s with vim := state })
    { output := output, next := next, session := session, host := inside.leave host.current }

/-! ## Commands -/

/-- A dispatch that shows one text and goes on. -/
def showing (s : Session α β) (host : Host) (highlight : Highlight) (text : String) :
    Dispatch α β :=
  { output := Sink.of highlight text, next := .proceed, session := s, host := host }

/-- A dispatch that shows a refusal and changes nothing. -/
def refusing (s : Session α β) (host : Host) (f : Failure) : Dispatch α β :=
  s.showing host .error f.message

/-- The number that a text writes: digits, with a plus sign or without. -/
def readNumber? (text : String) : Option Nat :=
  let digits := match text.toList with
    | '+' :: rest => rest
    | cs => cs
  if digits.isEmpty ∨ ¬ digits.all Char.isDigit then none else some (Decimal.natOfDigits digits)

def overrideText (n : Nat) : String := if n = 0 then "none" else toString n

/-- Shows or sets an override. The number 0 resets it. -/
def runOverride (s : Session α β) (host : Host) (o : Override) (argument : Option Argument) :
    Dispatch α β :=
  match argument with
  | none => s.showing host .info (o.name ++ " context: " ++ overrideText (s.override o))
  | some a =>
    let refused := s.refusing host (.invalidArgument o.name a.toValue)
    match readNumber? a.toValue with
    | none => refused
    | some 0 => (s.setOverride o 0).showing host .info (o.name ++ " context reset to none")
    | some n =>
      if isLive host o n then
        (s.setOverride o n).showing host .info (o.name ++ " context set to " ++ toString n)
      else refused

/-- Shows or sets the indent. -/
def runIndent (s : Session α β) (host : Host) (argument : Option Argument) : Dispatch α β :=
  match argument with
  | none => s.showing host .info ("indent: " ++ toString s.indent)
  | some a =>
    let refused := s.refusing host (.invalidArgument "indent" a.toValue)
    match readNumber? a.toValue with
    | none => refused
    | some n =>
      if n ≤ maxIndent then
        { s with indent := n }.showing host .info ("indent set to " ++ toString n)
      else refused

/-- Switches to a language, or evaluates an argument in it. -/
def runLanguage [Evaluator α] [Evaluator β] (s : Session α β) (host : Host) (language : Language)
    (argument : Option Argument) : Dispatch α β :=
  match argument with
  | none => { s with language := language }.showing host .info (language.name ++ " mode")
  | some a => s.evaluate host language a.toLines

/-- Empties the buffer and starts the numbers of marks anew. -/
def clear (s : Session α β) (host : Host) : Session α β × Host :=
  ({ s with nextMark := 1 },
    (host.setLines s.buffer 0 (host.lineCount s.buffer) [""]).clearMarks s.buffer)

/-- Runs a command. -/
def runCommand [Evaluator α] [Evaluator β] (s : Session α β) (host : Host) (c : Command)
    (argument : Option Argument) : Dispatch α β :=
  if !c.takesArgument && argument.isSome then s.refusing host .argumentsNotAllowed
  else
    match c with
    | .lua => s.runLanguage host .lua argument
    | .vim => s.runLanguage host .vim argument
    | .buffer => s.runOverride host .buffer argument
    | .window => s.runOverride host .window argument
    | .indent => s.runIndent host argument
    | .clear =>
      let (session, host) := s.clear host
      { output := .empty, next := .hold, session := session, host := host }
    | .quit =>
      { output := .empty
        next := .exit
        session := { s with nextMark := 1 }
        host := (host.clearMarks s.buffer).deleteBuffer s.buffer }
    | .help => s.showing host .info ("\n".intercalate (Command.helpLines s.leader))

/-- Runs the lines of a statement. -/
def dispatch [Evaluator α] [Evaluator β] (s : Session α β) (host : Host) (lines : List String) :
    Dispatch α β :=
  match Input.classify s.leader s.marker lines with
  | .ok (.program program) => s.evaluate host s.language program
  | .ok (.command c argument) => s.runCommand host c argument
  | .error f => s.refusing host f

/-! ## Submitting -/

/-- A line behind the indent. -/
def padded (s : Session α β) (line : String) : String :=
  String.ofList (List.replicate s.indent ' ' ++ line.toList)

/-- Inserts a chunk below line `after` and marks it. -/
def insertChunk (s : Session α β) (host : Host) (after : Nat) (chunk : Chunk) :
    Session α β × Host × Nat :=
  let count := chunk.lines.length
  if count = 0 then (s, host, after)
  else
    let host := host.setLines s.buffer after after (chunk.lines.map s.padded)
    let mark : Mark :=
      { id := s.nextMark
        first := after + 1
        last := after + count
        highlight := chunk.highlight }
    ({ s with nextMark := s.nextMark + 1 }, host.addMark s.buffer mark, after + count)

/-- Inserts chunks one below the other. -/
def insertChunks (s : Session α β) (host : Host) (after : Nat) :
    List Chunk → Session α β × Host × Nat
  | [] => (s, host, after)
  | chunk :: rest =>
    let (s, host, after) := s.insertChunk host after chunk
    s.insertChunks host after rest

/-- Opens an empty line below line `after`. -/
def openLine (s : Session α β) (host : Host) (after : Nat) : Host :=
  host.setLines s.buffer after after [""]

/-- A submission that leaves the cursor on a line. -/
def stay (s : Session α β) (cursor : Nat) : Submission :=
  { cursor := cursor, redraw := s.redraw, quit := false }

/-- Inserts output below line `after` or the mark around it, and opens a line below it. -/
def report (s : Session α β) (host : Host) (after : Nat) (output : Sink) :
    Submission × Session α β × Host :=
  let after := Navigation.insertionPoint (host.marks s.buffer) after
  let (s, host, last) := s.insertChunks host after output.chunks
  (s.stay (last + 1), s, s.openLine host last)

/-- Dispatches a statement that is not blank, and shows its output below it. Unless the dispatch ends the session, the
buffer is still there. -/
def perform [Evaluator α] [Evaluator β] (s : Session α β) (host : Host) (statement : Statement) :
    Submission × Session α β × Host :=
  let s := { s with history := s.history.append statement.lines }
  let d := s.dispatch host statement.lines
  match d.next with
  | .exit => ({ cursor := 0, redraw := false, quit := true }, d.session, d.host)
  | .proceed =>
    d.session.report d.host (min statement.last (d.host.lineCount d.session.buffer)) d.output
  | .hold =>
    let after := Navigation.insertionPoint (d.host.marks d.session.buffer)
      (min statement.last (d.host.lineCount d.session.buffer))
    let (s, host, last) := d.session.insertChunks d.host after d.output.chunks
    (s.stay (max last 1), s, host)

/-- Submits the statement under a cursor line. Without a statement there the refusal is shown; a blank
statement only opens a line. -/
def submit [Evaluator α] [Evaluator β] (s : Session α β) (host : Host) (cursor : Nat) :
    Except Failure (Submission × Session α β × Host) :=
  if ¬ s.isAlive host then .error (.sessionClosed s.buffer)
  else
    match s.statement? host cursor with
    | none =>
      let last := Statement.blockEnd s.marker (host.lines s.buffer) cursor
      .ok (s.report host last (Sink.of .error Failure.malformedContinuation.message))
    | some statement =>
      if statement.isBlank s.marker then .ok (s.report host statement.last .empty)
      else .ok (s.perform host statement)

end Session

end Transcript
