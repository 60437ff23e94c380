import Transcript.Text

/-!
Output on its way to a buffer. What is pushed is cut into lines, without the carriage returns at their
ends, and lines of one class that follow each other are one chunk.
-/
namespace Transcript

/-- What a line of a buffer shows. -/
inductive Highlight where
  | error
  | output
  | value
  | info
  | continuation
  deriving DecidableEq, Repr

/-- Lines of one class, which become one mark. -/
structure Chunk where
  highlight : Highlight
  lines : List String
  deriving DecidableEq, Repr

/-- Chunks in the order in which they were pushed. -/
structure Sink where
  chunks : List Chunk := []
  deriving DecidableEq, Repr

/-- The lines of a pushed text. -/
def outputLines (text : String) : List String :=
  (text.toList.splitOn '\n').map fun l => String.ofList (Text.dropEndWhile (· == '\r') l)

namespace Sink

def empty : Sink := {}

def isEmpty (s : Sink) : Bool := s.chunks.isEmpty

/-- Pushes a text: onto the last chunk if it has the same class, else as a chunk of its own. -/
def push (s : Sink) (highlight : Highlight) (text : String) : Sink :=
  match s.chunks.getLast? with
  | some last =>
    if last.highlight = highlight then
      ⟨s.chunks.dropLast ++ [⟨highlight, last.lines ++ outputLines text⟩]⟩
    else ⟨s.chunks ++ [⟨highlight, outputLines text⟩]⟩
  | none => ⟨[⟨highlight, outputLines text⟩]⟩

def extend (s other : Sink) : Sink :=
  other.chunks.foldl (fun s c => s.push c.highlight ("\n".intercalate c.lines)) s

/-- The sink that holds one text. -/
def of (highlight : Highlight) (text : String) : Sink := empty.push highlight text

end Sink

end Transcript

namespace Transcript.Highlight

/-!
## Painting

Highlights as names, groups and colours of a terminal.
-/

def all : List Highlight := [.error, .output, .value, .info, .continuation]

def name : Highlight → String
  | .error => "error"
  | .output => "output"
  | .value => "value"
  | .info => "info"
  | .continuation => "line_cont"

def ofName? (name : String) : Option Highlight := all.find? (·.name = name)

theorem ofName?_name (h : Highlight) : ofName? h.name = some h := by
  cases h <;> decide

/-- The group that an editor colours. -/
def group : Highlight → String
  | .error => "ReplError"
  | .output => "ReplOutput"
  | .value => "ReplValue"
  | .info => "ReplInfo"
  | .continuation => "ReplLineCont"

/-- The codes that start and end a colour; output has none. -/
def colour? : Highlight → Option (Nat × Nat)
  | .error => some (31, 39)
  | .output => none
  | .value => some (32, 39)
  | .info => some (36, 39)
  | .continuation => some (2, 0)

/-- The sequence that a code is sent as. -/
def sequence (code : Nat) : String := "\x1b[" ++ toString code ++ "m"

/-- A text in its colour, if colours are wanted. -/
def paint (h : Highlight) (text : String) (colours : Bool) : String :=
  match h.colour? with
  | some (start, stop) => if colours then sequence start ++ text ++ sequence stop else text
  | none => text

end Transcript.Highlight
