import Transcript.Command
import Transcript.Statement

/-!
Telling commands from programs. A statement that starts with the leader calls a command, all other
statements are programs of the active language.
-/
namespace Transcript

def defaultLeader : Char := '/'

/-- The argument of a command: lines as typed, or one value. -/
inductive Argument where
  | source (lines : List String)
  | value (text : String)
  deriving DecidableEq, Repr

namespace Argument

/-- The lines in one, without the white space around them. -/
def valueOf (lines : List String) : String := Text.trimmed (" ".intercalate lines)

def toLines : Argument → List String
  | .source lines => lines
  | .value text => [text]

def toValue : Argument → String
  | .source lines => valueOf lines
  | .value text => text

end Argument

/-- What a statement asks for. -/
inductive Input where
  | program (lines : List String)
  | command (c : Command) (argument : Option Argument)
  deriving DecidableEq, Repr

namespace Input

/-- The word of letters that a command line starts with, and what stands behind it and the white space
after it. -/
def splitCommand (line : List Char) : List Char × List Char :=
  (line.takeWhile Char.isAlpha, (line.dropWhile Char.isAlpha).dropWhile Text.isBlank)

/-- The argument that the lines of a command give. A lone line loses the white space at its end, and
nothing but white space is no argument. -/
def argument? (c : Command) (head : String) (continuations : List String) : Option Argument :=
  let lines := if continuations.isEmpty then [Text.trimmedEnd head] else head :: continuations
  if lines.all Text.isBlankText then none
  else some (if c.isRaw then .source lines else .value (Argument.valueOf lines))

/-- What the lines of a statement ask for. A command line has no line feed but in the white space
after its name. -/
def classify (leader marker : Char) (lines : List String) : Except Failure Input :=
  match lines with
  | [] => .ok (.program [])
  | first :: rest =>
    let continuations := rest.map (stripMarker marker)
    match first.toList with
    | c :: line =>
      if c = leader then
        let (word, head) := splitCommand line
        if head.contains '\n' then .error .invalidCommand
        else
          match Command.lookup? (String.ofList word) with
          | none => .error .invalidCommand
          | some c => .ok (.command c (argument? c (String.ofList head) continuations))
      else .ok (.program (first :: continuations))
    | [] => .ok (.program (first :: continuations))

end Input

end Transcript
