import Transcript.Text

/-!
The commands of a session. A command is called by any start of its name that is long enough; if a start
fits several names, the first one in the table is called.
-/
namespace Transcript

/-!
## Refusals

Why a session refuses an input, and the text it shows for it.
-/

/-- The parts of a place that can be overridden. -/
inductive Override where
  | buffer
  | window
  deriving DecidableEq, Repr

def Override.name : Override → String
  | .buffer => "buffer"
  | .window => "window"

/-- A refusal. -/
inductive Failure where
  | malformedContinuation
  | invalidCommand
  | argumentsNotAllowed
  | invalidArgument (what : String) (value : String)
  | staleContext (what : Override)
  | sessionClosed (buffer : Nat)
  deriving DecidableEq, Repr

def Failure.message : Failure → String
  | .malformedContinuation => "illegal line continuation"
  | .invalidCommand => "invalid command"
  | .argumentsNotAllowed => "arguments not allowed"
  | .invalidArgument what value => "invalid " ++ what ++ ": " ++ value
  | .staleContext what => "invalid " ++ what.name ++ " context, reset to none"
  | .sessionClosed buffer => "session buffer " ++ toString buffer ++ " is no longer valid"

/-- Whether `typed` abbreviates `name` with at least `least` bytes. -/
def abbreviates (typed name : String) (least : Nat) : Bool :=
  !typed.isEmpty && least ≤ Text.byteLength typed.toList && typed.toList.isPrefixOf name.toList

/-- The commands. -/
inductive Command where
  | lua
  | vim
  | buffer
  | window
  | indent
  | clear
  | quit
  | help
  deriving DecidableEq, Repr

namespace Command

def all : List Command := [.lua, .vim, .buffer, .window, .indent, .clear, .quit, .help]

theorem mem_all (c : Command) : c ∈ all := by
  cases c <;> decide

def name : Command → String
  | .lua => "lua"
  | .vim => "vim"
  | .buffer => "buffer"
  | .window => "window"
  | .indent => "indent"
  | .clear => "clear"
  | .quit => "quit"
  | .help => "help"

/-- The length of the shortest abbreviation. -/
def leastLength (_ : Command) : Nat := 1

/-- Whether the argument is kept as it was typed, line by line. -/
def isRaw : Command → Bool
  | .lua => true
  | .vim => true
  | _ => false

/-- Whether the command takes an argument. -/
def takesArgument : Command → Bool
  | .clear => false
  | .quit => false
  | .help => false
  | _ => true

/-- How the argument is shown in the help. -/
def usage : Command → String
  | .lua => "[EXPR]"
  | .vim => "[EXPR]"
  | .buffer => "[B]"
  | .window => "[N]"
  | .indent => "[N]"
  | .clear => ""
  | .quit => ""
  | .help => ""

def summary : Command → String
  | .lua => "evaluate EXPR as lua, or switch to lua mode"
  | .vim => "evaluate EXPR as vim commands, or switch to vim mode"
  | .buffer => "evaluate as if buffer B were current (0 = none)"
  | .window => "evaluate as if window N were current (0 = none)"
  | .indent => "indent output by N spaces (0-32)"
  | .clear => "clear the buffer"
  | .quit => "close the REPL"
  | .help => "show this help"

/-- The name with the part that may be left out in brackets. -/
def abbreviated (c : Command) : String :=
  let cs := c.name.toList
  let optional := cs.drop c.leastLength
  String.ofList
    (if optional.isEmpty then cs else cs.take c.leastLength ++ '[' :: (optional ++ [']']))

/-- The command that a word calls. -/
def lookup? (typed : String) : Option Command :=
  all.find? fun c => abbreviates typed c.name c.leastLength

def helpWidth : Nat := 18

/-- The line of a command in the help. -/
def helpLine (leader : Char) (c : Command) : String :=
  let synopsis := leader :: c.abbreviated.toList
    ++ (if c.usage.isEmpty then [] else ' ' :: c.usage.toList)
  String.ofList
    (synopsis ++ List.replicate (helpWidth - synopsis.length) ' ' ++ c.summary.toList)

/-- The help, a line for each command. -/
def helpLines (leader : Char) : List String := all.map (helpLine leader)

end Command

end Transcript
