import Transcript.CommandLine.Plan

/-!
The program. It reads files, the environment and the standard input, and prints; all else is decided by
`Transcript.CommandLine`.
-/
namespace Transcript

/-- The code of a fault; some calls of the system give it negated. -/
def faultCode (code : UInt32) : UInt32 := if code < 0x80000000 then code else 0 - code

/-- The code of a path that goes on below a file. -/
def belowFileCode : UInt32 := 20

/-- The code of a name that is too long. -/
def longNameCode : UInt32 := 36

/-- A fault of the system with its code. -/
def systemFault (code : UInt32) (details : String) : CommandLine.FileFault :=
  if faultCode code = longNameCode then .nameTooLong
  else .other (details.capitalize ++ " (os error " ++ toString (faultCode code) ++ ")")

/-- Why the system did not read a file. -/
def fileFault : IO.Error → CommandLine.FileFault
  | .noFileOrDirectory .. => .missing
  | .inappropriateType _ code _ =>
    if faultCode code = belowFileCode then .notInDirectory else .isDirectory
  | .permissionDenied _ code details => systemFault code details
  | .invalidArgument _ code details => systemFault code details
  | .resourceExhausted _ code details => systemFault code details
  | e => .other (toString e)

def readFile (path : String) : IO (Except CommandLine.FileFault String) := do
  try
    let bytes ← IO.FS.readBinFile path
    return match String.fromUTF8? bytes with
      | some text => .ok text
      | none => .error .notText
  catch e =>
    return .error (fileFault e)

def succeeds (action : IO Unit) : IO Bool := do
  try
    action
    return true
  catch _ =>
    return false

/-- Whether a path leads to something. A pipe has no path of its own but can be opened. -/
def isPresent (path : String) : IO Bool := do
  if ← succeeds (discard (IO.FS.realPath path)) then return true
  else succeeds (discard (IO.FS.Handle.mk path .read))

def systemFiles : CommandLine.Files IO := ⟨isPresent, readFile⟩

/-- Removes the line end of a line that was read. -/
def withoutLineEnd (line : String) : String :=
  match Text.sourceLines line with
  | [text] => text
  | _ => ""

/-- Answers typed lines up to the end of the input or of the session, and gives the exit code. -/
partial def converse (input : IO.FS.Stream) (colours : Bool) (c : Console) : IO UInt32 := do
  let line ← input.getLine
  if line.isEmpty then return 0
  match CommandLine.answer c colours (withoutLineEnd line) with
  | .error b =>
    IO.eprint b.text
    return UInt32.ofNat b.code
  | .ok (text, next) =>
    IO.print text
    match next with
    | some c => converse input colours c
    | none => return 0

/-- The variables of the environment that name places. -/
def environment : IO (String → Option String) := do
  let names := ["XDG_CONFIG_HOME", "HOME", "APPDATA"]
  let values ← names.mapM fun name => return (name, ← IO.getEnv name)
  return fun name => (values.lookup name).getD none

/-- Carries out an invocation, and gives the exit code. -/
def carryOut (inv : CommandLine.Invocation) : IO UInt32 := do
  match ← CommandLine.plan systemFiles (← environment) inv with
  | .finished output =>
    IO.print output
    return 0
  | .failed errors =>
    IO.eprint errors
    return 1
  | .converse settings colours =>
    IO.print (CommandLine.greeting settings)
    converse (← IO.getStdin) colours (Console.new settings)

end Transcript

open Transcript in
/-- The entry of the program. -/
def main (args : List String) : IO UInt32 := do
  match CommandLine.parse args with
  | .ok inv => carryOut inv
  | .error .help =>
    IO.print CommandLine.usageText
    return 0
  | .error .version =>
    IO.print CommandLine.versionLine
    return 0
  | .error .usage =>
    IO.eprint CommandLine.usageText
    return 2
