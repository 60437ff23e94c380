import Transcript.CommandLine.Arguments
import Transcript.Console
import Transcript.Settings.Document
import Transcript.Text.Cluster

/-!
Carrying out what the arguments ask for. Files are reached through `Files` only, so the same steps serve
any place that keeps files. The settings come from the file that is named, or from the file of the user if
there is one; options overrule them.
-/
namespace Transcript.CommandLine

/-- Why a file cannot be read. -/
inductive FileFault where
  | missing
  | isDirectory
  | notInDirectory
  | nameTooLong
  | notText
  | other (text : String)
  deriving DecidableEq, Repr

def FileFault.message : FileFault → String
  | .missing => "No such file or directory (os error 2)"
  | .isDirectory => "Is a directory (os error 21)"
  | .notInDirectory => "Not a directory (os error 20)"
  | .nameTooLong => "File name too long (os error 36)"
  | .notText => "stream did not contain valid UTF-8"
  | .other text => text

/-- A place that keeps files. -/
structure Files (m : Type → Type) where
  /-- Whether a path leads to something, be it readable or not. -/
  isPresent : String → m Bool
  /-- The text of the file at a path. -/
  read : String → m (Except FileFault String)

/-- A failure: what failed, and why, the nearest cause first. -/
structure Report where
  what : String
  causes : List String
  deriving DecidableEq, Repr

/-- The causes of a failure, numbered if there are several. -/
def Report.causeLines (causes : List String) : List String :=
  match causes with
  | [cause] => ["    " ++ cause ++ "\n"]
  | _ => causes.zipIdx.map fun (cause, i) => "    " ++ toString i ++ ": " ++ cause ++ "\n"

def Report.text (r : Report) : String :=
  match r.causes with
  | [] => "Error: " ++ r.what ++ "\n"
  | causes => "Error: " ++ r.what ++ "\n\nCaused by:\n" ++ String.join (Report.causeLines causes)

/-- What is left to do: nothing, with output or an error text, or a conversation. -/
inductive Plan where
  | finished (output : String)
  | failed (errors : String)
  | converse (settings : Settings) (colours : Bool)

def version : String := "0.1.0"

def versionLine : String := Location.programName ++ " " ++ version ++ "\n"

/-- How the program is called. -/
def usageText : String :=
  "Usage: " ++ Location.programName ++ " [OPTIONS] [COMMAND]\n\nCommands:\n"
    ++ String.join (Task.all.map fun t => "  " ++ t.name ++ "\n")

/-! ## Settings -/

/-- What a format says of settings that it has no document for. -/
def unwritableText : String := "out of range"

/-- The causes of settings that are refused. -/
def settingsCauses : UserSettings.Error → List String
  | .unreadable => ["Config parse error: TOML parse error", "TOML parse error"]
  | .flawed flaw => [flaw.message]
  | .unwritable => ["Config serialize error: " ++ unwritableText, unwritableText]

/-- The settings in a file that was read. -/
def settingsOf (what : String) (content : Except FileFault String) :
    Except Report UserSettings :=
  match content with
  | .error f => .error ⟨what, ["IO error: " ++ f.message, f.message]⟩
  | .ok text =>
    match UserSettings.parse text with
    | .error e => .error ⟨what, settingsCauses e⟩
    | .ok s => .ok s

/-- Loads the settings of the user. A file that is not there leaves the defaults. -/
def loadUserSettings [Monad m] (files : Files m) (path : String) :
    m (Except Report UserSettings) := do
  if ← files.isPresent path then
    return settingsOf "Failed to load user config" (← files.read path)
  else return .ok {}

/-- Loads the settings that options and environment name. -/
def loadSettings [Monad m] (files : Files m) (env : String → Option String)
    (options : Options) : m (Except Report UserSettings) :=
  match options.config with
  | some path => return settingsOf ("Failed to load config: " ++ path) (← files.read path)
  | none =>
    match Location.file? env with
    | some path => loadUserSettings files path
    | none => return .ok {}

/-- The settings with what options overrule. -/
def overrule (options : Options) (s : UserSettings) : UserSettings :=
  { s with
    repl := { s.repl with
      language := options.language.getD s.repl.language
      inspect := options.inspect || s.repl.inspect
      indent := options.indent.getD s.repl.indent } }

/-! ## Tasks -/

/-- Lines of output as they are printed. -/
def printed (lines : List OutputLine) (colours : Bool) : String :=
  String.join (lines.map fun (h, text) => h.paint text colours ++ "\n")

def runSource (what : String) (s : Settings) (colours : Bool) (source : String) :
    Except Report String :=
  match Console.run s source with
  | .ok lines => .ok (printed lines colours)
  | .error e => .error ⟨what, [e.message]⟩

/-- Reads what was typed in former conversations, if there is a file of it. No answer shows it, but the file
may be the very input of the conversation, of which nothing is left then. -/
def readHistory [Monad m] (files : Files m) (path : Option String) : m Unit := do
  match path with
  | none => return ()
  | some path =>
    if ← files.isPresent path then
      let _ ← files.read path

/-- Carries out a task with its settings. -/
def perform [Monad m] (files : Files m) (inv : Invocation) (s : UserSettings) :
    m (Except Report Plan) := do
  let colours := !inv.options.noColour
  match inv.task with
  | .converse =>
    readHistory files inv.historyFile
    return .ok (.converse s.repl colours)
  | .settings =>
    match s.write with
    | .ok text => return .ok (.finished text)
    | .error _ => return .error ⟨unwritableText, []⟩
  | .eval =>
    return (runSource "Failed to evaluate code" s.repl colours inv.operand).map .finished
  | .run =>
    match ← files.read inv.operand with
    | .error f => return .error ⟨"Failed to read file: " ++ inv.operand, [f.message]⟩
    | .ok source =>
      return (runSource ("Failed to run: " ++ inv.operand) s.repl colours source).map .finished

/-- What is said about the program before a task if asked for. -/
def preamble (options : Options) : String :=
  if options.verbosity = 0 then ""
  else Location.programName ++ " version: " ++ version ++ "\nHost: linux\n"

/-- Carries out what is asked for, up to a conversation. -/
def plan [Monad m] (files : Files m) (env : String → Option String) (inv : Invocation) :
    m Plan := do
  match ← loadSettings files env inv.options with
  | .error r => return .failed r.text
  | .ok s =>
    match ← perform files inv (overrule inv.options s) with
    | .error r => return .failed (preamble inv.options ++ r.text)
    | .ok p => return p

/-! ## Conversations -/

def greeting (s : Settings) : String :=
  let leader := s.leader.toString
  Location.programName ++ " " ++ version ++ " - Type " ++ leader ++ "help for assistance\n"
    ++ "Press Ctrl+D or " ++ leader ++ "quit to exit\n\n"

/-- Why a conversation breaks off: a line is refused, or a backspace tears a character of it. -/
inductive Breakdown where
  | refused (f : Failure)
  | torn
  deriving DecidableEq, Repr

namespace Breakdown

/-- The code that the program exits with. -/
def code : Breakdown → Nat
  | .refused _ => 1
  | .torn => 101

def text : Breakdown → String
  | .refused f => Report.text ⟨f.message, []⟩
  | .torn => Report.text ⟨"a backspace tears a character", []⟩

end Breakdown

/-- The answer to a typed line as it is printed, and the console to go on with. None goes on after the
end of the session. -/
def answer (c : Console) (colours : Bool) (line : String) :
    Except Breakdown (String × Option Console) :=
  match Text.rubbedOut? line with
  | none => .error .torn
  | some line =>
    match c.feed line with
    | .error f => .error (.refused f)
    | .ok (.output lines, c) => .ok (printed lines colours, some c)
    | .ok (.more, c) => .ok ("", some c)
    | .ok (.quit, _) => .ok ("", none)

/-- The answers to typed lines, and the breakdown that ended them if one did. -/
def answers (colours : Bool) : Console → List String → String × Option Breakdown
  | _, [] => ("", none)
  | c, line :: lines =>
    match answer c colours line with
    | .error b => ("", some b)
    | .ok (text, none) => (text, none)
    | .ok (text, some c) =>
      let (later, breakdown) := answers colours c lines
      (text ++ later, breakdown)

/-- A whole conversation over an input text, and the breakdown that ended it if one did. -/
def conversation (s : Settings) (colours : Bool) (input : String) : String × Option Breakdown :=
  let (text, breakdown) := answers colours (Console.new s) (Text.sourceLines input)
  (greeting s ++ text, breakdown)

end Transcript.CommandLine
