import Transcript.Decimal
import Transcript.Settings

/-!
Reading the arguments of the program. Options that all tasks take may stand before the name of the task or
behind it; of two values the one behind the name counts. An option is given once at either place, and
behind two hyphens there are only operands.
-/
namespace Transcript.CommandLine

/-- What the program is asked to do; without a name it converses. -/
inductive Task where
  | converse
  | run
  | eval
  | settings
  deriving DecidableEq, Repr

namespace Task

def all : List Task := [.converse, .run, .eval, .settings]

def name : Task → String
  | .converse => "repl"
  | .run => "run"
  | .eval => "eval"
  | .settings => "config"

def ofName? (name : String) : Option Task := all.find? (·.name = name)

/-- Whether a task takes an operand, which it then needs. -/
def takesOperand : Task → Bool
  | .run => true
  | .eval => true
  | _ => false

end Task

/-- Options with a value. -/
inductive Valued where
  | config
  | language
  | indent
  | historyFile
  deriving DecidableEq, Repr

/-- Options without a value. -/
inductive Flag where
  | inspect
  | noColour
  | verbose
  | viKeys
  | help
  | version
  deriving DecidableEq, Repr

/-- An option. -/
inductive Opt where
  | valued (o : Valued)
  | flag (f : Flag)
  deriving DecidableEq, Repr

/-- The option of a long name at the place of a task. -/
def longOption? (task : Option Task) (name : String) : Option Opt :=
  match name with
  | "config" => some (.valued .config)
  | "lang" => some (.valued .language)
  | "indent" => some (.valued .indent)
  | "inspect" => some (.flag .inspect)
  | "no-color" => some (.flag .noColour)
  | "verbose" => some (.flag .verbose)
  | "help" => some (.flag .help)
  | "version" => if task = none then some (.flag .version) else none
  | "history-file" => if task = some .converse then some (.valued .historyFile) else none
  | "vi" => if task = some .converse then some (.flag .viKeys) else none
  | _ => none

/-- The option of a letter at the place of a task. -/
def shortOption? (task : Option Task) (letter : Char) : Option Opt :=
  match letter with
  | 'c' => some (.valued .config)
  | 'l' => some (.valued .language)
  | 'v' => some (.flag .verbose)
  | 'h' => some (.flag .help)
  | 'V' => if task = none then some (.flag .version) else none
  | _ => none

/-- The options of one place. -/
structure Options where
  config : Option String := none
  language : Option Language := none
  inspect : Bool := false
  indent : Option Nat := none
  noColour : Bool := false
  verbosity : Nat := 0
  deriving DecidableEq, Repr

/-- The options of both places together. -/
def Options.under (inner outer : Options) : Options where
  config := inner.config <|> outer.config
  language := inner.language <|> outer.language
  inspect := inner.inspect || outer.inspect
  indent := inner.indent <|> outer.indent
  noColour := inner.noColour || outer.noColour
  verbosity := if inner.verbosity = 0 then outer.verbosity else inner.verbosity

/-- Why the arguments ask for no task. -/
inductive Stop where
  | usage
  | help
  | version
  deriving DecidableEq, Repr

/-- What the arguments ask for. -/
structure Invocation where
  task : Task
  options : Options
  operand : String
  historyFile : Option String
  deriving DecidableEq, Repr

/-- The arguments read so far. A pending option waits for its value. -/
structure Reading where
  task : Option Task := none
  outer : Options := {}
  inner : Options := {}
  operand : Option String := none
  historyFile : Option String := none
  viKeys : Bool := false
  pending : Option Valued := none
  onlyOperands : Bool := false
  deriving DecidableEq, Repr

namespace Reading

/-- The options of the place that is read. -/
def options (r : Reading) : Options := if r.task.isSome then r.inner else r.outer

def setOptions (r : Reading) (o : Options) : Reading :=
  if r.task.isSome then { r with inner := o } else { r with outer := o }

/-- The width that a text gives: an integer in range, with a sign or without. -/
def indent? (text : String) : Option Nat :=
  let (negative, digits) : Bool × List Char := match text.toList with
    | '-' :: cs => (true, cs)
    | '+' :: cs => (false, cs)
    | cs => (false, cs)
  if digits.isEmpty ∨ ¬ digits.all Char.isDigit then none
  else
    let n := Decimal.natOfDigits digits
    if n ≤ maxIndent ∧ (negative → n = 0) then some n else none

/-- Gives an option its value. Paths are not empty. -/
def setValue (r : Reading) (o : Valued) (v : String) : Except Stop Reading :=
  let options := r.options
  match o with
  | .config =>
    if options.config.isSome ∨ v.isEmpty then .error .usage
    else .ok (r.setOptions { options with config := some v })
  | .language =>
    match options.language, Language.ofName? v with
    | none, some l => .ok (r.setOptions { options with language := some l })
    | _, _ => .error .usage
  | .indent =>
    match options.indent, indent? v with
    | none, some n => .ok (r.setOptions { options with indent := some n })
    | _, _ => .error .usage
  | .historyFile =>
    if r.historyFile.isSome ∨ v.isEmpty then .error .usage
    else .ok { r with historyFile := some v }

/-- Sets an option without a value. -/
def setFlag (r : Reading) (f : Flag) : Except Stop Reading :=
  let options := r.options
  match f with
  | .inspect =>
    if options.inspect then .error .usage
    else .ok (r.setOptions { options with inspect := true })
  | .noColour =>
    if options.noColour then .error .usage
    else .ok (r.setOptions { options with noColour := true })
  | .verbose => .ok (r.setOptions { options with verbosity := options.verbosity + 1 })
  | .viKeys => if r.viKeys then .error .usage else .ok { r with viKeys := true }
  | .help => .error .help
  | .version => .error .version

/-- Reads an option by its long name; an equals sign ends the name before a value. -/
def takeLong (r : Reading) (cs : List Char) : Except Stop Reading :=
  let name := String.ofList (cs.takeWhile (· ≠ '='))
  match longOption? r.task name, cs.dropWhile (· ≠ '=') with
  | some (.valued o), [] => .ok { r with pending := some o }
  | some (.valued o), _ :: v => r.setValue o (String.ofList v)
  | some (.flag f), [] => r.setFlag f
  | _, _ => .error .usage

/-- The value behind a letter, without an equals sign in front. -/
def attachedValue : List Char → String
  | '=' :: v => String.ofList v
  | v => String.ofList v

/-- Reads options by their letters; the first one with a value takes the rest. -/
def takeLetters (r : Reading) : List Char → Except Stop Reading
  | [] => .ok r
  | c :: cs =>
    match shortOption? r.task c with
    | some (.flag f) => do takeLetters (← r.setFlag f) cs
    | some (.valued o) =>
      if cs.isEmpty then .ok { r with pending := some o } else r.setValue o (attachedValue cs)
    | none => .error .usage

/-- Reads the name of a task or an operand. The operand of `run` is a path and not empty. -/
def takeOperand (r : Reading) (arg : String) : Except Stop Reading :=
  match r.task with
  | none =>
    match Task.ofName? arg with
    | some task => if r.onlyOperands then .error .usage else .ok { r with task := some task }
    | none => .error .usage
  | some task =>
    if ¬ task.takesOperand ∨ r.operand.isSome ∨ (task = .run ∧ arg.isEmpty) then .error .usage
    else .ok { r with operand := some arg }

/-- Reads one argument. The value of an option does not start with a hyphen, unless it is one. -/
def take (r : Reading) (arg : String) : Except Stop Reading :=
  if r.onlyOperands then r.takeOperand arg
  else
    match arg.toList, r.pending with
    | '-' :: _ :: _, some _ => .error .usage
    | ['-', '-'], none => .ok { r with onlyOperands := true }
    | '-' :: '-' :: cs, none => r.takeLong cs
    | '-' :: c :: cs, none => r.takeLetters (c :: cs)
    | _, some o => { r with pending := none }.setValue o arg
    | _, none => r.takeOperand arg

/-- Whether an argument asks for help on the arguments behind it. -/
def asksHelp (r : Reading) (arg : String) : Bool :=
  r.task.isNone && r.pending.isNone && !r.onlyOperands && arg == "help"

/-- The help on nothing or on one task; there is none on anything else. -/
def helpOn : List String → Stop
  | [] => .help
  | [name] => if (Task.ofName? name).isSome ∨ name = "help" then .help else .usage
  | _ => .usage

/-- What the arguments ask for at their end. -/
def finish (r : Reading) : Except Stop Invocation :=
  let task := r.task.getD .converse
  if r.pending.isSome ∨ (task.takesOperand ∧ r.operand.isNone) then .error .usage
  else
    .ok
      { task := task
        options := r.inner.under r.outer
        operand := r.operand.getD ""
        historyFile := r.historyFile }

def takeAll (r : Reading) : List String → Except Stop Invocation
  | [] => r.finish
  | arg :: args =>
    if r.asksHelp arg then .error (helpOn args)
    else do takeAll (← r.take arg) args

end Reading

def parse (args : List String) : Except Stop Invocation := ({} : Reading).takeAll args

end Transcript.CommandLine
