import Transcript.Evaluator
import Transcript.Expr.Eval
import Transcript.Script.Program
import Transcript.Text.Class
import Transcript.Value

/-!
Running programs of the scripting language. Variables that are not defined are nothing. A bare expression
must be a call, unless values are inspected; then its value is shown. The first fault ends the
program, and what was done before it stays done.
-/
namespace Transcript

/-- The state of the scripting language. -/
structure Script where
  vars : Environment := {}

namespace Script

/-- Names in a program: variables, the function that prints and the shared functions. -/
def scope (place : Place) (vars : Environment) : Scope Sink where
  lookup name := pure ((vars.get? name).getD .nil)
  call function args :=
    if function = "print" then do
      modify fun sink => sink.push .output ("\t".intercalate (args.map Value.display))
      return .nil
    else
      match callBuiltin place function args with
      | some r => settle r
      | none => throw (.unknownFunction function)

/-- What follows a statement: the next one, with these variables, or the end with a result. -/
inductive Flow where
  | next (vars : Environment)
  | stop (result : Option Value)

/-- Runs a statement. -/
def Stmt.run (view : View) (vars : Environment) : Stmt → EStateM Fault Sink Flow
  | .giveBack none => return .stop none
  | .giveBack (some e) => return .stop (some (← e.eval (scope view.place vars)))
  | .assign name e => return .next (vars.define name (← e.eval (scope view.place vars)))
  | .bare e near => do
    if !e.isCall && !view.inspect then throw (.unexpected near)
    else
      let v ← e.eval (scope view.place vars)
      if view.inspect && (!v.isNil || !e.isCall) then
        modify fun sink => sink.push .value (view.render v)
      return .next vars

/-- A fault and the line it is reported on. -/
structure Located where
  line : Nat
  fault : Fault
  deriving DecidableEq, Repr

/-- A run: its result or fault, the variables and the output. -/
structure Run where
  result : Except Located (Option Value)
  vars : Environment
  sink : Sink

/-- Runs statements in order. -/
def runSteps (view : View) (ending : Ending) : List Step → Environment → Sink → Run
  | [], vars, sink =>
    match ending with
    | .finished => ⟨.ok none, vars, sink⟩
    | .broken line fault => ⟨.error ⟨line, fault⟩, vars, sink⟩
  | step :: steps, vars, sink =>
    match (step.stmt.run view vars).run sink with
    | .error fault sink => ⟨.error ⟨step.line, fault⟩, vars, sink⟩
    | .ok (.next vars) sink => runSteps view ending steps vars sink
    | .ok (.stop result) sink =>
      match ending with
      | .finished => ⟨.ok result, vars, sink⟩
      | .broken line fault => ⟨.error ⟨line, fault⟩, vars, sink⟩

/-- Runs a program. A call that is the whole program shows no value if its value is nothing. -/
def Program.run (view : View) (program : Program) (vars : Environment) : Run :=
  match program with
  | .unreadable fault => ⟨.error ⟨1, fault⟩, vars, .empty⟩
  | .lone e =>
    match (e.eval (scope view.place vars)).run Sink.empty with
    | .error fault sink => ⟨.error ⟨1, fault⟩, vars, sink⟩
    | .ok v sink => ⟨.ok (if e.isCall && v.isNil then none else some v), vars, sink⟩
  | .steps body ending => runSteps view ending body vars .empty

def Located.message (l : Located) : String :=
  "[string \"repl\"]:" ++ toString l.line ++ ": " ++ l.fault.message

/-- Runs the program whose lines are given. -/
def evaluate (program : List String) (view : View) (s : Script) : Evaluation Script :=
  let r := (Program.ofSource ("\n".intercalate program)).run view s.vars
  let outcome := match r.result with
    | .ok none => .done
    | .ok (some v) => .value (view.render v)
    | .error located => .failed located.message
  { outcome := outcome, output := r.sink, state := ⟨r.vars⟩ }

/-- The words that completion offers beside names. -/
def completedKeywords : List String :=
  ["and", "false", "local", "nil", "not", "or", "return", "true"]

def completedNames (s : Script) : List String :=
  s.vars.names ++ builtinNames ++ ["print"] ++ completedKeywords

/-- The rest of a text behind `start`, if it starts so. -/
def dropStart? (start text : List Char) : Option (List Char) :=
  if start.isPrefixOf text then some (text.drop start.length) else none

/-- The text of a message behind its place, if it has one. -/
def afterLocation? (message : List Char) : Option (List Char) := do
  let rest ← dropStart? "[string \"".toList message
  let rest ← dropStart? "\"]:".toList (rest.dropWhile (· ≠ '"'))
  if rest.head?.any Text.isDecimalDigit then
    dropStart? ": ".toList (rest.dropWhile Text.isDecimalDigit)
  else none

/-- A message without its place. -/
def withoutLocation (message : String) : String :=
  ((afterLocation? message.toList).map String.ofList).getD message

instance : Evaluator Script where
  eval := evaluate
  complete s text := completeWord text s.completedNames
  cleanError _ := withoutLocation

end Script

end Transcript
