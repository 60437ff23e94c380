import Transcript.Evaluator
import Transcript.Ex.Line
import Transcript.Expr.Eval
import Transcript.Expr.Parser
import Transcript.Value

/-!
Running lines of the command language. A program is one line, however many lines it was typed on. A variable
that is not defined is a fault. The first error ends the line, and what was done before it stays
done.
-/
namespace Transcript

/-- The state of the command language. -/
structure Ex where
  vars : Environment := {}

namespace Ex

/-- What ends a line. -/
inductive Error where
  | notACommand (line : String)
  | faulty (verb : Verb) (fault : Fault) (argument : String)
  | noSuchVariable (name : String)
  | notACall
  deriving DecidableEq, Repr

/-- The text of a fault in an argument. -/
def faultMessage (fault : Fault) (argument : String) : String :=
  match fault with
  | .undefinedVariable _ => "E121: " ++ fault.message
  | .unknownFunction _ => "E117: " ++ fault.message
  | .unexpected _ => "E15: Invalid expression: \"" ++ Text.trimmed argument ++ "\""
  | .unfinishedText => "E15: Invalid expression: \"" ++ Text.trimmed argument ++ "\""
  | _ => fault.message

def Error.message : Error → String
  | .notACommand line => "Vim:E492: Not an editor command: " ++ Text.trimmedEnd line
  | .faulty verb fault argument =>
    "Vim(" ++ verb.name ++ "):" ++ faultMessage fault argument
  | .noSuchVariable name => "Vim(unlet):E108: No such variable: \"" ++ name ++ "\""
  | .notACall => "Vim(call):E129: Function name required"

/-- Names in an argument: variables and the shared functions. -/
def scope (place : Place) (vars : Environment) : Scope Unit where
  lookup name := match vars.get? name with
    | some v => pure v
    | none => throw (.undefinedVariable name)
  call function args := match callBuiltin place function args with
    | some r => settle r
    | none => throw (.unknownFunction function)

def valueOf (place : Place) (vars : Environment) (e : Expr) : Except Fault Value :=
  match (e.eval (scope place vars)).run () with
  | .ok v _ => .ok v
  | .error fault _ => .error fault

/-- What a reader makes of tokens. -/
def readAll (p : Reader α) (tokens : List Token) : Except Fault α :=
  match p.run (Cursor.ofTokens tokens) with
  | .ok a _ => .ok a
  | .error fault _ => .error fault

/-- The texts of the values of all expressions up to the end. Each is evaluated before the next is read.
Every round takes a token, so there are no more rounds than tokens. -/
def echoTexts (place : Place) (vars : Environment) : (rounds : Nat) → Cursor →
    Except Fault (List String)
  | 0, _ => .ok []
  | rounds + 1, c =>
    if c.atEnd then .ok []
    else
      match Reader.expr.run c with
      | .error fault _ => .error fault
      | .ok e c' => do
        let v ← valueOf place vars e
        return v.display :: (← echoTexts place vars rounds c')

/-- Reads a name, the sign and an expression. -/
def assignment : Reader (String × Expr) := do
  let name ← Reader.name
  Reader.expectSymbol .assign
  let e ← Reader.expr
  Reader.expectEnd
  return (name, e)

/-- Reads one expression that is all there is. -/
def wholeExpr : Reader Expr := do
  let e ← Reader.expr
  Reader.expectEnd
  return e

/-- Variables and output while a line runs. -/
structure Running where
  vars : Environment
  sink : Sink

/-- Steps of a line. -/
abbrev Action := EStateM Error Running

/-- The words of a text that white space separates. -/
def words (cs : List Char) : List String :=
  ((cs.splitOnP Text.isBlank).filter (!·.isEmpty)).map String.ofList

/-- Removes variables in order, up to the first that is not defined. -/
def undefine : List String → Action Unit
  | [] => pure ()
  | name :: names => do
    let r ← get
    if r.vars.contains name then
      set { r with vars := r.vars.erase name }
      undefine names
    else throw (.noSuchVariable name)

/-- Goes on with a result; a fault is told with the verb and its argument. -/
def attempt (verb : Verb) (argument : List Char) {α : Type} : Except Fault α → Action α
  | .ok a => pure a
  | .error fault => throw (.faulty verb fault (String.ofList argument))

/-- Executes a verb with the tokens of its argument. -/
def perform (place : Place) (verb : Verb) (argument : List Char) (tokens : List Token) :
    Action Unit := do
  let r ← get
  match verb with
  | .echo =>
    let texts ← attempt verb argument (echoTexts place r.vars tokens.length (Cursor.ofTokens tokens))
    set { r with sink := r.sink.push .output (" ".intercalate texts) }
  | .define =>
    let (name, e) ← attempt verb argument (readAll assignment tokens)
    let v ← attempt verb argument (valueOf place r.vars e)
    set { r with vars := r.vars.define name v }
  | .undefine => undefine (words argument)
  | .call =>
    let e ← attempt verb argument (readAll wholeExpr tokens)
    if e.isCall then
      let _ ← attempt verb argument (valueOf place r.vars e)
      return ()
    else throw .notACall

/-- Executes one command. The argument of every verb is made of tokens. -/
def execute (place : Place) (cs : List Char) : Action Unit := do
  let cs := command cs
  if isIdle cs then return ()
  else
    let (word, argument) := splitVerb cs
    match Verb.lookup? (String.ofList word) with
    | none => throw (.notACommand (String.ofList cs))
    | some verb =>
      match Token.scan (String.ofList argument) with
      | .error fault => throw (.faulty verb fault (String.ofList argument))
      | .ok tokens => perform place verb argument tokens

/-- Executes commands up to the first error. -/
def executeAll (place : Place) : List (List Char) → Action Unit
  | [] => pure ()
  | cs :: rest => do
    execute place cs
    executeAll place rest

/-- Runs the program whose lines are given. -/
def evaluate (program : List String) (view : View) (s : Ex) : Evaluation Ex :=
  let line := String.join program
  match (executeAll view.place (splitBars none line.toList)).run ⟨s.vars, .empty⟩ with
  | .ok _ r => { outcome := .done, output := r.sink, state := ⟨r.vars⟩ }
  | .error e r => { outcome := .failed e.message, output := r.sink, state := ⟨r.vars⟩ }

/-- The command that a text ends in, without what stands before it. -/
def lastCommand (cs : List Char) : List Char :=
  command (cs.reverse.takeWhile (· ≠ '|')).reverse

/-- Completes a verb, or behind one a name. -/
def complete (s : Ex) (text : String) : Completion :=
  let cs := text.toList
  let last := lastCommand cs
  if last.any Text.isBlank then
    completeWord text (s.vars.names ++ builtinNames ++ ["string"])
  else
    { offset := Text.byteLength cs - Text.byteLength last + 1
      candidates := startingWith last (Verb.all.map Verb.name) }

/-- The text of a message behind the name of what failed, if it has one. -/
def afterOrigin? (message : List Char) : Option (List Char) :=
  match message with
  | 'V' :: 'i' :: 'm' :: ':' :: rest => some rest
  | 'V' :: 'i' :: 'm' :: '(' :: rest =>
    let (word, rest) := splitVerb rest
    match rest with
    | ')' :: ':' :: rest => if word.isEmpty then none else some rest
    | _ => none
  | _ => none

/-- A message without the name of what failed. -/
def withoutOrigin (message : String) : String :=
  ((afterOrigin? message.toList).map String.ofList).getD message

instance : Evaluator Ex where
  eval := evaluate
  complete := complete
  cleanError _ := withoutOrigin

end Ex

end Transcript
