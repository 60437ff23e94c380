import Transcript.Decimal
import Transcript.Text

/-!
Values of both languages: nothing, truth values, floating point numbers and text. A value is shown in
two ways: `display` is its plain text, `inspect` puts text between quotes.
-/
namespace Transcript

/-- A value. -/
inductive Value where
  | nil
  | bool (b : Bool)
  | number (x : Float)
  | text (s : String)
  deriving Inhabited

/-- The kind of a value. -/
inductive Value.Kind where
  | nil
  | boolean
  | number
  | string
  deriving DecidableEq, Repr

def Value.Kind.name : Value.Kind → String
  | .nil => "nil"
  | .boolean => "boolean"
  | .number => "number"
  | .string => "string"

namespace Value

def kind : Value → Kind
  | .nil => .nil
  | .bool _ => .boolean
  | .number _ => .number
  | .text _ => .string

/-- Nothing and false are not true; all else is. -/
def isTruthy : Value → Bool
  | .nil => false
  | .bool b => b
  | _ => true

def isNil : Value → Bool
  | .nil => true
  | _ => false

/-- The text of a number. A zero has no sign. -/
def displayNumber (x : Float) : String :=
  match Decimal.Double.ofFloat x with
  | .nan => "nan"
  | .finite _ 0 _ => "0"
  | d => d.text

def display : Value → String
  | .nil => "nil"
  | .bool true => "true"
  | .bool false => "false"
  | .number x => displayNumber x
  | .text s => s

/-- The text of a value with text between quotes. -/
def inspect : Value → String
  | .text s => Text.quoted s
  | v => v.display

/-- The number a value stands for in arithmetic: a number itself, or text that reads as one. -/
def asNumber? : Value → Option Float
  | .number x => some x
  | .text s => Decimal.read? (Text.trim s.toList)
  | _ => none

/-- Values of one kind with equal contents are the same; a number that is no number differs from
itself. -/
def same : Value → Value → Bool
  | .nil, .nil => true
  | .bool a, .bool b => a == b
  | .number a, .number b => a == b
  | .text a, .text b => a == b
  | _, _ => false

/-- Numbers are ordered by size and text by code points; nothing else is ordered. -/
def compare? : Value → Value → Option Ordering
  | .number a, .number b =>
    if a < b then some .lt else if a == b then some .eq else if b < a then some .gt else none
  | .text a, .text b => some (if a < b then .lt else if a = b then .eq else .gt)
  | _, _ => none

end Value

/-!
## Variables

Variables in the order of their first definition. To define a variable as nothing removes it.
-/

/-- Variables with their values. -/
structure Environment where
  entries : List (String × Value) := []

namespace Environment

/-- The value of a variable. -/
def get? (env : Environment) (name : String) : Option Value := env.entries.lookup name

def names (env : Environment) : List String := env.entries.map Prod.fst

def erase (env : Environment) (name : String) : Environment :=
  ⟨env.entries.filter (·.1 != name)⟩

def contains (env : Environment) (name : String) : Bool := env.names.contains name

/-- Gives a variable a value that is not nothing: in its place, or at the end if it is new. -/
def insert (env : Environment) (name : String) (v : Value) : Environment :=
  if env.contains name then
    ⟨env.entries.map fun e => if e.1 == name then (name, v) else e⟩
  else ⟨env.entries ++ [(name, v)]⟩

def define (env : Environment) (name : String) (v : Value) : Environment :=
  if v.isNil then env.erase name else env.insert name v

end Environment

/-!
## Faults

What can go wrong in an expression, from reading it to evaluating it, and the text of each fault.
-/

/-- A fault of an expression. -/
inductive Fault where
  | unexpected (near : String)
  | unfinishedText
  | undefinedVariable (name : String)
  | unknownFunction (name : String)
  | arithmetic (kind : Value.Kind)
  | concatenation (kind : Value.Kind)
  | comparison (left right : Value.Kind)
  | badArgument (function : String) (position : Nat) (reason : String)
  | tooDeep
  deriving DecidableEq, Repr

/-- The text of a fault. -/
def Fault.message : Fault → String
  | .unexpected near => "syntax error near " ++ near
  | .unfinishedText => "unfinished string"
  | .undefinedVariable name => "Undefined variable: " ++ name
  | .unknownFunction name => "Unknown function: " ++ name
  | .arithmetic kind => "attempt to perform arithmetic on a " ++ kind.name ++ " value"
  | .concatenation kind => "attempt to concatenate a " ++ kind.name ++ " value"
  | .comparison left right => "attempt to compare " ++ left.name ++ " with " ++ right.name
  | .badArgument function position reason =>
    "bad argument #" ++ toString position ++ " to '" ++ function ++ "' (" ++ reason ++ ")"
  | .tooDeep => "expression too deeply nested"

end Transcript
