import Transcript.Expr
import Transcript.Value

/-!
Evaluating expressions. A scope says what variables and calls mean; its state is threaded from left to
right, and the first fault ends the evaluation. `and` and `or` give one of their operands and
evaluate the second only if it is needed.
-/
namespace Transcript

/-- What names mean, over a state `σ`. -/
structure Scope (σ : Type) where
  lookup : String → EStateM Fault σ Value
  call : String → List Value → EStateM Fault σ Value

/-- An operation on two numbers; the left operand is checked first. -/
def arithmetic (f : Float → Float → Float) (l r : Value) : Except Fault Value :=
  match l.asNumber?, r.asNumber? with
  | some a, some b => .ok (.number (f a b))
  | none, _ => .error (.arithmetic l.kind)
  | some _, none => .error (.arithmetic r.kind)

/-- The remainder with the sign of the divisor. -/
def modulo (a b : Float) : Float := a - (a / b).floor * b

/-- Whether a value has a place in a concatenation. -/
def isJoinable : Value → Bool
  | .number _ => true
  | .text _ => true
  | _ => false

/-- The texts of two values joined; the left one is checked first. -/
def concatenation (l r : Value) : Except Fault Value :=
  if ¬ isJoinable l then .error (.concatenation l.kind)
  else if ¬ isJoinable r then .error (.concatenation r.kind)
  else .ok (.text (l.display ++ r.display))

/-- A test on the order of two values. -/
def comparison (test : Ordering → Bool) (l r : Value) : Except Fault Value :=
  match l.compare? r with
  | some o => .ok (.bool (test o))
  | none => .error (.comparison l.kind r.kind)

/-- A binary operator on two values. `and` and `or` give an operand. -/
def BinaryOp.apply (op : BinaryOp) (l r : Value) : Except Fault Value :=
  match op with
  | .add => arithmetic (· + ·) l r
  | .sub => arithmetic (· - ·) l r
  | .mul => arithmetic (· * ·) l r
  | .div => arithmetic (· / ·) l r
  | .mod => arithmetic modulo l r
  | .concat => concatenation l r
  | .eq => .ok (.bool (l.same r))
  | .ne => .ok (.bool (!l.same r))
  | .lt => comparison Ordering.isLT l r
  | .le => comparison Ordering.isLE l r
  | .gt => comparison Ordering.isGT l r
  | .ge => comparison Ordering.isGE l r
  | .and => .ok (if l.isTruthy then r else l)
  | .or => .ok (if l.isTruthy then l else r)

def UnaryOp.apply (op : UnaryOp) (v : Value) : Except Fault Value :=
  match op with
  | .not => .ok (.bool (!v.isTruthy))
  | .neg =>
    match v.asNumber? with
    | some x => .ok (.number (-x))
    | none => .error (.arithmetic v.kind)

/-- The operand that decides `op` alone. -/
def BinaryOp.decided? (op : BinaryOp) (l : Value) : Option Value :=
  match op with
  | .and => if l.isTruthy then none else some l
  | .or => if l.isTruthy then some l else none
  | _ => none

/-- A pure result as a step that keeps the state. -/
def settle (r : Except Fault α) : EStateM Fault σ α :=
  match r with
  | .ok a => pure a
  | .error e => throw e

mutual

/-- The value of an expression. -/
def Expr.eval (scope : Scope σ) : Expr → EStateM Fault σ Value
  | .literal v => pure v
  | .var name => scope.lookup name
  | .call function args => do scope.call function (← Expr.evalAll scope args)
  | .unary op e => do settle (op.apply (← e.eval scope))
  | .binary op l r => do
    let a ← l.eval scope
    match op.decided? a with
    | some v => pure v
    | none => settle (op.apply a (← r.eval scope))

/-- The values of a list of expressions, from left to right. -/
def Expr.evalAll (scope : Scope σ) : List Expr → EStateM Fault σ (List Value)
  | [] => pure []
  | e :: es => do
    let v ← e.eval scope
    return v :: (← Expr.evalAll scope es)

end

end Transcript
