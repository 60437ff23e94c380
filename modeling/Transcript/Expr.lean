import Transcript.Token

/-!
Expressions. Binary operators bind by precedence, from `or` up to `*`; concatenation groups to the right,
the others to the left. A unary operator binds closer than all of them.
-/
namespace Transcript

/-- The operators between two operands. -/
inductive BinaryOp where
  | add
  | sub
  | mul
  | div
  | mod
  | concat
  | eq
  | ne
  | lt
  | le
  | gt
  | ge
  | and
  | or
  deriving DecidableEq, Repr

/-- The operators before one operand. -/
inductive UnaryOp where
  | neg
  | not
  deriving DecidableEq, Repr

namespace BinaryOp

/-- How close the operator binds. -/
def precedence : BinaryOp → Nat
  | .or => 1
  | .and => 2
  | .eq | .ne | .lt | .le | .gt | .ge => 3
  | .concat => 4
  | .add | .sub => 5
  | .mul | .div | .mod => 6

/-- Whether `a op b op c` is `a op (b op c)`. -/
def groupsRight : BinaryOp → Bool
  | .concat => true
  | _ => false

/-- The right operand takes the operators that bind closer than this. -/
def rightBound (op : BinaryOp) : Nat :=
  if op.groupsRight then op.precedence - 1 else op.precedence

/-- The operator that a lexeme writes. -/
def ofLexeme? : Lexeme → Option BinaryOp
  | .word "or" => some .or
  | .word "and" => some .and
  | .symbol .equal => some .eq
  | .symbol .unequal => some .ne
  | .symbol .bangUnequal => some .ne
  | .symbol .less => some .lt
  | .symbol .atMost => some .le
  | .symbol .greater => some .gt
  | .symbol .atLeast => some .ge
  | .symbol .concat => some .concat
  | .symbol .plus => some .add
  | .symbol .minus => some .sub
  | .symbol .times => some .mul
  | .symbol .over => some .div
  | .symbol .modulo => some .mod
  | _ => none

end BinaryOp

/-- An operand of a unary operator takes the operators that bind closer than this: none. -/
def unaryBound : Nat := 6

/-- An expression. -/
inductive Expr where
  | literal (v : Value)
  | var (name : String)
  | call (function : String) (args : List Expr)
  | unary (op : UnaryOp) (operand : Expr)
  | binary (op : BinaryOp) (left right : Expr)
  deriving Inhabited

/-- Whether the expression is a call. -/
def Expr.isCall : Expr → Bool
  | .call .. => true
  | _ => false

mutual

/-- The height of the tree; a leaf has height 1. -/
def Expr.height : Expr → Nat
  | .literal _ => 1
  | .var _ => 1
  | .call _ args => Expr.heightAll args + 1
  | .unary _ e => e.height + 1
  | .binary _ l r => max l.height r.height + 1

/-- The greatest height in a list, 0 if it is empty. -/
def Expr.heightAll : List Expr → Nat
  | [] => 0
  | e :: es => max e.height (Expr.heightAll es)

end

end Transcript
