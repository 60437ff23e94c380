import Transcript.Expr

/-!
Expressions written back as lexemes, with parentheses only where the table of precedence asks for them. The
table lists the binary operators from the loosest row to the closest. An operand of a binary operator
stands between parentheses if its own operator is of a looser row, or of the same row and on the side
the row does not group to; a binary operand of a unary operator always does.
-/

namespace Transcript

/-- The rows of binary operators, the loosest first. -/
def BinaryOp.rows : List (List BinaryOp) :=
  [[.or], [.and], [.eq, .ne, .lt, .le, .gt, .ge], [.concat], [.add, .sub], [.mul, .div, .mod]]

/-- The row of an operator, counted from 0. -/
def BinaryOp.row (op : BinaryOp) : Nat := BinaryOp.rows.findIdx (·.contains op)

/-- The lexeme of a binary operator. -/
def BinaryOp.lexeme : BinaryOp → Lexeme
  | .or => .word "or"
  | .and => .word "and"
  | .eq => .symbol .equal
  | .ne => .symbol .unequal
  | .lt => .symbol .less
  | .le => .symbol .atMost
  | .gt => .symbol .greater
  | .ge => .symbol .atLeast
  | .concat => .symbol .concat
  | .add => .symbol .plus
  | .sub => .symbol .minus
  | .mul => .symbol .times
  | .div => .symbol .over
  | .mod => .symbol .modulo

/-- The lexeme of a unary operator. -/
def UnaryOp.lexeme : UnaryOp → Lexeme
  | .neg => .symbol .minus
  | .not => .word "not"

/-- The lexeme of a literal. -/
def Value.lexeme : Value → Lexeme
  | .nil => .word "nil"
  | .bool true => .word "true"
  | .bool false => .word "false"
  | .number x => .number x
  | .text s => .text s

namespace Expr

/-- Whether the expression needs parentheses as the left operand of an operator. -/
def needsParensLeftOf (op : BinaryOp) : Expr → Bool
  | .binary inner _ _ => inner.row < op.row || inner.row == op.row && op == .concat
  | _ => false

/-- Whether the expression needs parentheses as the right operand of an operator. -/
def needsParensRightOf (op : BinaryOp) : Expr → Bool
  | .binary inner _ _ => inner.row < op.row || inner.row == op.row && op != .concat
  | _ => false

/-- Whether the expression needs parentheses behind a unary operator. -/
def needsParensBehindUnary : Expr → Bool
  | .binary .. => true
  | _ => false

/-- Lexemes, between parentheses if they are needed. -/
def wrap (parens : Bool) (lexemes : List Lexeme) : List Lexeme :=
  if parens then .symbol .openParen :: (lexemes ++ [.symbol .closeParen]) else lexemes

mutual

/-- The lexemes of an expression. -/
def print : Expr → List Lexeme
  | .literal v => [v.lexeme]
  | .var name => [.word name]
  | .call function args =>
    .word function :: .symbol .openParen :: (printArgs args ++ [.symbol .closeParen])
  | .unary op e => op.lexeme :: wrap e.needsParensBehindUnary e.print
  | .binary op l r =>
    wrap (l.needsParensLeftOf op) l.print
      ++ op.lexeme :: wrap (r.needsParensRightOf op) r.print

/-- The lexemes of the arguments of a call, with commas between them. -/
def printArgs : List Expr → List Lexeme
  | [] => []
  | [e] => e.print
  | e :: es => e.print ++ .symbol .comma :: printArgs es

end

theorem printArgs_cons_cons (e e' : Expr) (es : List Expr) :
    printArgs (e :: e' :: es) = e.print ++ .symbol .comma :: printArgs (e' :: es) := by
  rw [printArgs]
  simp

/-- No expression starts with a closing parenthesis. -/
theorem exists_print_eq_cons : ∀ e : Expr, ∃ x xs, e.print = x :: xs ∧ x ≠ .symbol .closeParen
  | .literal v => by
      refine ⟨v.lexeme, [], rfl, ?_⟩
      cases v with
      | bool b => cases b <;> simp [Value.lexeme]
      | _ => simp [Value.lexeme]
  | .var name => ⟨.word name, [], rfl, by simp⟩
  | .call function args => ⟨.word function, _, rfl, by simp⟩
  | .unary op e => by
      refine ⟨op.lexeme, _, rfl, ?_⟩
      cases op <;> simp [UnaryOp.lexeme]
  | .binary op l r => by
      obtain ⟨x, xs, hl, hx⟩ := exists_print_eq_cons l
      rw [print, hl]
      cases l.needsParensLeftOf op with
      | false => exact ⟨x, _, rfl, hx⟩
      | true => exact ⟨.symbol .openParen, _, rfl, by simp⟩

mutual

/-- Whether no variable and no function has a keyword as its name. -/
def HasPlainNames : Expr → Prop
  | .literal _ => True
  | .var name => isKeyword name = false
  | .call function args => isKeyword function = false ∧ AllHavePlainNames args
  | .unary _ e => e.HasPlainNames
  | .binary _ l r => l.HasPlainNames ∧ r.HasPlainNames

/-- Whether all expressions of a list have plain names. -/
def AllHavePlainNames : List Expr → Prop
  | [] => True
  | e :: es => e.HasPlainNames ∧ AllHavePlainNames es

end

theorem AllHavePlainNames.of_mem {es : List Expr} (h : AllHavePlainNames es) {e : Expr}
    (he : e ∈ es) : e.HasPlainNames := by
  induction es with
  | nil => simp at he
  | cons e' es ih =>
      rcases List.mem_cons.1 he with rfl | he
      · exact h.1
      · exact ih h.2 he

/-! ### Heights -/

theorem height_pos (e : Expr) : 0 < e.height := by
  cases e <;> simp [height]

end Expr

/-! ### The table and the reader

The reader numbers the rows from 1 and tells an operator by its lexeme. -/

namespace BinaryOp

theorem precedence_eq_row (op : BinaryOp) : op.precedence = op.row + 1 := by
  cases op <;> decide

/-- Concatenation is alone in its row. -/
theorem eq_concat_of_row_eq {op : BinaryOp} (h : op.row = concat.row) : op = .concat := by
  revert h
  cases op <;> decide

theorem ofLexeme?_lexeme (op : BinaryOp) : ofLexeme? op.lexeme = some op := by
  cases op <;> rfl

theorem lexeme_ne_openParen (op : BinaryOp) : op.lexeme ≠ .symbol .openParen := by
  cases op <;> simp [lexeme]

theorem precedence_le_unaryBound (op : BinaryOp) : op.precedence ≤ unaryBound := by
  cases op <;> decide

/-- Only concatenation groups to the right; its right operand may be of its own row. -/
theorem rightBound_eq (op : BinaryOp) :
    op.rightBound = if op = .concat then op.row else op.row + 1 := by
  cases op <;> decide

end BinaryOp

end Transcript
