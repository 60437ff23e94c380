import Transcript.Expr.Parser

/-!
What the readers of expressions do, step by step. A cursor is seen through the lexemes that are left, and
a reader that succeeds is known by how many of them it skips. A chain is an operand with the operators
behind it; a reader of `levels` levels reads a chain one level below.
-/

namespace Transcript

namespace Cursor

/-- The lexemes that are left. -/
def lexemes (c : Cursor) : List Lexeme := c.rest.map Token.lexeme

/-- The cursor behind the next `n` tokens. -/
def skip (c : Cursor) (n : Nat) : Cursor := { c with rest := c.rest.drop n }

theorem skip_one (c : Cursor) : c.skip 1 = c.advance := by
  simp [skip, advance]

theorem skip_skip (c : Cursor) (m n : Nat) : (c.skip m).skip n = c.skip (m + n) := by
  simp [skip, List.drop_drop]

theorem lexemes_skip (c : Cursor) (n : Nat) : (c.skip n).lexemes = c.lexemes.drop n := by
  simp [lexemes, skip]

theorem lexemes_skip_of_append {c : Cursor} {front tail : List Lexeme}
    (h : c.lexemes = front ++ tail) : (c.skip front.length).lexemes = tail := by
  rw [lexemes_skip, h, List.drop_left]

theorem lexemes_advance_of_cons {c : Cursor} {x : Lexeme} {tail : List Lexeme}
    (h : c.lexemes = x :: tail) : c.advance.lexemes = tail := by
  have happend : c.lexemes = [x] ++ tail := h
  rw [← skip_one]
  exact lexemes_skip_of_append happend

theorem length_rest (c : Cursor) : c.rest.length = c.lexemes.length := by
  simp [lexemes]

theorem peek?_eq (c : Cursor) : c.peek? = c.lexemes.head? := by
  simp [peek?, lexemes]

theorem atSymbol_eq (c : Cursor) (s : Symbol) :
    c.atSymbol s = true ↔ c.lexemes.head? = some (.symbol s) := by
  rw [atSymbol, peek?_eq]
  cases c.lexemes.head? with
  | none => simp
  | some x =>
      cases x with
      | symbol t =>
          rw [Option.some.injEq, Lexeme.symbol.injEq]
          exact beq_iff_eq.trans eq_comm
      | _ => simp

theorem atWord_eq (c : Cursor) (w : String) :
    c.atWord w = true ↔ c.lexemes.head? = some (.word w) := by
  rw [atWord, peek?_eq]
  cases c.lexemes.head? with
  | none => simp
  | some x =>
      cases x with
      | word v =>
          rw [Option.some.injEq, Lexeme.word.injEq]
          exact beq_iff_eq.trans eq_comm
      | _ => simp

end Cursor

namespace Reader

variable {α β : Type}

theorem bind_of_ok {p : Reader α} {f : α → Reader β} {c c' : Cursor} {a : α}
    (h : p c = .ok a c') : (p >>= f) c = f a c' := by
  simp only [bind, EStateM.bind, h]

theorem get_bind (f : Cursor → Reader α) (c : Cursor) :
    ((get : Reader Cursor) >>= f) c = f c c := rfl

theorem set_bind (c' : Cursor) (f : PUnit → Reader α) (c : Cursor) :
    ((set c' : Reader PUnit) >>= f) c = f ⟨⟩ c' := rfl

theorem eatSymbol_of_head {c : Cursor} {s : Symbol} (h : c.lexemes.head? = some (.symbol s)) :
    eatSymbol s c = .ok true c.advance := by
  rw [eatSymbol, get_bind, if_pos ((c.atSymbol_eq s).2 h)]
  rfl

theorem eatSymbol_of_head_ne {c : Cursor} {s : Symbol}
    (h : c.lexemes.head? ≠ some (.symbol s)) : eatSymbol s c = .ok false c := by
  rw [eatSymbol, get_bind, if_neg (mt (c.atSymbol_eq s).1 h)]
  rfl

theorem eatWord_of_head_ne {c : Cursor} {w : String}
    (h : c.lexemes.head? ≠ some (.word w)) : eatWord w c = .ok false c := by
  rw [eatWord, get_bind, if_neg (mt (c.atWord_eq w).1 h)]
  rfl

theorem eatWord_of_head {c : Cursor} {w : String} (h : c.lexemes.head? = some (.word w)) :
    eatWord w c = .ok true c.advance := by
  rw [eatWord, get_bind, if_pos ((c.atWord_eq w).2 h)]
  rfl

theorem expectSymbol_of_head {c : Cursor} {s : Symbol}
    (h : c.lexemes.head? = some (.symbol s)) : expectSymbol s c = .ok ⟨⟩ c.advance := by
  rw [expectSymbol, bind_of_ok (eatSymbol_of_head h)]
  rfl

theorem bounded_of_le {height : Nat} (h : height ≤ maxDepth) (c : Cursor) :
    bounded height c = .ok height c := by
  rw [bounded, if_neg (by omega)]
  rfl

/-! ### Chains -/

/-- An operand and the operators behind it that bind closer than `bound`. -/
def chain (levels bound : Nat) : Reader Measured := do
  let lhs ← unary (binary levels)
  operators (binary levels) bound (← get).rest.length lhs

theorem binary_succ (levels bound : Nat) :
    binary (levels + 1) bound = nested (chain levels bound) := rfl

/-- What is read one level below ends at the depth it started from. -/
theorem nested_of_ok {p : Reader α} {c : Cursor} {a : α} {n : Nat}
    (h : p { c with depth := c.depth + 1 } = .ok a ({ c with depth := c.depth + 1 }.skip n)) :
    nested p c = .ok a (c.skip n) := by
  simp only [nested, h, Cursor.skip, Nat.add_sub_cancel]

theorem chain_of_unary {levels bound : Nat} {c c' : Cursor} {m : Measured}
    (h : unary (binary levels) c = .ok m c') :
    chain levels bound c = operators (binary levels) bound c'.lexemes.length m c' := by
  rw [chain, bind_of_ok h, get_bind, Cursor.length_rest]

/-- The operators end before a lexeme that is no operator or does not bind closer than the bound. -/
theorem operators_of_stop {operand : Nat → Reader Measured} {bound rounds : Nat} {lhs : Measured}
    {c : Cursor} (h : ∀ op, c.lexemes.head?.bind BinaryOp.ofLexeme? = some op →
      op.precedence ≤ bound) :
    operators operand bound rounds lhs c = .ok lhs c := by
  cases rounds with
  | zero => rfl
  | succ rounds =>
      rw [operators, get_bind, Cursor.peek?_eq]
      cases hop : c.lexemes.head?.bind BinaryOp.ofLexeme? with
      | none => rfl
      | some op =>
          simp only [if_pos (h op hop)]
          rfl

/-- One round takes an operator and its right operand. -/
theorem operators_of_operator {operand : Nat → Reader Measured} {bound rounds : Nat}
    {lhs rhs : Measured} {c c' : Cursor} {op : BinaryOp}
    (hop : c.lexemes.head?.bind BinaryOp.ofLexeme? = some op) (hbound : bound < op.precedence)
    (hrhs : operand op.rightBound c.advance = .ok rhs c')
    (hheight : max lhs.height rhs.height + 1 ≤ maxDepth) :
    operators operand bound (rounds + 1) lhs c =
      operators operand bound rounds
        ⟨.binary op lhs.expr rhs.expr, max lhs.height rhs.height + 1⟩ c' := by
  rw [operators, get_bind, Cursor.peek?_eq, hop]
  simp only [if_neg (Nat.not_le.2 hbound)]
  rw [set_bind, bind_of_ok hrhs, bind_of_ok (bounded_of_le hheight c')]

end Reader

end Transcript
