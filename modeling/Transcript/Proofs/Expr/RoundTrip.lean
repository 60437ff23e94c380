import Transcript.Proofs.Expr.Printing
import Transcript.Proofs.Expr.Reading

/-!
A printed expression is read back. The statement that carries the induction says where a chain stands once
it has read the lexemes of an expression: at the operators behind them, with the expression as the left
operand. So a left operand without parentheses is read by the same chain as the whole, and the chain
takes up the operator behind it. What follows an expression must leave its right edge alone: no opening
parenthesis, and no operator that the last operand would take. Every level of the tree costs at most two levels
of the reader, one for the operand and one for its parentheses.
-/

namespace Transcript

namespace Expr

/-- The operators behind an expression that its last operand does not take bind no closer than this. -/
def edge : Expr → Nat
  | .binary op _ _ => op.rightBound
  | _ => unaryBound

/-- Whether an operator at the top of the expression binds closer than `bound`. -/
def Binds (bound : Nat) : Expr → Prop
  | .binary op _ _ => bound < op.precedence
  | _ => True

theorem le_edge_of_binds {e : Expr} {bound : Nat} (h : e.Binds bound) (hbound : bound ≤ unaryBound) :
    bound ≤ e.edge := by
  cases e with
  | binary op l r =>
      have hrow := op.precedence_eq_row
      simp only [Binds] at h
      rw [edge, op.rightBound_eq]
      split <;> omega
  | _ => exact hbound

theorem binds_zero (e : Expr) : e.Binds 0 := by
  cases e with
  | binary op l r =>
      rw [Binds, op.precedence_eq_row]
      omega
  | _ => exact (trivial : True)

/-! ### Operands without parentheses -/

theorem binds_of_needsParensLeftOf {op : BinaryOp} {l : Expr} (h : l.needsParensLeftOf op = false) {bound : Nat}
    (hbound : bound < op.precedence) : l.Binds bound := by
  cases l with
  | binary inner _ _ =>
      have hop := op.precedence_eq_row
      have hinner := inner.precedence_eq_row
      simp only [needsParensLeftOf, Bool.or_eq_false_iff, decide_eq_false_iff_not] at h
      rw [Binds]
      omega
  | _ => exact (trivial : True)

/-- A left operand does not take the operator behind it. -/
theorem precedence_le_edge {op : BinaryOp} {l : Expr} (h : l.needsParensLeftOf op = false) :
    op.precedence ≤ l.edge := by
  cases l with
  | binary inner _ _ =>
      have hop := op.precedence_eq_row
      simp only [needsParensLeftOf, Bool.or_eq_false_iff, decide_eq_false_iff_not, Bool.and_eq_false_iff,
        beq_eq_false_iff_ne] at h
      obtain ⟨hrow, hside⟩ := h
      rw [edge, inner.rightBound_eq]
      by_cases hconcat : inner = .concat
      · -- The row of concatenation has no other operator, so `op` is of a looser row.
        subst hconcat
        have hne : BinaryOp.concat.row ≠ op.row := by
          intro heq
          rcases hside with hside | hside
          · exact hside heq
          · exact hside (BinaryOp.eq_concat_of_row_eq heq.symm)
        rw [if_pos rfl]
        omega
      · rw [if_neg hconcat]
        omega
  | _ => exact op.precedence_le_unaryBound

theorem binds_of_needsParensRightOf {op : BinaryOp} {r : Expr} (h : r.needsParensRightOf op = false) :
    r.Binds op.rightBound := by
  cases r with
  | binary inner _ _ =>
      have hinner := inner.precedence_eq_row
      simp only [needsParensRightOf, Bool.or_eq_false_iff, decide_eq_false_iff_not, Bool.and_eq_false_iff,
        beq_eq_false_iff_ne, bne_eq_false_iff_eq] at h
      obtain ⟨hrow, hside⟩ := h
      rw [Binds, hinner, op.rightBound_eq]
      by_cases hconcat : op = .concat
      · rw [if_pos hconcat]
        omega
      · have hne : inner.row ≠ op.row := hside.resolve_right hconcat
        rw [if_neg hconcat]
        omega
  | _ => exact (trivial : True)

theorem binds_of_needsParensBehindUnary {e : Expr} (h : e.needsParensBehindUnary = false) :
    e.Binds unaryBound := by
  cases e with
  | binary => cases h
  | _ => exact (trivial : True)

end Expr

/-- Lexemes behind an expression whose last operand takes the operators that bind closer than `bound`. -/
def Follows (bound : Nat) (tail : List Lexeme) : Prop :=
  tail.head? ≠ some (.symbol .openParen) ∧
    ∀ op, tail.head?.bind BinaryOp.ofLexeme? = some op → op.precedence ≤ bound

namespace Follows

theorem nil (bound : Nat) : Follows bound [] := by
  simp [Follows]

theorem closeParen (bound : Nat) (tail : List Lexeme) :
    Follows bound (.symbol .closeParen :: tail) := by
  simp [Follows, BinaryOp.ofLexeme?]

theorem comma (bound : Nat) (tail : List Lexeme) : Follows bound (.symbol .comma :: tail) := by
  simp [Follows, BinaryOp.ofLexeme?]

theorem operator {bound : Nat} {op : BinaryOp} (h : op.precedence ≤ bound) (tail : List Lexeme) :
    Follows bound (op.lexeme :: tail) := by
  refine ⟨?_, ?_⟩
  · rw [List.head?_cons, Ne, Option.some.injEq]
    exact op.lexeme_ne_openParen
  · intro inner hinner
    rw [List.head?_cons, Option.bind_some, op.ofLexeme?_lexeme, Option.some.injEq] at hinner
    rwa [← hinner]

theorem mono {bound bound' : Nat} {tail : List Lexeme} (h : Follows bound tail)
    (hle : bound ≤ bound') : Follows bound' tail :=
  ⟨h.1, fun op hop => Nat.le_trans (h.2 op hop) hle⟩

end Follows

namespace Reader

/-- Whether a chain with operands of `levels` levels that reads the lexemes of `e` goes on with `e` as its
left operand. -/
def ChainReads (levels : Nat) (e : Expr) : Prop :=
  ∀ (bound : Nat) (c : Cursor) (tail : List Lexeme), e.Binds bound →
    c.lexemes = e.print ++ tail → Follows e.edge tail →
    ∃ rounds, tail.length ≤ rounds ∧
      chain levels bound c =
        operators (binary levels) bound rounds ⟨e, e.height⟩ (c.skip e.print.length)

/-- An expression that a unary reader reads is read by a chain. -/
theorem chainReads_of_unary {levels : Nat} {e : Expr}
    (h : ∀ (c : Cursor) (tail : List Lexeme), c.lexemes = e.print ++ tail → Follows e.edge tail →
      unary (binary levels) c = .ok ⟨e, e.height⟩ (c.skip e.print.length)) :
    ChainReads levels e := by
  intro bound c tail _ hc hfollows
  refine ⟨tail.length, Nat.le_refl _, ?_⟩
  rw [chain_of_unary (h c tail hc hfollows), Cursor.lexemes_skip_of_append hc]

/-- A reader one level up reads the expression whole. -/
theorem ChainReads.binary_eq {levels bound : Nat} {e : Expr} (h : ChainReads levels e)
    (hbinds : e.Binds bound) (hbound : bound ≤ unaryBound) {c : Cursor} {tail : List Lexeme}
    (hc : c.lexemes = e.print ++ tail) (hfollows : Follows bound tail) :
    binary (levels + 1) bound c = .ok ⟨e, e.height⟩ (c.skip e.print.length) := by
  rw [binary_succ]
  apply nested_of_ok
  obtain ⟨rounds, -, heq⟩ := h bound { c with depth := c.depth + 1 } tail hbinds hc
    (hfollows.mono (Expr.le_edge_of_binds hbinds hbound))
  rw [heq]
  apply operators_of_stop
  rw [Cursor.lexemes_skip_of_append (c := { c with depth := c.depth + 1 }) hc]
  exact hfollows.2

/-! ### Operands between parentheses -/

theorem unary_eq_primary {operand : Nat → Reader Measured} {c : Cursor}
    (hminus : c.lexemes.head? ≠ some (.symbol .minus))
    (hnot : c.lexemes.head? ≠ some (.word "not")) :
    unary operand c = primary (operand 0) c := by
  rw [unary, bind_of_ok (eatSymbol_of_head_ne hminus)]
  simp only [Bool.false_eq_true, if_false]
  rw [bind_of_ok (eatWord_of_head_ne hnot)]
  rfl

/-- An expression between parentheses is an operand without operators. -/
theorem ChainReads.unary_parens {levels : Nat} {e : Expr} (h : ChainReads levels e) {c : Cursor}
    {tail : List Lexeme} (hc : c.lexemes = Expr.wrap true e.print ++ tail) :
    unary (binary (levels + 1)) c =
      .ok ⟨e, e.height⟩ (c.skip (Expr.wrap true e.print).length) := by
  have hopen : c.lexemes =
      .symbol .openParen :: (e.print ++ .symbol .closeParen :: tail) := by
    rw [hc]
    simp [Expr.wrap]
  have hinner : c.advance.lexemes = e.print ++ .symbol .closeParen :: tail :=
    Cursor.lexemes_advance_of_cons hopen
  have hread := h.binary_eq e.binds_zero (Nat.zero_le _) hinner (Follows.closeParen _ _)
  have hclose : (c.advance.skip e.print.length).lexemes.head? = some (.symbol .closeParen) := by
    rw [Cursor.lexemes_skip_of_append hinner, List.head?_cons]
  have hend : (c.advance.skip e.print.length).advance =
      c.skip (Expr.wrap true e.print).length := by
    rw [← Cursor.skip_one, ← Cursor.skip_one, Cursor.skip_skip, Cursor.skip_skip]
    simp [Expr.wrap, Nat.add_comm]
  rw [unary_eq_primary (by simp [hopen]) (by simp [hopen]), primary, get_bind, set_bind,
    Cursor.peek?_eq, hopen]
  simp only [List.head?_cons]
  rw [bind_of_ok hread, bind_of_ok (expectSymbol_of_head hclose), hend]
  rfl

/-- Whether every chain with levels enough for the height of `e` reads it. -/
def Readable (e : Expr) : Prop :=
  ∀ levels, e.height ≤ maxDepth → 2 * e.height ≤ levels + 2 → ChainReads levels e

theorem binary_of_unary {levels bound n : Nat} {c : Cursor} {m : Measured}
    (hread : unary (binary levels) { c with depth := c.depth + 1 } =
      .ok m ({ c with depth := c.depth + 1 }.skip n))
    (hfollows : Follows bound (c.skip n).lexemes) :
    binary (levels + 1) bound c = .ok m (c.skip n) := by
  rw [binary_succ]
  apply nested_of_ok
  rw [chain_of_unary hread]
  exact operators_of_stop hfollows.2

/-- An operand is read with its parentheses, or without them if its operator binds closer than the
bound. -/
theorem Readable.operand {e : Expr} (h : Readable e) (parens : Bool) {levels bound : Nat}
    (hheight : e.height ≤ maxDepth) (hlevels : 2 * e.height ≤ levels)
    (hbinds : parens = false → e.Binds bound) (hbound : bound ≤ unaryBound) {c : Cursor}
    {tail : List Lexeme} (hc : c.lexemes = Expr.wrap parens e.print ++ tail)
    (hfollows : Follows bound tail) :
    binary levels bound c = .ok ⟨e, e.height⟩ (c.skip (Expr.wrap parens e.print).length) := by
  have hpos := e.height_pos
  obtain ⟨levels, rfl⟩ : ∃ k, levels = k + 2 := ⟨levels - 2, by omega⟩
  cases parens with
  | false =>
      exact (h (levels + 1) hheight (by omega)).binary_eq (hbinds rfl) hbound hc hfollows
  | true =>
      have hread := (h levels hheight (by omega)).unary_parens
        (c := { c with depth := c.depth + 1 }) hc
      apply binary_of_unary hread
      rwa [Cursor.lexemes_skip_of_append hc]

/-! ### One case for each kind of expression -/

theorem readable_literal (v : Value) : Readable (.literal v) := by
  intro levels _ _
  apply chainReads_of_unary
  intro c tail hc _
  have hhead : c.lexemes.head? = some v.lexeme := by
    rw [hc, Expr.print, List.singleton_append, List.head?_cons]
  rw [Expr.print, List.length_singleton, Cursor.skip_one]
  cases v with
  | bool b =>
      cases b <;> rw [unary_eq_primary (by simp [hhead, Value.lexeme]) (by simp [hhead, Value.lexeme]),
        primary, get_bind, set_bind, Cursor.peek?_eq, hhead] <;> rfl
  | _ =>
      rw [unary_eq_primary (by simp [hhead, Value.lexeme]) (by simp [hhead, Value.lexeme]),
        primary, get_bind, set_bind, Cursor.peek?_eq, hhead]
      rfl

/-- A name that is no keyword starts a variable or a call. -/
theorem unary_of_name {operand : Nat → Reader Measured} {c : Cursor} {w : String}
    {tail : List Lexeme} (hw : isKeyword w = false) (hc : c.lexemes = .word w :: tail) :
    unary operand c =
      (do
        if ← eatSymbol .openParen then
          let (es, h) ← callArgs (operand 0)
          return ⟨.call w es, ← bounded (h + 1)⟩
        else leaf (.var w) : Reader Measured) c.advance := by
  have hne : w ≠ "not" ∧ w ≠ "nil" ∧ w ≠ "true" ∧ w ≠ "false" := by
    refine ⟨?_, ?_, ?_, ?_⟩ <;> rintro rfl <;> revert hw <;> decide
  rw [unary_eq_primary (by simp [hc]) (by simp [hc, hne.1]), primary, get_bind, set_bind,
    Cursor.peek?_eq, hc, List.head?_cons]
  simp only [afterWord, hne, hw, if_false, Bool.false_eq_true]

theorem readable_var {name : String} (hname : isKeyword name = false) : Readable (.var name) := by
  intro levels _ _
  apply chainReads_of_unary
  intro c tail hc hfollows
  have hnext : c.advance.lexemes.head? ≠ some (.symbol .openParen) := by
    rw [Cursor.lexemes_advance_of_cons hc]
    exact hfollows.1
  rw [unary_of_name hname hc, bind_of_ok (eatSymbol_of_head_ne hnext), Expr.print,
    List.length_singleton, Cursor.skip_one]
  rfl

theorem readable_unary {op : UnaryOp} {e : Expr} (he : Readable e) : Readable (.unary op e) := by
  intro levels hheight hlevels
  rw [Expr.height] at hheight hlevels
  apply chainReads_of_unary
  intro c tail hc hfollows
  have hrest : c.advance.lexemes = Expr.wrap e.needsParensBehindUnary e.print ++ tail :=
    Cursor.lexemes_advance_of_cons hc
  have hread := he.operand _ (by omega) (by omega : 2 * e.height ≤ levels)
    Expr.binds_of_needsParensBehindUnary (Nat.le_refl _) hrest hfollows
  have hskip : c.advance.skip (Expr.wrap e.needsParensBehindUnary e.print).length =
      c.skip (Expr.unary op e).print.length := by
    rw [← Cursor.skip_one, Cursor.skip_skip, Expr.print, List.length_cons, Nat.add_comm]
  rw [hskip] at hread
  cases op with
  | neg =>
      have hminus : c.lexemes.head? = some (.symbol .minus) := by rw [hc]; rfl
      rw [unary, bind_of_ok (eatSymbol_of_head hminus)]
      simp only [if_true]
      rw [bind_of_ok hread, bind_of_ok (bounded_of_le hheight _)]
      rfl
  | not =>
      have hminus : c.lexemes.head? ≠ some (.symbol .minus) := by rw [hc]; simp [Expr.print, UnaryOp.lexeme]
      have hnot : c.lexemes.head? = some (.word "not") := by rw [hc]; rfl
      rw [unary, bind_of_ok (eatSymbol_of_head_ne hminus)]
      simp only [Bool.false_eq_true, if_false]
      rw [bind_of_ok (eatWord_of_head hnot)]
      simp only [if_true]
      rw [bind_of_ok hread, bind_of_ok (bounded_of_le hheight _)]
      rfl

/-! ### Calls -/

theorem args_of_close {operand : Reader Measured} {c c' : Cursor} {m : Measured} (hread : operand c = .ok m c')
    (hclose : c'.lexemes.head? = some (.symbol .closeParen)) (rounds : Nat) :
    args operand (rounds + 1) c = .ok ([m.expr], m.height) c'.advance := by
  rw [args, bind_of_ok hread]
  simp only
  rw [bind_of_ok (eatSymbol_of_head hclose)]
  rfl

theorem args_of_comma {operand : Reader Measured} {c c' c'' : Cursor} {m : Measured}
    (hread : operand c = .ok m c') (hcomma : c'.lexemes.head? = some (.symbol .comma)) {rounds height : Nat}
    {es : List Expr} (hrest : args operand rounds c'.advance = .ok (es, height) c'') :
    args operand (rounds + 1) c = .ok (m.expr :: es, max m.height height) c'' := by
  have hclose : c'.lexemes.head? ≠ some (.symbol .closeParen) := by
    rw [hcomma]
    simp
  rw [args, bind_of_ok hread]
  simp only
  rw [bind_of_ok (eatSymbol_of_head_ne hclose)]
  simp only [Bool.false_eq_true, if_false]
  rw [bind_of_ok (expectSymbol_of_head hcomma), bind_of_ok hrest]
  rfl

/-- The arguments behind an opening parenthesis are read up to the closing one. -/
theorem args_eq {levels : Nat} {es : List Expr} (hreadable : ∀ e ∈ es, Readable e)
    (hheight : Expr.heightAll es ≤ maxDepth) (hlevels : 2 * Expr.heightAll es ≤ levels)
    (hne : es ≠ []) {rounds : Nat} {c : Cursor} {tail : List Lexeme}
    (hc : c.lexemes = Expr.printArgs es ++ .symbol .closeParen :: tail)
    (hrounds : c.lexemes.length < rounds) :
    args (binary levels 0) rounds c =
      .ok (es, Expr.heightAll es) (c.skip ((Expr.printArgs es).length + 1)) := by
  induction es generalizing rounds c with
  | nil => exact absurd rfl hne
  | cons e es ih =>
      obtain ⟨rounds, rfl⟩ : ∃ k, rounds = k + 1 := ⟨rounds - 1, by omega⟩
      rw [Expr.heightAll] at hheight hlevels
      have he := hreadable e List.mem_cons_self
      cases es with
      | nil =>
          rw [Expr.printArgs] at hc ⊢
          have hread := he.operand false (by omega) (by omega : 2 * e.height ≤ levels)
            (fun _ => e.binds_zero) (Nat.zero_le _) hc (Follows.closeParen 0 tail)
          have hclose : (c.skip e.print.length).lexemes.head? = some (.symbol .closeParen) := by
            rw [Cursor.lexemes_skip_of_append hc]
            rfl
          rw [args_of_close hread hclose]
          simp only [Expr.wrap, Bool.false_eq_true, if_false, Expr.heightAll, Nat.max_zero]
          rw [← Cursor.skip_one, Cursor.skip_skip]
      | cons e' es =>
          have hc' : c.lexemes = e.print ++ .symbol .comma ::
              (Expr.printArgs (e' :: es) ++ .symbol .closeParen :: tail) := by
            rw [hc, Expr.printArgs_cons_cons, List.append_assoc, List.cons_append]
          have hread := he.operand false (by omega) (by omega : 2 * e.height ≤ levels)
            (fun _ => e.binds_zero) (Nat.zero_le _) hc' (Follows.comma 0 _)
          have hat := Cursor.lexemes_skip_of_append hc'
          have hcomma : (c.skip e.print.length).lexemes.head? = some (.symbol .comma) := by
            rw [hat]
            rfl
          have hrest := Cursor.lexemes_advance_of_cons hat
          have hfewer : (c.skip e.print.length).advance.lexemes.length < rounds := by
            rw [hc'] at hrounds
            rw [hrest]
            simp only [List.length_append, List.length_cons] at hrounds ⊢
            omega
          have hargs := ih (fun a ha => hreadable a (List.mem_cons_of_mem e ha)) (by omega)
            (by omega) (List.cons_ne_nil e' es) hrest hfewer
          have hlength : e.print.length + (1 + ((Expr.printArgs (e' :: es)).length + 1)) =
              (Expr.printArgs (e :: e' :: es)).length + 1 := by
            rw [Expr.printArgs_cons_cons, List.length_append, List.length_cons]
            omega
          rw [args_of_comma hread hcomma hargs, ← hlength, ← Cursor.skip_one, Cursor.skip_skip, Cursor.skip_skip]
          rfl

/-- What stands between the parentheses of a call is read, be it nothing. -/
theorem callArgs_eq {levels : Nat} {es : List Expr} (hreadable : ∀ e ∈ es, Readable e)
    (hheight : Expr.heightAll es ≤ maxDepth) (hlevels : 2 * Expr.heightAll es ≤ levels) {c : Cursor}
    {tail : List Lexeme} (hc : c.lexemes = Expr.printArgs es ++ .symbol .closeParen :: tail) :
    callArgs (binary levels 0) c = .ok (es, Expr.heightAll es) (c.skip ((Expr.printArgs es).length + 1)) := by
  cases es with
  | nil =>
      have hclose : c.lexemes.head? = some (.symbol .closeParen) := by
        rw [hc]
        rfl
      rw [callArgs, bind_of_ok (eatSymbol_of_head hclose), ← Cursor.skip_one]
      rfl
  | cons e es =>
      have hclose : c.lexemes.head? ≠ some (.symbol .closeParen) := by
        obtain ⟨x, xs, hx, hne⟩ := e.exists_print_eq_cons
        rw [hc]
        cases es with
        | nil => simpa [Expr.printArgs, hx] using hne
        | cons e' es => simpa [Expr.printArgs_cons_cons, hx] using hne
      rw [callArgs, bind_of_ok (eatSymbol_of_head_ne hclose)]
      simp only [Bool.false_eq_true, if_false]
      rw [get_bind, Cursor.length_rest]
      exact args_eq hreadable hheight hlevels (List.cons_ne_nil e es) hc (Nat.lt_succ_self _)

theorem readable_call {function : String} {es : List Expr} (hname : isKeyword function = false)
    (hreadable : ∀ e ∈ es, Readable e) : Readable (.call function es) := by
  intro levels hheight hlevels
  rw [Expr.height] at hheight hlevels
  apply chainReads_of_unary
  intro c tail hc _
  rw [Expr.print, List.cons_append] at hc
  have hopen := Cursor.lexemes_advance_of_cons hc
  rw [List.cons_append, List.append_assoc] at hopen
  have hread := callArgs_eq hreadable (by omega) (by omega : 2 * Expr.heightAll es ≤ levels)
    (Cursor.lexemes_advance_of_cons hopen)
  have hskip : c.advance.advance.skip ((Expr.printArgs es).length + 1) =
      c.skip (Expr.call function es).print.length := by
    rw [← Cursor.skip_one, ← Cursor.skip_one, Cursor.skip_skip, Cursor.skip_skip, Expr.print]
    simp only [List.length_cons, List.length_append, List.length_nil]
    congr 1
    omega
  rw [hskip] at hread
  rw [unary_of_name hname hc,
    bind_of_ok (eatSymbol_of_head (s := .openParen) (by rw [hopen]; rfl))]
  simp only [if_true]
  rw [bind_of_ok hread, bind_of_ok (bounded_of_le hheight _)]
  rfl

/-! ### Binary operators -/

/-- The left operand of an operator, with or without parentheses, is read by the chain of the whole. -/
theorem chain_left {levels bound : Nat} {op : BinaryOp} {l : Expr} (h : Readable l)
    (hheight : l.height ≤ maxDepth) (hlevels : 2 * l.height ≤ levels) (hbound : bound < op.precedence)
    {c : Cursor} {tail : List Lexeme}
    (hc : c.lexemes = Expr.wrap (l.needsParensLeftOf op) l.print ++ op.lexeme :: tail) :
    ∃ rounds, tail.length < rounds ∧
      chain levels bound c = operators (binary levels) bound rounds ⟨l, l.height⟩
        (c.skip (Expr.wrap (l.needsParensLeftOf op) l.print).length) := by
  cases hparens : l.needsParensLeftOf op with
  | true =>
      obtain ⟨levels, rfl⟩ : ∃ k, levels = k + 1 := ⟨levels - 1, by have := l.height_pos; omega⟩
      rw [hparens] at hc
      have hread := (h levels hheight (by omega)).unary_parens hc
      refine ⟨tail.length + 1, Nat.lt_succ_self _, ?_⟩
      rw [chain_of_unary hread, Cursor.lexemes_skip_of_append hc, List.length_cons]
  | false =>
      rw [hparens] at hc
      obtain ⟨rounds, hrounds, heq⟩ := h levels hheight (by omega) bound c _
        (Expr.binds_of_needsParensLeftOf hparens hbound) hc
        (Follows.operator (Expr.precedence_le_edge hparens) tail)
      exact ⟨rounds, hrounds, heq⟩

theorem readable_binary {op : BinaryOp} {l r : Expr} (hl : Readable l) (hr : Readable r) :
    Readable (.binary op l r) := by
  intro levels hheight hlevels bound c tail hbinds hc hfollows
  rw [Expr.height] at hheight hlevels
  rw [Expr.print, List.append_assoc, List.cons_append] at hc
  obtain ⟨rounds, hrounds, hleft⟩ := chain_left hl (by omega) (by omega : 2 * l.height ≤ levels)
    hbinds hc
  -- One of the rounds that are left takes the operator.
  obtain ⟨rounds, rfl⟩ : ∃ k, rounds = k + 1 := ⟨rounds - 1, by omega⟩
  have hat := Cursor.lexemes_skip_of_append hc
  have hrest := Cursor.lexemes_advance_of_cons hat
  have hbound : op.rightBound ≤ unaryBound := by
    cases op <;> decide
  have hright := hr.operand _ (by omega) (by omega : 2 * r.height ≤ levels)
    Expr.binds_of_needsParensRightOf hbound hrest hfollows
  have hop : (c.skip (Expr.wrap (l.needsParensLeftOf op) l.print).length).lexemes.head?.bind
      BinaryOp.ofLexeme? = some op := by
    rw [hat]
    exact op.ofLexeme?_lexeme
  refine ⟨rounds, ?_, ?_⟩
  · rw [List.length_append] at hrounds
    omega
  · rw [hleft, operators_of_operator hop hbinds hright hheight]
    congr 1
    rw [← Cursor.skip_one, Cursor.skip_skip, Cursor.skip_skip, Expr.print]
    simp only [List.length_append, List.length_cons]
    congr 1
    omega

/-! ### Every expression -/

/-- Every expression with plain names is readable. -/
theorem readable : ∀ e : Expr, e.HasPlainNames → Readable e
  | .literal v, _ => readable_literal v
  | .var _, h => readable_var h
  | .call _ es, h => readable_call h.1 fun e he => readable e (h.2.of_mem he)
  | .unary _ e, h => readable_unary (readable e h)
  | .binary _ l r, h => readable_binary (readable l h.1) (readable r h.2)

/-- An expression of height at most 100 that is printed is read back as it was, and no token is left. -/
theorem expr_of_print (e : Expr) (hheight : e.height ≤ 100) (hnames : e.HasPlainNames)
    (tokens : List Token) (htokens : tokens.map Token.lexeme = e.print) :
    Reader.expr (Cursor.ofTokens tokens) = .ok e { Cursor.ofTokens tokens with rest := [] } := by
  have hc : (Cursor.ofTokens tokens).lexemes = e.print ++ [] := by
    rw [List.append_nil]
    exact htokens
  have hchain := readable e hnames 199 (Nat.le_trans hheight (by decide)) (by omega)
  have hread := hchain.binary_eq e.binds_zero (Nat.zero_le _) hc (Follows.nil 0)
  have hskip : (Cursor.ofTokens tokens).skip e.print.length =
      { Cursor.ofTokens tokens with rest := [] } := by
    rw [← htokens, List.length_map]
    simp [Cursor.skip, Cursor.ofTokens]
  rw [hskip] at hread
  exact bind_of_ok hread

theorem expr_of_print_mixed :
    let e : Expr := .binary .concat (.unary .neg (.var "a"))
      (.binary .mul (.binary .add (.var "b") (.var "c")) (.call "f" [.var "x", .unary .not (.var "y")]))
    let tokens : List Token := [⟨.symbol .minus, 1⟩, ⟨.word "a", 1⟩, ⟨.symbol .concat, 1⟩,
      ⟨.symbol .openParen, 1⟩, ⟨.word "b", 1⟩, ⟨.symbol .plus, 1⟩, ⟨.word "c", 1⟩,
      ⟨.symbol .closeParen, 1⟩, ⟨.symbol .times, 1⟩, ⟨.word "f", 1⟩, ⟨.symbol .openParen, 1⟩,
      ⟨.word "x", 1⟩, ⟨.symbol .comma, 1⟩, ⟨.word "not", 1⟩, ⟨.word "y", 1⟩, ⟨.symbol .closeParen, 2⟩]
    e.height ≤ 100 ∧ e.HasPlainNames ∧ tokens.map Token.lexeme = e.print ∧
      Reader.expr (Cursor.ofTokens tokens) = .ok e { Cursor.ofTokens tokens with rest := [] } := by
  have hheight : Expr.height (.binary .concat (.unary .neg (.var "a"))
      (.binary .mul (.binary .add (.var "b") (.var "c"))
        (.call "f" [.var "x", .unary .not (.var "y")]))) ≤ 100 := by decide
  have hnames : Expr.HasPlainNames (.binary .concat (.unary .neg (.var "a"))
      (.binary .mul (.binary .add (.var "b") (.var "c"))
        (.call "f" [.var "x", .unary .not (.var "y")]))) := by
    simp only [Expr.HasPlainNames, Expr.AllHavePlainNames]
    decide
  exact ⟨hheight, hnames, rfl, expr_of_print _ hheight hnames _ rfl⟩

end Reader

end Transcript
