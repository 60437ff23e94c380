import Transcript.Proofs.Expr.Grouping
import Transcript.Proofs.Expr.Reading

/-!
What the readers of expressions take. However a reader ends, it stands behind the tokens it took, on the level of
nesting it started from. A reader that succeeds is known by what it makes of the lexemes it took: those of an
expression spell it, and its tree is as high as measured and no higher than allowed.
-/
namespace Transcript

/-- The cursor `c'` stands behind the tokens `taken` that follow `c`, on the same level of nesting. -/
structure Cursor.Moves (c : Cursor) (taken : List Token) (c' : Cursor) : Prop where
  rest : c.rest = taken ++ c'.rest
  depth : c'.depth = c.depth
  lastLine : c'.lastLine = c.lastLine

namespace Cursor

theorem Moves.refl (c : Cursor) : c.Moves [] c := ⟨rfl, rfl, rfl⟩

theorem Moves.trans {c c' c'' : Cursor} {taken taken' : List Token} (h : c.Moves taken c')
    (h' : c'.Moves taken' c'') : c.Moves (taken ++ taken') c'' where
  rest := by rw [h.rest, h'.rest, List.append_assoc]
  depth := h'.depth.trans h.depth
  lastLine := h'.lastLine.trans h.lastLine

/-- Advancing takes the next token. -/
theorem moves_advance {c : Cursor} {x : Lexeme} (h : c.peek? = some x) :
    ∃ token : Token, token.lexeme = x ∧ c.Moves [token] c.advance := by
  rw [peek?] at h
  obtain ⟨token, hhead, rfl⟩ := Option.map_eq_some_iff.1 h
  obtain ⟨rest, hrest⟩ := List.head?_eq_some_iff.1 hhead
  refine ⟨token, rfl, ?_, rfl, rfl⟩
  rw [hrest, advance, hrest]
  rfl

/-- At the end nothing is left to take. -/
theorem advance_of_end {c : Cursor} (h : c.peek? = none) : c.advance = c := by
  have hrest : c.rest = [] := by simpa [peek?] using h
  rw [advance, hrest, List.tail_nil, ← hrest]

end Cursor

namespace Reader

variable {α β : Type}

/-- At `c` the reader `p` only goes forward and ends on the level it started from; what it gives and the lexemes
it took for it satisfy `P`. -/
def Takes (p : Reader α) (c : Cursor) (P : List Lexeme → α → Prop) : Prop :=
  match p c with
  | .ok a c' => ∃ taken, c.Moves taken c' ∧ P (taken.map Token.lexeme) a
  | .error _ c' => ∃ taken, c.Moves taken c'

variable {p : Reader α} {c : Cursor}

theorem Takes.of_ok {P : List Lexeme → α → Prop} (h : Takes p c P) {a : α} {c' : Cursor} (hp : p c = .ok a c') :
    ∃ taken, c.Moves taken c' ∧ P (taken.map Token.lexeme) a := by
  rw [Takes, hp] at h
  exact h

theorem Takes.of_error {P : List Lexeme → α → Prop} (h : Takes p c P) {e : Fault} {c' : Cursor}
    (hp : p c = .error e c') : ∃ taken, c.Moves taken c' := by
  rw [Takes, hp] at h
  exact h

theorem takes_pure {P : List Lexeme → α → Prop} {a : α} (h : P [] a) : Takes (pure a) c P :=
  ⟨[], Cursor.Moves.refl c, h⟩

theorem takes_throw {P : List Lexeme → α → Prop} (e : Fault) : Takes (throw e) c P :=
  ⟨[], Cursor.Moves.refl c⟩

theorem takes_failHere {P : List Lexeme → α → Prop} : Takes failHere c P :=
  ⟨[], Cursor.Moves.refl c⟩

/-- A reader may look at the cursor. -/
theorem takes_get {f : Cursor → Reader α} {P : List Lexeme → α → Prop} (h : Takes (f c) c P) :
    Takes (get >>= f) c P := h

theorem bind_of_error {f : α → Reader β} {e : Fault} {c' : Cursor} (h : p c = .error e c') :
    (p >>= f) c = .error e c' := by
  simp only [bind, EStateM.bind, h]

/-- What follows adds its lexemes to those that were taken before it. -/
theorem Takes.bind {f : α → Reader β} {P : List Lexeme → α → Prop} {Q : List Lexeme → β → Prop}
    (hp : Takes p c P)
    (hf : ∀ a c' front, P front a → Takes (f a) c' fun lexemes b => Q (front ++ lexemes) b) :
    Takes (p >>= f) c Q := by
  cases hrun : p c with
  | error e c' =>
      rw [Takes, bind_of_error hrun]
      exact hp.of_error hrun
  | ok a c' =>
      obtain ⟨taken, hmoves, ha⟩ := hp.of_ok hrun
      have hnext := hf a c' _ ha
      rw [Takes, bind_of_ok hrun]
      rw [Takes] at hnext
      cases hfa : f a c' with
      | error e c'' =>
          rw [hfa] at hnext
          obtain ⟨taken', hmoves'⟩ := hnext
          exact ⟨taken ++ taken', hmoves.trans hmoves'⟩
      | ok b c'' =>
          rw [hfa] at hnext
          obtain ⟨taken', hmoves', hb⟩ := hnext
          refine ⟨taken ++ taken', hmoves.trans hmoves', ?_⟩
          rw [List.map_append]
          exact hb

theorem Takes.mono {P Q : List Lexeme → α → Prop} (h : Takes p c P) (hPQ : ∀ lexemes a, P lexemes a → Q lexemes a) :
    Takes p c Q := by
  rw [Takes] at *
  cases hrun : p c with
  | error e c' =>
      rw [hrun] at h
      exact h
  | ok a c' =>
      rw [hrun] at h
      obtain ⟨taken, hmoves, ha⟩ := h
      exact ⟨taken, hmoves, hPQ _ _ ha⟩

/-! ### Single tokens -/

theorem takes_advance {x : Lexeme} (hx : c.peek? = some x) :
    Takes (set c.advance) c fun lexemes _ => lexemes = [x] := by
  obtain ⟨token, rfl, hmoves⟩ := Cursor.moves_advance hx
  exact ⟨[token], hmoves, rfl⟩

theorem takes_advance_of_end (h : c.peek? = none) :
    Takes (set c.advance) c fun lexemes _ => lexemes = [] := by
  rw [Cursor.advance_of_end h]
  exact ⟨[], Cursor.Moves.refl c, rfl⟩

theorem takes_eatSymbol (s : Symbol) (c : Cursor) :
    Takes (eatSymbol s) c fun lexemes taken => lexemes = if taken then [.symbol s] else [] := by
  by_cases hhead : c.lexemes.head? = some (.symbol s)
  · obtain ⟨token, htoken, hmoves⟩ := Cursor.moves_advance (c.peek?_eq.trans hhead)
    rw [Takes, eatSymbol_of_head hhead]
    exact ⟨[token], hmoves, by simp [htoken]⟩
  · rw [Takes, eatSymbol_of_head_ne hhead]
    exact ⟨[], Cursor.Moves.refl c, rfl⟩

theorem takes_eatWord (w : String) (c : Cursor) :
    Takes (eatWord w) c fun lexemes taken => lexemes = if taken then [.word w] else [] := by
  by_cases hhead : c.lexemes.head? = some (.word w)
  · obtain ⟨token, htoken, hmoves⟩ := Cursor.moves_advance (c.peek?_eq.trans hhead)
    rw [Takes, eatWord_of_head hhead]
    exact ⟨[token], hmoves, by simp [htoken]⟩
  · rw [Takes, eatWord_of_head_ne hhead]
    exact ⟨[], Cursor.Moves.refl c, rfl⟩

theorem takes_expectSymbol (s : Symbol) (c : Cursor) :
    Takes (expectSymbol s) c fun lexemes _ => lexemes = [.symbol s] := by
  refine (takes_eatSymbol s c).bind fun taken c' front hfront => ?_
  subst hfront
  cases taken with
  | true => exact takes_pure rfl
  | false => exact takes_failHere

theorem takes_expectEnd (c : Cursor) : Takes expectEnd c fun lexemes _ => lexemes = [] := by
  refine takes_get ?_
  split
  · exact takes_pure rfl
  · exact takes_failHere

theorem takes_name (c : Cursor) : Takes name c fun lexemes w => lexemes = [.word w] := by
  refine takes_get ?_
  split
  next w hw =>
    split
    · exact takes_failHere
    · refine (takes_advance hw).bind fun _ c' front hfront => ?_
      subst hfront
      exact takes_pure rfl
  · exact takes_failHere

theorem takes_bounded (height : Nat) (c : Cursor) :
    Takes (bounded height) c fun lexemes h => lexemes = [] ∧ h = height ∧ height ≤ maxDepth := by
  by_cases h : height ≤ maxDepth
  · rw [Takes, bounded_of_le h]
    exact ⟨[], Cursor.Moves.refl c, rfl, rfl, h⟩
  · rw [bounded, if_pos (by omega)]
    exact takes_throw .tooDeep

/-- One level deeper and up again. -/
theorem Takes.nested {P : List Lexeme → α → Prop} (h : Takes p { c with depth := c.depth + 1 } P) :
    Takes (nested p) c P := by
  rw [Takes, Reader.nested]
  cases hrun : p { c with depth := c.depth + 1 } with
  | ok a c' =>
      obtain ⟨taken, hmoves, ha⟩ := h.of_ok hrun
      exact ⟨taken, ⟨hmoves.rest, by simp [hmoves.depth], hmoves.lastLine⟩, ha⟩
  | error e c' =>
      obtain ⟨taken, hmoves⟩ := h.of_error hrun
      exact ⟨taken, hmoves.rest, by simp [hmoves.depth], hmoves.lastLine⟩

/-! ### Expressions -/

/-- The lexemes spell the expression, and its tree has the height that was measured, which is allowed. -/
structure Spelled (lexemes : List Lexeme) (m : Measured) : Prop where
  spells : Spells lexemes m.expr
  height : m.height = m.expr.height
  height_le : m.height ≤ maxDepth

/-- The lexemes up to the closing parenthesis of a call spell its arguments, and the greatest of their heights is
the one that was measured. -/
structure SpelledArgs (lexemes : List Lexeme) (r : List Expr × Nat) : Prop where
  spells : SpellsArgs lexemes r.1
  height : r.2 = Expr.heightAll r.1

theorem takes_leaf {front : List Lexeme} {e : Expr} (hspells : Spells front e) (hheight : e.height = 1) :
    Takes (leaf e) c fun lexemes m => Spelled (front ++ lexemes) m := by
  refine takes_pure ⟨?_, hheight.symm, Nat.le_of_ble_eq_true rfl⟩
  rwa [List.append_nil]

variable {operand : Reader Measured}

theorem takes_args (hoperand : ∀ c, Takes operand c Spelled) (rounds : Nat) (c : Cursor) :
    Takes (args operand rounds) c fun lexemes r => r.1 ≠ [] ∧ SpelledArgs lexemes r := by
  induction rounds generalizing c with
  | zero => exact takes_failHere
  | succ rounds ih =>
      refine (hoperand c).bind fun a c₁ first hfirst => ?_
      refine (takes_eatSymbol .closeParen c₁).bind fun closed c₂ close hclose => ?_
      subst hclose
      cases closed with
      | true =>
          refine takes_pure ⟨List.cons_ne_nil _ _, ?_, ?_⟩
          · simpa using hfirst.spells.lastArg
          · simp [Expr.heightAll, hfirst.height]
      | false =>
          refine (takes_expectSymbol .comma c₂).bind fun _ c₃ comma hcomma => ?_
          subst hcomma
          refine (ih c₃).bind fun r c₄ rest hrest => takes_pure ⟨List.cons_ne_nil _ _, ?_, ?_⟩
          · simpa using hfirst.spells.consArg hrest.1 hrest.2.spells
          · simp [Expr.heightAll, hfirst.height, hrest.2.height]

theorem takes_callArgs (hoperand : ∀ c, Takes operand c Spelled) (c : Cursor) :
    Takes (callArgs operand) c SpelledArgs := by
  refine (takes_eatSymbol .closeParen c).bind fun closed c₁ close hclose => ?_
  subst hclose
  cases closed with
  | true => exact takes_pure ⟨spellsArgs_nil, rfl⟩
  | false => exact (takes_args hoperand _ c₁).mono fun _ _ h => h.2

theorem takes_afterWord (hoperand : ∀ c, Takes operand c Spelled) (fault : Fault) (w : String) (c : Cursor) :
    Takes (afterWord operand fault w) c fun lexemes m => Spelled (.word w :: lexemes) m := by
  unfold afterWord
  split
  next h => subst h; exact takes_leaf (spells_literal .nil) rfl
  · split
    next h => subst h; exact takes_leaf (spells_literal (.bool true)) rfl
    · split
      next h => subst h; exact takes_leaf (spells_literal (.bool false)) rfl
      · split
        · exact takes_throw fault
        next hkeyword =>
          refine (takes_eatSymbol .openParen c).bind fun opened c₁ front hfront => ?_
          subst hfront
          cases opened with
          | false => exact takes_leaf (spells_var w) rfl
          | true =>
              refine (takes_callArgs hoperand c₁).bind fun r c₂ inside hinside => ?_
              refine (takes_bounded (r.2 + 1) c₂).bind fun h c₃ none hnone => takes_pure ?_
              obtain ⟨rfl, rfl, hle⟩ := hnone
              refine ⟨?_, ?_, hle⟩
              · simpa using hinside.spells.call (by simpa using hkeyword)
              · simp [Expr.height, hinside.height]

theorem takes_primary (hoperand : ∀ c, Takes operand c Spelled) (c : Cursor) :
    Takes (primary operand) c Spelled := by
  refine takes_get ?_
  cases hx : c.peek? with
  | none => exact (takes_advance_of_end hx).bind fun _ c' _ _ => takes_throw _
  | some x =>
      refine (takes_advance hx).bind fun _ c₁ front hfront => ?_
      subst hfront
      cases x with
      | number x => exact takes_leaf (spells_literal (.number x)) rfl
      | text s => exact takes_leaf (spells_literal (.text s)) rfl
      | word w => exact takes_afterWord hoperand _ w c₁
      | symbol s =>
          cases s with
          | openParen =>
              refine (hoperand c₁).bind fun m c₂ inside hinside => ?_
              refine (takes_expectSymbol .closeParen c₂).bind fun _ c₃ close hclose => takes_pure ?_
              subst hclose
              refine ⟨?_, hinside.height, hinside.height_le⟩
              simpa using hinside.spells.group
          | _ => exact takes_throw _

variable {operand : Nat → Reader Measured}

/-- A unary operator is taken with its operand. -/
theorem takes_unaryOp (hoperand : ∀ bound c, Takes (operand bound) c Spelled) (op : UnaryOp) (c : Cursor) :
    Takes (do
        let e ← operand unaryBound
        return ⟨.unary op e.expr, ← bounded (e.height + 1)⟩) c
      fun lexemes m => Spelled (op.lexeme :: lexemes) m := by
  refine (hoperand unaryBound c).bind fun e c₁ lexemes he => ?_
  refine (takes_bounded (e.height + 1) c₁).bind fun h c₂ none hnone => takes_pure ?_
  obtain ⟨rfl, rfl, hle⟩ := hnone
  refine ⟨?_, ?_, hle⟩
  · simpa using he.spells.unary op
  · simp [Expr.height, he.height]

theorem takes_unary (hoperand : ∀ bound c, Takes (operand bound) c Spelled) (c : Cursor) :
    Takes (unary operand) c Spelled := by
  refine (takes_eatSymbol .minus c).bind fun minus c₁ front hfront => ?_
  subst hfront
  cases minus with
  | true => exact takes_unaryOp hoperand .neg c₁
  | false =>
      refine (takes_eatWord "not" c₁).bind fun isNot c₂ front hfront => ?_
      subst hfront
      cases isNot with
      | true => exact takes_unaryOp hoperand .not c₂
      | false => exact takes_primary (hoperand 0) c₂

/-- Every round adds an operator and its right operand to what was spelled before it. -/
theorem takes_operators (hoperand : ∀ bound c, Takes (operand bound) c Spelled) (bound rounds : Nat)
    {before : List Lexeme} {lhs : Measured} (hlhs : Spelled before lhs) (c : Cursor) :
    Takes (operators operand bound rounds lhs) c fun lexemes m => Spelled (before ++ lexemes) m := by
  have hend : Spelled (before ++ []) lhs := by rwa [List.append_nil]
  induction rounds generalizing before lhs c with
  | zero => exact takes_pure hend
  | succ rounds ih =>
      refine takes_get ?_
      cases hop : c.peek?.bind BinaryOp.ofLexeme? with
      | none => exact takes_pure hend
      | some op =>
          obtain ⟨x, hx, hxop⟩ := Option.bind_eq_some_iff.1 hop
          simp only
          split
          · exact takes_pure hend
          · refine (takes_advance hx).bind fun _ c₁ front hfront => ?_
            refine (hoperand op.rightBound c₁).bind fun rhs c₂ right hrhs => ?_
            refine (takes_bounded _ c₂).bind fun h c₃ none hnone => ?_
            subst hfront
            obtain ⟨rfl, rfl, hle⟩ := hnone
            have hboth : Spelled (before ++ x :: right)
                ⟨.binary op lhs.expr rhs.expr, max lhs.height rhs.height + 1⟩ := by
              refine ⟨hlhs.spells.binary hrhs.spells hxop, ?_, hle⟩
              simp [Expr.height, hlhs.height, hrhs.height]
            refine (ih hboth c₃ (by rwa [List.append_nil])).mono fun lexemes m h => ?_
            simpa using h

theorem takes_binary (levels bound : Nat) (c : Cursor) : Takes (binary levels bound) c Spelled := by
  induction levels generalizing bound c with
  | zero => exact takes_throw .tooDeep
  | succ levels ih =>
      refine Takes.nested ((takes_unary ih _).bind fun lhs c₁ before hlhs => takes_get ?_)
      exact takes_operators ih bound _ hlhs c₁

theorem takes_expr (c : Cursor) :
    Takes expr c fun lexemes e => Spells lexemes e ∧ e.height ≤ maxDepth := by
  refine takes_get ((takes_binary _ 0 c).bind fun m c₁ lexemes hm => takes_pure ?_)
  rw [List.append_nil]
  exact ⟨hm.spells, hm.height ▸ hm.height_le⟩

/-! ### Calls one after the other -/

/-- The readers that a caller can use on a cursor; looking ahead leaves it where it is. -/
inductive Call where
  | eatSymbol (s : Symbol)
  | eatWord (w : String)
  | expectSymbol (s : Symbol)
  | expectEnd
  | name
  | expr

/-- The cursor that a reader leaves, whether it succeeds or not. -/
def cursorAfter (p : Reader α) (c : Cursor) : Cursor :=
  match p c with
  | .ok _ c' => c'
  | .error _ c' => c'

/-- The cursor after a call. -/
def Call.after (c : Cursor) : Call → Cursor
  | .eatSymbol s => cursorAfter (Reader.eatSymbol s) c
  | .eatWord w => cursorAfter (Reader.eatWord w) c
  | .expectSymbol s => cursorAfter (Reader.expectSymbol s) c
  | .expectEnd => cursorAfter Reader.expectEnd c
  | .name => cursorAfter Reader.name c
  | .expr => cursorAfter Reader.expr c

theorem Takes.moves {P : List Lexeme → α → Prop} (h : Takes p c P) :
    ∃ taken, c.Moves taken (cursorAfter p c) := by
  rw [cursorAfter]
  cases hrun : p c with
  | ok a c' =>
      obtain ⟨taken, hmoves, -⟩ := h.of_ok hrun
      exact ⟨taken, hmoves⟩
  | error e c' => exact h.of_error hrun

theorem Call.moves (call : Call) (c : Cursor) : ∃ taken, c.Moves taken (call.after c) := by
  cases call with
  | eatSymbol s => exact (takes_eatSymbol s c).moves
  | eatWord w => exact (takes_eatWord w c).moves
  | expectSymbol s => exact (takes_expectSymbol s c).moves
  | expectEnd => exact (takes_expectEnd c).moves
  | name => exact (takes_name c).moves
  | expr => exact (takes_expr c).moves

theorem moves_foldl (calls : List Call) (c : Cursor) : ∃ taken, c.Moves taken (calls.foldl Call.after c) := by
  induction calls generalizing c with
  | nil => exact ⟨[], Cursor.Moves.refl c⟩
  | cons call calls ih =>
      obtain ⟨taken, hmoves⟩ := call.moves c
      obtain ⟨taken', hmoves'⟩ := ih (call.after c)
      exact ⟨taken ++ taken', hmoves.trans hmoves'⟩

/-- **An expression is what was taken for it.** Wherever calls, failed ones too, have led a cursor: an expression that
is read took tokens, its own in order and balanced parentheses around groups, and is no higher than 200. However
the reader ends, the cursor only goes forward, not past the end, and is on the level of nesting it was on. -/
theorem expr_takes_spelling (start : Cursor) (calls : List Call) :
    let c := calls.foldl Call.after start
    (∃ taken, start.Moves taken c)
      ∧ match expr c with
        | .ok e c' => ∃ taken, c.Moves taken c' ∧ taken ≠ []
            ∧ ungroup (taken.map Token.lexeme) = some e.lexemes ∧ e.height ≤ 200
        | .error _ c' => ∃ taken, c.Moves taken c' := by
  intro c
  refine ⟨moves_foldl calls start, ?_⟩
  have hexpr := takes_expr c
  cases hrun : expr c with
  | error e c' => exact hexpr.of_error hrun
  | ok e c' =>
      obtain ⟨taken, hmoves, hspells, hheight⟩ := hexpr.of_ok hrun
      refine ⟨taken, hmoves, ?_, hspells.ungroup_eq, hheight⟩
      rintro rfl
      have hnothing := hspells.ungroup_eq
      rw [List.map_nil] at hnothing
      exact e.lexemes_ne_nil (Option.some.inj hnothing).symm

end Reader

end Transcript
