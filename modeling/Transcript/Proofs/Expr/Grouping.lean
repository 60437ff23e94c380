import Transcript.Proofs.Expr.Printing

/-!
Grouping parentheses. An opening parenthesis behind a name opens the arguments of a call, any other one groups,
and a closing one closes the innermost that is open. What is left of a list of lexemes without its grouping
parentheses is undefined if the parentheses are not balanced. A list spells an expression if, wherever it stands,
the lexemes of the expression are left of it.
-/
namespace Transcript

/-- The lexeme with one way to write inequality. -/
def Lexeme.canonical : Lexeme → Lexeme
  | .symbol .bangUnequal => .symbol .unequal
  | x => x

/-- Whether the lexeme is a name. -/
def Lexeme.isName : Lexeme → Bool
  | .word w => !isKeyword w
  | _ => false

/-- What a pair of parentheses is for. -/
inductive Parens where
  | group
  | call
  deriving DecidableEq, Repr

/-- Lexemes without grouping parentheses. The parentheses in `opened` are open, the innermost first, and
`behindName` says whether a name stands right before the lexemes. -/
def ungroupFrom : (behindName : Bool) → (opened : List Parens) → List Lexeme → Option (List Lexeme)
  | _, [], [] => some []
  | _, _ :: _, [] => none
  | true, opened, .symbol .openParen :: rest =>
    (ungroupFrom false (.call :: opened) rest).map (.symbol .openParen :: ·)
  | false, opened, .symbol .openParen :: rest => ungroupFrom false (.group :: opened) rest
  | _, [], .symbol .closeParen :: _ => none
  | _, .call :: opened, .symbol .closeParen :: rest =>
    (ungroupFrom false opened rest).map (.symbol .closeParen :: ·)
  | _, .group :: opened, .symbol .closeParen :: rest => ungroupFrom false opened rest
  | _, opened, x :: rest => (ungroupFrom x.isName opened rest).map (x.canonical :: ·)

/-- A list of lexemes without its grouping parentheses, if its parentheses are balanced. -/
def ungroup (lexemes : List Lexeme) : Option (List Lexeme) := ungroupFrom false [] lexemes

mutual

/-- The operands, operators, call parentheses and commas of an expression in order. -/
def Expr.lexemes : Expr → List Lexeme
  | .literal v => [v.lexeme]
  | .var name => [.word name]
  | .call function args =>
    .word function :: .symbol .openParen :: (Expr.argLexemes args ++ [.symbol .closeParen])
  | .unary op e => op.lexeme :: e.lexemes
  | .binary op l r => l.lexemes ++ op.lexeme :: r.lexemes

/-- The lexemes of the arguments of a call, with commas between them. -/
def Expr.argLexemes : List Expr → List Lexeme
  | [] => []
  | [e] => e.lexemes
  | e :: es => e.lexemes ++ .symbol .comma :: Expr.argLexemes es

end

theorem Expr.lexemes_ne_nil (e : Expr) : e.lexemes ≠ [] := by
  cases e <;> simp [lexemes]

theorem Expr.argLexemes_cons {es : List Expr} (h : es ≠ []) (e : Expr) :
    argLexemes (e :: es) = e.lexemes ++ .symbol .comma :: argLexemes es := by
  cases es with
  | nil => exact absurd rfl h
  | cons e' es =>
      rw [argLexemes]
      simp

/-! ### Single lexemes -/

/-- A lexeme that is no parenthesis stays. -/
theorem ungroupFrom_cons {x : Lexeme} (hopen : x ≠ .symbol .openParen) (hclose : x ≠ .symbol .closeParen)
    (behindName : Bool) (opened : List Parens) (rest : List Lexeme) :
    ungroupFrom behindName opened (x :: rest)
      = (ungroupFrom x.isName opened rest).map (x.canonical :: ·) := by
  rw [ungroupFrom]
  · intro _ hx
    exact absurd hx hopen
  · intro _ hx
    exact absurd hx hopen
  · intro _ hx
    exact absurd hx hclose
  · intro _ _ hx
    exact absurd hx hclose
  · intro _ _ hx
    exact absurd hx hclose

/-- A name counts only before an opening parenthesis. -/
theorem ungroupFrom_of_head_ne {tail : List Lexeme} (h : tail.head? ≠ some (.symbol .openParen))
    (behindName : Bool) (opened : List Parens) :
    ungroupFrom behindName opened tail = ungroupFrom false opened tail := by
  cases tail with
  | nil => cases opened <;> simp [ungroupFrom]
  | cons x rest =>
      have hopen : x ≠ .symbol .openParen := by
        rintro rfl
        exact h rfl
      by_cases hclose : x = .symbol .closeParen
      · subst hclose
        cases opened with
        | nil => simp [ungroupFrom]
        | cons parens opened => cases parens <;> simp [ungroupFrom]
      · rw [ungroupFrom_cons hopen hclose, ungroupFrom_cons hopen hclose]

/-- The lexeme of a binary operator is no parenthesis and no name. -/
theorem BinaryOp.lexeme_of_ofLexeme? {x : Lexeme} {op : BinaryOp} (h : ofLexeme? x = some op) :
    x ≠ .symbol .openParen ∧ x ≠ .symbol .closeParen ∧ x.isName = false ∧ x.canonical = op.lexeme := by
  unfold ofLexeme? at h
  split at h <;> cases h <;> exact ⟨by simp, by simp, rfl, rfl⟩

theorem UnaryOp.lexeme_plain (op : UnaryOp) :
    op.lexeme ≠ .symbol .openParen ∧ op.lexeme ≠ .symbol .closeParen ∧ op.lexeme.isName = false
      ∧ op.lexeme.canonical = op.lexeme := by
  cases op <;> exact ⟨by simp [lexeme], by simp [lexeme], rfl, rfl⟩

theorem Value.lexeme_plain (v : Value) :
    v.lexeme ≠ .symbol .openParen ∧ v.lexeme ≠ .symbol .closeParen ∧ v.lexeme.isName = false
      ∧ v.lexeme.canonical = v.lexeme := by
  cases v with
  | bool b => cases b <;> exact ⟨by simp [lexeme], by simp [lexeme], rfl, rfl⟩
  | _ => exact ⟨by simp [lexeme], by simp [lexeme], rfl, rfl⟩

/-! ### Spelling -/

/-- Wherever the lexemes stand, those of the expression are left of them. No parenthesis may open behind them,
for it would make a call of a name at their end. -/
def Spells (lexemes : List Lexeme) (e : Expr) : Prop :=
  ∀ (opened : List Parens) (tail : List Lexeme), tail.head? ≠ some (.symbol .openParen) →
    ungroupFrom false opened (lexemes ++ tail) = (ungroupFrom false opened tail).map (e.lexemes ++ ·)

/-- Lexemes up to the closing parenthesis of a call, of which the arguments and that parenthesis are left. -/
def SpellsArgs (lexemes : List Lexeme) (es : List Expr) : Prop :=
  ∀ (opened : List Parens) (tail : List Lexeme),
    ungroupFrom false (.call :: opened) (lexemes ++ tail)
      = (ungroupFrom false opened tail).map ((Expr.argLexemes es ++ [.symbol .closeParen]) ++ ·)

theorem Spells.ungroup_eq {lexemes : List Lexeme} {e : Expr} (h : Spells lexemes e) :
    ungroup lexemes = some e.lexemes := by
  have hend := h [] [] (by simp)
  rw [List.append_nil] at hend
  rw [ungroup, hend]
  simp [ungroupFrom]

/-- Of `f((a))` the parentheses of the call are left. -/
example : ungroup [.word "f", .symbol .openParen, .symbol .openParen, .word "a", .symbol .closeParen,
      .symbol .closeParen]
    = some [.word "f", .symbol .openParen, .word "a", .symbol .closeParen] := rfl

theorem spells_literal (v : Value) : Spells [v.lexeme] (.literal v) := by
  intro opened tail _
  obtain ⟨hopen, hclose, hname, hcanonical⟩ := v.lexeme_plain
  rw [List.singleton_append, ungroupFrom_cons hopen hclose, hname, hcanonical]
  rfl

theorem spells_var (name : String) : Spells [.word name] (.var name) := by
  intro opened tail htail
  rw [List.singleton_append, ungroupFrom_cons (by simp) (by simp), ungroupFrom_of_head_ne htail]
  rfl

/-- Parentheses around a spelling group. -/
theorem Spells.group {lexemes : List Lexeme} {e : Expr} (h : Spells lexemes e) :
    Spells (.symbol .openParen :: (lexemes ++ [.symbol .closeParen])) e := by
  intro opened tail _
  have hinside := h (.group :: opened) (.symbol .closeParen :: tail) (by simp)
  simp only [List.cons_append, List.append_assoc, List.nil_append, ungroupFrom]
  rw [hinside, ungroupFrom]

theorem Spells.unary {lexemes : List Lexeme} {e : Expr} (h : Spells lexemes e) (op : UnaryOp) :
    Spells (op.lexeme :: lexemes) (.unary op e) := by
  intro opened tail htail
  obtain ⟨hopen, hclose, hname, hcanonical⟩ := op.lexeme_plain
  rw [List.cons_append, ungroupFrom_cons hopen hclose, hname, hcanonical, h opened tail htail, Option.map_map]
  rfl

theorem Spells.binary {left right : List Lexeme} {l r : Expr} (hl : Spells left l) (hr : Spells right r)
    {x : Lexeme} {op : BinaryOp} (hx : BinaryOp.ofLexeme? x = some op) :
    Spells (left ++ x :: right) (.binary op l r) := by
  intro opened tail htail
  obtain ⟨hopen, hclose, hname, hcanonical⟩ := BinaryOp.lexeme_of_ofLexeme? hx
  have hleft := hl opened (x :: (right ++ tail)) (by simpa using hopen)
  rw [List.append_assoc, List.cons_append, hleft, ungroupFrom_cons hopen hclose, hname, hcanonical,
    hr opened tail htail, Option.map_map, Option.map_map]
  simp [Expr.lexemes, Function.comp_def]

/-! ### Spelling calls -/

theorem spellsArgs_nil : SpellsArgs [.symbol .closeParen] [] := by
  intro opened tail
  simp [ungroupFrom, Expr.argLexemes]

theorem Spells.lastArg {lexemes : List Lexeme} {e : Expr} (h : Spells lexemes e) :
    SpellsArgs (lexemes ++ [.symbol .closeParen]) [e] := by
  intro opened tail
  have harg := h (.call :: opened) (.symbol .closeParen :: tail) (by simp)
  rw [List.append_assoc, List.singleton_append, harg, ungroupFrom, Option.map_map]
  simp [Expr.argLexemes, Function.comp_def]

theorem Spells.consArg {lexemes rest : List Lexeme} {e : Expr} {es : List Expr} (h : Spells lexemes e)
    (hes : es ≠ []) (hrest : SpellsArgs rest es) :
    SpellsArgs (lexemes ++ .symbol .comma :: rest) (e :: es) := by
  intro opened tail
  have harg := h (.call :: opened) (.symbol .comma :: (rest ++ tail)) (by simp)
  rw [List.append_assoc, List.cons_append, harg, ungroupFrom_cons (by simp) (by simp)]
  simp only [Lexeme.isName, Lexeme.canonical]
  rw [hrest opened tail, Option.map_map, Option.map_map, Expr.argLexemes_cons hes]
  simp [Function.comp_def]

theorem SpellsArgs.call {lexemes : List Lexeme} {es : List Expr} (h : SpellsArgs lexemes es) {function : String}
    (hname : isKeyword function = false) :
    Spells (.word function :: .symbol .openParen :: lexemes) (.call function es) := by
  intro opened tail _
  have hisName : (Lexeme.word function).isName = true := by simp [Lexeme.isName, hname]
  rw [List.cons_append, ungroupFrom_cons (by simp) (by simp), hisName, List.cons_append, ungroupFrom,
    h opened tail, Option.map_map, Option.map_map]
  simp [Expr.lexemes, Lexeme.canonical, Function.comp_def]

/-! ### What no expression has -/

/-- No expression has a sign of assignment or a semicolon. -/
def Lexeme.InExpr (x : Lexeme) : Prop := x ≠ .symbol .assign ∧ x ≠ .symbol .semicolon

theorem Value.inExpr_lexeme (v : Value) : v.lexeme.InExpr := by
  cases v with
  | bool b => cases b <;> exact ⟨by simp [lexeme], by simp [lexeme]⟩
  | _ => exact ⟨by simp [lexeme], by simp [lexeme]⟩

theorem UnaryOp.inExpr_lexeme (op : UnaryOp) : op.lexeme.InExpr := by
  cases op <;> exact ⟨by simp [lexeme], by simp [lexeme]⟩

theorem BinaryOp.inExpr_lexeme (op : BinaryOp) : op.lexeme.InExpr := by
  cases op <;> exact ⟨by simp [lexeme], by simp [lexeme]⟩

mutual

theorem Expr.inExpr_of_mem_lexemes : ∀ (e : Expr), ∀ x ∈ e.lexemes, x.InExpr
  | .literal v => by
      simp only [lexemes, List.mem_singleton, forall_eq]
      exact v.inExpr_lexeme
  | .var name => by simp [lexemes, Lexeme.InExpr]
  | .call function args => by
      intro x hx
      simp only [lexemes, List.mem_cons, List.mem_append, List.not_mem_nil, or_false] at hx
      rcases hx with rfl | rfl | hx | rfl
      · simp [Lexeme.InExpr]
      · simp [Lexeme.InExpr]
      · exact Expr.inExpr_of_mem_argLexemes args x hx
      · simp [Lexeme.InExpr]
  | .unary op e => by
      intro x hx
      rw [lexemes] at hx
      rcases List.mem_cons.1 hx with rfl | hx
      · exact op.inExpr_lexeme
      · exact Expr.inExpr_of_mem_lexemes e x hx
  | .binary op l r => by
      intro x hx
      rw [lexemes] at hx
      rcases List.mem_append.1 hx with hx | hx
      · exact Expr.inExpr_of_mem_lexemes l x hx
      · rcases List.mem_cons.1 hx with rfl | hx
        · exact op.inExpr_lexeme
        · exact Expr.inExpr_of_mem_lexemes r x hx

theorem Expr.inExpr_of_mem_argLexemes : ∀ (es : List Expr), ∀ x ∈ Expr.argLexemes es, x.InExpr
  | [] => by simp [argLexemes]
  | [e] => by
      intro x hx
      rw [argLexemes] at hx
      exact Expr.inExpr_of_mem_lexemes e x hx
  | e :: e' :: es => by
      intro x hx
      rw [argLexemes_cons (List.cons_ne_nil _ _)] at hx
      rcases List.mem_append.1 hx with hx | hx
      · exact Expr.inExpr_of_mem_lexemes e x hx
      · rcases List.mem_cons.1 hx with rfl | hx
        · simp [Lexeme.InExpr]
        · exact Expr.inExpr_of_mem_argLexemes (e' :: es) x hx

end

/-- Only parentheses are left out. -/
theorem canonical_mem_of_ungroupFrom {behindName : Bool} {opened : List Parens} {lexemes left : List Lexeme}
    (h : ungroupFrom behindName opened lexemes = some left) {x : Lexeme} (hx : x ∈ lexemes)
    (hopen : x ≠ .symbol .openParen) (hclose : x ≠ .symbol .closeParen) : x.canonical ∈ left := by
  induction lexemes generalizing behindName opened left with
  | nil => cases hx
  | cons y rest ih =>
      -- Whatever `y` adds to the front of what is left, `x` is behind it.
      have hrest : ∀ {opened left'} {front : Lexeme}, (ungroupFrom false opened rest).map (front :: ·) = some left' →
          x ∈ rest → x.canonical ∈ left' := by
        intro opened left' front h' hx'
        obtain ⟨left, hleft, rfl⟩ := Option.map_eq_some_iff.1 h'
        exact List.mem_cons_of_mem _ (ih hleft hx')
      by_cases hy : y = .symbol .openParen
      · subst hy
        have hx' := (List.mem_cons.1 hx).resolve_left hopen
        cases behindName with
        | true =>
            rw [ungroupFrom] at h
            exact hrest h hx'
        | false =>
            rw [ungroupFrom] at h
            exact ih h hx'
      · by_cases hy' : y = .symbol .closeParen
        · subst hy'
          have hx' := (List.mem_cons.1 hx).resolve_left hclose
          cases opened with
          | nil => cases behindName <;> cases h
          | cons parens opened =>
              cases parens with
              | call => cases behindName <;> exact hrest h hx'
              | group => cases behindName <;> exact ih h hx'
        · rw [ungroupFrom_cons hy hy'] at h
          obtain ⟨left, hleft, rfl⟩ := Option.map_eq_some_iff.1 h
          rcases List.mem_cons.1 hx with rfl | hx'
          · exact List.mem_cons_self
          · exact List.mem_cons_of_mem _ (ih hleft hx')

/-- What spells an expression has no sign of assignment and no semicolon. -/
theorem Spells.inExpr {lexemes : List Lexeme} {e : Expr} (h : Spells lexemes e) {x : Lexeme} (hx : x ∈ lexemes) :
    x.InExpr := by
  have hleft : ∀ y ∈ lexemes, y ≠ .symbol .openParen → y ≠ .symbol .closeParen → y.canonical.InExpr :=
    fun y hy hopen hclose =>
      e.inExpr_of_mem_lexemes _ (canonical_mem_of_ungroupFrom h.ungroup_eq hy hopen hclose)
  refine ⟨?_, ?_⟩
  · rintro rfl
    exact (hleft _ hx (by simp) (by simp)).1 rfl
  · rintro rfl
    exact (hleft _ hx (by simp) (by simp)).2 rfl

theorem Spells.ne_nil {lexemes : List Lexeme} {e : Expr} (h : Spells lexemes e) : lexemes ≠ [] := by
  rintro rfl
  exact e.lexemes_ne_nil (Option.some.inj h.ungroup_eq).symm

end Transcript
