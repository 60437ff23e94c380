import Transcript.Proofs.Expr.Progress

/-!
What readers see of the text. A reader looks at the lexemes that are left, never at their lines, and at no lexeme
behind a semicolon. So in front of a semicolon it reads what it reads at the end of a text, and two cursors with the
same lexemes are read alike.
-/
namespace Transcript

/-- Lexemes in front of which readers stop: none, or a semicolon and others. -/
def StartsApart (tail : List Lexeme) : Prop := ∀ x, tail.head? = some x → x = .symbol .semicolon

theorem startsApart_nil : StartsApart [] := by
  intro x hx
  cases hx

theorem startsApart_semicolon (tail : List Lexeme) : StartsApart (.symbol .semicolon :: tail) := by
  intro x hx
  exact (Option.some.inj hx).symm

namespace Cursor

/-- What is left at `c'` is what is left at `c` and a tail behind it; both are on one level of nesting. -/
structure Extends (c : Cursor) (tail : List Lexeme) (c' : Cursor) : Prop where
  lexemes : c'.lexemes = c.lexemes ++ tail
  depth : c'.depth = c.depth

variable {c c' : Cursor} {tail : List Lexeme}

theorem Extends.peek?_eq (h : c.Extends tail c') {x : Lexeme} (hx : c.peek? = some x) : c'.peek? = some x := by
  rw [Cursor.peek?_eq] at hx ⊢
  rw [h.lexemes, List.head?_append, hx]
  rfl

theorem Extends.peek?_of_end (h : c.Extends tail c') (hend : c.peek? = none) : c'.peek? = tail.head? := by
  rw [Cursor.peek?_eq] at hend ⊢
  rw [h.lexemes, List.head?_eq_none_iff.1 hend, List.nil_append]

theorem Extends.advance (h : c.Extends tail c') {x : Lexeme} (hx : c.peek? = some x) :
    c.advance.Extends tail c'.advance := by
  refine ⟨?_, h.depth⟩
  rw [Cursor.peek?_eq] at hx
  obtain ⟨rest, hrest⟩ := List.head?_eq_some_iff.1 hx
  have hlexemes := h.lexemes
  rw [hrest, List.cons_append] at hlexemes
  rw [lexemes_advance_of_cons hrest, lexemes_advance_of_cons hlexemes]

/-- Without a tail the next lexemes are the same. -/
theorem Extends.peek?_of_nil (h : c.Extends [] c') : c'.peek? = c.peek? := by
  rw [Cursor.peek?_eq, Cursor.peek?_eq, h.lexemes, List.append_nil]

theorem Extends.unexpected_eq (h : c.Extends [] c') : c'.unexpected = c.unexpected := by
  rw [Cursor.unexpected, Cursor.unexpected, h.peek?_of_nil]

theorem Extends.length_eq (h : c.Extends tail c') : c'.rest.length = c.rest.length + tail.length := by
  rw [length_rest, length_rest, h.lexemes, List.length_append]

/-- A lexeme other than a semicolon is next at both or at neither. -/
theorem Extends.head?_eq_iff (h : c.Extends tail c') (htail : StartsApart tail) {x : Lexeme}
    (hx : x ≠ .symbol .semicolon) : c'.lexemes.head? = some x ↔ c.lexemes.head? = some x := by
  rw [← Cursor.peek?_eq, ← Cursor.peek?_eq]
  cases hpeek : c.peek? with
  | some y => rw [h.peek?_eq hpeek]
  | none =>
      rw [h.peek?_of_end hpeek]
      refine ⟨fun hhead => absurd (htail x hhead) hx, fun hhead => by cases hhead⟩

end Cursor

namespace Reader

variable {α β : Type} {tail : List Lexeme} {c c' : Cursor}

/-- The reader `p'` does at `c'` what `p` does at `c`: it gives the same and stops in front of the same tail. A fault
need be the same only where nothing is left behind the tail, for one in front of a tail may tell of it. -/
def Agrees (tail : List Lexeme) (p p' : Reader α) (c c' : Cursor) : Prop :=
  match p c with
  | .ok a d => ∃ d', p' c' = .ok a d' ∧ d.Extends tail d'
  | .error e _ => tail = [] → ∃ d', p' c' = .error e d'

theorem Agrees.of_ok {p p' : Reader α} (h : Agrees tail p p' c c') {a : α} {d : Cursor} (hp : p c = .ok a d) :
    ∃ d', p' c' = .ok a d' ∧ d.Extends tail d' := by
  rw [Agrees, hp] at h
  exact h

theorem Agrees.of_error {p p' : Reader α} (h : Agrees [] p p' c c') {e : Fault} {d : Cursor}
    (hp : p c = .error e d) : ∃ d', p' c' = .error e d' := by
  rw [Agrees, hp] at h
  exact h rfl

theorem agrees_pure (h : c.Extends tail c') (a : α) : Agrees tail (pure a) (pure a) c c' := ⟨c', rfl, h⟩

theorem agrees_throw (e : Fault) : Agrees tail (throw e : Reader α) (throw e) c c' := fun _ => ⟨c', rfl⟩

theorem agrees_failHere (h : c.Extends tail c') : Agrees tail (failHere : Reader α) failHere c c' := by
  intro htail
  subst htail
  refine ⟨c', ?_⟩
  show EStateM.Result.error c'.unexpected c' = .error c.unexpected c'
  rw [h.unexpected_eq]

/-- What follows goes on from where both stopped. -/
theorem Agrees.bind {p p' : Reader α} {f f' : α → Reader β} (hp : Agrees tail p p' c c')
    (hf : ∀ a d d', p c = .ok a d → d.Extends tail d' → Agrees tail (f a) (f' a) d d') :
    Agrees tail (p >>= f) (p' >>= f') c c' := by
  cases hrun : p c with
  | error e d =>
      rw [Agrees, bind_of_error hrun]
      intro htail
      subst htail
      obtain ⟨d', hd'⟩ := hp.of_error hrun
      exact ⟨d', bind_of_error hd'⟩
  | ok a d =>
      obtain ⟨d', hd', hextends⟩ := hp.of_ok hrun
      rw [Agrees, bind_of_ok hrun, bind_of_ok hd']
      exact hf a d d' hrun hextends

/-- Both may look at their cursors. -/
theorem agrees_get {f f' : Cursor → Reader α} (h : Agrees tail (f c) (f' c') c c') :
    Agrees tail (get >>= f) (get >>= f') c c' := h

/-! ### Single lexemes -/

theorem agrees_advance (h : c.Extends tail c') {x : Lexeme} (hx : c.peek? = some x) :
    Agrees tail (set c.advance) (set c'.advance) c c' := ⟨c'.advance, rfl, h.advance hx⟩

theorem agrees_eatSymbol (h : c.Extends tail c') (htail : StartsApart tail) {s : Symbol} (hs : s ≠ .semicolon) :
    Agrees tail (eatSymbol s) (eatSymbol s) c c' := by
  have hiff := h.head?_eq_iff htail (x := .symbol s) (by simpa using hs)
  by_cases hhead : c.lexemes.head? = some (.symbol s)
  · rw [Agrees, eatSymbol_of_head hhead, eatSymbol_of_head (hiff.2 hhead)]
    exact ⟨c'.advance, rfl, h.advance (c.peek?_eq.trans hhead)⟩
  · rw [Agrees, eatSymbol_of_head_ne hhead, eatSymbol_of_head_ne (mt hiff.1 hhead)]
    exact ⟨c', rfl, h⟩

theorem agrees_eatWord (h : c.Extends tail c') (htail : StartsApart tail) (w : String) :
    Agrees tail (eatWord w) (eatWord w) c c' := by
  have hiff := h.head?_eq_iff htail (x := .word w) (by simp)
  by_cases hhead : c.lexemes.head? = some (.word w)
  · rw [Agrees, eatWord_of_head hhead, eatWord_of_head (hiff.2 hhead)]
    exact ⟨c'.advance, rfl, h.advance (c.peek?_eq.trans hhead)⟩
  · rw [Agrees, eatWord_of_head_ne hhead, eatWord_of_head_ne (mt hiff.1 hhead)]
    exact ⟨c', rfl, h⟩

theorem agrees_expectSymbol (h : c.Extends tail c') (htail : StartsApart tail) {s : Symbol} (hs : s ≠ .semicolon) :
    Agrees tail (expectSymbol s) (expectSymbol s) c c' := by
  refine (agrees_eatSymbol h htail hs).bind fun taken d d' _ hd => ?_
  cases taken with
  | true => exact agrees_pure hd PUnit.unit
  | false => exact agrees_failHere hd

/-- In front of a tail, where what is left ends, a reader may do anything if there it fails. -/
theorem agrees_of_error {p p' : Reader α} (hne : tail ≠ []) {e : Fault} {d : Cursor} (hp : p c = .error e d) :
    Agrees tail p p' c c' := by
  rw [Agrees, hp]
  exact fun htail => absurd htail hne

theorem agrees_name (h : c.Extends tail c') : Agrees tail name name c c' := by
  refine agrees_get ?_
  cases hx : c.peek? with
  | none =>
      by_cases hnil : tail = []
      · subst hnil
        rw [h.peek?_of_nil, hx]
        exact agrees_failHere h
      · exact agrees_of_error hnil rfl
  | some x =>
      rw [h.peek?_eq hx]
      cases x with
      | word w =>
          dsimp only
          split
          · exact agrees_failHere h
          · exact (agrees_advance h hx).bind fun _ d d' _ hd => agrees_pure hd w
      | _ => exact agrees_failHere h

theorem agrees_bounded (h : c.Extends tail c') (height : Nat) :
    Agrees tail (bounded height) (bounded height) c c' := by
  unfold bounded
  split
  · exact agrees_throw .tooDeep
  · exact agrees_pure h height

/-- One level deeper and up again. -/
theorem Agrees.nested {p p' : Reader α}
    (h : Agrees tail p p' { c with depth := c.depth + 1 } { c' with depth := c'.depth + 1 }) :
    Agrees tail (nested p) (nested p') c c' := by
  rw [Agrees, Reader.nested]
  cases hrun : p { c with depth := c.depth + 1 } with
  | ok a d =>
      obtain ⟨d', hd', hextends⟩ := h.of_ok hrun
      refine ⟨{ d' with depth := d'.depth - 1 }, ?_, hextends.lexemes, ?_⟩
      · rw [Reader.nested, hd']
      · show d'.depth - 1 = d.depth - 1
        rw [hextends.depth]
  | error e d =>
      intro htail
      subst htail
      obtain ⟨d', hd'⟩ := h.of_error hrun
      refine ⟨{ d' with depth := d'.depth - 1 }, ?_⟩
      rw [Reader.nested, hd']

/-! ### Expressions -/

/-- An operand of the reader that goes on at the cursors that extend others. -/
def OperandAgrees (tail : List Lexeme) (operand : Reader Measured) : Prop :=
  ∀ {c c' : Cursor}, c.Extends tail c' → Agrees tail operand operand c c'

variable {operand : Reader Measured}

/-- A reader that takes at least `n` lexemes leaves so many less. -/
theorem Takes.length_le {p : Reader α} {P : List Lexeme → α → Prop} (h : Takes p c P) {a : α} {d : Cursor}
    (hp : p c = .ok a d) {n : Nat} (hP : ∀ lexemes, P lexemes a → n ≤ lexemes.length) :
    d.rest.length + n ≤ c.rest.length := by
  obtain ⟨taken, hmoves, ha⟩ := h.of_ok hp
  have htaken := hP _ ha
  rw [List.length_map] at htaken
  rw [hmoves.rest, List.length_append]
  omega

/-- Any number of rounds is enough for the arguments if it exceeds what is left. -/
theorem agrees_args (htail : StartsApart tail) (hoperand : OperandAgrees tail operand)
    (htakes : ∀ c, Takes operand c Spelled) {rounds rounds' : Nat} (h : c.Extends tail c')
    (hrounds : c.rest.length < rounds) (hrounds' : c'.rest.length < rounds') :
    Agrees tail (args operand rounds) (args operand rounds') c c' := by
  induction rounds generalizing rounds' c c' with
  | zero => exact absurd hrounds (Nat.not_lt_zero _)
  | succ rounds ih =>
      obtain ⟨rounds', rfl⟩ : ∃ k, rounds' = k + 1 := ⟨rounds' - 1, by omega⟩
      refine (hoperand h).bind fun a d d' ha hd => ?_
      refine (agrees_eatSymbol hd htail (by decide)).bind fun closed d₁ d₁' hclosed hd₁ => ?_
      cases closed with
      | true => exact agrees_pure hd₁ _
      | false =>
          refine (agrees_expectSymbol hd₁ htail (by decide)).bind fun _ d₂ d₂' hcomma hd₂ => ?_
          have hleft := (htakes c).length_le ha fun _ _ => Nat.zero_le _
          have hleft₁ := (takes_eatSymbol _ d).length_le hclosed fun _ _ => Nat.zero_le _
          have hleft₂ := (takes_expectSymbol _ d₁).length_le (n := 1) hcomma fun lexemes hlexemes => by simp [hlexemes]
          have htotal := h.length_eq
          have htotal₂ := hd₂.length_eq
          refine (ih hd₂ (by omega) (by omega)).bind fun r d₃ d₃' _ hd₃ => ?_
          exact agrees_pure hd₃ _

theorem agrees_callArgs (htail : StartsApart tail) (hoperand : OperandAgrees tail operand)
    (htakes : ∀ c, Takes operand c Spelled) (h : c.Extends tail c') :
    Agrees tail (callArgs operand) (callArgs operand) c c' := by
  refine (agrees_eatSymbol h htail (by decide)).bind fun closed d d' _ hd => ?_
  cases closed with
  | true => exact agrees_pure hd ([], 0)
  | false =>
      refine agrees_get ?_
      exact agrees_args htail hoperand htakes hd (Nat.lt_succ_self _) (Nat.lt_succ_self _)

theorem agrees_afterWord (htail : StartsApart tail) (hoperand : OperandAgrees tail operand)
    (htakes : ∀ c, Takes operand c Spelled) (h : c.Extends tail c') (fault : Fault) (w : String) :
    Agrees tail (afterWord operand fault w) (afterWord operand fault w) c c' := by
  unfold afterWord
  split
  · exact agrees_pure h _
  · split
    · exact agrees_pure h _
    · split
      · exact agrees_pure h _
      · split
        · exact agrees_throw fault
        · refine (agrees_eatSymbol h htail (by decide)).bind fun opened d d' _ hd => ?_
          cases opened with
          | false => exact agrees_pure hd _
          | true =>
              refine (agrees_callArgs htail hoperand htakes hd).bind fun r d₁ d₁' _ hd₁ => ?_
              exact (agrees_bounded hd₁ _).bind fun _ d₂ d₂' _ hd₂ => agrees_pure hd₂ _

theorem agrees_primary (htail : StartsApart tail) (hoperand : OperandAgrees tail operand)
    (htakes : ∀ c, Takes operand c Spelled) (h : c.Extends tail c') :
    Agrees tail (primary operand) (primary operand) c c' := by
  refine agrees_get ?_
  cases hx : c.peek? with
  | none =>
      by_cases hnil : tail = []
      · subst hnil
        rw [h.peek?_of_nil, hx, h.unexpected_eq]
        exact fun _ => ⟨c'.advance, rfl⟩
      · exact agrees_of_error hnil rfl
  | some x =>
      have hfault : c'.unexpected = c.unexpected := by
        rw [Cursor.unexpected, Cursor.unexpected, h.peek?_eq hx, hx]
      rw [h.peek?_eq hx, hfault]
      refine (agrees_advance h hx).bind fun _ d d' _ hd => ?_
      cases x with
      | number x => exact agrees_pure hd _
      | text s => exact agrees_pure hd _
      | word w => exact agrees_afterWord htail hoperand htakes hd _ w
      | symbol s =>
          cases s with
          | openParen =>
              refine (hoperand hd).bind fun m d₁ d₁' _ hd₁ => ?_
              exact (agrees_expectSymbol hd₁ htail (by decide)).bind fun _ d₂ d₂' _ hd₂ => agrees_pure hd₂ m
          | _ => exact agrees_throw _

variable {operand : Nat → Reader Measured}

/-- What follows a unary operator. -/
theorem agrees_unaryOp (hoperand : ∀ bound, OperandAgrees tail (operand bound)) (h : c.Extends tail c')
    (op : UnaryOp) {p : Reader Measured}
    (hp : p = do
      let e ← operand unaryBound
      return ⟨.unary op e.expr, ← bounded (e.height + 1)⟩) : Agrees tail p p c c' := by
  subst hp
  refine (hoperand unaryBound h).bind fun e d d' _ hd => ?_
  exact (agrees_bounded hd _).bind fun _ d₁ d₁' _ hd₁ => agrees_pure hd₁ _

theorem agrees_unary (htail : StartsApart tail) (hoperand : ∀ bound, OperandAgrees tail (operand bound))
    (htakes : ∀ bound c, Takes (operand bound) c Spelled) (h : c.Extends tail c') :
    Agrees tail (unary operand) (unary operand) c c' := by
  refine (agrees_eatSymbol h htail (by decide)).bind fun minus d d' _ hd => ?_
  cases minus with
  | true => exact agrees_unaryOp hoperand hd .neg rfl
  | false =>
      refine (agrees_eatWord hd htail "not").bind fun isNot d₁ d₁' _ hd₁ => ?_
      cases isNot with
      | true => exact agrees_unaryOp hoperand hd₁ .not rfl
      | false => exact agrees_primary htail (hoperand 0) (htakes 0) hd₁

/-- Operators that end at `c` end at `c'` as well, for a tail does not start with one. -/
theorem agrees_operators_of_stop (htail : StartsApart tail) {bound : Nat} (lhs : Measured) (h : c.Extends tail c')
    (hstop : ∀ op, c.lexemes.head?.bind BinaryOp.ofLexeme? = some op → op.precedence ≤ bound) (rounds rounds' : Nat) :
    Agrees tail (operators operand bound rounds lhs) (operators operand bound rounds' lhs) c c' := by
  rw [Agrees, operators_of_stop hstop]
  refine ⟨c', operators_of_stop fun op hop => ?_, h⟩
  obtain ⟨x, hx, hxop⟩ := Option.bind_eq_some_iff.1 hop
  have hne : x ≠ .symbol .semicolon := by
    rintro rfl
    cases hxop
  rw [h.head?_eq_iff htail hne] at hx
  exact hstop op (Option.bind_eq_some_iff.2 ⟨x, hx, hxop⟩)

/-- Any number of rounds is enough for the operators if it is no less than what is left. -/
theorem agrees_operators (htail : StartsApart tail) (hoperand : ∀ bound, OperandAgrees tail (operand bound))
    (htakes : ∀ bound c, Takes (operand bound) c Spelled) (bound : Nat) {rounds rounds' : Nat} (lhs : Measured)
    (h : c.Extends tail c') (hrounds : c.rest.length ≤ rounds) (hrounds' : c'.rest.length ≤ rounds') :
    Agrees tail (operators operand bound rounds lhs) (operators operand bound rounds' lhs) c c' := by
  induction rounds generalizing rounds' lhs c c' with
  | zero =>
      refine agrees_operators_of_stop htail lhs h ?_ _ _
      rw [Cursor.length_rest, Nat.le_zero, List.length_eq_zero_iff] at hrounds
      rw [hrounds]
      rintro op ⟨⟩
  | succ rounds ih =>
      have hstops : (∀ op, c.lexemes.head?.bind BinaryOp.ofLexeme? = some op → op.precedence ≤ bound) →
          Agrees tail (operators operand bound (rounds + 1) lhs) (operators operand bound rounds' lhs) c c' :=
        fun hstop => agrees_operators_of_stop htail lhs h hstop (rounds + 1) rounds'
      cases hop : c.lexemes.head?.bind BinaryOp.ofLexeme? with
      | none => exact hstops fun op hop' => by rw [hop] at hop'; cases hop'
      | some op =>
          by_cases hbound : op.precedence ≤ bound
          · exact hstops fun op' hop' => by rwa [← Option.some.inj (hop.symm.trans hop')]
          · obtain ⟨x, hx, hxop⟩ := Option.bind_eq_some_iff.1 hop
            rw [← Cursor.peek?_eq] at hx
            have htotal := h.length_eq
            have hnonempty : 0 < c.rest.length := by
              rw [Cursor.length_rest]
              exact List.length_pos_iff.2 fun hnil => by rw [Cursor.peek?_eq, hnil] at hx; cases hx
            obtain ⟨rounds', rfl⟩ : ∃ k, rounds' = k + 1 := ⟨rounds' - 1, by omega⟩
            refine agrees_get ?_
            rw [h.peek?_eq hx, hx, Option.bind_some, hxop]
            simp only [if_neg hbound]
            refine (agrees_advance h hx).bind fun _ d d' hd₀ hd => ?_
            refine (hoperand op.rightBound hd).bind fun rhs d₁ d₁' hrhs hd₁ => ?_
            refine (agrees_bounded hd₁ _).bind fun height d₂ d₂' hheight hd₂ => ?_
            have hleft := (takes_advance hx).length_le (n := 1) hd₀ fun lexemes hlexemes => by simp [hlexemes]
            have hleft₁ := (htakes _ d).length_le hrhs fun _ _ => Nat.zero_le _
            have hleft₂ := (takes_bounded _ d₁).length_le hheight fun _ _ => Nat.zero_le _
            have htotal₂ := hd₂.length_eq
            exact ih _ hd₂ (by omega) (by omega)

theorem agrees_binary (htail : StartsApart tail) (levels bound : Nat) (h : c.Extends tail c') :
    Agrees tail (binary levels bound) (binary levels bound) c c' := by
  induction levels generalizing bound c c' with
  | zero => exact agrees_throw .tooDeep
  | succ levels ih =>
      have hdeeper : { c with depth := c.depth + 1 }.Extends tail { c' with depth := c'.depth + 1 } :=
        ⟨h.lexemes, congrArg (· + 1) h.depth⟩
      have hoperand : ∀ bound, OperandAgrees tail (binary levels bound) := fun bound _ _ hd => ih bound hd
      refine Agrees.nested ((agrees_unary htail hoperand (takes_binary levels) hdeeper).bind fun lhs d d' _ hd => ?_)
      refine agrees_get ?_
      exact agrees_operators htail hoperand (takes_binary levels) bound lhs hd (Nat.le_refl _) (Nat.le_refl _)

/-- An expression is read alike at the end of a text and in front of a semicolon. -/
theorem agrees_expr (htail : StartsApart tail) (h : c.Extends tail c') : Agrees tail expr expr c c' := by
  refine agrees_get ?_
  rw [h.depth]
  exact (agrees_binary htail _ 0 h).bind fun m d d' _ hd => agrees_pure hd m.expr

end Reader

end Transcript
