import Transcript.Proofs.Expr.Locality
import Transcript.Proofs.Expr.RoundTrip
import Transcript.Script.Program

/-!
Reading statements. A statement ends before a semicolon as it ends at the end of a text, so the statements of a text
are read alike in front of a semicolon, and a text behind it is read as by itself. A text that is one expression is
read as a bare expression there, for a text with a semicolon is no expression.
-/
namespace Transcript

open Reader

variable {tail : List Lexeme} {c c' : Cursor}

namespace Cursor

theorem atEnd_eq (c : Cursor) : c.atEnd = true ↔ c.lexemes = [] := by
  rw [atEnd, List.isEmpty_iff, lexemes, List.map_eq_nil_iff]

/-- Whether a statement ends here. -/
theorem Extends.stops_eq (h : c.Extends tail c') (htail : StartsApart tail) :
    (c'.atEnd || c'.atSymbol .semicolon) = (c.atEnd || c.atSymbol .semicolon) := by
  rw [Bool.eq_iff_iff, Bool.or_eq_true, Bool.or_eq_true, atEnd_eq, atEnd_eq, atSymbol_eq, atSymbol_eq, h.lexemes]
  cases c.lexemes with
  | cons x rest => simp
  | nil =>
      cases tail with
      | nil => simp
      | cons x rest => simp [htail x rfl]

/-- Whether the lexeme behind the next one is the sign of assignment. -/
def assigns (c : Cursor) : Bool :=
  match c.peekSecond? with
  | some (.symbol .assign) => true
  | _ => false

theorem assigns_eq (c : Cursor) : c.assigns = true ↔ c.lexemes.tail.head? = some (.symbol .assign) := by
  have hsecond : c.peekSecond? = c.lexemes.tail.head? := by
    rw [peekSecond?, lexemes, ← List.map_tail, List.head?_map]
  rw [assigns, hsecond]
  split
  next h => simp [h]
  next h =>
    rw [Bool.false_eq_true, false_iff]
    exact h

/-- Where something is left, or no tail is behind it, two lexemes ahead look alike. -/
theorem Extends.sees_eq (h : c.Extends tail c') (htail : StartsApart tail) (hsees : c.lexemes ≠ [] ∨ tail = []) :
    c'.assigns = c.assigns ∧ c'.peek? = c.peek? := by
  rw [Bool.eq_iff_iff, assigns_eq, assigns_eq, Cursor.peek?_eq, Cursor.peek?_eq, h.lexemes]
  rcases hsees with hne | rfl
  · obtain ⟨x, rest, hlexemes⟩ := List.exists_cons_of_ne_nil hne
    rw [hlexemes]
    refine ⟨?_, rfl⟩
    rw [List.cons_append, List.tail_cons, List.tail_cons, List.head?_append]
    cases rest.head? with
    | some y => rfl
    | none =>
        refine ⟨fun hhead => ?_, fun hhead => by cases hhead⟩
        cases htail _ hhead
  · rw [List.append_nil]
    exact ⟨Iff.rfl, rfl⟩

end Cursor

namespace Reader

/-- At the end there is no expression. -/
theorem exists_error_expr_of_end (h : c.lexemes = []) : ∃ e d, expr c = .error e d := by
  cases hexpr : expr c with
  | error e d => exact ⟨e, d, rfl⟩
  | ok e d =>
      obtain ⟨taken, hmoves, hspells, -⟩ := (takes_expr c).of_ok hexpr
      have hnone : taken.map Token.lexeme = [] := by
        rw [Cursor.lexemes, hmoves.rest, List.map_append] at h
        exact (List.append_eq_nil_iff.1 h).1
      exact absurd hnone hspells.ne_nil

/-- No expression starts with a keyword that starts a statement. -/
theorem exists_error_expr_of_keyword {w : String} (hw : w = "return" ∨ w = "local")
    (h : c.lexemes.head? = some (.word w)) : ∃ e d, expr c = .error e d := by
  have hne : w ≠ "not" ∧ w ≠ "nil" ∧ w ≠ "true" ∧ w ≠ "false" ∧ isKeyword w = true := by
    rcases hw with rfl | rfl <;> decide
  have hprimary : ∀ (operand : Reader Measured) (c : Cursor), c.lexemes.head? = some (.word w) →
      primary operand c = .error c.unexpected c.advance := by
    intro operand c h
    rw [primary, get_bind, set_bind, Cursor.peek?_eq, h]
    simp only [afterWord, hne, if_false, if_true]
    rfl
  have hbinary : ∀ levels, ∃ e d, binary levels 0 c = .error e d := by
    intro levels
    cases levels with
    | zero => exact ⟨.tooDeep, c, rfl⟩
    | succ levels =>
        have hhead : { c with depth := c.depth + 1 }.lexemes.head? = some (.word w) := h
        have hunary : unary (binary levels) { c with depth := c.depth + 1 }
            = primary (binary levels 0) { c with depth := c.depth + 1 } :=
          unary_eq_primary (by rw [hhead]; simp) (by rw [hhead]; simp [hne])
        have hchain : chain levels 0 { c with depth := c.depth + 1 } = .error _ _ :=
          bind_of_error (hunary.trans (hprimary _ _ hhead))
        rw [binary_succ, nested, hchain]
        exact ⟨_, _, rfl⟩
  obtain ⟨e, d, herror⟩ := hbinary (maxDepth - c.depth)
  rw [expr, get_bind]
  exact ⟨e, d, bind_of_error herror⟩

end Reader

namespace Script

/-- What follows the word that gives back. -/
def afterReturn : Reader Stmt := do
  let c ← get
  if c.atEnd || c.atSymbol .semicolon then return .giveBack none
  else return .giveBack (some (← Reader.expr))

/-- A name, the sign of assignment and an expression. -/
def assignment : Reader Stmt := do
  let name ← Reader.name
  Reader.expectSymbol .assign
  return .assign name (← Reader.expr)

theorem agrees_afterReturn (htail : StartsApart tail) (h : c.Extends tail c') :
    Agrees tail afterReturn afterReturn c c' := by
  refine agrees_get ?_
  rw [h.stops_eq htail]
  split
  · exact agrees_pure h _
  · exact (agrees_expr htail h).bind fun e d d' _ hd => agrees_pure hd _

theorem agrees_assignment (htail : StartsApart tail) (h : c.Extends tail c') :
    Agrees tail assignment assignment c c' := by
  refine (agrees_name h).bind fun name d d' _ hd => ?_
  refine (agrees_expectSymbol hd htail (by decide)).bind fun _ d₁ d₁' _ hd₁ => ?_
  exact (agrees_expr htail hd₁).bind fun e d₂ d₂' _ hd₂ => agrees_pure hd₂ _

/-- An assignment or a bare expression, which is told by its first lexeme. -/
def assignmentOrBare (isLocal : Bool) : Reader Stmt := do
  let c ← get
  if isLocal || c.assigns then assignment
  else return .bare (← Reader.expr) ((c.peek?.map Lexeme.describe).getD "")

/-- At the end there is neither. -/
theorem exists_error_assignmentOrBare_of_end (h : c.lexemes = []) (isLocal : Bool) :
    ∃ e d, assignmentOrBare isLocal c = .error e d := by
  have hpeek : c.peek? = none := by rw [Cursor.peek?_eq, h, List.head?_nil]
  have hassigns : c.assigns = false := by
    rw [Bool.eq_false_iff, Ne, Cursor.assigns_eq, h]
    simp
  rw [assignmentOrBare, get_bind, hassigns]
  cases isLocal with
  | true =>
      refine ⟨c.unexpected, c, bind_of_error ?_⟩
      rw [Reader.name, get_bind, hpeek]
      rfl
  | false =>
      obtain ⟨e, d, herror⟩ := exists_error_expr_of_end h
      exact ⟨e, d, bind_of_error herror⟩

theorem agrees_assignmentOrBare (htail : StartsApart tail) (h : c.Extends tail c') (isLocal : Bool) :
    Agrees tail (assignmentOrBare isLocal) (assignmentOrBare isLocal) c c' := by
  by_cases hend : c.lexemes = [] ∧ tail ≠ []
  · obtain ⟨e, d, herror⟩ := exists_error_assignmentOrBare_of_end hend.1 isLocal
    exact agrees_of_error hend.2 herror
  · obtain ⟨hassigns, hpeek⟩ := h.sees_eq htail (by
      by_cases hnil : tail = []
      · exact Or.inr hnil
      · exact Or.inl fun hlexemes => hend ⟨hlexemes, hnil⟩)
    refine agrees_get ?_
    rw [hassigns, hpeek]
    split
    · exact agrees_assignment htail h
    · exact (agrees_expr htail h).bind fun e d d' _ hd => agrees_pure hd _

theorem Stmt.read_eq : Stmt.read = (do
    if ← Reader.eatWord "return" then afterReturn
    else assignmentOrBare (← Reader.eatWord "local")) := rfl

theorem agrees_read (htail : StartsApart tail) (h : c.Extends tail c') : Agrees tail Stmt.read Stmt.read c c' := by
  rw [Stmt.read_eq]
  refine (agrees_eatWord h htail "return").bind fun isReturn d d' _ hd => ?_
  cases isReturn with
  | true => exact agrees_afterReturn htail hd
  | false =>
      refine (agrees_eatWord hd htail "local").bind fun isLocal d₁ d₁' _ hd₁ => ?_
      exact agrees_assignmentOrBare htail hd₁ isLocal

/-! ### What a statement takes -/

/-- A statement takes at least one lexeme, and the name that it assigns to. -/
structure Stmt.TakenFrom (lexemes : List Lexeme) (stmt : Stmt) : Prop where
  ne_nil : lexemes ≠ []
  word_mem : ∀ name e, stmt = .assign name e → .word name ∈ lexemes

theorem takes_afterReturn (c : Cursor) : Takes afterReturn c fun _ stmt => ∃ result, stmt = .giveBack result := by
  refine takes_get ?_
  split
  · exact takes_pure ⟨none, rfl⟩
  · exact (takes_expr c).bind fun e d _ _ => takes_pure ⟨some e, rfl⟩

theorem takes_assignmentOrBare (isLocal : Bool) (c : Cursor) : Takes (assignmentOrBare isLocal) c Stmt.TakenFrom := by
  refine takes_get ?_
  split
  · refine (takes_name c).bind fun name d front hfront => ?_
    refine (takes_expectSymbol .assign d).bind fun _ d₁ _ _ => ?_
    refine (takes_expr d₁).bind fun e d₂ _ _ => takes_pure ?_
    subst hfront
    refine ⟨by simp, ?_⟩
    intro name' e' hassign
    obtain ⟨rfl, -⟩ := Stmt.assign.inj hassign
    simp
  · refine (takes_expr c).bind fun e d front hfront => takes_pure ?_
    rw [List.append_nil]
    refine ⟨hfront.1.ne_nil, ?_⟩
    intro name' e' hassign
    cases hassign

theorem takes_read (c : Cursor) : Takes Stmt.read c Stmt.TakenFrom := by
  rw [Stmt.read_eq]
  refine (takes_eatWord "return" c).bind fun isReturn d front hfront => ?_
  cases isReturn with
  | true =>
      refine (takes_afterReturn d).mono fun lexemes stmt hback => ?_
      obtain ⟨result, rfl⟩ := hback
      refine ⟨by simp [hfront], ?_⟩
      intro name e hassign
      cases hassign
  | false =>
      refine (takes_eatWord "local" d).bind fun isLocal d₁ front' _ => ?_
      refine (takes_assignmentOrBare isLocal d₁).mono fun lexemes stmt htaken => ?_
      refine ⟨by simp [htaken.ne_nil], ?_⟩
      intro name e hassign
      exact List.mem_append_right _ (List.mem_append_right _ (htaken.word_mem name e hassign))

/-! ### Lists of statements -/

/-- The fault that a list of statements ends at. -/
def Ending.fault? : Ending → Option Fault
  | .finished => none
  | .broken _ fault => some fault

theorem readSteps_of_end (h : c.lexemes = []) (rounds : Nat) : readSteps rounds c = ([], .finished) := by
  cases rounds with
  | zero => rfl
  | succ rounds => rw [readSteps, if_pos (c.atEnd_eq.2 h)]

theorem readSteps_of_semicolon (h : c.lexemes.head? = some (.symbol .semicolon)) (rounds : Nat) :
    readSteps (rounds + 1) c = readSteps rounds c.advance := by
  have hend : ¬ c.atEnd = true := by
    rw [c.atEnd_eq]
    intro hnil
    rw [hnil] at h
    cases h
  rw [readSteps, if_neg hend, if_pos ((c.atSymbol_eq _).2 h)]

/-- A statement is read next. -/
def AtStatement (c : Cursor) : Prop := c.lexemes ≠ [] ∧ c.lexemes.head? ≠ some (.symbol .semicolon)

theorem readSteps_of_error (h : AtStatement c) {e : Fault} {d : Cursor} (hread : Stmt.read c = .error e d)
    (rounds : Nat) : readSteps (rounds + 1) c = ([], .broken c.line e) := by
  rw [readSteps, if_neg (mt c.atEnd_eq.1 h.1), if_neg (mt (c.atSymbol_eq _).1 h.2), EStateM.run, hread]

theorem readSteps_of_giveBack (h : AtStatement c) {result : Option Expr} {d : Cursor}
    (hread : Stmt.read c = .ok (.giveBack result) d) (rounds : Nat) :
    readSteps (rounds + 1) c = ([⟨c.line, .giveBack result⟩], endingAfterReturn d) := by
  rw [readSteps, if_neg (mt c.atEnd_eq.1 h.1), if_neg (mt (c.atSymbol_eq _).1 h.2), EStateM.run, hread]

theorem readSteps_of_ok (h : AtStatement c) {stmt : Stmt} {d : Cursor} (hread : Stmt.read c = .ok stmt d)
    (hstmt : ∀ result, stmt ≠ .giveBack result) (rounds : Nat) :
    readSteps (rounds + 1) c = (⟨c.line, stmt⟩ :: (readSteps rounds d).1, (readSteps rounds d).2) := by
  rw [readSteps, if_neg (mt c.atEnd_eq.1 h.1), if_neg (mt (c.atSymbol_eq _).1 h.2), EStateM.run, hread]
  cases stmt with
  | giveBack result => exact absurd rfl (hstmt result)
  | assign name e => rfl
  | bare e near => rfl

/-- At the end, at a semicolon, or at a statement. -/
theorem end_or_semicolon_or_statement (c : Cursor) :
    c.lexemes = [] ∨ c.lexemes.head? = some (.symbol .semicolon) ∨ AtStatement c := by
  by_cases hend : c.lexemes = []
  · exact Or.inl hend
  · by_cases hsemicolon : c.lexemes.head? = some (.symbol .semicolon)
    · exact Or.inr (Or.inl hsemicolon)
    · exact Or.inr (Or.inr ⟨hend, hsemicolon⟩)

theorem AtStatement.extends (hc : AtStatement c) (h : c.Extends tail c') : AtStatement c' := by
  obtain ⟨x, rest, hlexemes⟩ := List.exists_cons_of_ne_nil hc.1
  have hx := hc.2
  rw [hlexemes] at hx
  rw [AtStatement, h.lexemes, hlexemes]
  exact ⟨List.cons_ne_nil _ _, hx⟩

theorem lexemes_eq_nil_of_length (h : c.rest.length ≤ 0) : c.lexemes = [] := by
  rw [Cursor.length_rest, Nat.le_zero] at h
  exact List.length_eq_zero_iff.1 h

theorem length_advance_of_head {x : Lexeme} (h : c.lexemes.head? = some x) :
    c.rest.length = c.advance.rest.length + 1 := by
  obtain ⟨token, -, hmoves⟩ := Cursor.moves_advance (c.peek?_eq.trans h)
  rw [hmoves.rest, List.length_append, List.length_singleton, Nat.add_comm]

/-- A statement that was read leaves less. -/
theorem length_of_read {stmt : Stmt} {d : Cursor} (hread : Stmt.read c = .ok stmt d) :
    d.rest.length + 1 ≤ c.rest.length :=
  (takes_read c).length_le hread fun _ htaken => List.length_pos_iff.2 htaken.ne_nil

theorem lexemes_skipSemicolons (c : Cursor) :
    (skipSemicolons c).lexemes = c.lexemes.dropWhile fun x => match x with
      | .symbol .semicolon => true
      | _ => false := by
  rw [Cursor.lexemes, Cursor.lexemes, List.dropWhile_map]
  rfl

theorem endingAfterReturn_fault? (h : c.Extends [] c') :
    (endingAfterReturn c').fault? = (endingAfterReturn c).fault? := by
  have hskip : (skipSemicolons c).Extends [] (skipSemicolons c') := by
    refine ⟨?_, h.depth⟩
    rw [lexemes_skipSemicolons, lexemes_skipSemicolons, h.lexemes, List.append_nil, List.append_nil]
  have hend : (skipSemicolons c').atEnd = (skipSemicolons c).atEnd := by
    rw [Bool.eq_iff_iff, Cursor.atEnd_eq, Cursor.atEnd_eq, hskip.lexemes, List.append_nil]
  rw [endingAfterReturn, endingAfterReturn]
  simp only [hend, hskip.unexpected_eq]
  split <;> rfl

/-- Two cursors with the same lexemes give the same statements, and end at the same fault. -/
theorem readSteps_agrees {rounds rounds' : Nat} (h : c.Extends [] c') (hrounds : c.rest.length ≤ rounds)
    (hrounds' : c'.rest.length ≤ rounds') :
    (readSteps rounds' c').1.map Step.stmt = (readSteps rounds c).1.map Step.stmt
      ∧ (readSteps rounds' c').2.fault? = (readSteps rounds c).2.fault? := by
  induction rounds generalizing rounds' c c' with
  | zero =>
      have hend := lexemes_eq_nil_of_length hrounds
      rw [readSteps_of_end hend, readSteps_of_end (by rw [h.lexemes, hend, List.append_nil])]
      exact ⟨rfl, rfl⟩
  | succ rounds ih =>
      have hlexemes := h.lexemes
      have htotal := h.length_eq
      rw [List.append_nil] at hlexemes
      rw [List.length_nil, Nat.add_zero] at htotal
      rcases end_or_semicolon_or_statement c with hend | hsemicolon | hstatement
      · rw [readSteps_of_end hend, readSteps_of_end (hlexemes.trans hend)]
        exact ⟨rfl, rfl⟩
      · have hless := length_advance_of_head hsemicolon
        obtain ⟨rounds', rfl⟩ : ∃ k, rounds' = k + 1 := ⟨rounds' - 1, by omega⟩
        have hnext := h.advance (c.peek?_eq.trans hsemicolon)
        have htotal' := hnext.length_eq
        rw [readSteps_of_semicolon hsemicolon, readSteps_of_semicolon (by rw [hlexemes, hsemicolon])]
        exact ih hnext (by omega) (by rw [List.length_nil] at htotal'; omega)
      · have hstatement' := hstatement.extends h
        have hagrees := agrees_read startsApart_nil h
        have hnonempty : 0 < c.rest.length := by
          rw [Cursor.length_rest]
          exact List.length_pos_iff.2 hstatement.1
        obtain ⟨rounds', rfl⟩ : ∃ k, rounds' = k + 1 := ⟨rounds' - 1, by omega⟩
        cases hread : Stmt.read c with
        | error e d =>
            obtain ⟨d', hread'⟩ := hagrees.of_error hread
            rw [readSteps_of_error hstatement hread, readSteps_of_error hstatement' hread']
            exact ⟨rfl, rfl⟩
        | ok stmt d =>
            obtain ⟨d', hread', hd⟩ := hagrees.of_ok hread
            by_cases hback : ∃ result, stmt = .giveBack result
            · obtain ⟨result, rfl⟩ := hback
              rw [readSteps_of_giveBack hstatement hread, readSteps_of_giveBack hstatement' hread']
              exact ⟨rfl, endingAfterReturn_fault? hd⟩
            · have hstmt : ∀ result, stmt ≠ .giveBack result := fun result heq => hback ⟨result, heq⟩
              have hless := length_of_read hread
              have htotal' := hd.length_eq
              rw [List.length_nil] at htotal'
              have hleft : d'.rest.length ≤ rounds' := by omega
              obtain ⟨hsteps, hfault⟩ := ih hd (by omega) hleft
              rw [readSteps_of_ok hstatement hread hstmt, readSteps_of_ok hstatement' hread' hstmt]
              exact ⟨congrArg (stmt :: ·) hsteps, hfault⟩

/-- Behind the end of a text only the semicolon is passed. -/
theorem readSteps_of_end_append {rounds : Nat} {rest : List Lexeme} (h : c.Extends (.symbol .semicolon :: rest) c')
    (hend : c.lexemes = []) (hrounds : c'.rest.length ≤ rounds + 1) :
    c'.advance.lexemes = rest ∧ c'.advance.rest.length ≤ rounds
      ∧ readSteps (rounds + 1) c' = readSteps rounds c'.advance := by
  have hlexemes := h.lexemes
  rw [hend, List.nil_append] at hlexemes
  have hhead : c'.lexemes.head? = some (.symbol .semicolon) := by rw [hlexemes, List.head?_cons]
  have hless := length_advance_of_head hhead
  exact ⟨Cursor.lexemes_advance_of_cons hlexemes, by omega, readSteps_of_semicolon hhead rounds⟩

/-- In front of a semicolon the statements of a text are read, and then what is behind it. -/
theorem readSteps_append {rounds rounds' : Nat} {rest : List Lexeme} (h : c.Extends (.symbol .semicolon :: rest) c')
    (hrounds : c.rest.length ≤ rounds) (hrounds' : c'.rest.length ≤ rounds')
    (hfinished : (readSteps rounds c).2 = .finished)
    (hnone : ∀ step ∈ (readSteps rounds c).1, ∀ result, step.stmt ≠ .giveBack result) :
    ∃ (front : List Step) (d : Cursor) (rounds'' : Nat),
      front.map Step.stmt = (readSteps rounds c).1.map Step.stmt
        ∧ d.lexemes = rest ∧ d.depth = c.depth ∧ d.rest.length ≤ rounds''
        ∧ readSteps rounds' c' = (front ++ (readSteps rounds'' d).1, (readSteps rounds'' d).2) := by
  induction rounds generalizing rounds' c c' with
  | zero =>
      have htotal := h.length_eq
      rw [List.length_cons] at htotal
      obtain ⟨rounds', rfl⟩ : ∃ k, rounds' = k + 1 := ⟨rounds' - 1, by omega⟩
      obtain ⟨hrest, hless, hsteps⟩ := readSteps_of_end_append h (lexemes_eq_nil_of_length hrounds) hrounds'
      exact ⟨[], c'.advance, rounds', rfl, hrest, h.depth, hless, hsteps⟩
  | succ rounds ih =>
      have htotal := h.length_eq
      rw [List.length_cons] at htotal
      obtain ⟨rounds', rfl⟩ : ∃ k, rounds' = k + 1 := ⟨rounds' - 1, by omega⟩
      rcases end_or_semicolon_or_statement c with hend | hsemicolon | hstatement
      · obtain ⟨hrest, hless, hsteps⟩ := readSteps_of_end_append h hend hrounds'
        refine ⟨[], c'.advance, rounds', ?_, hrest, h.depth, hless, hsteps⟩
        rw [readSteps_of_end hend]
      · have hless := length_advance_of_head hsemicolon
        have hnext := h.advance (c.peek?_eq.trans hsemicolon)
        have htotal' := hnext.length_eq
        rw [List.length_cons] at htotal'
        have hhead : c'.lexemes.head? = some (.symbol .semicolon) := by
          rw [h.lexemes, List.head?_append, hsemicolon]
          rfl
        rw [readSteps_of_semicolon hsemicolon] at hfinished hnone ⊢
        rw [readSteps_of_semicolon hhead]
        exact ih hnext (by omega) (by omega) hfinished hnone
      · cases hread : Stmt.read c with
        | error e d =>
            rw [readSteps_of_error hstatement hread] at hfinished
            cases hfinished
        | ok stmt d =>
            have hstmt : ∀ result, stmt ≠ .giveBack result := by
              rintro result rfl
              rw [readSteps_of_giveBack hstatement hread] at hnone
              exact hnone _ (List.mem_singleton_self _) result rfl
            obtain ⟨d', hread', hd⟩ := (agrees_read (startsApart_semicolon rest) h).of_ok hread
            obtain ⟨taken, hmoves, -⟩ := (takes_read c).of_ok hread
            have hless := length_of_read hread
            have htotal' := hd.length_eq
            rw [List.length_cons] at htotal'
            rw [readSteps_of_ok hstatement hread hstmt] at hfinished hnone ⊢
            have hleft : d'.rest.length ≤ rounds' := by omega
            obtain ⟨front, d'', rounds'', hfront, hrest, hdepth, hless'', hsteps⟩ :=
              ih hd (by omega) hleft hfinished fun step hstep => hnone step (List.mem_cons_of_mem _ hstep)
            refine ⟨⟨c'.line, stmt⟩ :: front, d'', rounds'', congrArg (stmt :: ·) hfront, hrest,
              hdepth.trans hmoves.depth, hless'', ?_⟩
            rw [readSteps_of_ok (hstatement.extends h) hread' hstmt, hsteps]
            rfl

/-! ### Programs -/

theorem expr_of_loneExpr? {e : Expr} (h : loneExpr? c = some e) :
    ∃ d, Reader.expr c = .ok e d ∧ d.lexemes = [] ∧ Spells c.lexemes e := by
  unfold loneExpr? at h
  cases hexpr : Reader.expr.run c with
  | error fault d =>
      rw [hexpr] at h
      cases h
  | ok e' d =>
      rw [hexpr] at h
      simp only at h
      split at h
      next hend =>
        obtain rfl := Option.some.inj h
        obtain ⟨taken, hmoves, hspells, -⟩ := (takes_expr c).of_ok hexpr
        rw [d.atEnd_eq] at hend
        refine ⟨d, hexpr, hend, ?_⟩
        rw [Cursor.lexemes, hmoves.rest, List.map_append]
        rw [Cursor.lexemes] at hend
        rwa [hend, List.append_nil]
      · cases h

/-- A text with a semicolon is no expression. -/
theorem loneExpr?_of_semicolon (h : .symbol .semicolon ∈ c.lexemes) : loneExpr? c = none := by
  rw [Option.eq_none_iff_forall_ne_some]
  intro e hlone
  obtain ⟨d, -, -, hspells⟩ := expr_of_loneExpr? hlone
  exact (hspells.inExpr h).2 rfl

/-- A text that is one expression is read as a bare one. -/
theorem read_of_loneExpr? {e : Expr} (h : loneExpr? c = some e) :
    ∃ near d, Stmt.read c = .ok (.bare e near) d ∧ d.lexemes = [] := by
  obtain ⟨d, hexpr, hend, hspells⟩ := expr_of_loneExpr? h
  have hkeyword : ∀ w, w = "return" ∨ w = "local" → c.lexemes.head? ≠ some (.word w) := by
    intro w hw hhead
    obtain ⟨fault, d', herror⟩ := exists_error_expr_of_keyword hw hhead
    rw [hexpr] at herror
    cases herror
  have hassigns : c.assigns = false := by
    rw [Bool.eq_false_iff, Ne, Cursor.assigns_eq]
    intro hsecond
    exact (hspells.inExpr (List.mem_of_mem_tail (List.mem_of_head? hsecond))).1 rfl
  refine ⟨(c.peek?.map Lexeme.describe).getD "", d, ?_, hend⟩
  rw [Stmt.read_eq, bind_of_ok (eatWord_of_head_ne (hkeyword "return" (Or.inl rfl)))]
  simp only [Bool.false_eq_true, if_false]
  rw [bind_of_ok (eatWord_of_head_ne (hkeyword "local" (Or.inr rfl))), assignmentOrBare, get_bind, hassigns]
  exact bind_of_ok hexpr

theorem readSteps_of_loneExpr? {e : Expr} (h : loneExpr? c = some e) {rounds : Nat} (hrounds : c.rest.length ≤ rounds) :
    ∃ line near, readSteps rounds c = ([⟨line, .bare e near⟩], .finished) := by
  obtain ⟨near, d, hread, hend⟩ := read_of_loneExpr? h
  obtain ⟨-, -, -, hspells⟩ := expr_of_loneExpr? h
  have hstatement : AtStatement c :=
    ⟨hspells.ne_nil, fun hhead => (hspells.inExpr (List.mem_of_head? hhead)).2 rfl⟩
  have hless := length_of_read hread
  obtain ⟨rounds, rfl⟩ : ∃ k, rounds = k + 1 := ⟨rounds - 1, by omega⟩
  refine ⟨c.line, near, ?_⟩
  rw [readSteps_of_ok hstatement hread (by simp), readSteps_of_end hend]

/-- The statements of a text and how they end. -/
def statements (tokens : List Token) : List Step × Ending := readSteps tokens.length (Cursor.ofTokens tokens)

/-- With a semicolon between them, two texts are a program of the statements of the one and the statements of the
other. -/
theorem ofTokens_joined {first behind second : List Token}
    (hbehind : behind.map Token.lexeme = .symbol .semicolon :: second.map Token.lexeme)
    (hfinished : (statements first).2 = .finished)
    (hnone : ∀ step ∈ (statements first).1, ∀ result, step.stmt ≠ .giveBack result) :
    ∃ (front body : List Step) (ending : Ending), Program.ofTokens (first ++ behind) = .steps (front ++ body) ending
      ∧ front.map Step.stmt = (statements first).1.map Step.stmt
      ∧ body.map Step.stmt = (statements second).1.map Step.stmt
      ∧ ending.fault? = (statements second).2.fault? := by
  have hextends : (Cursor.ofTokens first).Extends (.symbol .semicolon :: second.map Token.lexeme)
      (Cursor.ofTokens (first ++ behind)) := by
    refine ⟨?_, rfl⟩
    rw [Cursor.lexemes, Cursor.lexemes, Cursor.ofTokens, Cursor.ofTokens, List.map_append, hbehind]
  obtain ⟨front, d, rounds, hfront, hrest, hdepth, hless, hsteps⟩ :=
    readSteps_append hextends (Nat.le_refl first.length) (Nat.le_refl (first ++ behind).length) hfinished hnone
  have hsecond : (Cursor.ofTokens second).Extends [] d := by
    refine ⟨?_, hdepth⟩
    rw [hrest, List.append_nil]
    rfl
  obtain ⟨hbody, hfault⟩ := readSteps_agrees hsecond (Nat.le_refl second.length) hless
  refine ⟨front, (readSteps rounds d).1, (readSteps rounds d).2, ?_, hfront, hbody, hfault⟩
  have hlone : loneExpr? (Cursor.ofTokens (first ++ behind)) = none := by
    apply loneExpr?_of_semicolon
    rw [hextends.lexemes]
    exact List.mem_append_right _ List.mem_cons_self
  rw [Program.ofTokens, hlone]
  simp only [hsteps]

end Script

end Transcript
