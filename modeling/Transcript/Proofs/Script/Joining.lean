import Transcript.Proofs.Script.Running
import Transcript.Proofs.Token.Joining

/-!
Programs joined by a semicolon. A program that is done, behind a line feed a semicolon and another program: that does
what the one and then the other do, but for the lines on which faults are reported. The first must not give back,
for nothing may follow that, and the second must not be an expression, whose value only a program of its own shows.
-/
namespace Transcript

namespace Script

def Stmt.givesBack : Stmt → Bool
  | .giveBack _ => true
  | _ => false

/-- Whether one of the statements gives back. -/
def Program.givesBack : Program → Bool
  | .steps body _ => body.any (·.stmt.givesBack)
  | _ => false

/-- Outcomes that are the same, but for the line on which a fault is reported. -/
inductive SameButLine : Outcome → Outcome → Prop
  | refl (outcome : Outcome) : SameButLine outcome outcome
  | failed (line line' : Nat) (fault : Fault) :
      SameButLine (.failed (Located.message ⟨line, fault⟩)) (.failed (Located.message ⟨line', fault⟩))

/-- How a run ends, as its evaluation tells. -/
def Run.outcome (view : View) (r : Run) : Outcome :=
  match r.result with
  | .ok none => .done
  | .ok (some v) => .value (view.render v)
  | .error located => .failed located.message

theorem evaluate_eq (program : List String) (view : View) (s : Script) :
    evaluate program view s =
      let r := (Program.ofSource ("\n".intercalate program)).run view s.vars
      { outcome := r.outcome view, output := r.sink, state := ⟨r.vars⟩ } := rfl

variable {view : View}

theorem Run.outcome_sameButLine {r r' : Run}
    (hresult : r'.result.mapError Located.fault = r.result.mapError Located.fault) :
    Script.SameButLine (r.outcome view) (r'.outcome view) := by
  unfold Run.outcome
  cases hr : r.result with
  | ok result =>
      cases hr' : r'.result with
      | ok result' =>
          rw [hr, hr'] at hresult
          obtain rfl : result' = result := Except.ok.inj hresult
          exact .refl _
      | error located' =>
          rw [hr, hr'] at hresult
          cases hresult
  | error located =>
      cases hr' : r'.result with
      | ok result' =>
          rw [hr, hr'] at hresult
          cases hresult
      | error located' =>
          rw [hr, hr'] at hresult
          obtain ⟨line, fault⟩ := located
          obtain ⟨line', fault'⟩ := located'
          obtain rfl : fault' = fault := Except.error.inj hresult
          exact .failed line line' _

theorem Run.result_of_outcome {r : Run} (h : r.outcome view = .done) : r.result = .ok none := by
  unfold Run.outcome at h
  split at h
  · assumption
  · cases h
  · cases h

theorem ofTokens_of_loneExpr? {tokens : List Token} {e : Expr}
    (h : loneExpr? (Cursor.ofTokens tokens) = some e) : Program.ofTokens tokens = .lone e := by
  rw [Program.ofTokens, h]

theorem ofTokens_of_statements {tokens : List Token} (h : loneExpr? (Cursor.ofTokens tokens) = none) :
    Program.ofTokens tokens = .steps (statements tokens).1 (statements tokens).2 := by
  rw [Program.ofTokens, h]
  rfl

/-- A call without a value shows nothing, neither as a program nor as a statement. -/
theorem run_bare_of_isNil {e : Expr} {vars : Environment} {sink sink' : Sink} {v : Value} (hcall : e.isCall = true)
    (heval : (e.eval (scope view.place vars)).run sink = .ok v sink') (hnil : v.isNil = true) (near : String) :
    ((Stmt.bare e near).run view vars).run sink = .ok (.next vars) sink' := by
  have hunshown : (!e.isCall && !view.inspect) = false := by simp [hcall]
  have hsilent : (view.inspect && (!v.isNil || !e.isCall)) = false := by simp [hcall, hnil]
  rw [Stmt.run, hunshown]
  simp only [Bool.false_eq_true, if_false]
  rw [EStateM.run_bind, heval]
  simp only [hsilent, Bool.false_eq_true, if_false]
  rfl

/-- An expression that is done is a call without a value, and does the same as a statement. -/
theorem runSteps_of_lone {e : Expr} {vars : Environment} (h : ((Program.lone e).run view vars).result = .ok none)
    (line : Nat) (near : String) :
    runSteps view .finished [⟨line, .bare e near⟩] vars .empty = (Program.lone e).run view vars := by
  cases heval : (e.eval (scope view.place vars)).run Sink.empty with
  | error fault sink =>
      simp only [Program.run, heval] at h
      cases h
  | ok v sink =>
      simp only [Program.run, heval] at h ⊢
      split at h
      next hshown =>
        have hvalue := Bool.and_eq_true_iff.1 hshown
        rw [runSteps, run_bare_of_isNil hvalue.1 heval hvalue.2, if_pos hshown]
        rfl
      · cases h

/-- A program that is done and gives nothing back is a finished list of statements, also if it is one expression. -/
theorem statements_of_done {tokens : List Token} {vars : Environment}
    (hdone : ((Program.ofTokens tokens).run view vars).result = .ok none)
    (hreturn : (Program.ofTokens tokens).givesBack = false) :
    (statements tokens).2 = .finished
      ∧ (∀ step ∈ (statements tokens).1, ∀ result, step.stmt ≠ .giveBack result)
      ∧ runSteps view .finished (statements tokens).1 vars .empty = (Program.ofTokens tokens).run view vars := by
  cases hlone : loneExpr? (Cursor.ofTokens tokens) with
  | some e =>
      have hprogram := ofTokens_of_loneExpr? hlone
      obtain ⟨line, near, hsteps⟩ := readSteps_of_loneExpr? hlone (Nat.le_refl tokens.length)
      rw [hprogram] at hdone
      rw [statements, hsteps, hprogram]
      refine ⟨rfl, ?_, ?_⟩
      · intro step hstep result
        obtain rfl := List.mem_singleton.1 hstep
        simp
      · exact runSteps_of_lone hdone line near
  | none =>
      have hprogram := ofTokens_of_statements hlone
      rw [hprogram] at hdone hreturn ⊢
      have hfinished := finished_of_ok hdone
      refine ⟨hfinished, ?_, ?_⟩
      · intro step hstep result hback
        have hstmt := List.any_eq_false.1 hreturn step hstep
        rw [hback] at hstmt
        exact hstmt rfl
      · rw [Program.run, hfinished]

/-- The run of two joined programs, told by the runs of the two. -/
theorem run_joined {first behind second : List Token} {vars : Environment}
    (hbehind : behind.map Token.lexeme = .symbol .semicolon :: second.map Token.lexeme)
    (hdone : ((Program.ofTokens first).run view vars).result = .ok none)
    (hreturn : (Program.ofTokens first).givesBack = false) (hlone : loneExpr? (Cursor.ofTokens second) = none)
    {r₁ r₂ r : Run} (hr₁ : (Program.ofTokens first).run view vars = r₁)
    (hr₂ : (Program.ofTokens second).run view r₁.vars = r₂)
    (hr : (Program.ofTokens (first ++ behind)).run view vars = r) :
    r.vars = r₂.vars ∧ r.sink.lines = r₁.sink.lines ++ r₂.sink.lines
      ∧ r.result.mapError Located.fault = r₂.result.mapError Located.fault := by
  obtain ⟨hfinished, hnone, hrun₁⟩ := statements_of_done hdone hreturn
  obtain ⟨front, body, ending, hprogram, hfront, hbody, hfault⟩ := ofTokens_joined hbehind hfinished hnone
  rw [hr₁] at hdone hrun₁
  obtain ⟨result₁, vars₁, sink₁⟩ := r₁
  obtain rfl : result₁ = .ok none := hdone
  have hnone' : ∀ step ∈ front, ∀ result, step.stmt ≠ .giveBack result := by
    intro step hstep result hback
    have hmem : step.stmt ∈ (statements first).1.map Step.stmt := hfront ▸ List.mem_map_of_mem hstep
    obtain ⟨step', hstep', heq⟩ := List.mem_map.1 hmem
    exact hnone step' hstep' result (heq.trans hback)
  rw [hprogram, Program.run, runSteps_append hnone' (runSteps_eq_of_ok hfront hrun₁)] at hr
  -- Behind the first program the second pushes what it pushes by itself, onto what the first pushed.
  obtain ⟨texts, result, vars₂, hrun₂⟩ := exists_runSteps_eq view (statements second).2 (statements second).1 vars₁
  have hsame : (runSteps view _ _ vars₁ sink₁).SameButLine (runSteps view ending body vars₁ sink₁) :=
    runSteps_sameButLine hbody hfault vars₁ sink₁
  rw [hr, hrun₂] at hsame
  rw [ofTokens_of_statements hlone, Program.run, hrun₂] at hr₂
  subst hr₂
  refine ⟨hsame.vars, ?_, hsame.result⟩
  rw [hsame.sink]
  exact Sink.lines_pushAll sink₁ texts

theorem ofSource_of_scan {source : String} {tokens : List Token} (h : Token.scan source = .ok tokens) :
    Program.ofSource source = .ofTokens tokens := by
  rw [Program.ofSource, h]

/-- **Programs joined by a semicolon.** Where the first program is done without giving back, and the second can be
scanned and is no expression, the variables and the output of the two joined are those of the one and then the other,
and the outcome is that of the second, but for the line on which a fault is reported. -/
theorem evaluate_behind_semicolon {first second joined : List String}
    (hjoined : "\n".intercalate joined = "\n".intercalate first ++ "\n;" ++ "\n".intercalate second)
    (view : View) (s : Script) (hdone : (evaluate first view s).outcome = .done)
    (hreturn : (Program.ofSource ("\n".intercalate first)).givesBack = false) {tokens : List Token}
    (hscan : Token.scan ("\n".intercalate second) = .ok tokens)
    (hlone : loneExpr? (Cursor.ofTokens tokens) = none) :
    (evaluate joined view s).state = (evaluate second view (evaluate first view s).state).state
      ∧ (evaluate joined view s).output.lines
          = (evaluate first view s).output.lines
            ++ (evaluate second view (evaluate first view s).state).output.lines
      ∧ SameButLine (evaluate second view (evaluate first view s).state).outcome (evaluate joined view s).outcome := by
  simp only [evaluate_eq] at hdone ⊢
  have hresult := Run.result_of_outcome hdone
  cases hfirst : Token.scan ("\n".intercalate first) with
  | error fault =>
      rw [Program.ofSource, hfirst] at hresult
      cases hresult
  | ok tokens₁ =>
      obtain ⟨behind, hscanned, hbehind⟩ := Token.scan_joined hjoined hfirst hscan
      rw [ofSource_of_scan hfirst] at hresult hreturn ⊢
      rw [ofSource_of_scan hscanned, ofSource_of_scan hscan]
      obtain ⟨hvars, hlines, houtcome⟩ := run_joined hbehind hresult hreturn hlone rfl rfl rfl
      exact ⟨congrArg Script.mk hvars, hlines, Run.outcome_sameButLine houtcome⟩

/-- The second program assigns what the first left, and its fault moves down by the lines of the first. -/
theorem evaluate_behind_semicolon_failing :
    ((evaluate ["x = 'a'", "print(x)", ";y = x", "z"] ⟨{}, false⟩ {}).state
          = (evaluate ["y = x", "z"] ⟨{}, false⟩ (evaluate ["x = 'a'", "print(x)"] ⟨{}, false⟩ {}).state).state
        ∧ (evaluate ["x = 'a'", "print(x)", ";y = x", "z"] ⟨{}, false⟩ {}).output.lines
          = (evaluate ["x = 'a'", "print(x)"] ⟨{}, false⟩ {}).output.lines
            ++ (evaluate ["y = x", "z"] ⟨{}, false⟩
                (evaluate ["x = 'a'", "print(x)"] ⟨{}, false⟩ {}).state).output.lines
        ∧ SameButLine
            (evaluate ["y = x", "z"] ⟨{}, false⟩ (evaluate ["x = 'a'", "print(x)"] ⟨{}, false⟩ {}).state).outcome
            (evaluate ["x = 'a'", "print(x)", ";y = x", "z"] ⟨{}, false⟩ {}).outcome)
      ∧ (evaluate ["x = 'a'", "print(x)", ";y = x", "z"] ⟨{}, false⟩ {}).outcome
          = .failed "[string \"repl\"]:4: syntax error near 'z'" := by
  have hscan : Token.scan ("\n".intercalate ["y = x", "z"])
      = .ok [⟨.word "y", 1⟩, ⟨.symbol .assign, 1⟩, ⟨.word "x", 1⟩, ⟨.word "z", 2⟩] := by
    with_unfolding_all rfl
  exact ⟨evaluate_behind_semicolon (by decide +kernel) ⟨{}, false⟩ {} (by decide +kernel) (by decide +kernel) hscan
    (by with_unfolding_all rfl), by decide +kernel⟩

end Script

end Transcript
