import Transcript.Ex.Run
import Transcript.Proofs.Script.Joining

/-!
Inspecting values. A program that runs without an error runs so too while values are inspected: it leaves the same
variables, prints the same lines and ends in the same way, with the same value if it has one. What inspecting adds are
the values of bare expressions, and values are shown in full. It may make a program legal that is none without it,
never the other way round.
-/
namespace Transcript

/-- What the outcome of a program becomes while values are inspected. -/
inductive Outcome.Reveals : Outcome → Outcome → Prop where
  | done : Reveals .done .done
  | value (v : Value) : Reveals (.value v.display) (.value v.inspect)

/-- Of two evaluations, the second shows values in full and adds the values that it shows on the way. -/
structure Evaluation.Reveals {σ : Type} (plain full : Evaluation σ) : Prop where
  outcome : plain.outcome.Reveals full.outcome
  printed : full.output.linesIn .output = plain.output.linesIn .output
  state : full.state = plain.state

namespace Script

/-- Two runs with the same result that leave the same variables and print the same lines. -/
structure Run.PrintsAlike (r r' : Run) : Prop where
  result : r'.result = r.result
  vars : r'.vars = r.vars
  printed : r'.sink.linesIn .output = r.sink.linesIn .output

variable {place : Place} {sink sink' sink₁ : Sink}

/-- A step that only pushes gives the same over other output, and prints the same. -/
theorem exists_run_of_emits {ε α : Type} {p : EStateM ε Sink α} (hp : Emits p) {a : α}
    (hrun : p.run sink = .ok a sink₁) (hprinted : sink'.linesIn .output = sink.linesIn .output) :
    ∃ sink₁', p.run sink' = .ok a sink₁' ∧ sink₁'.linesIn .output = sink₁.linesIn .output := by
  obtain ⟨texts, result, hall⟩ := hp
  rw [hall sink] at hrun
  cases result with
  | error e => cases hrun
  | ok b =>
      obtain ⟨rfl, rfl⟩ := EStateM.Result.ok.inj hrun
      exact ⟨_, hall sink', Sink.linesIn_pushAll hprinted texts⟩

/-- A bare expression that runs without being inspected is a call. -/
theorem bare_of_ok {e : Expr} {near : String} {vars : Environment} {flow : Flow}
    (hrun : ((Stmt.bare e near).run ⟨place, false⟩ vars).run sink = .ok flow sink₁) :
    e.isCall = true ∧ flow = .next vars ∧ ∃ v, (e.eval (scope place vars)).run sink = .ok v sink₁ := by
  cases hcall : e.isCall with
  | false =>
      rw [Stmt.run, hcall] at hrun
      cases hrun
  | true =>
      rw [Stmt.run, hcall] at hrun
      simp only [Bool.not_true, Bool.false_and, Bool.false_eq_true, if_false, EStateM.run_bind] at hrun
      cases heval : (e.eval (scope place vars)).run sink with
      | error fault sink₂ =>
          rw [heval] at hrun
          cases hrun
      | ok v sink₂ =>
          rw [heval] at hrun
          obtain ⟨rfl, rfl⟩ := EStateM.Result.ok.inj hrun
          exact ⟨rfl, rfl, v, rfl⟩

/-- An inspected call shows at most its value. -/
theorem exists_run_bare {e : Expr} (hcall : e.isCall = true) {vars : Environment} {v : Value}
    (heval : (e.eval (scope place vars)).run sink = .ok v sink₁) (near : String) :
    ∃ sink₂, ((Stmt.bare e near).run ⟨place, true⟩ vars).run sink = .ok (.next vars) sink₂
      ∧ sink₂.linesIn .output = sink₁.linesIn .output := by
  rw [Stmt.run, hcall]
  simp only [Bool.not_true, Bool.false_and, Bool.false_eq_true, if_false, EStateM.run_bind, heval]
  cases v.isNil with
  | true => exact ⟨sink₁, rfl, rfl⟩
  | false => exact ⟨_, rfl, Sink.linesIn_push_of_ne (by decide) sink₁ _⟩

/-- A statement that runs goes on in the same way while values are inspected. -/
theorem Stmt.exists_run_inspected {stmt : Stmt} {vars : Environment} {flow : Flow}
    (hrun : (stmt.run ⟨place, false⟩ vars).run sink = .ok flow sink₁)
    (hprinted : sink'.linesIn .output = sink.linesIn .output) :
    ∃ sink₁', (stmt.run ⟨place, true⟩ vars).run sink' = .ok flow sink₁'
      ∧ sink₁'.linesIn .output = sink₁.linesIn .output := by
  have hemits := holdsOfPushing_emits.run ⟨place, false⟩ vars stmt
  cases stmt with
  | giveBack result => cases result <;> exact exists_run_of_emits hemits hrun hprinted
  | assign name e => exact exists_run_of_emits hemits hrun hprinted
  | bare e near =>
      obtain ⟨hcall, rfl, v, heval⟩ := bare_of_ok hrun
      obtain ⟨sink₁', heval', hprinted'⟩ :=
        exists_run_of_emits (holdsOfPushing_emits.eval place vars e) heval hprinted
      obtain ⟨sink₂, hrun', hshown⟩ := exists_run_bare hcall heval' near
      exact ⟨sink₂, hrun', hshown.trans hprinted'⟩

/-- Induction on the statements; the two runs differ in the values shown so far, which no statement sees. -/
theorem runSteps_inspected {ending : Ending} {steps : List Step} {vars : Environment} {result : Option Value}
    (hok : (runSteps ⟨place, false⟩ ending steps vars sink).result = .ok result)
    (hprinted : sink'.linesIn .output = sink.linesIn .output) :
    (runSteps ⟨place, false⟩ ending steps vars sink).PrintsAlike
      (runSteps ⟨place, true⟩ ending steps vars sink') := by
  induction steps generalizing vars sink sink' with
  | nil => cases ending <;> exact ⟨rfl, rfl, hprinted⟩
  | cons step steps ih =>
      rw [runSteps] at hok ⊢
      cases hrun : (step.stmt.run ⟨place, false⟩ vars).run sink with
      | error fault sink₁ =>
          rw [hrun] at hok
          cases hok
      | ok flow sink₁ =>
          rw [hrun] at hok
          obtain ⟨sink₁', hrun', hprinted'⟩ := Stmt.exists_run_inspected hrun hprinted
          rw [runSteps, hrun']
          cases flow with
          | next vars' => exact ih hok hprinted'
          | stop result' => cases ending <;> exact ⟨rfl, rfl, hprinted'⟩

theorem Program.run_inspected {program : Program} {vars : Environment} {result : Option Value}
    (hok : (program.run ⟨place, false⟩ vars).result = .ok result) :
    (program.run ⟨place, false⟩ vars).PrintsAlike (program.run ⟨place, true⟩ vars) := by
  cases program with
  | unreadable fault => cases hok
  | lone e => exact ⟨rfl, rfl, rfl⟩
  | steps body ending => exact runSteps_inspected hok rfl

/-- The run of a program, whose result is what an evaluation tells in words. -/
def runOf (s : Script) (program : List String) (view : View) : Run :=
  (Program.ofSource ("\n".intercalate program)).run view s.vars

theorem outcome_evaluate (program : List String) (view : View) (s : Script) :
    (evaluate program view s).outcome = (s.runOf program view).outcome view := rfl

theorem exists_result_of_not_failed {program : List String} {view : View} {s : Script}
    (h : ∀ message, (evaluate program view s).outcome ≠ .failed message) :
    ∃ result, (s.runOf program view).result = .ok result := by
  cases hresult : (s.runOf program view).result with
  | ok result => exact ⟨result, rfl⟩
  | error located =>
      refine absurd ?_ (h located.message)
      rw [outcome_evaluate, Run.outcome, hresult]

/-- Without a fault the two evaluations have the same result, and the second shows more. -/
theorem reveals_of_result {program : List String} {s : Script} {result : Option Value}
    (hresult : (s.runOf program ⟨place, false⟩).result = .ok result) :
    (evaluate program ⟨place, false⟩ s).Reveals (evaluate program ⟨place, true⟩ s)
      ∧ (s.runOf program ⟨place, true⟩).result = (s.runOf program ⟨place, false⟩).result := by
  have halike := Program.run_inspected hresult
  have hresult' : (s.runOf program ⟨place, true⟩).result = .ok result := halike.result.trans hresult
  refine ⟨⟨?_, halike.printed, congrArg Script.mk halike.vars⟩, halike.result⟩
  rw [outcome_evaluate, outcome_evaluate, Run.outcome, Run.outcome, hresult, hresult']
  cases result with
  | none => exact .done
  | some v => exact .value v

end Script

/-- The language of lines does not look at what is inspected. -/
theorem Ex.reveals_of_not_failed {program : List String} {place : Place} {s : Ex}
    (h : ∀ message, (evaluate program ⟨place, false⟩ s).outcome ≠ .failed message) :
    (evaluate program ⟨place, false⟩ s).Reveals (evaluate program ⟨place, true⟩ s) := by
  have hsame : evaluate program ⟨place, true⟩ s = evaluate program ⟨place, false⟩ s := rfl
  rw [hsame]
  refine ⟨?_, rfl, rfl⟩
  unfold evaluate at h ⊢
  dsimp only at h ⊢
  split
  · exact .done
  next e r hrun =>
    rw [hrun] at h
    exact absurd rfl (h e.message)

/-- **Inspecting shows more and changes nothing.** In both languages a program without an error has none while values
are inspected, leaves the same variables, prints the same lines in the same order and ends in the same way. In the
scripting language the value that is shown in full is the one that is shown without inspecting. -/
theorem evaluate_inspected (program : List String) (place : Place) :
    (∀ s : Script, (∀ message, (Evaluator.eval program ⟨place, false⟩ s).outcome ≠ .failed message) →
        (Evaluator.eval program ⟨place, false⟩ s).Reveals (Evaluator.eval program ⟨place, true⟩ s)
          ∧ (s.runOf program ⟨place, true⟩).result = (s.runOf program ⟨place, false⟩).result)
      ∧ ∀ s : Ex, (∀ message, (Evaluator.eval program ⟨place, false⟩ s).outcome ≠ .failed message) →
        (Evaluator.eval program ⟨place, false⟩ s).Reveals (Evaluator.eval program ⟨place, true⟩ s) := by
  refine ⟨?_, ?_⟩
  · intro s hok
    obtain ⟨result, hresult⟩ := Script.exists_result_of_not_failed hok
    exact Script.reveals_of_result hresult
  · intro s hok
    exact Ex.reveals_of_not_failed hok

/-- A script that prints, calls for a value and gives one back, and a line that prints. The value of the call is shown
only while values are inspected. -/
theorem evaluate_inspected_showing_call :
    (Evaluator.eval ["x = 'a'", "print(x)", "type(x)", "return x"] ⟨{}, false⟩ ({} : Script)).Reveals
        (Evaluator.eval ["x = 'a'", "print(x)", "type(x)", "return x"] ⟨{}, true⟩ ({} : Script))
      ∧ (({} : Script).runOf ["x = 'a'", "print(x)", "type(x)", "return x"] ⟨{}, true⟩).result
        = (({} : Script).runOf ["x = 'a'", "print(x)", "type(x)", "return x"] ⟨{}, false⟩).result
      ∧ (Evaluator.eval ["x = 'a'", "print(x)", "type(x)", "return x"] ⟨{}, true⟩ ({} : Script)).output.lines
        = [(.output, "a"), (.value, "\"string\"")]
      ∧ (Evaluator.eval ["echo 'a'"] ⟨{}, false⟩ ({} : Ex)).Reveals
        (Evaluator.eval ["echo 'a'"] ⟨{}, true⟩ ({} : Ex)) := by
  have hvalue : (Evaluator.eval ["x = 'a'", "print(x)", "type(x)", "return x"] ⟨{}, false⟩ ({} : Script)).outcome
      = .value "a" := by decide +kernel
  have hdone : (Evaluator.eval ["echo 'a'"] ⟨{}, false⟩ ({} : Ex)).outcome = .done := by decide +kernel
  obtain ⟨hreveals, hresult⟩ :=
    (evaluate_inspected ["x = 'a'", "print(x)", "type(x)", "return x"] {}).1 {} (by simp [hvalue])
  exact ⟨hreveals, hresult, by decide +kernel, (evaluate_inspected ["echo 'a'"] {}).2 {} (by simp [hdone])⟩

end Transcript
