import Transcript.Proofs.Output
import Transcript.Proofs.Script.Reading
import Transcript.Proofs.Script.Stepwise

/-!
Running statements. What a statement pushes and how it ends do not depend on what was pushed before it, and the lines
of the statements are only reported. So statements behind others do what they do by themselves, from the variables that
the others leave.
-/
namespace Transcript

section Emits

variable {ε α β : Type}

/-- A step that pushes the same texts and ends in the same way whatever was pushed before. -/
def Emits (p : EStateM ε Sink α) : Prop :=
  ∃ (texts : List (Highlight × String)) (result : Except ε α), ∀ sink : Sink, p.run sink = match result with
    | .ok a => .ok a (sink.pushAll texts)
    | .error e => .error e (sink.pushAll texts)

theorem emits_pure (a : α) : Emits (pure a : EStateM ε Sink α) := ⟨[], .ok a, fun _ => rfl⟩

theorem emits_throw (e : ε) : Emits (throw e : EStateM ε Sink α) := ⟨[], .error e, fun _ => rfl⟩

theorem emits_push (highlight : Highlight) (text : String) :
    Emits (modify fun sink => sink.push highlight text : EStateM ε Sink PUnit) :=
  ⟨[(highlight, text)], .ok ⟨⟩, fun _ => rfl⟩

theorem emits_bind {p : EStateM ε Sink α} {f : α → EStateM ε Sink β} (hp : Emits p) (hf : ∀ a, Emits (f a)) :
    Emits (p >>= f) := by
  obtain ⟨texts, result, hrun⟩ := hp
  cases result with
  | error e =>
      refine ⟨texts, .error e, fun sink => ?_⟩
      rw [EStateM.run_bind, hrun]
  | ok a =>
      obtain ⟨texts', result', hrun'⟩ := hf a
      refine ⟨texts ++ texts', result', fun sink => ?_⟩
      rw [EStateM.run_bind, hrun, Sink.pushAll_append]
      exact hrun' _

end Emits

namespace Script

variable {view : View}

theorem holdsOfPushing_emits : HoldsOfPushing fun _ m => Emits m where
  of_pure := emits_pure
  of_throw := emits_throw
  of_bind := emits_bind
  of_push _ text := emits_push _ text

/-- What statements push and how they end is the same whatever was pushed before. -/
theorem exists_runSteps_eq (view : View) (ending : Ending) (steps : List Step) (vars : Environment) :
    ∃ (texts : List (Highlight × String)) (result : Except Located (Option Value)) (vars' : Environment),
      ∀ sink, runSteps view ending steps vars sink = ⟨result, vars', sink.pushAll texts⟩ := by
  induction steps generalizing vars with
  | nil =>
      cases ending with
      | finished => exact ⟨[], .ok none, vars, fun _ => rfl⟩
      | broken line fault => exact ⟨[], .error ⟨line, fault⟩, vars, fun _ => rfl⟩
  | cons step steps ih =>
      obtain ⟨texts, result, hrun⟩ := holdsOfPushing_emits.run view vars step.stmt
      cases result with
      | error fault =>
          refine ⟨texts, .error ⟨step.line, fault⟩, vars, fun sink => ?_⟩
          rw [runSteps, hrun]
      | ok flow =>
          cases flow with
          | next vars₁ =>
              obtain ⟨texts', result', vars', hrest⟩ := ih vars₁
              refine ⟨texts ++ texts', result', vars', fun sink => ?_⟩
              rw [runSteps, hrun, Sink.pushAll_append]
              exact hrest _
          | stop result =>
              cases ending with
              | finished => exact ⟨texts, .ok result, vars, fun sink => by rw [runSteps, hrun]⟩
              | broken line fault => exact ⟨texts, .error ⟨line, fault⟩, vars, fun sink => by rw [runSteps, hrun]⟩

/-! ### Lines -/

/-- Runs that differ at most in the line of a fault. -/
structure Run.SameButLine (r r' : Run) : Prop where
  vars : r'.vars = r.vars
  sink : r'.sink = r.sink
  result : r'.result.mapError Located.fault = r.result.mapError Located.fault

/-- The run that ends with a result, unless the text is broken behind it. -/
def Ending.close (ending : Ending) (result : Option Value) (vars : Environment) (sink : Sink) : Run :=
  match ending with
  | .finished => ⟨.ok result, vars, sink⟩
  | .broken line fault => ⟨.error ⟨line, fault⟩, vars, sink⟩

theorem Ending.close_sameButLine {ending ending' : Ending} (h : ending'.fault? = ending.fault?)
    (result : Option Value) (vars : Environment) (sink : Sink) :
    (ending.close result vars sink).SameButLine (ending'.close result vars sink) := by
  cases ending with
  | finished =>
      cases ending' with
      | finished => exact ⟨rfl, rfl, rfl⟩
      | broken line fault => cases h
  | broken line fault =>
      cases ending' with
      | finished => cases h
      | broken line' fault' =>
          obtain rfl : fault' = fault := Option.some.inj h
          exact ⟨rfl, rfl, rfl⟩

theorem runSteps_sameButLine {steps steps' : List Step} {ending ending' : Ending}
    (hsteps : steps'.map Step.stmt = steps.map Step.stmt) (hending : ending'.fault? = ending.fault?)
    (vars : Environment) (sink : Sink) :
    (runSteps view ending steps vars sink).SameButLine (runSteps view ending' steps' vars sink) := by
  induction steps generalizing steps' vars sink with
  | nil =>
      obtain rfl := List.map_eq_nil_iff.1 hsteps
      exact Ending.close_sameButLine hending none vars sink
  | cons step steps ih =>
      cases steps' with
      | nil => cases hsteps
      | cons step' steps' =>
          obtain ⟨hstmt, hrest⟩ := List.cons.inj hsteps
          rw [runSteps, runSteps, hstmt]
          cases (step.stmt.run view vars).run sink with
          | error fault sink' => exact ⟨rfl, rfl, rfl⟩
          | ok flow sink' =>
              cases flow with
              | next vars' => exact ih hrest vars' sink'
              | stop result => exact Ending.close_sameButLine hending result vars sink'

/-- A run without a fault has no line to differ in. -/
theorem runSteps_eq_of_ok {steps steps' : List Step} (hsteps : steps'.map Step.stmt = steps.map Step.stmt)
    {vars vars' : Environment} {sink sink' : Sink} {result : Option Value}
    (h : runSteps view .finished steps vars sink = ⟨.ok result, vars', sink'⟩) :
    runSteps view .finished steps' vars sink = ⟨.ok result, vars', sink'⟩ := by
  have hsame : (runSteps view .finished steps vars sink).SameButLine (runSteps view .finished steps' vars sink) :=
    runSteps_sameButLine hsteps rfl vars sink
  obtain ⟨hvars, hsink, hresult⟩ := hsame
  rw [h] at hvars hsink hresult
  generalize runSteps view .finished steps' vars sink = r at hvars hsink hresult ⊢
  obtain ⟨result', vars₁, sink₁⟩ := r
  obtain rfl : vars₁ = vars' := hvars
  obtain rfl : sink₁ = sink' := hsink
  cases result' with
  | ok result' =>
      obtain rfl : result' = result := Except.ok.inj hresult
      rfl
  | error located => cases hresult

/-! ### Statements one behind the other -/

/-- Only giving back stops a program. -/
theorem giveBack_of_stop {stmt : Stmt} {vars : Environment} {sink sink' : Sink} {result : Option Value}
    (h : (stmt.run view vars).run sink = .ok (.stop result) sink') : ∃ result', stmt = .giveBack result' := by
  cases stmt with
  | giveBack result' => exact ⟨result', rfl⟩
  | assign name e =>
      rw [Stmt.run, EStateM.run_bind] at h
      split at h <;> cases h
  | bare e near =>
      rw [Stmt.run] at h
      split at h
      · cases h
      · rw [EStateM.run_bind] at h
        split at h
        · dsimp only at h
          split at h <;> cases h
        · cases h

theorem runSteps_append {front : List Step} (hnone : ∀ step ∈ front, ∀ result, step.stmt ≠ .giveBack result)
    {vars vars' : Environment} {sink sink' : Sink}
    (hfront : runSteps view .finished front vars sink = ⟨.ok none, vars', sink'⟩) (ending : Ending)
    (body : List Step) : runSteps view ending (front ++ body) vars sink = runSteps view ending body vars' sink' := by
  induction front generalizing vars sink with
  | nil =>
      obtain ⟨-, rfl, rfl⟩ := Run.mk.inj hfront
      rfl
  | cons step front ih =>
      rw [runSteps] at hfront
      rw [List.cons_append, runSteps]
      cases hrun : (step.stmt.run view vars).run sink with
      | error fault sink₁ =>
          rw [hrun] at hfront
          cases hfront
      | ok flow sink₁ =>
          rw [hrun] at hfront
          cases flow with
          | next vars₁ => exact ih (fun step' hstep' => hnone step' (List.mem_cons_of_mem _ hstep')) hfront
          | stop result =>
              obtain ⟨result', hback⟩ := giveBack_of_stop hrun
              exact absurd hback (hnone step List.mem_cons_self result')

/-- A run with no fault has read the whole program. -/
theorem finished_of_ok {ending : Ending} {steps : List Step} {vars : Environment} {sink : Sink}
    {result : Option Value} (h : (runSteps view ending steps vars sink).result = .ok result) :
    ending = .finished := by
  cases ending with
  | finished => rfl
  | broken line fault =>
      induction steps generalizing vars sink with
      | nil => cases h
      | cons step steps ih =>
          rw [runSteps] at h
          split at h
          · cases h
          · exact ih h
          · cases h

end Script

end Transcript
