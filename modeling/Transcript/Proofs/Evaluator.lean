import Transcript.Console
import Transcript.Proofs.Expr.Progress
import Transcript.Proofs.Output
import Transcript.Proofs.Script.Stepwise
import Transcript.Proofs.Token.Words

/-!
What the two evaluators never do: they never ask to hold the line, and they emit nothing of the class of
continuation lines. The second is a property of the output that every step of a run keeps, whatever the
expressions and the variables are. A line of the command language changes its variables only by defining words and
by removing variables.
-/
namespace Transcript

/-! ### Properties that every step keeps -/

section Preserves

variable {ε σ α β : Type} {P : σ → Prop}

/-- A step keeps a property of the state, whether it succeeds or not. -/
def Preserves (P : σ → Prop) (m : EStateM ε σ α) : Prop :=
  ∀ s, P s → match m.run s with
    | .ok _ s' => P s'
    | .error _ s' => P s'

theorem preserves_pure (a : α) : Preserves P (pure a : EStateM ε σ α) := by
  intro s hs
  exact hs

theorem preserves_throw (e : ε) : Preserves P (throw e : EStateM ε σ α) := by
  intro s hs
  exact hs

theorem preserves_set {s : σ} (hs : P s) : Preserves P (set s : EStateM ε σ PUnit) := by
  intro _ _
  exact hs

/-- A step that reads the state may count on the property. -/
theorem preserves_get_bind {f : σ → EStateM ε σ β} (hf : ∀ s, P s → Preserves P (f s)) :
    Preserves P (get >>= f) := by
  intro s hs
  exact hf s hs s hs

theorem preserves_modify {f : σ → σ} (hf : ∀ s, P s → P (f s)) :
    Preserves P (modify f : EStateM ε σ PUnit) := by
  intro s hs
  exact hf s hs

theorem preserves_bind {m : EStateM ε σ α} {f : α → EStateM ε σ β} (hm : Preserves P m)
    (hf : ∀ a, Preserves P (f a)) : Preserves P (m >>= f) := by
  intro s hs
  have hstep := hm s hs
  rw [EStateM.run_bind]
  cases hrun : m.run s with
  | ok a s' =>
      rw [hrun] at hstep
      exact hf a s' hstep
  | error e s' =>
      rw [hrun] at hstep
      exact hstep

theorem stepwise_preserves (P : σ → Prop) : Stepwise fun _ (m : EStateM Fault σ _) => Preserves P m where
  of_pure := preserves_pure
  of_throw := preserves_throw
  of_bind := preserves_bind

end Preserves

/-! ### The evaluators -/

/-- An evaluator that never asks to hold the line. -/
def Evaluator.NeverHolds (σ : Type) [Evaluator σ] : Prop :=
  ∀ (program : List String) (view : View) (state : σ),
    (Evaluator.eval program view state).outcome ≠ .hold

/-- An evaluator that emits nothing of the class of continuation lines. -/
def Evaluator.EmitsPlain (σ : Type) [Evaluator σ] : Prop :=
  ∀ (program : List String) (view : View) (state : σ),
    (Evaluator.eval program view state).output.Plain

namespace Script

theorem neverHolds : Evaluator.NeverHolds Script := by
  intro program view state
  show (Script.evaluate program view state).outcome ≠ .hold
  unfold Script.evaluate
  simp only
  split <;> simp

theorem holdsOfPushing_plain : HoldsOfPushing fun _ m => Preserves Sink.Plain m where
  toStepwise := stepwise_preserves Sink.Plain
  of_push hne text := preserves_modify fun _ hsink => hsink.push hne text

theorem plain_runSteps (view : View) (ending : Ending) (steps : List Step) (vars : Environment) {sink : Sink}
    (hsink : sink.Plain) : (runSteps view ending steps vars sink).sink.Plain := by
  induction steps generalizing vars sink with
  | nil =>
      cases ending <;> exact hsink
  | cons step steps ih =>
      have hstep := holdsOfPushing_plain.run view vars step.stmt sink hsink
      rw [runSteps]
      split
      next fault sink' hrun =>
        rw [hrun] at hstep
        exact hstep
      next vars' sink' hrun =>
        rw [hrun] at hstep
        exact ih vars' hstep
      next result sink' hrun =>
        rw [hrun] at hstep
        split <;> exact hstep

theorem emitsPlain : Evaluator.EmitsPlain Script := by
  intro program view state
  show ((Program.ofSource ("\n".intercalate program)).run view state.vars).sink.Plain
  cases Program.ofSource ("\n".intercalate program) with
  | unreadable fault => exact Sink.plain_empty
  | lone e =>
      have heval := holdsOfPushing_plain.eval view.place state.vars e Sink.empty Sink.plain_empty
      rw [Program.run]
      split
      next fault sink hrun =>
        rw [hrun] at heval
        exact heval
      next v sink hrun =>
        rw [hrun] at heval
        exact heval
  | steps body ending => exact plain_runSteps view ending body state.vars Sink.plain_empty

end Script

namespace Ex

theorem neverHolds : Evaluator.NeverHolds Ex := by
  intro program view state
  show (Ex.evaluate program view state).outcome ≠ .hold
  unfold Ex.evaluate
  simp only
  split <;> simp

/-- A property of a running line that lasts while it shows texts, defines words and removes variables. -/
structure Lasts (P : Running → Prop) : Prop where
  push : ∀ {r}, P r → ∀ text, P { r with sink := r.sink.push .output text }
  define : ∀ {r}, P r → ∀ {name}, Token.IsWord name → ∀ v, P { r with vars := r.vars.define name v }
  erase : ∀ {r}, P r → ∀ name, P { r with vars := r.vars.erase name }

variable {P : Running → Prop}

theorem Lasts.undefine (h : Lasts P) (names : List String) : Preserves P (undefine names) := by
  induction names with
  | nil => exact preserves_pure _
  | cons name names ih =>
      refine preserves_get_bind fun r hr => ?_
      split
      · exact preserves_bind (preserves_set (h.erase hr name)) fun _ => ih
      · exact preserves_throw _

/-- What follows a result may count on it. -/
theorem preserves_attempt_bind (verb : Verb) (argument : List Char) {α β : Type} {result : Except Fault α}
    {f : α → Action β} (hf : ∀ a, result = .ok a → Preserves P (f a)) :
    Preserves P (attempt verb argument result >>= f) := by
  cases result with
  | ok a => exact hf a rfl
  | error fault => exact preserves_throw _

/-- The name that is assigned to is a word of the argument. -/
theorem word_mem_of_assignment {tokens : List Token} {name : String} {e : Expr}
    (h : readAll assignment tokens = .ok (name, e)) : .word name ∈ tokens.map Token.lexeme := by
  have htakes : Reader.Takes assignment (Cursor.ofTokens tokens) fun lexemes r => .word r.1 ∈ lexemes := by
    refine (Reader.takes_name _).bind fun w c₁ front hfront => ?_
    refine (Reader.takes_expectSymbol .assign c₁).bind fun _ c₂ _ _ => ?_
    refine (Reader.takes_expr c₂).bind fun e c₃ _ _ => ?_
    refine (Reader.takes_expectEnd c₃).bind fun _ c₄ _ _ => Reader.takes_pure ?_
    simp [hfront]
  rw [readAll] at h
  cases hrun : assignment (Cursor.ofTokens tokens) with
  | error fault c =>
      rw [EStateM.run, hrun] at h
      cases h
  | ok r c =>
      rw [EStateM.run, hrun] at h
      obtain rfl := Except.ok.inj h
      obtain ⟨taken, hmoves, hword⟩ := htakes.of_ok hrun
      have hrest : tokens = taken ++ c.rest := hmoves.rest
      rw [hrest, List.map_append]
      exact List.mem_append_left _ hword

theorem Lasts.perform (h : Lasts P) (place : Place) (verb : Verb) (argument : List Char) {tokens : List Token}
    (hwords : Token.WordsAmong (tokens.map Token.lexeme)) : Preserves P (perform place verb argument tokens) := by
  refine preserves_get_bind fun r hr => ?_
  cases verb with
  | echo => exact preserves_attempt_bind _ argument fun texts _ => preserves_set (h.push hr _)
  | define =>
      refine preserves_attempt_bind _ argument fun assigned hread => ?_
      refine preserves_attempt_bind _ argument fun v _ => preserves_set ?_
      exact h.define hr (hwords _ (word_mem_of_assignment hread)) v
  | undefine => exact h.undefine _
  | call =>
      refine preserves_attempt_bind _ argument fun e _ => ?_
      split
      · exact preserves_attempt_bind _ argument fun _ _ => preserves_pure _
      · exact preserves_throw _

theorem Lasts.execute (h : Lasts P) (place : Place) (cs : List Char) : Preserves P (execute place cs) := by
  rw [Ex.execute]
  dsimp only
  split
  · exact preserves_pure _
  · split
    · exact preserves_throw _
    · split
      · exact preserves_throw _
      next tokens hscan => exact h.perform place _ _ (Token.wordsAmong_scan hscan)

theorem Lasts.executeAll (h : Lasts P) (place : Place) (commands : List (List Char)) :
    Preserves P (executeAll place commands) := by
  induction commands with
  | nil => exact preserves_pure _
  | cons cs rest ih => exact preserves_bind (h.execute place cs) fun _ => ih

/-- What lasts holds of the variables and the output that a program leaves. -/
theorem Lasts.evaluate (h : Lasts P) (program : List String) (view : View) {s : Ex} (hs : P ⟨s.vars, .empty⟩) :
    P ⟨(evaluate program view s).state.vars, (evaluate program view s).output⟩ := by
  have hrun := h.executeAll view.place (splitBars none (String.join program).toList) _ hs
  rw [Ex.evaluate]
  split
  next r hr =>
    rw [hr] at hrun
    exact hrun
  next e r hr =>
    rw [hr] at hrun
    exact hrun

/-- The output of a running line is plain. -/
def PlainRunning (r : Running) : Prop := r.sink.Plain

theorem lasts_plainRunning : Lasts PlainRunning where
  push hr text := Sink.Plain.push hr (by decide) text
  define hr _ _ _ := hr
  erase hr _ := hr

theorem emitsPlain : Evaluator.EmitsPlain Ex := fun program view _ =>
  lasts_plainRunning.evaluate program view Sink.plain_empty

end Ex

end Transcript
