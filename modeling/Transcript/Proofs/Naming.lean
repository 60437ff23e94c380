import Transcript.Proofs.Evaluator
import Transcript.Proofs.Script.Reading

/-!
How variables are named. Whatever programs are evaluated, the name of every variable is a word: programs are read from
tokens, and only a word among these is ever defined.
-/
namespace Transcript

namespace Environment

variable {env : Environment}

/-- The name of every variable is a word. -/
def NamedByWords (env : Environment) : Prop := ∀ name ∈ env.names, Token.IsWord name

theorem mem_names_insert {name other : String} {v : Value} (h : other ∈ (env.insert name v).names) :
    other = name ∨ other ∈ env.names := by
  unfold insert at h
  split at h
  · obtain ⟨entry, hentry, rfl⟩ := List.mem_map.1 h
    obtain ⟨old, hold, rfl⟩ := List.mem_map.1 hentry
    split
    · exact Or.inl rfl
    · exact Or.inr (List.mem_map_of_mem hold)
  · rw [names, List.map_append] at h
    rcases List.mem_append.1 h with hold | hnew
    · exact Or.inr hold
    · exact Or.inl (List.mem_singleton.1 hnew)

theorem NamedByWords.erase (h : env.NamedByWords) (name : String) : (env.erase name).NamedByWords := by
  intro other hother
  obtain ⟨entry, hentry, rfl⟩ := List.mem_map.1 hother
  exact h _ (List.mem_map_of_mem (List.mem_filter.1 hentry).1)

theorem NamedByWords.define (h : env.NamedByWords) {name : String} (hname : Token.IsWord name) (v : Value) :
    (env.define name v).NamedByWords := by
  unfold Environment.define
  split
  · exact h.erase name
  · intro other hother
    rcases mem_names_insert hother with rfl | hold
    · exact hname
    · exact h other hold

end Environment

/-- The states that programs lead to, one after the other. -/
inductive Evaluator.Reached {σ : Type} [Evaluator σ] (first : σ) : σ → Prop where
  | start : Reached first first
  | eval {state : σ} (h : Reached first state) (program : List String) (view : View) :
      Reached first (Evaluator.eval program view state).state

/-! ### Results of steps -/

section Gives

variable {ε σ α β : Type} {Q : α → Prop}

/-- Where the step succeeds, its result has the property. -/
def Gives (Q : α → Prop) (m : EStateM ε σ α) : Prop := ∀ s a s', m.run s = .ok a s' → Q a

theorem gives_pure {a : α} (h : Q a) : Gives Q (pure a : EStateM ε σ α) := by
  intro s a' s' hrun
  obtain ⟨rfl, -⟩ := EStateM.Result.ok.inj hrun
  exact h

theorem gives_throw (e : ε) : Gives Q (throw e : EStateM ε σ α) := by
  intro s a s' hrun
  cases hrun

theorem gives_bind {m : EStateM ε σ β} {f : β → EStateM ε σ α} (hf : ∀ b, Gives Q (f b)) : Gives Q (m >>= f) := by
  intro s a s' hrun
  rw [EStateM.run_bind] at hrun
  cases hm : m.run s with
  | error e s₁ =>
      rw [hm] at hrun
      cases hrun
  | ok b s₁ =>
      rw [hm] at hrun
      exact hf b s₁ a s' hrun

end Gives

namespace Script

variable {view : View}

/-- The environment behind a statement: the one in front of it, or that with the name defined that is assigned to. -/
def Stmt.Leaves (stmt : Stmt) (vars : Environment) : Flow → Prop
  | .stop _ => True
  | .next vars' => vars' = vars ∨ ∃ name e v, stmt = .assign name e ∧ vars' = vars.define name v

theorem Stmt.leaves_run (view : View) (vars : Environment) (stmt : Stmt) :
    Gives (stmt.Leaves vars) (stmt.run view vars) := by
  cases stmt with
  | giveBack result =>
      cases result with
      | none => exact gives_pure trivial
      | some e => exact gives_bind fun v => gives_pure trivial
  | assign name e => exact gives_bind fun v => gives_pure (Or.inr ⟨name, e, v, rfl, rfl⟩)
  | bare e near =>
      rw [Stmt.run]
      split
      · exact gives_throw _
      · refine gives_bind fun v => ?_
        dsimp only
        split
        · exact gives_bind fun _ => gives_pure (Or.inl rfl)
        · exact gives_pure (Or.inl rfl)

/-- The steps assign to words only. -/
def AssignsWords (steps : List Step) : Prop :=
  ∀ step ∈ steps, ∀ name e, step.stmt = .assign name e → Token.IsWord name

theorem namedByWords_runSteps (ending : Ending) {steps : List Step} (hsteps : AssignsWords steps) {vars : Environment}
    (hvars : vars.NamedByWords) (sink : Sink) : (runSteps view ending steps vars sink).vars.NamedByWords := by
  induction steps generalizing vars sink with
  | nil =>
      cases ending <;> exact hvars
  | cons step steps ih =>
      have hrest : AssignsWords steps := fun step' hstep' => hsteps step' (List.mem_cons_of_mem _ hstep')
      rw [runSteps]
      split
      · exact hvars
      next vars' sink' hrun =>
        apply ih hrest
        rcases step.stmt.leaves_run view vars _ _ _ hrun with rfl | ⟨name, e, v, hassign, rfl⟩
        · exact hvars
        · exact hvars.define (hsteps step List.mem_cons_self name e hassign) v
      · split <;> exact hvars

/-- What is assigned to stands in the text. -/
theorem word_mem_of_mem_readSteps {rounds : Nat} {c : Cursor} {step : Step} (hstep : step ∈ (readSteps rounds c).1)
    {name : String} {e : Expr} (hassign : step.stmt = .assign name e) : .word name ∈ c.lexemes := by
  induction rounds generalizing c with
  | zero => cases hstep
  | succ rounds ih =>
      rcases end_or_semicolon_or_statement c with hend | hsemicolon | hstatement
      · rw [readSteps_of_end hend] at hstep
        cases hstep
      · rw [readSteps_of_semicolon hsemicolon] at hstep
        obtain ⟨token, -, hmoves⟩ := Cursor.moves_advance (c.peek?_eq.trans hsemicolon)
        rw [Cursor.lexemes, hmoves.rest, List.map_append]
        exact List.mem_append_right _ (ih hstep)
      · cases hread : Stmt.read c with
        | error fault d =>
            rw [readSteps_of_error hstatement hread] at hstep
            cases hstep
        | ok stmt d =>
            obtain ⟨taken, hmoves, htaken⟩ := (takes_read c).of_ok hread
            rw [Cursor.lexemes, hmoves.rest, List.map_append]
            by_cases hback : ∃ result, stmt = .giveBack result
            · obtain ⟨result, rfl⟩ := hback
              rw [readSteps_of_giveBack hstatement hread] at hstep
              rw [List.mem_singleton.1 hstep] at hassign
              cases hassign
            · rw [readSteps_of_ok hstatement hread fun result heq => hback ⟨result, heq⟩] at hstep
              rcases List.mem_cons.1 hstep with rfl | hrest
              · exact List.mem_append_left _ (htaken.word_mem name e hassign)
              · exact List.mem_append_right _ (ih hrest)

theorem assignsWords_of_ofSource {source : String} {body : List Step} {ending : Ending}
    (h : Program.ofSource source = .steps body ending) : AssignsWords body := by
  intro step hstep name e hassign
  unfold Program.ofSource at h
  split at h
  · cases h
  next tokens hscan =>
    unfold Program.ofTokens at h
    dsimp only at h
    split at h
    · cases h
    · obtain ⟨rfl, -⟩ := Program.steps.inj h
      exact Token.wordsAmong_scan hscan name (word_mem_of_mem_readSteps hstep hassign)

theorem namedByWords_evaluate (program : List String) (view : View) {s : Script} (h : s.vars.NamedByWords) :
    (evaluate program view s).state.vars.NamedByWords := by
  show ((Program.ofSource ("\n".intercalate program)).run view s.vars).vars.NamedByWords
  cases hprogram : Program.ofSource ("\n".intercalate program) with
  | unreadable fault => exact h
  | lone e =>
      rw [Program.run]
      split <;> exact h
  | steps body ending => exact namedByWords_runSteps ending (assignsWords_of_ofSource hprogram) h .empty

theorem namedByWords_of_reached {s : Script} (h : Evaluator.Reached {} s) : s.vars.NamedByWords := by
  induction h with
  | start =>
      intro name hname
      cases hname
  | eval _ program view ih => exact namedByWords_evaluate program view ih

end Script

namespace Ex

theorem lasts_namedByWords : Lasts fun r => r.vars.NamedByWords where
  push hr _ := hr
  define hr _ hname v := hr.define hname v
  erase hr name := hr.erase name

theorem namedByWords_of_reached {s : Ex} (h : Evaluator.Reached {} s) : s.vars.NamedByWords := by
  induction h with
  | start =>
      intro name hname
      cases hname
  | eval _ program view ih => exact lasts_namedByWords.evaluate program view ih

end Ex

end Transcript
