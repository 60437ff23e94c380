import Transcript.Script.Run

/-!
Properties of steps. A property that pure results and faults have, and two steps one behind the other as soon as both
have it, holds of an expression if it holds of its names and calls. If it holds of pushing a text, it holds of every
statement: a program changes its output only so.
-/
namespace Transcript

/-- A property of steps that goes from two steps to one behind the other. -/
structure Stepwise {σ : Type} (P : (α : Type) → EStateM Fault σ α → Prop) : Prop where
  of_pure {α : Type} (a : α) : P α (pure a)
  of_throw {α : Type} (fault : Fault) : P α (throw fault)
  of_bind {α β : Type} {m : EStateM Fault σ α} {f : α → EStateM Fault σ β} (hm : P α m) (hf : ∀ a, P β (f a)) :
    P β (m >>= f)

section Stepwise

variable {σ : Type} {P : (α : Type) → EStateM Fault σ α → Prop} {scope : Scope σ}

theorem Stepwise.of_settle {α : Type} (h : Stepwise P) (r : Except Fault α) : P α (settle r) := by
  cases r with
  | ok a => exact h.of_pure a
  | error fault => exact h.of_throw fault

mutual

/-- An expression has the property if its names and calls have it. -/
theorem Expr.stepwise_eval (h : Stepwise P) (hlookup : ∀ name, P Value (scope.lookup name))
    (hcall : ∀ function args, P Value (scope.call function args)) : ∀ e : Expr, P Value (e.eval scope)
  | .literal v => h.of_pure v
  | .var name => hlookup name
  | .call function args => by
      rw [Expr.eval]
      exact h.of_bind (Expr.stepwise_evalAll h hlookup hcall args) fun vs => hcall function vs
  | .unary op e => by
      rw [Expr.eval]
      exact h.of_bind (Expr.stepwise_eval h hlookup hcall e) fun v => h.of_settle _
  | .binary op l r => by
      rw [Expr.eval]
      refine h.of_bind (Expr.stepwise_eval h hlookup hcall l) fun a => ?_
      cases op.decided? a with
      | some v => exact h.of_pure v
      | none => exact h.of_bind (Expr.stepwise_eval h hlookup hcall r) fun b => h.of_settle _

theorem Expr.stepwise_evalAll (h : Stepwise P) (hlookup : ∀ name, P Value (scope.lookup name))
    (hcall : ∀ function args, P Value (scope.call function args)) :
    ∀ es : List Expr, P (List Value) (Expr.evalAll scope es)
  | [] => h.of_pure []
  | e :: es => by
      rw [Expr.evalAll]
      refine h.of_bind (Expr.stepwise_eval h hlookup hcall e) fun v => ?_
      exact h.of_bind (Expr.stepwise_evalAll h hlookup hcall es) fun vs => h.of_pure (v :: vs)

end

end Stepwise

namespace Script

/-- A stepwise property that pushing has, except of a line of continuation. -/
structure HoldsOfPushing (P : (α : Type) → EStateM Fault Sink α → Prop) : Prop extends Stepwise P where
  of_push {highlight : Highlight} (hne : highlight ≠ .continuation) (text : String) :
    P PUnit (modify fun sink => sink.push highlight text)

variable {P : (α : Type) → EStateM Fault Sink α → Prop}

theorem HoldsOfPushing.call (h : HoldsOfPushing P) (place : Place) (vars : Environment) (function : String)
    (args : List Value) : P Value ((scope place vars).call function args) := by
  show P Value (if function = "print" then _ else _)
  split
  · exact h.of_bind (h.of_push (by decide) _) fun _ => h.of_pure _
  · split
    · exact h.of_settle _
    · exact h.of_throw _

theorem HoldsOfPushing.eval (h : HoldsOfPushing P) (place : Place) (vars : Environment) (e : Expr) :
    P Value (e.eval (scope place vars)) :=
  e.stepwise_eval h.toStepwise (fun _ => h.of_pure _) (h.call place vars)

/-- A statement has the property. -/
theorem HoldsOfPushing.run (h : HoldsOfPushing P) (view : View) (vars : Environment) (stmt : Stmt) :
    P Flow (stmt.run view vars) := by
  cases stmt with
  | giveBack result =>
      cases result with
      | none => exact h.of_pure _
      | some e => exact h.of_bind (h.eval view.place vars e) fun _ => h.of_pure _
  | assign name e => exact h.of_bind (h.eval view.place vars e) fun _ => h.of_pure _
  | bare e near =>
      rw [Stmt.run]
      split
      · exact h.of_throw _
      · refine h.of_bind (h.eval view.place vars e) fun v => ?_
        dsimp only
        split
        · exact h.of_bind (h.of_push (by decide) _) fun _ => h.of_pure _
        · exact h.of_pure _

end Script

end Transcript
