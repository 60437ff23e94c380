import Mathlib.Data.Nat.Digits.Defs
import Transcript.Session

/-!
What a statement comes down to. A dispatch ends in one of five effects: a refusal, a line of information behind the
change of a setting or of none, an evaluation, an empty buffer, or the end of the session. Which of them it is, the
settings of the session and the valid buffers and windows of the host decide. The evaluators, the history, the numbers
of marks and the texts of buffers take no part in it. So what carrying out an effect keeps, every dispatch keeps.
-/
namespace Transcript

variable {α β γ δ : Type}

/-- There is a buffer or a window of that number. -/
def Override.IsThere (host : Host) : Override → Nat → Prop
  | .buffer, n => ∃ b, host.buffers.get? n = some b
  | .window, n => ∃ shown, host.windows.get? n = some shown

namespace Session

/-! ### Overrides and the indent -/

theorem override_setOverride (s : Session α β) (o : Override) (n : Nat) : (s.setOverride o n).override o = n := by
  cases o <;> rfl

theorem override_setOverride_of_ne (s : Session α β) {o o' : Override} (h : o' ≠ o) (n : Nat) :
    (s.setOverride o n).override o' = s.override o' := by
  cases o <;> cases o' <;> first | rfl | exact absurd rfl h

theorem setOverride_eq (s : Session α β) (o : Override) (n : Nat) :
    s.setOverride o n = { s with context := (s.setOverride o n).context } := by
  cases o <;> rfl

theorem isLive_iff {host : Host} {o : Override} {n : Nat} : isLive host o n = true ↔ o.IsThere host n := by
  cases o with
  | buffer => exact Option.isSome_iff_exists
  | window => exact Option.isSome_iff_exists

/-- The text writes a number: decimal digits, at least one, with a plus sign in front or without. -/
def Writes (text : String) (n : Nat) : Prop :=
  ∃ digits : List Char, (text.toList = digits ∨ text.toList = '+' :: digits) ∧ digits ≠ []
    ∧ (∀ c ∈ digits, c.isDigit = true) ∧ n = Nat.ofDigits 10 (digits.reverse.map fun c => c.toNat - '0'.toNat)

theorem natOfDigits_eq_ofDigits (cs : List Char) :
    Decimal.natOfDigits cs = Nat.ofDigits 10 (cs.reverse.map fun c => c.toNat - '0'.toNat) := by
  rw [Nat.ofDigits_eq_foldr, List.foldr_map, List.foldr_reverse, Decimal.natOfDigits]
  congr 1
  funext n c
  exact Nat.add_comm _ _

theorem readNumber?_eq_some_iff {text : String} {n : Nat} : readNumber? text = some n ↔ Writes text n := by
  have hdigits : ∀ digits : List Char,
      ((if digits.isEmpty ∨ ¬ digits.all Char.isDigit then none else some (Decimal.natOfDigits digits)) = some n)
        ↔ digits ≠ [] ∧ (∀ c ∈ digits, c.isDigit = true)
          ∧ n = Nat.ofDigits 10 (digits.reverse.map fun c => c.toNat - '0'.toNat) := by
    intro digits
    rw [← natOfDigits_eq_ofDigits, ← List.all_eq_true, ne_eq, ← List.isEmpty_iff]
    split
    next hbad =>
      refine ⟨nofun, ?_⟩
      rintro ⟨hne, hall, -⟩
      exact absurd hbad (not_or.2 ⟨hne, not_not_intro hall⟩)
    next hgood =>
      obtain ⟨hne, hall⟩ := not_or.1 hgood
      rw [Option.some.injEq]
      exact ⟨fun h => ⟨hne, not_not.1 hall, h.symm⟩, fun h => h.2.2.symm⟩
  by_cases hplus : ∃ rest, text.toList = '+' :: rest
  · obtain ⟨rest, htext⟩ := hplus
    rw [readNumber?, Writes, htext, hdigits]
    constructor
    · exact fun h => ⟨rest, Or.inr rfl, h⟩
    · rintro ⟨digits, rfl | hrest, h⟩
      · -- The plus sign is no digit.
        exact absurd (h.2.1 '+' List.mem_cons_self) (by decide)
      · rwa [(List.cons.inj hrest).2]
  · have hread : readNumber? text = if text.toList.isEmpty ∨ ¬ text.toList.all Char.isDigit then none
        else some (Decimal.natOfDigits text.toList) := by
      simp only [readNumber?]
      split
      next rest htext => exact absurd ⟨rest, htext⟩ hplus
      next => rfl
    rw [hread, hdigits, Writes]
    constructor
    · exact fun h => ⟨text.toList, Or.inl rfl, h⟩
    · rintro ⟨digits, htext | htext, h⟩
      · rwa [htext]
      · exact absurd ⟨digits, htext⟩ hplus

/-- The text is a number that an override can be set to: 0 for none, or the number of what is there. -/
def IsHandle (host : Host) (o : Override) (text : String) (n : Nat) : Prop :=
  Writes text n ∧ (n = 0 ∨ o.IsThere host n)

/-- The text is a number that the indent can be set to. -/
def IsIndent (text : String) (n : Nat) : Prop := Writes text n ∧ n ≤ maxIndent

/-- The line that tells of an override that is set. -/
def overrideSet (o : Override) (n : Nat) : String :=
  if n = 0 then o.name ++ " context reset to none" else o.name ++ " context set to " ++ toString n

section Accepting

variable {host : Host} {a : Argument} {o : Override}

theorem runOverride_rejected (s : Session α β) (hbad : ∀ n, ¬ IsHandle host o a.toValue n) :
    s.runOverride host o (some a) = s.refusing host (.invalidArgument o.name a.toValue) := by
  unfold runOverride
  simp only
  split
  · rfl
  next hzero => exact absurd ⟨readNumber?_eq_some_iff.1 hzero, Or.inl rfl⟩ (hbad 0)
  next n _ hread =>
    rw [if_neg fun hlive => hbad n ⟨readNumber?_eq_some_iff.1 hread, Or.inr (isLive_iff.1 hlive)⟩]

theorem runOverride_accepted (s : Session α β) {n : Nat} (h : IsHandle host o a.toValue n) :
    s.runOverride host o (some a) = (s.setOverride o n).showing host .info (overrideSet o n) := by
  obtain ⟨hwritten, hcan⟩ := h
  unfold runOverride
  simp only [readNumber?_eq_some_iff.2 hwritten]
  split
  next hnone => cases hnone
  next hzero =>
    rw [Option.some.inj hzero]
    rfl
  next m hne hsome =>
    obtain rfl := Option.some.inj hsome
    rw [if_pos (isLive_iff.2 (hcan.resolve_left hne)), overrideSet, if_neg hne]

theorem runIndent_rejected (s : Session α β) (hbad : ∀ n, ¬ IsIndent a.toValue n) :
    s.runIndent host (some a) = s.refusing host (.invalidArgument "indent" a.toValue) := by
  unfold runIndent
  simp only
  split
  · rfl
  next n hread => rw [if_neg fun hle => hbad n ⟨readNumber?_eq_some_iff.1 hread, hle⟩]

theorem runIndent_accepted (s : Session α β) (host : Host) {n : Nat} (h : IsIndent a.toValue n) :
    s.runIndent host (some a) = { s with indent := n }.showing host .info ("indent set to " ++ toString n) := by
  obtain ⟨hwritten, hle⟩ := h
  simp only [runIndent, readNumber?_eq_some_iff.2 hwritten, if_pos hle]

end Accepting

end Session

/-! ### Effects -/

/-- A setting of a session with a value for it. -/
inductive Setting where
  | override (o : Override) (n : Nat)
  | indent (n : Nat)
  | language (language : Language)

/-- What a statement comes down to. -/
inductive Effect where
  | refuse (f : Failure)
  | inform (setting : Option Setting) (text : String)
  | evaluate (language : Language) (program : List String)
  | clear
  | quit

namespace Session

/-- The session with a setting changed, or with none. -/
def change (s : Session α β) : Option Setting → Session α β
  | none => s
  | some (.override o n) => s.setOverride o n
  | some (.indent n) => { s with indent := n }
  | some (.language language) => { s with language := language }

theorem change_eq (s : Session α β) (setting : Option Setting) :
    s.change setting
      = { s with
          context := (s.change setting).context
          language := (s.change setting).language
          indent := (s.change setting).indent } := by
  rcases setting with _ | (⟨o, n⟩ | n | language)
  · rfl
  · cases o <;> rfl
  · rfl
  · rfl

/-- The dispatch that an effect is. -/
def carryOut [Evaluator α] [Evaluator β] (s : Session α β) (host : Host) : Effect → Dispatch α β
  | .refuse f => s.refusing host f
  | .inform setting text => (s.change setting).showing host .info text
  | .evaluate language program => s.evaluate host language program
  | .clear => { output := .empty, next := .hold, session := (s.clear host).1, host := (s.clear host).2 }
  | .quit =>
    { output := .empty
      next := .exit
      session := { s with nextMark := 1 }
      host := (host.clearMarks s.buffer).deleteBuffer s.buffer }

/-- The second session over the second host sees what the first one sees over the first. -/
structure SameView (s : Session α β) (host : Host) (s' : Session γ δ) (host' : Host) : Prop where
  override (o : Override) : s'.override o = s.override o
  isLive (o : Override) (n : Nat) : isLive host' o n = isLive host o n
  language : s'.language = s.language
  indent : s'.indent = s.indent
  marker : s'.marker = s.marker
  leader : s'.leader = s.leader

theorem SameView.refl (s : Session α β) (host : Host) : s.SameView host s host :=
  ⟨fun _ => rfl, fun _ _ => rfl, rfl, rfl, rfl, rfl⟩

theorem SameView.isHandle {s : Session α β} {host host' : Host} {s' : Session γ δ} (h : s.SameView host s' host')
    {o : Override} {text : String} {n : Nat} : IsHandle host' o text n ↔ IsHandle host o text n := by
  rw [IsHandle, IsHandle, ← isLive_iff, ← isLive_iff, h.isLive]

/-! ### What every statement comes down to -/

/-- An override is refused, or it is shown or set. -/
theorem runOverride_effect (s : Session α β) (host : Host) (o : Override) (argument : Option Argument) :
    ∃ e : Effect, e ≠ .clear ∧ e ≠ .quit
      ∧ ∀ {γ δ : Type} [Evaluator γ] [Evaluator δ] (s' : Session γ δ) (host' : Host), s.SameView host s' host' →
        s'.runOverride host' o argument = s'.carryOut host' e := by
  cases argument with
  | none =>
      refine ⟨.inform none (o.name ++ " context: " ++ overrideText (s.override o)), nofun, nofun, ?_⟩
      intro γ δ _ _ s' host' hview
      rw [← hview.override]
      rfl
  | some a =>
      by_cases hcan : ∃ n, IsHandle host o a.toValue n
      · obtain ⟨n, hn⟩ := hcan
        refine ⟨.inform (some (.override o n)) (overrideSet o n), nofun, nofun, ?_⟩
        intro γ δ _ _ s' host' hview
        exact s'.runOverride_accepted (hview.isHandle.2 hn)
      · refine ⟨.refuse (.invalidArgument o.name a.toValue), nofun, nofun, ?_⟩
        intro γ δ _ _ s' host' hview
        exact s'.runOverride_rejected fun n hn => hcan ⟨n, hview.isHandle.1 hn⟩

/-- An indent is refused, or it is shown or set. -/
theorem runIndent_effect (s : Session α β) (host : Host) (argument : Option Argument) :
    ∃ e : Effect, e ≠ .clear ∧ e ≠ .quit
      ∧ ∀ {γ δ : Type} [Evaluator γ] [Evaluator δ] (s' : Session γ δ) (host' : Host), s.SameView host s' host' →
        s'.runIndent host' argument = s'.carryOut host' e := by
  cases argument with
  | none =>
      refine ⟨.inform none ("indent: " ++ toString s.indent), nofun, nofun, ?_⟩
      intro γ δ _ _ s' host' hview
      rw [← hview.indent]
      rfl
  | some a =>
      by_cases hcan : ∃ n, IsIndent a.toValue n
      · obtain ⟨n, hn⟩ := hcan
        refine ⟨.inform (some (.indent n)) ("indent set to " ++ toString n), nofun, nofun, ?_⟩
        intro γ δ _ _ s' host' _
        exact s'.runIndent_accepted host' hn
      · refine ⟨.refuse (.invalidArgument "indent" a.toValue), nofun, nofun, ?_⟩
        intro γ δ _ _ s' host' _
        exact s'.runIndent_rejected (not_exists.1 hcan)

/-- A language is made active, or an argument is evaluated in it. -/
theorem runLanguage_effect (language : Language) (argument : Option Argument) :
    ∃ e : Effect, e ≠ .clear ∧ e ≠ .quit
      ∧ ∀ {γ δ : Type} [Evaluator γ] [Evaluator δ] (s' : Session γ δ) (host' : Host),
        s'.runLanguage host' language argument = s'.carryOut host' e := by
  cases argument with
  | none => exact ⟨.inform (some (.language language)) (language.name ++ " mode"), nofun, nofun, fun _ _ => rfl⟩
  | some a => exact ⟨.evaluate language a.toLines, nofun, nofun, fun _ _ => rfl⟩

/-- Only `clear` empties the buffer, and only `quit` ends the session, both without an argument. -/
theorem runCommand_effect (s : Session α β) (host : Host) (c : Command) (argument : Option Argument) :
    ∃ e : Effect, (e = .clear → c = .clear ∧ argument = none) ∧ (e = .quit → c = .quit ∧ argument = none)
      ∧ ∀ {γ δ : Type} [Evaluator γ] [Evaluator δ] (s' : Session γ δ) (host' : Host), s.SameView host s' host' →
        s'.runCommand host' c argument = s'.carryOut host' e := by
  cases c with
  | lua =>
      obtain ⟨e, hclear, hquit, hrun⟩ := runLanguage_effect .lua argument
      exact ⟨e, fun h => absurd h hclear, fun h => absurd h hquit, fun s' host' _ => hrun s' host'⟩
  | vim =>
      obtain ⟨e, hclear, hquit, hrun⟩ := runLanguage_effect .vim argument
      exact ⟨e, fun h => absurd h hclear, fun h => absurd h hquit, fun s' host' _ => hrun s' host'⟩
  | buffer =>
      obtain ⟨e, hclear, hquit, hrun⟩ := s.runOverride_effect host .buffer argument
      exact ⟨e, fun h => absurd h hclear, fun h => absurd h hquit, hrun⟩
  | window =>
      obtain ⟨e, hclear, hquit, hrun⟩ := s.runOverride_effect host .window argument
      exact ⟨e, fun h => absurd h hclear, fun h => absurd h hquit, hrun⟩
  | indent =>
      obtain ⟨e, hclear, hquit, hrun⟩ := s.runIndent_effect host argument
      exact ⟨e, fun h => absurd h hclear, fun h => absurd h hquit, hrun⟩
  | clear =>
      cases argument with
      | none => exact ⟨.clear, fun _ => ⟨rfl, rfl⟩, nofun, fun _ _ _ => rfl⟩
      | some a => exact ⟨.refuse .argumentsNotAllowed, nofun, nofun, fun _ _ _ => rfl⟩
  | quit =>
      cases argument with
      | none => exact ⟨.quit, nofun, fun _ => ⟨rfl, rfl⟩, fun _ _ _ => rfl⟩
      | some a => exact ⟨.refuse .argumentsNotAllowed, nofun, nofun, fun _ _ _ => rfl⟩
  | help =>
      cases argument with
      | none =>
          refine ⟨.inform none ("\n".intercalate (Command.helpLines s.leader)), nofun, nofun, ?_⟩
          intro γ δ _ _ s' host' hview
          rw [← hview.leader]
          rfl
      | some a => exact ⟨.refuse .argumentsNotAllowed, nofun, nofun, fun _ _ _ => rfl⟩

/-- Every dispatch is an effect, and the same one wherever the same is seen. -/
theorem dispatch_effect (s : Session α β) (host : Host) (lines : List String) :
    ∃ e : Effect,
      (e = .clear → Input.classify s.leader s.marker lines = .ok (.command .clear none))
        ∧ (e = .quit → Input.classify s.leader s.marker lines = .ok (.command .quit none))
        ∧ ∀ {γ δ : Type} [Evaluator γ] [Evaluator δ] (s' : Session γ δ) (host' : Host), s.SameView host s' host' →
          s'.dispatch host' lines = s'.carryOut host' e := by
  cases hinput : Input.classify s.leader s.marker lines with
  | error f =>
      refine ⟨.refuse f, nofun, nofun, ?_⟩
      intro γ δ _ _ s' host' hview
      rw [dispatch, hview.leader, hview.marker, hinput]
      rfl
  | ok input =>
      cases input with
      | program program =>
          refine ⟨.evaluate s.language program, nofun, nofun, ?_⟩
          intro γ δ _ _ s' host' hview
          rw [dispatch, hview.leader, hview.marker, hinput, ← hview.language]
          rfl
      | command c argument =>
          obtain ⟨e, hclear, hquit, hrun⟩ := s.runCommand_effect host c argument
          refine ⟨e, ?_, ?_, ?_⟩
          · intro he
            obtain ⟨rfl, rfl⟩ := hclear he
            rfl
          · intro he
            obtain ⟨rfl, rfl⟩ := hquit he
            rfl
          · intro γ δ _ _ s' host' hview
            rw [dispatch, hview.leader, hview.marker, hinput]
            exact hrun s' host' hview

/-- The effect of a dispatch by itself. -/
theorem exists_carryOut [Evaluator α] [Evaluator β] (s : Session α β) (host : Host) (lines : List String) :
    ∃ e : Effect,
      (e = .clear → Input.classify s.leader s.marker lines = .ok (.command .clear none))
        ∧ (e = .quit → Input.classify s.leader s.marker lines = .ok (.command .quit none))
        ∧ s.dispatch host lines = s.carryOut host e := by
  obtain ⟨e, hclear, hquit, hdispatch⟩ := s.dispatch_effect host lines
  exact ⟨e, hclear, hquit, hdispatch s host (SameView.refl s host)⟩

end Session

end Transcript
