import Mathlib.Data.List.Induction
import Transcript.Proofs.Session.Visit

/-!
What is current on a host, whatever is done with it. The current buffer is none or there. The current window is none
or there as well, but for one case: to close a window, nobody looks at what is current. A window that is closed while
it is current stays current until a window that is there is made current or a buffer is deleted.
-/
namespace Transcript

namespace Host

/-- What is done with a host. An evaluation under an override enters it and leaves it for the place that was saved; in
between there may be other actions. -/
inductive Action where
  | createBuffer (lines : List String)
  | createWindow (buffer : Nat)
  | closeWindow (window : Nat)
  | deleteBuffer (buffer : Nat)
  | setCurrent (place : Place)
  | setLines (buffer start stop : Nat) (lines : List String)
  | enter (override : Place)
  | leave (saved : Place)
  deriving DecidableEq, Repr

def act (h : Host) : Action → Host
  | .createBuffer lines => (h.createBuffer lines).2
  | .createWindow buffer => (h.createWindow buffer).2
  | .closeWindow window => h.closeWindow window
  | .deleteBuffer buffer => h.deleteBuffer buffer
  | .setCurrent place => h.setCurrent place
  | .setLines buffer start stop lines => h.setLines buffer start stop lines
  | .enter override => h.enter override
  | .leave saved => h.leave saved

def run (h : Host) (actions : List Action) : Host := actions.foldl act h

theorem run_concat (h : Host) (actions : List Action) (a : Action) :
    h.run (actions ++ [a]) = (h.run actions).act a := by
  rw [run, List.foldl_append]
  rfl

theorem Reached.act {h : Host} (hr : h.Reached) (a : Action) : (h.act a).Reached := by
  cases a with
  | createBuffer lines => exact hr.createBuffer lines
  | createWindow buffer => exact hr.createWindow buffer
  | closeWindow window => exact hr.closeWindow window
  | deleteBuffer buffer => exact hr.deleteBuffer buffer
  | setCurrent place => exact hr.setCurrent place
  | setLines buffer start stop lines => exact hr.modifyBuffer buffer _
  | enter override =>
      show (h.enter override).Reached
      unfold enter
      split
      · exact hr
      · exact hr.setCurrent override
  | leave saved =>
      show (h.leave saved).Reached
      unfold leave
      split
      · exact hr
      · exact hr.setCurrent saved

theorem reached_run (actions : List Action) : (new.run actions).Reached := by
  induction actions using List.reverseRecOn with
  | nil => exact Reached.new
  | append_singleton actions a ih =>
      rw [run_concat]
      exact ih.act a

/-! ### The current buffer -/

/-- The buffer that is current and deleted gives way to none. -/
theorem Reached.current_buffer {h : Host} (hr : h.Reached) :
    h.current.buffer = 0 ∨ h.hasBuffer h.current.buffer = true := by
  induction hr with
  | new => exact Or.inr rfl
  | createBuffer _ lines ih =>
      refine ih.imp_right fun hthere => ?_
      simp only [Host.hasBuffer, Table.contains, Host.createBuffer, Table.get?_insert] at hthere ⊢
      split
      · rfl
      · exact hthere
  | createWindow _ buffer ih => exact ih
  | closeWindow _ window ih => exact ih
  | @setCurrent h _ place ih =>
      rw [hasBuffer_setCurrent, current_setCurrent, pick]
      by_cases hplace : place.buffer ≠ 0 ∧ h.hasBuffer place.buffer = true
      · simp only [if_pos hplace]
        exact Or.inr hplace.2
      · simp only [if_neg hplace]
        exact ih
  | @modifyBuffer h _ buffer f ih =>
      rw [hasBuffer_modifyBuffer]
      exact ih
  | @deleteBuffer h _ buffer ih =>
      by_cases hgone : h.current.buffer = buffer
      · exact Or.inl (if_pos hgone)
      · simp only [Host.hasBuffer, Table.contains, Host.deleteBuffer, if_neg hgone, Table.get?_erase] at ih ⊢
        exact ih

/-! ### The current window -/

section Windows

variable {h : Host}

theorem hasWindow_createWindow (h : Host) (buffer window : Nat) :
    (h.createWindow buffer).2.hasWindow window = true ↔ window = h.nextWindow ∨ h.hasWindow window = true := by
  by_cases hnew : window = h.nextWindow <;> simp [createWindow, hasWindow, Table.contains, hnew]

theorem hasWindow_closeWindow (h : Host) (closed window : Nat) :
    (h.closeWindow closed).hasWindow window = true ↔ window ≠ closed ∧ h.hasWindow window = true := by
  by_cases hclosed : window = closed <;> simp [closeWindow, hasWindow, Table.contains, hclosed]

/-- Windows that show a deleted buffer are closed, and none is opened. -/
theorem hasWindow_deleteBuffer (h : Host) (buffer window : Nat) :
    (h.deleteBuffer buffer).hasWindow window = true ↔ ∃ shown, h.windows.get? window = some shown ∧ shown ≠ buffer := by
  simp only [deleteBuffer, hasWindow, Table.contains, Table.get?_filter, Option.isSome_iff_exists,
    Option.filter_eq_some_iff, bne_iff_ne]

theorem hasWindow_of_deleteBuffer {buffer window : Nat} (hthere : (h.deleteBuffer buffer).hasWindow window = true) :
    h.hasWindow window = true := by
  obtain ⟨shown, hshown, -⟩ := (h.hasWindow_deleteBuffer buffer window).1 hthere
  exact Option.isSome_iff_exists.2 ⟨shown, hshown⟩

/-- The windows that there are have numbers from 1 on that were given out, and so has the current window. -/
structure WindowsNumbered (h : Host) : Prop where
  hasWindow_zero : h.hasWindow 0 = false
  lt_nextWindow : ∀ window, h.hasWindow window = true → window < h.nextWindow
  current_lt : h.current.window < h.nextWindow

theorem WindowsNumbered.setCurrent (hn : h.WindowsNumbered) (place : Place) : (h.setCurrent place).WindowsNumbered := by
  have hnext : (h.setCurrent place).nextWindow = h.nextWindow := by
    by_cases hplace : place.buffer ≠ 0 ∧ h.hasBuffer place.buffer = true <;> simp [Host.setCurrent, hplace]
  refine ⟨?_, ?_, ?_⟩
  · rw [hasWindow_setCurrent]
    exact hn.hasWindow_zero
  · intro window hthere
    rw [hasWindow_setCurrent] at hthere
    rw [hnext]
    exact hn.lt_nextWindow window hthere
  · rw [hnext, current_setCurrent, pick]
    by_cases hplace : place.window ≠ 0 ∧ h.hasWindow place.window = true
    · simp only [if_pos hplace]
      exact hn.lt_nextWindow place.window hplace.2
    · simp only [if_neg hplace]
      exact hn.current_lt

theorem Reached.windowsNumbered (hr : h.Reached) : h.WindowsNumbered := by
  induction hr with
  | new =>
      refine ⟨rfl, ?_, Nat.one_lt_two⟩
      intro window hthere
      by_cases hone : window = 1
      · rw [hone]
        exact Nat.one_lt_two
      · simp [Host.new, Host.hasWindow, Table.contains, hone] at hthere
  | createBuffer _ lines ih => exact ⟨ih.hasWindow_zero, ih.lt_nextWindow, ih.current_lt⟩
  | @createWindow h _ buffer ih =>
      refine ⟨?_, ?_, Nat.lt_succ_of_lt ih.current_lt⟩
      · have hpos := Nat.zero_lt_of_lt ih.current_lt
        rw [Bool.eq_false_iff, Ne, hasWindow_createWindow, ih.hasWindow_zero]
        simp [Nat.ne_of_lt hpos]
      · intro window hthere
        rcases (h.hasWindow_createWindow buffer window).1 hthere with rfl | hthere
        · exact Nat.lt_succ_self _
        · exact Nat.lt_succ_of_lt (ih.lt_nextWindow window hthere)
  | @closeWindow h _ closed ih =>
      refine ⟨?_, ?_, ih.current_lt⟩
      · rw [Bool.eq_false_iff, Ne, hasWindow_closeWindow, ih.hasWindow_zero]
        simp
      · intro window hthere
        exact ih.lt_nextWindow window ((h.hasWindow_closeWindow closed window).1 hthere).2
  | setCurrent _ place ih => exact ih.setCurrent place
  | modifyBuffer _ buffer f ih => exact ⟨ih.hasWindow_zero, ih.lt_nextWindow, ih.current_lt⟩
  | @deleteBuffer h _ buffer ih =>
      refine ⟨?_, ?_, ?_⟩
      · rw [Bool.eq_false_iff]
        intro hthere
        have hzero := hasWindow_of_deleteBuffer hthere
        rw [ih.hasWindow_zero] at hzero
        cases hzero
      · intro window hthere
        exact ih.lt_nextWindow window (hasWindow_of_deleteBuffer hthere)
      · show (if _ then h.current.window else 0) < h.nextWindow
        split
        · exact ih.current_lt
        · exact Nat.zero_lt_of_lt ih.current_lt

end Windows

/-- The current window is none or there. -/
def WindowStands (h : Host) : Prop := h.current.window = 0 ∨ h.hasWindow h.current.window = true

/-- Whether the action leaves no window current that is gone, whatever was current before: it makes a window current
that is there, or deletes a buffer. -/
def Settles (h : Host) : Action → Prop
  | .setCurrent place => h.hasWindow place.window = true
  | .enter override => h.hasWindow override.window = true
  | .leave saved => h.hasWindow saved.window = true
  | .deleteBuffer _ => True
  | _ => False

/-- Whether one of the actions settles what the current window is. -/
def Recovers (h : Host) : List Action → Prop
  | [] => False
  | a :: rest => h.Settles a ∨ (h.act a).Recovers rest

/-- The action closes the current window. -/
def ClosesCurrent (h : Host) (a : Action) : Prop :=
  a = .closeWindow h.current.window ∧ h.hasWindow h.current.window = true

section Steps

variable {h : Host}

theorem windowStands_setCurrent (hzero : h.hasWindow 0 = false) (place : Place) :
    (h.setCurrent place).WindowStands ↔ h.WindowStands ∨ h.hasWindow place.window = true := by
  rw [WindowStands, hasWindow_setCurrent, current_setCurrent, pick]
  by_cases hplace : h.hasWindow place.window = true
  · have hne : place.window ≠ 0 := by
      intro hnone
      rw [hnone, hzero] at hplace
      cases hplace
    simp [hplace, hne]
  · simp [hplace, WindowStands]

theorem windowStands_enter (hzero : h.hasWindow 0 = false) (override : Place) :
    (h.enter override).WindowStands ↔ h.WindowStands ∨ h.hasWindow override.window = true := by
  unfold enter
  split
  next hnone => simp [hnone, hzero]
  · exact windowStands_setCurrent hzero override

theorem windowStands_leave (hzero : h.hasWindow 0 = false) (saved : Place) :
    (h.leave saved).WindowStands ↔ h.WindowStands ∨ h.hasWindow saved.window = true := by
  unfold leave
  split
  next hsame =>
    rw [← hsame]
    exact ⟨Or.inl, fun hstands => hstands.elim id Or.inr⟩
  · exact windowStands_setCurrent hzero saved

/-- Deleting a buffer looks at the current window, and one that is gone gives way to none. -/
theorem windowStands_deleteBuffer (h : Host) (buffer : Nat) : (h.deleteBuffer buffer).WindowStands := by
  by_cases hthere : (h.deleteBuffer buffer).hasWindow h.current.window = true
  · have hcurrent : (h.deleteBuffer buffer).current.window = h.current.window := if_pos hthere
    rw [WindowStands, hcurrent]
    exact Or.inr hthere
  · exact Or.inl (if_neg hthere)

/-- What an action makes of the current window. -/
theorem windowStands_act_iff (hn : h.WindowsNumbered) (a : Action) :
    (h.act a).WindowStands ↔ (h.WindowStands ∧ ¬ h.ClosesCurrent a) ∨ h.Settles a := by
  cases a with
  | createBuffer lines => simp [act, Settles, ClosesCurrent, WindowStands, createBuffer, hasWindow]
  | createWindow buffer =>
      have hold : h.current.window ≠ h.nextWindow := Nat.ne_of_lt hn.current_lt
      have hthere := h.hasWindow_createWindow buffer h.current.window
      simp only [hold, false_or] at hthere
      simp only [Settles, ClosesCurrent, reduceCtorEq, false_and, not_false_iff, and_true, or_false]
      exact or_congr Iff.rfl hthere
  | closeWindow closed =>
      have hthere := h.hasWindow_closeWindow closed h.current.window
      have hstands : (h.act (.closeWindow closed)).WindowStands
          ↔ h.current.window = 0 ∨ h.current.window ≠ closed ∧ h.hasWindow h.current.window = true :=
        or_congr Iff.rfl hthere
      rw [hstands]
      simp only [Settles, ClosesCurrent, WindowStands, or_false, Action.closeWindow.injEq]
      have hzero := hn.hasWindow_zero
      by_cases hnone : h.current.window = 0
      · simp [hnone, hzero]
      · simp only [hnone, false_or]
        tauto
  | deleteBuffer buffer =>
      simp only [Settles, or_true, iff_true]
      exact windowStands_deleteBuffer h buffer
  | setCurrent place => simpa [act, Settles, ClosesCurrent] using windowStands_setCurrent hn.hasWindow_zero place
  | setLines buffer start stop lines => simp [act, Settles, ClosesCurrent, WindowStands, setLines, modifyBuffer, hasWindow]
  | enter override => simpa [act, Settles, ClosesCurrent] using windowStands_enter hn.hasWindow_zero override
  | leave saved => simpa [act, Settles, ClosesCurrent] using windowStands_leave hn.hasWindow_zero saved

end Steps

theorem run_append (h : Host) (before : List Action) (a : Action) (after : List Action) :
    h.run (before ++ a :: after) = ((h.run before).act a).run after := by
  rw [run, List.foldl_append]
  rfl

theorem recovers_concat (h : Host) (actions : List Action) (a : Action) :
    h.Recovers (actions ++ [a]) ↔ h.Recovers actions ∨ (h.run actions).Settles a := by
  induction actions generalizing h with
  | nil => simp [Recovers, run]
  | cons b rest ih =>
      rw [List.cons_append, Recovers, Recovers, ih, or_assoc]
      rfl

/-- **What is current.** Whatever is done with a host, the current buffer is none or there. The current window is
none or there exactly if each closing of the window that was current then has been recovered from. -/
theorem current_run (actions : List Action) :
    ((new.run actions).current.buffer = 0 ∨ (new.run actions).hasBuffer (new.run actions).current.buffer = true)
      ∧ (((new.run actions).current.window = 0 ∨ (new.run actions).hasWindow (new.run actions).current.window = true)
        ↔ ∀ before closing after, actions = before ++ closing :: after → (new.run before).ClosesCurrent closing →
          ((new.run before).act closing).Recovers after) := by
  refine ⟨(reached_run actions).current_buffer, ?_⟩
  show (new.run actions).WindowStands ↔ _
  induction actions using List.reverseRecOn with
  | nil =>
      refine ⟨?_, fun _ => Or.inr rfl⟩
      rintro - before closing after hsplit
      simp at hsplit
  | append_singleton actions a ih =>
      rw [run_concat, windowStands_act_iff (reached_run actions).windowsNumbered, ih]
      constructor
      · intro hstands before closing after hsplit hcloses
        rcases List.eq_nil_or_concat after with rfl | ⟨after, b, rfl⟩
        · -- The last action is the closing, so nothing came behind it yet.
          obtain ⟨rfl, hlast⟩ := List.append_inj' hsplit rfl
          obtain rfl := List.singleton_inj.1 hlast
          rcases hstands with ⟨-, hopen⟩ | hsettles
          · exact absurd hcloses hopen
          · rw [hcloses.1] at hsettles
            exact hsettles
        · rw [List.concat_eq_append, ← List.cons_append, ← List.append_assoc] at hsplit
          obtain ⟨rfl, hlast⟩ := List.append_inj' hsplit rfl
          obtain rfl := List.singleton_inj.1 hlast
          rw [List.concat_eq_append, recovers_concat, ← run_append]
          exact hstands.imp_left fun hbefore => hbefore.1 before closing after rfl hcloses
      · intro hrecovers
        by_cases hsettles : (new.run actions).Settles a
        · exact Or.inr hsettles
        · refine Or.inl ⟨?_, hrecovers actions a [] rfl⟩
          rintro before closing after rfl hcloses
          have hbehind := hrecovers before closing (after ++ [a]) (by simp) hcloses
          rw [recovers_concat, ← run_append] at hbehind
          exact hbehind.resolve_right hsettles

/-- Closing the window of a fresh host leaves it current. -/
example : (new.run [.closeWindow 1]).current.window = 1 ∧ (new.run [.closeWindow 1]).hasWindow 1 = false := by decide

end Host

/-- An evaluation is a visit, or nothing if its overrides are stale. -/
theorem Session.host_evaluate_eq_run {α β : Type} [Evaluator α] [Evaluator β] (s : Session α β) (host : Host)
    (language : Language) (program : List String) :
    (s.evaluate host language program).host
      = host.run (if s.staleOverrides host = [] then [.enter s.context, .leave host.current] else []) := by
  unfold evaluate
  by_cases hstale : s.staleOverrides host = []
  · simp only [hstale, ne_eq, not_true_eq_false, if_false, if_true]
    rfl
  · simp only [if_pos hstale, if_neg hstale]
    rfl

end Transcript
