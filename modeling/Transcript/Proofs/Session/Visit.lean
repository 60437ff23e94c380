import Transcript.Console
import Transcript.Proofs.Host

/-!
Visiting an override. An evaluation happens in the overrides of its session, and however it ends, the place that was
current before is made current again. Only what is there can be made current: a half of the place that was none, or is
gone, does not come back, and if that half was overridden, the override stays.
-/
namespace Transcript

namespace Host

/-- The halves of a place that are there, and those of `other` for the rest. -/
def pick (h : Host) (place other : Place) : Place where
  buffer := if place.buffer ≠ 0 ∧ h.hasBuffer place.buffer then place.buffer else other.buffer
  window := if place.window ≠ 0 ∧ h.hasWindow place.window then place.window else other.window

theorem pick_self (h : Host) (place : Place) : h.pick place place = place := by
  simp [pick]

theorem pick_none (h : Host) (other : Place) : h.pick {} other = other := by
  simp [pick]

theorem pick_congr {h h' : Host} (hbuffer : ∀ buffer, h'.hasBuffer buffer = h.hasBuffer buffer)
    (hwindow : ∀ window, h'.hasWindow window = h.hasWindow window) (place other : Place) :
    h'.pick place other = h.pick place other := by
  simp only [pick, hbuffer, hwindow]

theorem current_setCurrent (h : Host) (place : Place) : (h.setCurrent place).current = h.pick place h.current := by
  by_cases hplace : place.buffer ≠ 0 ∧ h.hasBuffer place.buffer = true
  · simp only [setCurrent, pick, if_pos hplace]
  · simp only [setCurrent, pick, if_neg hplace]

theorem current_enter (h : Host) (override : Place) : (h.enter override).current = h.pick override h.current := by
  unfold enter
  split
  next hnone => rw [hnone, pick_none]
  · exact h.current_setCurrent override

theorem current_leave (h : Host) (saved : Place) : (h.leave saved).current = h.pick saved h.current := by
  unfold leave
  split
  next hsame => rw [hsame, pick_self]
  · exact h.current_setCurrent saved

/-- The place after a visit: what is there of the place before, else the override, else what it was. -/
theorem current_visit (h : Host) (override : Place) :
    ((h.enter override).leave h.current).current = h.pick h.current (h.pick override h.current) := by
  rw [current_leave, current_enter]
  exact pick_congr (h.hasBuffer_enter override) (h.hasWindow_enter override) _ _

/-- A visit of what is there ends where it began if each half that it overrode was there before. -/
theorem current_visit_eq_iff {h : Host} (hr : h.Reached) {override : Place}
    (hbuffer : override.buffer = 0 ∨ h.hasBuffer override.buffer = true)
    (hwindow : override.window = 0 ∨ h.hasWindow override.window = true) :
    ((h.enter override).leave h.current).current = h.current
      ↔ (override.buffer = 0 ∨ h.hasBuffer h.current.buffer = true)
        ∧ (override.window = 0 ∨ h.hasWindow h.current.window = true) := by
  -- A half that is gone differs from every override that is there, so it is back only if nothing overrode it.
  have hhalf : ∀ (has : Nat → Bool) (half saved : Nat), has 0 = false → (half = 0 ∨ has half = true) →
      ((if saved ≠ 0 ∧ has saved = true then saved else if half ≠ 0 ∧ has half = true then half else saved) = saved
        ↔ half = 0 ∨ has saved = true) := by
    intro has half saved hzero hhalf
    by_cases hsaved : has saved = true
    · have hne : saved ≠ 0 := by
        rintro rfl
        rw [hzero] at hsaved
        cases hsaved
      simp [hsaved, hne]
    · by_cases hnone : half = 0
      · simp [hnone]
      · have hthere : has half = true := hhalf.resolve_left hnone
        have hmoved : half ≠ saved := by
          rintro rfl
          exact hsaved hthere
        simp [hsaved, hnone, hthere, hmoved]
  have hspares := hr.sparesZero
  rw [current_visit, pick, pick]
  simp only
  rw [← hhalf h.hasBuffer _ _ hspares.hasBuffer hbuffer, ← hhalf h.hasWindow _ _ hspares.hasWindow hwindow]
  constructor
  · intro hplace
    exact ⟨congrArg Place.buffer hplace, congrArg Place.window hplace⟩
  · rintro ⟨hb, hw⟩
    rw [hb, hw]

end Host

namespace Session

variable {α β : Type} [Evaluator α] [Evaluator β]

/-- Where the overrides are there, an evaluation is a visit. -/
theorem host_evaluate {s : Session α β} {host : Host}
    (hbuffer : s.context.buffer = 0 ∨ host.hasBuffer s.context.buffer = true)
    (hwindow : s.context.window = 0 ∨ host.hasWindow s.context.window = true) (language : Language)
    (program : List String) :
    (s.evaluate host language program).host = (host.enter s.context).leave host.current := by
  have hfresh : s.staleOverrides host = [] := by
    rw [staleOverrides, if_neg, if_neg, List.append_nil]
    · rintro ⟨hne, hgone⟩
      exact hgone (hwindow.resolve_left hne)
    · rintro ⟨hne, hgone⟩
      exact hgone (hbuffer.resolve_left hne)
  rw [evaluate]
  simp only [hfresh, ne_eq, not_true_eq_false, if_false]

/-- **What an evaluation makes of the current place.** Whatever the evaluators are, and however the evaluation ends, the
place is current again exactly if each half that was overridden was there before. -/
theorem current_evaluate_eq_iff (s : Session α β) {host : Host} (hr : host.Reached)
    (hbuffer : s.context.buffer = 0 ∨ host.hasBuffer s.context.buffer = true)
    (hwindow : s.context.window = 0 ∨ host.hasWindow s.context.window = true) (language : Language)
    (program : List String) :
    (s.evaluate host language program).host.current = host.current
      ↔ (s.context.buffer = 0 ∨ host.hasBuffer host.current.buffer = true)
        ∧ (s.context.window = 0 ∨ host.hasWindow host.current.window = true) := by
  rw [host_evaluate hbuffer hwindow]
  exact Host.current_visit_eq_iff hr hbuffer hwindow

/-- A host whose first buffer was deleted, and its window with it. The second buffer is still there. -/
def bereavedHost : Host := (Host.new.createBuffer []).2.deleteBuffer 1

/-- Nothing is current, and an evaluation in the second buffer leaves that one current. -/
theorem current_evaluate_of_bereaved :
    bereavedHost.current = {}
      ∧ ((StandardSession.new 2 { buffer := 2 }).evaluate bereavedHost .lua ["x"]).host.current ≠ bereavedHost.current := by
  have hr : bereavedHost.Reached := (Host.Reached.new.createBuffer []).deleteBuffer 1
  refine ⟨rfl, ?_⟩
  rw [ne_eq, current_evaluate_eq_iff _ hr (Or.inr rfl) (Or.inl rfl)]
  decide

end Session

end Transcript
