import Transcript.Proofs.Session.Dispatch

/-!
Overrides that are no longer valid. Before anything is evaluated the overrides are looked at. If one of them is set to a
buffer or a window that is gone, it is reset and said to be, one line for each, and nothing is evaluated: the evaluators,
the host and the other override stay as they are.
-/
namespace Transcript

variable {α β : Type}

def Override.all : List Override := [.buffer, .window]

theorem Override.mem_all (o : Override) : o ∈ all := by
  cases o <;> decide

namespace Session

/-- The override is set, and its number is not valid. -/
def IsStale (s : Session α β) (host : Host) (o : Override) : Prop :=
  s.override o ≠ 0 ∧ isLive host o (s.override o) = false

instance (s : Session α β) (host : Host) (o : Override) : Decidable (s.IsStale host o) :=
  inferInstanceAs (Decidable (_ ∧ _))

/-- The session with the overrides reset that are not valid. -/
def withoutStale (s : Session α β) (host : Host) : Session α β :=
  { s with
    context := {
      buffer := if s.IsStale host .buffer then 0 else s.context.buffer
      window := if s.IsStale host .window then 0 else s.context.window } }

theorem override_withoutStale (s : Session α β) (host : Host) (o : Override) :
    (s.withoutStale host).override o = if s.IsStale host o then 0 else s.override o := by
  cases o <;> rfl

/-- The line that is shown for an override that is reset. -/
def resetLine (o : Override) : String := (Failure.staleContext o).message

theorem staleOverrides_eq (s : Session α β) (host : Host) :
    s.staleOverrides host = Override.all.filter (s.IsStale host ·) := by
  have hsame : ∀ {p q : Prop} [Decidable p] [Decidable q], (p ↔ q) → ∀ o : Override,
      (if p then [o] else []) = if decide q then [o] else [] := by
    intro p q _ _ h o
    simp [h]
  have hbuffer : s.context.buffer ≠ 0 ∧ ¬ host.hasBuffer s.context.buffer = true ↔ s.IsStale host .buffer := by
    simp [IsStale, isLive, override]
  have hwindow : s.context.window ≠ 0 ∧ ¬ host.hasWindow s.context.window = true ↔ s.IsStale host .window := by
    simp [IsStale, isLive, override]
  rw [staleOverrides, hsame hbuffer, hsame hwindow, Override.all, List.filter_cons, List.filter_cons, List.filter_nil]
  split <;> split <;> rfl

theorem staleOverrides_ne_nil_iff {s : Session α β} {host : Host} :
    s.staleOverrides host ≠ [] ↔ ∃ o, s.IsStale host o := by
  rw [staleOverrides_eq, ne_eq, List.filter_eq_nil_iff]
  simp [Override.mem_all]

theorem resets_stale (s : Session α β) (host : Host) :
    (s.staleOverrides host).foldl (fun s o => s.setOverride o 0) s = s.withoutStale host := by
  rw [staleOverrides_eq, withoutStale, Override.all]
  by_cases hbuffer : s.IsStale host .buffer <;> by_cases hwindow : s.IsStale host .window <;>
    simp [hbuffer, hwindow, setOverride]

theorem complaints_stale {os : List Override} (hne : os ≠ []) :
    complaints (os.map Failure.staleContext) = ⟨[⟨.error, os.map resetLine⟩]⟩ := by
  have hline : ∀ o, outputLines (resetLine o) = [resetLine o] := by
    intro o
    exact outputLines_of_line (by cases o <;> decide) (by cases o <;> decide)
  rw [complaints, List.foldl_map]
  exact Sink.foldl_push_lines .error resetLine hne fun o _ => hline o

variable [Evaluator α] [Evaluator β] {s : Session α β} {host : Host}

/-- With an override that is not valid nothing is evaluated. -/
theorem evaluate_of_stale (hstale : ∃ o, s.IsStale host o) (language : Language) (program : List String) :
    s.evaluate host language program
      = { output := ⟨[⟨.error, (Override.all.filter (s.IsStale host ·)).map resetLine⟩]⟩
          next := .proceed
          session := s.withoutStale host
          host := host } := by
  have hne := staleOverrides_ne_nil_iff.2 hstale
  unfold evaluate
  simp only [if_pos hne, resets_stale, complaints_stale hne]
  rw [staleOverrides_eq]

end Session

end Transcript
