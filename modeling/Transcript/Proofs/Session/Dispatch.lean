import Transcript.Proofs.Evaluator
import Transcript.Proofs.Host
import Transcript.Proofs.Session.Effect

/-!
What a dispatch leaves alone. Only an accepted `clear` or `quit` reaches a buffer; every other statement
changes the language, the indent, the overrides and the evaluators at most, gives output without empty
chunks and goes on, unless an evaluator asks to hold the line.
-/
namespace Transcript

variable {α β : Type}

/-- The parts of a session that only submitting, clearing and quitting change. -/
structure Session.Frame (s s' : Session α β) : Prop where
  buffer : s'.buffer = s.buffer
  redraw : s'.redraw = s.redraw
  inspect : s'.inspect = s.inspect
  marker : s'.marker = s.marker
  leader : s'.leader = s.leader
  history : s'.history = s.history
  nextMark : s'.nextMark = s.nextMark

/-- A dispatch that changes no buffer, has proper output and does not end the session. It goes on with a new
line unless an evaluator holds the line. -/
structure Dispatch.Keeps [Evaluator α] [Evaluator β] (s : Session α β) (host : Host) (d : Dispatch α β) :
    Prop where
  output : d.output.Proper
  plain : Evaluator.EmitsPlain α → Evaluator.EmitsPlain β → d.output.Plain
  next : d.next ≠ .exit
  proceeds : Evaluator.NeverHolds α → Evaluator.NeverHolds β → d.next = .proceed
  buffers : d.host.buffers = host.buffers
  nextBuffer : d.host.nextBuffer = host.nextBuffer
  session : s.Frame d.session

namespace Session

theorem Frame.refl (s : Session α β) : s.Frame s := ⟨rfl, rfl, rfl, rfl, rfl, rfl, rfl⟩

theorem Frame.trans {s s' s'' : Session α β} (h : s.Frame s') (h' : s'.Frame s'') : s.Frame s'' where
  buffer := h'.buffer.trans h.buffer
  redraw := h'.redraw.trans h.redraw
  inspect := h'.inspect.trans h.inspect
  marker := h'.marker.trans h.marker
  leader := h'.leader.trans h.leader
  history := h'.history.trans h.history
  nextMark := h'.nextMark.trans h.nextMark

theorem frame_setOverride (s : Session α β) (o : Override) (n : Nat) : s.Frame (s.setOverride o n) := by
  rw [setOverride_eq]
  exact ⟨rfl, rfl, rfl, rfl, rfl, rfl, rfl⟩

theorem frame_change (s : Session α β) (setting : Option Setting) : s.Frame (s.change setting) := by
  rw [change_eq]
  exact ⟨rfl, rfl, rfl, rfl, rfl, rfl, rfl⟩

theorem frame_resets (s : Session α β) (os : List Override) :
    s.Frame (os.foldl (fun s o => s.setOverride o 0) s) := by
  induction os generalizing s with
  | nil => exact Frame.refl s
  | cons o os ih => exact (s.frame_setOverride o 0).trans (ih (s.setOverride o 0))

/-! ### Evaluating -/

theorem proper_complaints (failures : List Failure) : (complaints failures).Proper :=
  Sink.proper_foldl_push (fun _ => .error) Failure.message failures Sink.proper_empty

theorem proper_outputOf (clean : String → String) (outcome : Outcome) (emitted : Sink) :
    (outputOf clean outcome emitted).Proper := by
  have hemitted := Sink.proper_empty.extend emitted
  unfold outputOf
  cases outcome with
  | done => exact hemitted
  | value text => exact hemitted.push .value text
  | hold => exact hemitted
  | failed message => exact hemitted.push .error (clean message)
  | crashed message => exact hemitted.push .error (message.getD "evaluator panicked")

theorem plain_complaints (failures : List Failure) : (complaints failures).Plain :=
  Sink.plain_foldl_push (fun _ => .error) Failure.message (fun _ _ => by decide) Sink.plain_empty

theorem plain_outputOf (clean : String → String) (outcome : Outcome) {emitted : Sink} (h : emitted.Plain) :
    (outputOf clean outcome emitted).Plain := by
  have hemitted := Sink.plain_empty.extend h
  unfold outputOf
  cases outcome with
  | done => exact hemitted
  | value text => exact hemitted.push (by decide) text
  | hold => exact hemitted
  | failed message => exact hemitted.push (by decide) (clean message)
  | crashed message => exact hemitted.push (by decide) (message.getD "evaluator panicked")

theorem nextOf_ne_exit (outcome : Outcome) : nextOf outcome ≠ .exit := by
  cases outcome <;> simp [nextOf]

theorem nextOf_eq_proceed {outcome : Outcome} (h : outcome ≠ .hold) : nextOf outcome = .proceed := by
  cases outcome <;> simp_all [nextOf]

variable [Evaluator α] [Evaluator β]

theorem evaluate_keeps (s : Session α β) (host : Host) (language : Language) (program : List String) :
    (s.evaluate host language program).Keeps s host := by
  unfold evaluate
  by_cases hstale : s.staleOverrides host ≠ []
  · simp only [if_pos hstale]
    exact ⟨proper_complaints _, fun _ _ => plain_complaints _, by simp, fun _ _ => rfl, rfl, rfl, s.frame_resets _⟩
  · simp only [if_neg hstale]
    cases language with
    | lua =>
        exact ⟨proper_outputOf _ _ _, fun hα _ => plain_outputOf _ _ (hα _ _ _), nextOf_ne_exit _,
          fun hα _ => nextOf_eq_proceed (hα _ _ _), by simp, by simp, ⟨rfl, rfl, rfl, rfl, rfl, rfl, rfl⟩⟩
    | vim =>
        exact ⟨proper_outputOf _ _ _, fun _ hβ => plain_outputOf _ _ (hβ _ _ _), nextOf_ne_exit _,
          fun _ hβ => nextOf_eq_proceed (hβ _ _ _), by simp, by simp, ⟨rfl, rfl, rfl, rfl, rfl, rfl, rfl⟩⟩

/-! ### Effects -/

theorem showing_keeps {s s' : Session α β} (h : s.Frame s') (host : Host) {highlight : Highlight}
    (hne : highlight ≠ .continuation) (text : String) : (s'.showing host highlight text).Keeps s host :=
  ⟨Sink.proper_of highlight text, fun _ _ => Sink.plain_of hne text, by simp [showing], fun _ _ => rfl, rfl, rfl, h⟩

theorem refusing_keeps (s : Session α β) (host : Host) (f : Failure) : (s.refusing host f).Keeps s host :=
  showing_keeps (Frame.refl s) host (by decide) f.message

theorem carryOut_keeps (s : Session α β) (host : Host) {e : Effect} (hclear : e ≠ .clear) (hquit : e ≠ .quit) :
    (s.carryOut host e).Keeps s host := by
  cases e with
  | refuse f => exact s.refusing_keeps host f
  | inform setting text => exact showing_keeps (s.frame_change setting) host (by decide) text
  | evaluate language program => exact s.evaluate_keeps host language program
  | clear => exact absurd rfl hclear
  | quit => exact absurd rfl hquit

/-- Only an accepted `clear` or `quit` reaches a buffer. -/
theorem dispatch_keeps (s : Session α β) (host : Host) (lines : List String)
    (hclear : Input.classify s.leader s.marker lines ≠ .ok (.command .clear none))
    (hquit : Input.classify s.leader s.marker lines ≠ .ok (.command .quit none)) :
    (s.dispatch host lines).Keeps s host := by
  obtain ⟨e, hclears, hquits, hdispatch⟩ := s.exists_carryOut host lines
  rw [hdispatch]
  exact s.carryOut_keeps host (mt hclears hclear) (mt hquits hquit)

theorem dispatch_clear (s : Session α β) {lines : List String}
    (h : Input.classify s.leader s.marker lines = .ok (.command .clear none)) (host : Host) :
    s.dispatch host lines
      = { output := .empty, next := .hold, session := (s.clear host).1, host := (s.clear host).2 } := by
  rw [dispatch, h]
  rfl

theorem dispatch_quit (s : Session α β) {lines : List String}
    (h : Input.classify s.leader s.marker lines = .ok (.command .quit none)) (host : Host) :
    s.dispatch host lines
      = { output := .empty
          next := .exit
          session := { s with nextMark := 1 }
          host := (host.clearMarks s.buffer).deleteBuffer s.buffer } := by
  rw [dispatch, h]
  rfl

/-- A dispatch that does not end the session leaves its buffer, so a submission need not look for the buffer again
before it shows the output. -/
theorem isAlive_dispatch (s : Session α β) (host : Host) {lines : List String}
    (hnext : (s.dispatch host lines).next ≠ .exit) :
    (s.dispatch host lines).session.isAlive (s.dispatch host lines).host = s.isAlive host := by
  by_cases hclear : Input.classify s.leader s.marker lines = .ok (.command .clear none)
  · rw [s.dispatch_clear hclear host]
    simp [isAlive, clear, Host.setLines, Host.clearMarks]
  · by_cases hquit : Input.classify s.leader s.marker lines = .ok (.command .quit none)
    · rw [s.dispatch_quit hquit host] at hnext
      exact absurd rfl hnext
    · have hkeeps := s.dispatch_keeps host lines hclear hquit
      rw [isAlive, isAlive, Host.hasBuffer, Host.hasBuffer, hkeeps.buffers, hkeeps.session.buffer]

/-- Of the parts in the frame, a dispatch changes the number of the next mark at most. -/
theorem frame_dispatch (s : Session α β) (host : Host) (lines : List String) :
    { s with nextMark := (s.dispatch host lines).session.nextMark }.Frame (s.dispatch host lines).session := by
  by_cases hclear : Input.classify s.leader s.marker lines = .ok (.command .clear none)
  · rw [s.dispatch_clear hclear host]
    exact Frame.refl _
  · by_cases hquit : Input.classify s.leader s.marker lines = .ok (.command .quit none)
    · rw [s.dispatch_quit hquit host]
      exact Frame.refl _
    · have hframe := (s.dispatch_keeps host lines hclear hquit).session
      exact { hframe with nextMark := rfl }

end Session

end Transcript
