import Transcript.Console
import Transcript.Proofs.Host
import Transcript.Proofs.Session.Effect

/-!
What a dispatch depends on. Two sessions that differ in their histories and in the numbers of their next marks,
over two hosts with the same valid buffers and windows and the same current place, answer a statement
alike: with the same output, going on the same way, and leaving such sessions and, unless they end, such hosts
again. The texts and the marks of the buffers are never read, nor what the windows show.
-/
namespace Transcript

namespace Host

theorem Alike.setCurrent {h h' : Host} (ha : h.Alike h') (place : Place) :
    (h.setCurrent place).Alike (h'.setCurrent place) where
  hasBuffer buffer := by rw [hasBuffer_setCurrent, hasBuffer_setCurrent, ha.hasBuffer]
  hasWindow window := by rw [hasWindow_setCurrent, hasWindow_setCurrent, ha.hasWindow]
  current := by
    unfold Host.setCurrent
    simp only [ha.hasWindow, ha.hasBuffer, ha.current]
    split
    · rfl
    · rfl

theorem Alike.enter {h h' : Host} (ha : h.Alike h') (override : Place) :
    (h.enter override).Alike (h'.enter override) := by
  unfold Host.enter
  split
  · exact ha
  · exact ha.setCurrent override

theorem Alike.leave {h h' : Host} (ha : h.Alike h') (saved : Place) : (h.leave saved).Alike (h'.leave saved) := by
  unfold Host.leave
  rw [ha.current]
  split
  · exact ha
  · exact ha.setCurrent saved

end Host

variable {α β : Type}

/-- Sessions that differ in history and in the number of the next mark at most. -/
def Session.Alike (s s' : Session α β) : Prop :=
  ∃ (history : History) (nextMark : Nat), s' = { s with history := history, nextMark := nextMark }

/-- Dispatches with the same answer that leave alike sessions and, unless they end the session, alike hosts: the buffer
of a session that ends closes the windows that show it. -/
structure Dispatch.Alike (d d' : Dispatch α β) : Prop where
  output : d'.output = d.output
  next : d'.next = d.next
  session : d.session.Alike d'.session
  host : d.next ≠ .exit → d.host.Alike d'.host

namespace Session

theorem Alike.refl (s : Session α β) : s.Alike s := ⟨s.history, s.nextMark, rfl⟩

theorem Alike.trans {s s' s'' : Session α β} (h : s.Alike s') (h' : s'.Alike s'') : s.Alike s'' := by
  obtain ⟨history, nextMark, rfl⟩ := h'
  obtain ⟨_, _, rfl⟩ := h
  exact ⟨history, nextMark, rfl⟩

theorem Alike.marker {s s' : Session α β} (h : s.Alike s') : s'.marker = s.marker := by
  obtain ⟨_, _, rfl⟩ := h
  rfl

theorem Alike.padded {s s' : Session α β} (h : s.Alike s') : s'.padded = s.padded := by
  obtain ⟨_, _, rfl⟩ := h
  rfl

theorem Alike.setOverride {s s' : Session α β} (h : s.Alike s') (o : Override) (n : Nat) :
    (s.setOverride o n).Alike (s'.setOverride o n) := by
  obtain ⟨history, nextMark, rfl⟩ := h
  cases o <;> exact ⟨history, nextMark, rfl⟩

theorem Alike.resets {s s' : Session α β} (h : s.Alike s') (os : List Override) :
    (os.foldl (fun s o => s.setOverride o 0) s).Alike (os.foldl (fun s o => s.setOverride o 0) s') := by
  induction os generalizing s s' with
  | nil => exact h
  | cons o os ih => exact ih (h.setOverride o 0)

variable {s s' : Session α β} {host host' : Host}

theorem Alike.showing (hs : s.Alike s') (hh : host.Alike host') (highlight : Highlight) (text : String) :
    (s.showing host highlight text).Alike (s'.showing host' highlight text) :=
  ⟨rfl, rfl, hs, fun _ => hh⟩

theorem Alike.refusing (hs : s.Alike s') (hh : host.Alike host') (f : Failure) :
    (s.refusing host f).Alike (s'.refusing host' f) :=
  hs.showing hh .error f.message

theorem isLive_eq (hh : host.Alike host') (o : Override) (n : Nat) : isLive host' o n = isLive host o n := by
  cases o with
  | buffer => exact hh.hasBuffer n
  | window => exact hh.hasWindow n

theorem Alike.change (hs : s.Alike s') (setting : Option Setting) : (s.change setting).Alike (s'.change setting) := by
  rcases setting with _ | (⟨o, n⟩ | n | language)
  · exact hs
  · exact hs.setOverride o n
  · obtain ⟨history, nextMark, rfl⟩ := hs
    exact ⟨history, nextMark, rfl⟩
  · obtain ⟨history, nextMark, rfl⟩ := hs
    exact ⟨history, nextMark, rfl⟩

/-- Neither the history nor the number of the next mark is seen. -/
theorem Alike.sameView (hs : s.Alike s') (hh : host.Alike host') : s.SameView host s' host' := by
  obtain ⟨history, nextMark, rfl⟩ := hs
  exact ⟨fun o => by cases o <;> rfl, isLive_eq hh, rfl, rfl, rfl, rfl⟩

variable [Evaluator α] [Evaluator β]

theorem Alike.evaluate (hs : s.Alike s') (hh : host.Alike host') (language : Language) (program : List String) :
    (s.evaluate host language program).Alike (s'.evaluate host' language program) := by
  have hstale : s'.staleOverrides host' = s.staleOverrides host := by
    obtain ⟨_, _, rfl⟩ := hs
    simp only [staleOverrides, hh.hasBuffer, hh.hasWindow]
  unfold Session.evaluate
  rw [hstale]
  by_cases hne : s.staleOverrides host ≠ []
  · simp only [if_pos hne]
    exact ⟨rfl, rfl, hs.resets _, fun _ => hh⟩
  · simp only [if_neg hne]
    have hinside := hh.enter s.context
    obtain ⟨history, nextMark, rfl⟩ := hs
    simp only [hinside.current, hh.current]
    cases language with
    | lua => exact ⟨rfl, rfl, ⟨history, nextMark, rfl⟩, fun _ => hinside.leave host.current⟩
    | vim => exact ⟨rfl, rfl, ⟨history, nextMark, rfl⟩, fun _ => hinside.leave host.current⟩

theorem Alike.carryOut (hs : s.Alike s') (hh : host.Alike host') (e : Effect) :
    (s.carryOut host e).Alike (s'.carryOut host' e) := by
  cases e with
  | refuse f => exact hs.refusing hh f
  | inform setting text => exact (hs.change setting).showing hh .info text
  | evaluate language program => exact hs.evaluate hh language program
  | clear =>
      obtain ⟨history, _, rfl⟩ := hs
      exact ⟨rfl, rfl, ⟨history, 1, rfl⟩, fun _ => (hh.modifyBuffer _ _ _).modifyBuffer _ _ _⟩
  | quit =>
      obtain ⟨history, _, rfl⟩ := hs
      exact ⟨rfl, rfl, ⟨history, 1, rfl⟩, fun hnext => absurd rfl hnext⟩

/-- Alike sessions over alike hosts answer alike. -/
theorem Alike.dispatch (hs : s.Alike s') (hh : host.Alike host') (lines : List String) :
    (s.dispatch host lines).Alike (s'.dispatch host' lines) := by
  obtain ⟨e, -, -, hdispatch⟩ := s.dispatch_effect host lines
  rw [hdispatch s host (SameView.refl s host), hdispatch s' host' (hs.sameView hh)]
  exact hs.carryOut hh e

end Session

end Transcript
