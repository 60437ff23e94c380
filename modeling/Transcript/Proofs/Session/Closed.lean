import Transcript.Proofs.Registry

/-!
Sessions whose buffer is gone. A host gives out the number of a buffer once, and no session makes buffers. So a buffer
that was there and is gone stays gone, whatever happens on the host and whatever sessions do, and from then on its
session refuses every request for it and changes nothing.
-/
namespace Transcript

namespace Host

/-- A host and what it becomes: no number is taken back, and a buffer that is new has a number that was not given out
before. -/
structure Ages (h h' : Host) : Prop where
  nextBuffer_le : h.nextBuffer ≤ h'.nextBuffer
  old_or_new : ∀ buffer, h'.hasBuffer buffer = true →
    h.hasBuffer buffer = true ∨ (h.nextBuffer ≤ buffer ∧ buffer < h'.nextBuffer)

/-- A buffer whose number was given out and that is not there. -/
structure Gone (h : Host) (buffer : Nat) : Prop where
  given : buffer < h.nextBuffer
  gone : h.hasBuffer buffer = false

variable {h h' h'' : Host}

theorem Ages.refl (h : Host) : h.Ages h := ⟨Nat.le_refl _, fun _ => Or.inl⟩

theorem Ages.trans (ha : h.Ages h') (ha' : h'.Ages h'') : h.Ages h'' where
  nextBuffer_le := Nat.le_trans ha.nextBuffer_le ha'.nextBuffer_le
  old_or_new buffer hthere := by
    rcases ha'.old_or_new buffer hthere with hold | ⟨hle, hlt⟩
    · exact (ha.old_or_new buffer hold).imp_right fun hnew =>
        ⟨hnew.1, Nat.lt_of_lt_of_le hnew.2 ha'.nextBuffer_le⟩
    · exact Or.inr ⟨Nat.le_trans ha.nextBuffer_le hle, hlt⟩

/-- A buffer that is gone stays gone. -/
theorem Gone.ages {buffer : Nat} (hgone : h.Gone buffer) (ha : h.Ages h') : h'.Gone buffer where
  given := Nat.lt_of_lt_of_le hgone.given ha.nextBuffer_le
  gone := by
    rw [Bool.eq_false_iff]
    intro hthere
    rcases ha.old_or_new buffer hthere with hold | ⟨hle, -⟩
    · rw [hgone.gone] at hold
      cases hold
    · exact Nat.not_le_of_lt hgone.given hle

/-- Every buffer that the fresh host comes to have was given its number. -/
theorem lt_nextBuffer_of_ages (ha : new.Ages h) {buffer : Nat} (hthere : h.hasBuffer buffer = true) :
    buffer < h.nextBuffer := by
  rcases ha.old_or_new buffer hthere with hold | ⟨-, hlt⟩
  · refine Nat.lt_of_lt_of_le ?_ ha.nextBuffer_le
    by_cases hone : buffer = 1
    · rw [hone]
      exact Nat.one_lt_two
    · simp [new, hasBuffer, Table.contains, hone] at hold
  · exact hlt

/-! ### What every action keeps -/

/-- Without a new buffer. -/
theorem ages_of_sub (hnext : h'.nextBuffer = h.nextBuffer)
    (hsub : ∀ buffer, h'.hasBuffer buffer = true → h.hasBuffer buffer = true) : h.Ages h' :=
  ⟨Nat.le_of_eq hnext.symm, fun buffer hthere => Or.inl (hsub buffer hthere)⟩

theorem ages_modifyBuffer (h : Host) (buffer : Nat) (f : Buffer → Buffer) : h.Ages (h.modifyBuffer buffer f) :=
  ages_of_sub rfl fun other hthere => by rwa [hasBuffer_modifyBuffer] at hthere

theorem ages_of_same (hbuffers : h'.buffers = h.buffers) (hnext : h'.nextBuffer = h.nextBuffer) : h.Ages h' :=
  ages_of_sub hnext fun _ hthere => by rwa [hasBuffer, hbuffers] at hthere

theorem ages_deleteBuffer (h : Host) (buffer : Nat) : h.Ages (h.deleteBuffer buffer) := by
  refine ages_of_sub rfl fun other hthere => ?_
  by_cases hother : other = buffer
  · simp [deleteBuffer, hasBuffer, Table.contains, hother] at hthere
  · simpa [deleteBuffer, hasBuffer, Table.contains, hother] using hthere

/-- The number of a new buffer is the next one. -/
theorem ages_createBuffer (h : Host) (lines : List String) : h.Ages (h.createBuffer lines).2 where
  nextBuffer_le := Nat.le_succ _
  old_or_new buffer hthere := by
    by_cases hnew : buffer = h.nextBuffer
    · exact Or.inr ⟨Nat.le_of_eq hnew.symm, hnew ▸ Nat.lt_succ_self _⟩
    · exact Or.inl (by simpa [createBuffer, hasBuffer, Table.contains, hnew] using hthere)

theorem ages_act (h : Host) (a : Action) : h.Ages (h.act a) := by
  cases a with
  | createBuffer lines => exact h.ages_createBuffer lines
  | createWindow buffer => exact ages_of_same rfl rfl
  | closeWindow window => exact ages_of_same rfl rfl
  | deleteBuffer buffer => exact h.ages_deleteBuffer buffer
  | setCurrent place => exact ages_of_same (h.buffers_setCurrent place) (h.nextBuffer_setCurrent place)
  | setLines buffer start stop lines => exact h.ages_modifyBuffer buffer _
  | enter override => exact ages_of_same (h.buffers_enter override) (h.nextBuffer_enter override)
  | leave saved => exact ages_of_same (h.buffers_leave saved) (h.nextBuffer_leave saved)

end Host

variable {α β : Type}

namespace Session

/-! ### What every request keeps -/

/-- No change of a session makes a buffer. -/
theorem Changes.ages {s s' : Session α β} {host host' : Host} (h : s.Changes host s' host') : host.Ages host' := by
  induction h with
  | same _ _ hbuffers hnextBuffer => exact Host.ages_of_same hbuffers hnextBuffer
  | edit s host => exact host.ages_modifyBuffer _ _
  | report s host => exact host.ages_modifyBuffer _ _
  | insert s host => exact host.ages_modifyBuffer _ _
  | clear s host => exact (host.ages_modifyBuffer _ _).trans (Host.ages_modifyBuffer _ _ _)
  | quit s host => exact (host.ages_modifyBuffer _ _).trans (Host.ages_deleteBuffer _ _)
  | trans _ _ ih ih' => exact ih.trans ih'

variable [Evaluator α] [Evaluator β]

/-- A session that refuses every request for its buffer. One that would change the buffer or the session leaves both
as they are. -/
structure IsClosed (s : Session α β) (host : Host) : Prop where
  submit : ∀ cursor, s.submit host cursor = .error (.sessionClosed s.buffer)
  recallMove : ∀ cursor direction, s.recallMove host cursor direction = .error (.sessionClosed s.buffer)
  breakLine : ∀ line col, s.breakLine host line col = .error (.sessionClosed s.buffer)
  travel : ∀ journey line, s.travel host journey line = .error (.sessionClosed s.buffer)
  highlights : s.highlights host = .error (.sessionClosed s.buffer)
  unchanged : ∀ op, (∀ start stop lines, op ≠ .edit start stop lines) →
    s.operate host op = (.refused (.sessionClosed s.buffer), s, host)

theorem isClosed_of_dead {s : Session α β} {host : Host} (hdead : ¬ s.isAlive host = true) : s.IsClosed host where
  submit cursor := by rw [Session.submit, if_pos hdead]
  recallMove cursor direction := by rw [Session.recallMove, if_pos hdead]
  breakLine line col := by rw [Session.breakLine, if_pos hdead]
  travel journey line := by rw [Session.travel, if_pos hdead]
  highlights := by rw [Session.highlights, if_pos hdead]
  unchanged op hop := operate_of_dead hdead hop

end Session

/-! ### Whatever happens -/

namespace Host

/-- What happens to a host: an action on it, a mark that is put, marks that are taken off, or a request that some
session serves. -/
inductive Event (α β : Type) where
  | act (a : Action)
  | addMark (buffer : Nat) (m : Mark)
  | clearMarks (buffer : Nat)
  | serve (s : Session α β) (request : Session.Request)

variable [Evaluator α] [Evaluator β]

def step (h : Host) : Event α β → Host
  | .act a => h.act a
  | .addMark buffer m => h.addMark buffer m
  | .clearMarks buffer => h.clearMarks buffer
  | .serve s request => (s.serve h request).2

def steps (h : Host) (events : List (Event α β)) : Host := events.foldl step h

theorem steps_append (h : Host) (before after : List (Event α β)) :
    h.steps (before ++ after) = (h.steps before).steps after := List.foldl_append

theorem ages_step (h : Host) (e : Event α β) : h.Ages (h.step e) := by
  cases e with
  | act a => exact h.ages_act a
  | addMark buffer m => exact h.ages_modifyBuffer buffer _
  | clearMarks buffer => exact h.ages_modifyBuffer buffer _
  | serve s request => exact (s.changes_serve h request).ages

theorem ages_steps (h : Host) (events : List (Event α β)) : h.Ages (h.steps events) := by
  induction events generalizing h with
  | nil => exact Ages.refl h
  | cons e rest ih => exact (h.ages_step e).trans (ih (h.step e))

end Host

namespace Session

variable [Evaluator α] [Evaluator β]

/-- **A session is closed for good.** Once a buffer that was there is gone, by whatever happened, it is gone after all
that happens later, and every session on it is closed. -/
theorem closed_for_good (before between later : List (Host.Event α β)) {buffer : Nat}
    (hthere : (Host.new.steps before).hasBuffer buffer = true)
    (hgone : (Host.new.steps (before ++ between)).hasBuffer buffer = false) :
    (Host.new.steps (before ++ between ++ later)).hasBuffer buffer = false
      ∧ ∀ s : Session α β, s.buffer = buffer → s.IsClosed (Host.new.steps (before ++ between ++ later)) := by
  have hgiven := Host.lt_nextBuffer_of_ages (Host.new.ages_steps before) hthere
  rw [Host.steps_append] at hgone
  have hbetween : ((Host.new.steps before).steps between).Gone buffer :=
    ⟨Nat.lt_of_lt_of_le hgiven ((Host.new.steps before).ages_steps between).nextBuffer_le, hgone⟩
  have hlater := hbetween.ages (Host.ages_steps _ later)
  rw [Host.steps_append, Host.steps_append]
  refine ⟨hlater.gone, ?_⟩
  rintro s rfl
  exact isClosed_of_dead (Bool.eq_false_iff.1 hlater.gone)

/-- A session that quits stays closed when a new buffer is made and it goes on to dispatch. -/
theorem closed_for_good_after_quit :
    let s := StandardSession.new 1 {}
    let before : List (Host.Event Script Ex) := [.act (.setLines 1 0 1 ["/q"])]
    let between : List (Host.Event Script Ex) := [.serve s (.operate (.submit 1))]
    let later : List (Host.Event Script Ex) := [.act (.createBuffer ["/q"]), .serve s (.dispatch ["/vim"])]
    (Host.new.steps before).hasBuffer 1 = true
      ∧ (Host.new.steps (before ++ between)).hasBuffer 1 = false
      ∧ s.IsClosed (Host.new.steps (before ++ between ++ later)) := by
  intro s before between later
  have hthere : (Host.new.steps before).hasBuffer 1 = true := by decide +kernel
  have hgone : (Host.new.steps (before ++ between)).hasBuffer 1 = false := by decide +kernel
  exact ⟨hthere, hgone, (closed_for_good before between later hthere hgone).2 s rfl⟩

end Session

end Transcript
