import Transcript.Proofs.History
import Transcript.Proofs.Session.Submission
import Transcript.Session.Editing

/-!
The sessions that there are, and what holds of the history of each. What is recorded is a statement that is not
blank, so that it can be resolved again wherever it is put. There is room for at least one statement. A recall in
progress shows an entry that is there, and hides lines that there were.
-/
namespace Transcript

/-- The lines of a statement that is not blank. -/
def IsRecorded (marker : Char) (lines : List String) : Prop :=
  IsStatement marker lines ∧ ∃ line ∈ lines, Text.isBlankText (stripMarker marker line) = false

namespace Session

variable {α β : Type}

/-- The sessions that there are: fresh ones, and what submissions, dispatches, moves through the history and clearing
make of them, over any hosts. -/
inductive Lived [Evaluator α] [Evaluator β] : Session α β → Prop where
  | start (buffer : Nat) (settings : Settings) (lua : α) (vim : β) : Lived (start buffer settings lua vim)
  | submit {s s' : Session α β} {host host' : Host} {cursor : Nat} {answer : Submission} (h : Lived s)
      (hsubmit : s.submit host cursor = .ok (answer, s', host')) : Lived s'
  | dispatch {s : Session α β} (h : Lived s) (host : Host) (lines : List String) : Lived (s.dispatch host lines).session
  | move {s s' : Session α β} {host host' : Host} {cursor cursor' : Nat} {direction : Direction} (h : Lived s)
      (hrecall : s.recallMove host cursor direction = .ok (cursor', s', host')) : Lived s'
  | clear {s : Session α β} (h : Lived s) (host : Host) : Lived (s.clear host).1

/-! ### What is recorded -/

section Recorded

variable {s : Session α β} {host : Host} {cursor : Nat} {statement : Statement}

theorem isStatement_of_statement? (halive : s.isAlive host = true) (h : s.statement? host cursor = some statement) :
    IsStatement s.marker statement.lines := by
  obtain ⟨b, hget⟩ := Option.isSome_iff_exists.1 halive
  rw [statement?, Host.lines_of_get? hget] at h
  exact Statement.isStatement_of_resolve? b.lines_ne_nil h

theorem isRecorded_of_recorded? (halive : s.isAlive host = true) (h : s.recorded? host cursor = some statement) :
    IsRecorded s.marker statement.lines := by
  obtain ⟨hstatement, hblank⟩ := Option.filter_eq_some_iff.1 h
  refine ⟨isStatement_of_statement? halive hstatement, ?_⟩
  simpa [Statement.isBlank] using hblank

theorem nearestLine_eq {b : Buffer} (hget : host.buffers.get? s.buffer = some b) (line : Nat) :
    s.nearestLine host line = Statement.cursorIndex b.lines line + 1 := by
  have hpos := List.length_pos_iff.2 b.lines_ne_nil
  rw [nearestLine, Host.lineCount_of_get? hget, Statement.cursorIndex]
  omega

/-- The lines that a move replaces are not none. -/
theorem recalled_ne_nil (halive : s.isAlive host = true) (cursor : Nat) : (s.recalled host cursor).lines ≠ [] := by
  unfold recalled
  split
  next statement hstatement => exact (isStatement_of_statement? halive hstatement).ne_nil
  next hnone =>
    obtain ⟨b, hget⟩ := Option.isSome_iff_exists.1 halive
    have hpos := List.length_pos_iff.2 b.lines_ne_nil
    rw [← List.length_pos_iff]
    simp only [Host.slice, hget, Option.map_some, Option.getD_some, Buffer.slice, List.length_drop, List.length_take,
      nearestLine, Host.lineCount_of_get? hget]
    omega

/-- A session before and after a submission at a cursor line: only what is recorded is new in the history. -/
structure Submitted (s : Session α β) (host : Host) (cursor : Nat) (s' : Session α β) : Prop where
  alive : s.isAlive host = true
  history : s'.history = (s.recorded? host cursor).elim s.history fun statement => s.history.append statement.lines
  marker : s'.marker = s.marker
  buffer : s'.buffer = s.buffer

theorem submitted_of_submit [Evaluator α] [Evaluator β] {s' : Session α β} {host' : Host} {answer : Submission}
    (hsubmit : s.submit host cursor = .ok (answer, s', host')) : s.Submitted host cursor s' := by
  by_cases halive : s.isAlive host = true
  · obtain ⟨b, hget⟩ := Option.isSome_iff_exists.1 halive
    rw [s.submit_eq cursor hget] at hsubmit
    obtain ⟨nextMark, hsession⟩ := session_conclude (s.proper_answer host cursor)
      (Statement.blockEnd s.marker b.lines cursor)
    rw [Except.ok.inj hsubmit] at hsession
    subst hsession
    have hframe := s.frame_answer host cursor
    exact ⟨halive, s.history_answer host cursor, hframe.marker, hframe.buffer⟩
  · rw [Session.submit, if_pos halive] at hsubmit
    cases hsubmit

/-- A move changes only what the history shows. -/
theorem session_of_recallMove {s' : Session α β} {host' : Host} {cursor' : Nat} {direction : Direction}
    (hrecall : s.recallMove host cursor direction = .ok (cursor', s', host')) :
    s.isAlive host = true
      ∧ s' = { s with history := (s.history.move direction (s.recalled host cursor).lines).2 } := by
  by_cases halive : s.isAlive host = true
  · rw [recallMove, if_neg (not_not_intro halive)] at hrecall
    exact ⟨halive, (Prod.mk.inj (Prod.mk.inj (Except.ok.inj hrecall)).2).1.symm⟩
  · rw [recallMove, if_pos halive] at hrecall
    cases hrecall

end Recorded

/-! ### What holds of every history -/

/-- The entries are statements that are not blank, there is room for one, and an entry that is shown is there and
hides lines. -/
structure Orderly (s : Session α β) : Prop where
  recorded : ∀ entry ∈ s.history.entries, IsRecorded s.marker entry
  room : 0 < s.history.capacity
  shown : ∀ i edit, s.history.shown = some ⟨i, edit⟩ → i < s.history.size ∧ edit ≠ []

theorem Orderly.index_lt {s : Session α β} (h : s.Orderly) (i : Nat) (edit : Lines)
    (hshown : s.history.shown = some ⟨i, edit⟩) : i < s.history.entries.length := (h.shown i edit hshown).1

theorem Orderly.congr {s s' : Session α β} (h : s.Orderly) (hhistory : s'.history = s.history)
    (hmarker : s'.marker = s.marker) : s'.Orderly := by
  obtain ⟨hrecorded, hroom, hshown⟩ := h
  rw [← hhistory] at hrecorded hroom hshown
  rw [← hmarker] at hrecorded
  exact ⟨hrecorded, hroom, hshown⟩

theorem Orderly.append {s s' : Session α β} (h : s.Orderly) {lines : List String} (hlines : IsRecorded s.marker lines)
    (hhistory : s'.history = s.history.append lines) (hmarker : s'.marker = s.marker) : s'.Orderly := by
  refine ⟨?_, ?_, ?_⟩
  · intro entry hentry
    rw [hhistory, History.entries_append] at hentry
    rw [hmarker]
    rcases List.mem_append.1 (List.mem_of_mem_drop hentry) with hold | hnew
    · exact h.recorded entry hold
    · rwa [List.mem_singleton.1 hnew]
  · rw [hhistory]
    exact h.room
  · rw [hhistory]
    intro i edit hshown
    cases hshown

section Steps

variable {s s' : Session α β} {host host' : Host} {cursor : Nat}

theorem Orderly.submit [Evaluator α] [Evaluator β] (h : s.Orderly) {answer : Submission}
    (hsubmit : s.submit host cursor = .ok (answer, s', host')) : s'.Orderly := by
  obtain ⟨halive, hhistory, hmarker, -⟩ := submitted_of_submit hsubmit
  cases hrecorded : s.recorded? host cursor with
  | none =>
      rw [hrecorded] at hhistory
      exact h.congr hhistory hmarker
  | some statement =>
      rw [hrecorded] at hhistory
      exact h.append (isRecorded_of_recorded? halive hrecorded) hhistory hmarker

theorem Orderly.move (h : s.Orderly) {direction : Direction} {cursor' : Nat}
    (hrecall : s.recallMove host cursor direction = .ok (cursor', s', host')) : s'.Orderly := by
  obtain ⟨halive, rfl⟩ := session_of_recallMove hrecall
  have hentries := History.entries_move s.history direction (s.recalled host cursor).lines
  refine ⟨?_, ?_, ?_⟩
  · intro entry hentry
    exact h.recorded entry (hentries ▸ hentry)
  · exact Nat.lt_of_lt_of_eq h.room (History.capacity_move _ _ _).symm
  · intro i edit hshown
    obtain ⟨hi, hedit⟩ := History.shown_move h.index_lt hshown
    refine ⟨Nat.lt_of_lt_of_eq hi (congrArg List.length hentries).symm, ?_⟩
    rcases hedit with rfl | ⟨j, hbefore⟩
    · exact recalled_ne_nil halive cursor
    · exact (h.shown j edit hbefore).2

end Steps

/-- Induction on the operations of the session. -/
theorem Lived.orderly [Evaluator α] [Evaluator β] {s : Session α β} (h : s.Lived) : s.Orderly := by
  induction h with
  | start buffer settings lua vim =>
      refine ⟨?_, Nat.lt_of_lt_of_le Nat.zero_lt_one (Nat.le_max_right settings.historySize 1), ?_⟩
      · intro entry hentry
        cases hentry
      · intro i edit hshown
        cases hshown
  | submit _ hsubmit ih => exact ih.submit hsubmit
  | @dispatch s _ host lines ih =>
      have hframe := s.frame_dispatch host lines
      exact ih.congr hframe.history hframe.marker
  | move _ hrecall ih => exact ih.move hrecall
  | clear _ host ih => exact ih.congr rfl rfl

end Session

end Transcript
