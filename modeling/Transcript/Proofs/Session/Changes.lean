import Transcript.Proofs.Session.Operation

/-!
What sessions change. Whatever is done with a session comes down to a few changes that come one after the other: edits
of its buffer, output that is put below a line of it with marks on it, and clearing or deleting it. What all of these
keep, everything keeps that a session does.
-/
namespace Transcript.Session

variable {α β : Type}

/-- A session and a host, and what they become by changes that a session makes. -/
inductive Changes : Session α β → Host → Session α β → Host → Prop where
  | same {s s' : Session α β} {host host' : Host} (hbuffer : s'.buffer = s.buffer) (hnext : s'.nextMark = s.nextMark)
      (hbuffers : host'.buffers = host.buffers) (hnextBuffer : host'.nextBuffer = host.nextBuffer) :
      Changes s host s' host'
  | edit (s : Session α β) (host : Host) (start stop : Nat) (lines : List String) :
      Changes s host s (host.setLines s.buffer start stop lines)
  | report (s : Session α β) (host : Host) (last : Nat) {output : Sink} (hproper : output.Proper) :
      Changes s host { s with nextMark := s.nextMark + output.chunks.length }
        (host.modifyBuffer s.buffer fun b => b.report s.padded s.nextMark
          (Navigation.insertionPoint (host.marks s.buffer) (min last (host.lineCount s.buffer))) output.chunks)
  | insert (s : Session α β) (host : Host) (last : Nat) {output : Sink} (hproper : output.Proper) :
      Changes s host { s with nextMark := s.nextMark + output.chunks.length }
        (host.modifyBuffer s.buffer (Buffer.insertOutput s.padded s.nextMark
          (Navigation.insertionPoint (host.marks s.buffer) (min last (host.lineCount s.buffer))) output.chunks))
  | clear (s : Session α β) (host : Host) : Changes s host (s.clear host).1 (s.clear host).2
  | quit (s : Session α β) (host : Host) :
      Changes s host { s with nextMark := 1 } ((host.clearMarks s.buffer).deleteBuffer s.buffer)
  | trans {s s' s'' : Session α β} {host host' host'' : Host} (h : Changes s host s' host')
      (h' : Changes s' host' s'' host'') : Changes s host s'' host''

theorem changes_conclude {d : Dispatch α β} (hproper : d.output.Proper) (last : Nat) :
    Changes d.session d.host (conclude d last).2.1 (conclude d last).2.2 := by
  unfold conclude
  cases d.next with
  | exit => exact .same rfl rfl rfl rfl
  | proceed =>
      simp only [report_eq _ _ _ hproper]
      exact .report d.session d.host last hproper
  | hold =>
      simp only [insertChunks_eq _ _ _ hproper]
      exact .insert d.session d.host last hproper

variable [Evaluator α] [Evaluator β]

theorem changes_dispatch (s : Session α β) (host : Host) (lines : List String) :
    s.Changes host (s.dispatch host lines).session (s.dispatch host lines).host := by
  by_cases hclear : Input.classify s.leader s.marker lines = .ok (.command .clear none)
  · rw [s.dispatch_clear hclear]
    exact .clear s host
  · by_cases hquit : Input.classify s.leader s.marker lines = .ok (.command .quit none)
    · rw [s.dispatch_quit hquit]
      exact .quit s host
    · have hkeeps := s.dispatch_keeps host lines hclear hquit
      exact .same hkeeps.session.buffer hkeeps.session.nextMark hkeeps.buffers hkeeps.nextBuffer

theorem changes_answer (s : Session α β) (host : Host) (cursor : Nat) :
    s.Changes host (s.answer host cursor).session (s.answer host cursor).host := by
  unfold answer
  split
  · exact .same rfl rfl rfl rfl
  next statement _ =>
    split
    · exact .same rfl rfl rfl rfl
    · -- Recording the statement comes first.
      have hrecorded : s.Changes host { s with history := s.history.append statement.lines } host := .same rfl rfl rfl rfl
      exact hrecorded.trans (changes_dispatch _ host statement.lines)

theorem changes_operate (s : Session α β) (host : Host) (op : Operation) :
    s.Changes host (s.operate host op).2.1 (s.operate host op).2.2 := by
  by_cases halive : s.isAlive host = true
  · cases op with
    | submit cursor =>
        obtain ⟨b, hget⟩ := Option.isSome_iff_exists.1 halive
        rw [operate_submit hget]
        exact (s.changes_answer host cursor).trans (changes_conclude (s.proper_answer host cursor) _)
    | move cursor direction =>
        rw [operate_move halive]
        have hmoved : s.Changes host
            { s with history := (s.history.move direction (s.recalled host cursor).lines).2 } host := .same rfl rfl rfl rfl
        exact hmoved.trans (.edit _ host _ _ _)
    | breakLine line col =>
        rw [operate_breakLine halive]
        exact .edit s host _ _ _
    | edit start stop lines => exact .edit s host start stop lines
  · cases op with
    | edit start stop lines => exact .edit s host start stop lines
    | _ =>
        rw [operate_of_dead halive (by simp)]
        exact .same rfl rfl rfl rfl

end Transcript.Session
