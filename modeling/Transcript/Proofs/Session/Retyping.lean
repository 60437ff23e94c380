import Transcript.Proofs.Session.Operation
import Transcript.Proofs.Session.Standing

/-!
Typing after a submission, and walking back and forward once. What was typed comes back if no recall is in progress.
A submission that records a statement ends the recall; one of a blank statement, or of continuations without a
statement, leaves it in progress. The text is then taken for the entry that was shown, so it is not saved, and the
walk puts an entry in its place.
-/
namespace Transcript

namespace History

/-- The lines that a move back from `current` and a move forward give. -/
def backAndForth (h : History) (current : Lines) : Lines :=
  match h.shown with
  | none => current
  | some ⟨i, edit⟩ => h.entries[max i 1]?.getD edit

variable {h : History} (hindex : ∀ i edit, h.shown = some ⟨i, edit⟩ → i < h.entries.length) (current : Lines)

include hindex

theorem move_forward_of_back :
    ((h.move .backward current).2.move .forward (h.move .backward current).1).1 = h.backAndForth current := by
  unfold backAndForth
  cases hshown : h.shown with
  | none =>
      rcases Nat.eq_zero_or_pos h.entries.length with hempty | hpos
      · rw [move_backward_of_empty current hshown (List.length_eq_zero_iff.1 hempty), move_forward_of_edit _ hshown]
      · have hlast : h.entries.length - 1 + 1 = h.entries.length := Nat.sub_add_cancel hpos
        have hnewest : (h.showEntry (h.entries.length - 1) current).2.shown
            = some ⟨h.entries.length - 1, current⟩ := rfl
        rw [move_backward_of_edit current hshown hlast, move_forward_of_newest _ hnewest hlast]
  | some r =>
      obtain ⟨i, edit⟩ := r
      have hi := hindex i edit hshown
      cases i with
      | zero =>
          rw [move_backward_of_oldest current hshown]
          by_cases hnewer : 1 < h.entries.length
          · rw [move_forward_of_entry _ hshown hnewer]
            simp [showEntry, hnewer]
          · rw [move_forward_of_newest _ hshown (by omega)]
            simp [hnewer]
      | succ i =>
          have hentry : (h.showEntry i edit).2.shown = some ⟨i, edit⟩ := rfl
          rw [move_backward_of_entry current hshown, move_forward_of_entry _ hentry hi]
          simp [showEntry, hi]

/-- Going back gives the lines that are there or an entry. -/
theorem move_backward_mem :
    (h.move .backward current).1 = current ∨ (h.move .backward current).1 ∈ h.entries := by
  cases hshown : h.shown with
  | none =>
      rcases Nat.eq_zero_or_pos h.entries.length with hempty | hpos
      · rw [move_backward_of_empty current hshown (List.length_eq_zero_iff.1 hempty)]
        exact Or.inl rfl
      · rw [move_backward_of_edit current hshown (Nat.sub_add_cancel hpos)]
        exact Or.inr (List.mem_of_getElem? (getElem?_showEntry (Nat.sub_one_lt_of_lt hpos) current))
  | some r =>
      obtain ⟨i, edit⟩ := r
      cases i with
      | zero =>
          rw [move_backward_of_oldest current hshown]
          exact Or.inl rfl
      | succ i =>
          rw [move_backward_of_entry current hshown]
          exact Or.inr (List.mem_of_getElem? (getElem?_showEntry (Nat.lt_of_succ_lt (hindex _ _ hshown)) edit))

end History

/-- A line that is replaced, counted from 1, or one that is added at the end. -/
theorem Buffer.exists_splice_line (b : Buffer) {cursor : Nat} (hpos : 1 ≤ cursor) (text : String) :
    ∃ above rest, (b.splice (cursor - 1) cursor [text]).lines = above ++ text :: rest
      ∧ above.length < cursor ∧ (cursor = above.length + 1 ∨ rest = []) := by
  have hne : b.lines.take (b.editOf (cursor - 1) cursor 1).start ++ [text]
      ++ b.lines.drop (b.editOf (cursor - 1) cursor 1).stop ≠ [] := by simp
  refine ⟨b.lines.take (b.editOf (cursor - 1) cursor 1).start, b.lines.drop (b.editOf (cursor - 1) cursor 1).stop,
    ?_, ?_, ?_⟩
  · refine (atLeastOneLine_of_ne_nil hne).trans ?_
    rw [List.append_assoc, List.singleton_append]
  · simp only [editOf, List.length_take]
    omega
  · rw [List.drop_eq_nil_iff]
    simp only [editOf, Edit.stop, List.length_take]
    omega

namespace Session

variable {α β : Type} {s s' : Session α β} {host host' : Host} {cursor : Nat} {above lines below : List String}

/-! ### After a submission -/

section Submission

theorem one_le_cursor_conclude {d : Dispatch α β} (hproper : d.output.Proper) {last : Nat}
    (hquit : (conclude d last).1.quit = false) : 1 ≤ (conclude d last).1.cursor := by
  unfold conclude at hquit ⊢
  cases hnext : d.next with
  | exit =>
      rw [hnext] at hquit
      cases hquit
  | proceed =>
      simp only [report_eq _ _ _ hproper]
      exact Nat.le_add_left 1 _
  | hold => exact Nat.le_max_right _ 1

variable [Evaluator α] [Evaluator β]

/-- Only `quit` takes the buffer of the session away. -/
theorem isAlive_answer (halive : s.isAlive host = true) (hnext : (s.answer host cursor).next ≠ .exit) :
    (s.answer host cursor).session.isAlive (s.answer host cursor).host = true := by
  rw [isAlive, (s.frame_answer host cursor).buffer]
  rcases s.answer_cases host cursor with hkeeps | ⟨statement, -, -, heq⟩ | ⟨statement, -, -, heq⟩
  · rw [Host.hasBuffer, hkeeps.buffers]
    exact halive
  · rw [heq]
    simpa [isAlive, clear, Host.setLines, Host.clearMarks] using halive
  · rw [heq] at hnext
    exact absurd rfl hnext

/-- A submission that does not quit leaves the session alive and the cursor on a line. -/
theorem isAlive_and_one_le_cursor_of_submit {answer : Submission}
    (hsubmit : s.submit host cursor = .ok (answer, s', host')) (hquit : answer.quit = false) :
    s'.isAlive host' = true ∧ 1 ≤ answer.cursor := by
  have halive := (submitted_of_submit hsubmit).alive
  obtain ⟨b, hget⟩ := Option.isSome_iff_exists.1 halive
  rw [s.submit_eq cursor hget] at hsubmit
  have hproper := s.proper_answer host cursor
  generalize Statement.blockEnd s.marker b.lines cursor = last at hsubmit
  have hconclude := Except.ok.inj hsubmit
  have hanswer : (conclude (s.answer host cursor) last).1.quit = false := by rw [hconclude]; exact hquit
  have hafter := isAlive_answer halive (next_ne_exit_of_quit hanswer)
  have hshown := (confined_conclude hproper last).alike.hasBuffer (s.answer host cursor).session.buffer
  have hbuffer := buffer_conclude hproper last
  have hcursor := one_le_cursor_conclude hproper hanswer
  rw [hconclude] at hshown hbuffer hcursor
  refine ⟨?_, hcursor⟩
  rw [isAlive, hbuffer, hshown]
  exact hafter

end Submission

/-! ### Back and forth over typed text -/

/-- Text that is typed on a line is a statement, with the lines that go on with it. -/
theorem exists_stands_typed (halive : s.isAlive host = true) (hcursor : 1 ≤ cursor) {text : String}
    (htext : isContinuation s.marker text = false) :
    ∃ above behind below,
      s.Stands (host.setLines s.buffer (cursor - 1) cursor [text]) cursor above (text :: behind) below
        ∧ above.length < cursor ∧ (cursor = above.length + 1 ∨ below = []) := by
  obtain ⟨b, hget⟩ := Option.isSome_iff_exists.1 halive
  obtain ⟨above, rest, hlines, hfirst, hlast⟩ := b.exists_splice_line hcursor text
  have hget' : (host.setLines s.buffer (cursor - 1) cursor [text]).buffers.get? s.buffer
      = some (b.splice (cursor - 1) cursor [text]) := Host.get?_modifyBuffer hget _
  have hbelow : cursor = above.length + 1 ∨ rest.dropWhile (isContinuation s.marker) = [] := by
    rcases hlast with hline | rfl
    · exact Or.inl hline
    · exact Or.inr rfl
  refine ⟨above, rest.takeWhile (isContinuation s.marker), rest.dropWhile (isContinuation s.marker), ?_, hfirst, hbelow⟩
  refine Stands.of_reach (Host.hasBuffer_of_get? hget') ?_ ?_ (endsBlock_dropWhile _ _) hfirst ?_
  · rw [Host.lines_of_get? hget', hlines, List.append_assoc, List.cons_append, List.takeWhile_append_dropWhile]
  · exact ⟨text, _, rfl, htext, fun line hline => List.mem_takeWhile_imp hline⟩
  · refine hbelow.imp_left fun hline => ?_
    rw [List.length_append, List.length_cons]
    omega

theorem Orderly.isStatement_back (h : s.Orderly) (hlines : IsStatement s.marker lines) :
    IsStatement s.marker (s.history.move .backward lines).1 := by
  rcases History.move_backward_mem h.index_lt lines with hsame | hentry
  · rwa [hsame]
  · exact (h.recorded _ hentry).1

theorem Orderly.backAndForth_ne_nil (h : s.Orderly) (hlines : lines ≠ []) : s.history.backAndForth lines ≠ [] := by
  unfold History.backAndForth
  split
  · exact hlines
  next i edit hshown =>
    cases hentry : s.history.entries[max i 1]? with
    | none => exact (h.shown i edit hshown).2
    | some entry => exact (h.recorded entry (List.mem_of_getElem? hentry)).1.ne_nil

/-- One move back from a statement and one forward, on any line of what the first one gave. -/
theorem Stands.back_and_forth (h : s.Stands host cursor above lines below) (horderly : s.Orderly) :
    ∃ back s₁ host₁, s.recallMove host cursor .backward = .ok (back, s₁, host₁) ∧ above.length < back
      ∧ ∀ line, above.length < line → (line ≤ back ∨ below = []) →
          ∃ forth s₂ host₂, s₁.recallMove host₁ line .forward = .ok (forth, s₂, host₂)
            ∧ host₂.lines s.buffer = above ++ s.history.backAndForth lines ++ below := by
  have hstatement := horderly.isStatement_back h.isStatement
  have hpos := List.length_pos_iff.2 hstatement.ne_nil
  obtain ⟨host₁, hback, hstands⟩ := h.move .backward hstatement
  refine ⟨_, _, host₁, hback, by rw [List.length_append]; omega, ?_⟩
  intro line hfirst hlast
  have hgives := calc
    ((s.withShown (s.history.move .backward lines).2.shown).history.move .forward (s.history.move .backward lines).1).1
      = ((s.history.move .backward lines).2.move .forward (s.history.move .backward lines).1).1 := by
        rw [History.move_eq_with s.history .backward lines]
        rfl
    _ = s.history.backAndForth lines := History.move_forward_of_back horderly.index_lt lines
  have hmoved := (hstands line hfirst hlast).exists_recallMove .forward
  rw [hgives] at hmoved
  obtain ⟨host₂, hforth, -, hlines⟩ := hmoved (horderly.backAndForth_ne_nil h.isStatement.ne_nil)
  exact ⟨_, _, host₂, hforth, hlines⟩

/-- A recall goes on after a submission exactly if one was in progress and nothing was recorded. -/
theorem isRecalling_of_submit [Evaluator α] [Evaluator β] {answer : Submission}
    (hsubmit : s.submit host cursor = .ok (answer, s', host')) :
    s'.history.isRecalling = (s.history.isRecalling && (s.recorded? host cursor).isNone) := by
  rw [(submitted_of_submit hsubmit).history]
  cases s.recorded? host cursor with
  | none => simp
  | some statement => simp [History.append, History.isRecalling]

/-- **What is typed after a submission comes back if no recall is in progress.** Whatever operations came before, a move
back and a move forward succeed, and give back the text with the lines that go on with it. If a recall is in
progress, which the submission then did not end because it recorded nothing, they put an entry of the history in place
of the text, or the lines that the recall began with. -/
theorem back_and_forth_after_submit [Evaluator α] [Evaluator β] (hlived : s.Lived) {answer : Submission}
    (hsubmit : s.submit host cursor = .ok (answer, s', host')) (hquit : answer.quit = false) {text : String}
    (htext : isContinuation s.marker text = false) :
    let typed := host'.setLines s'.buffer (answer.cursor - 1) answer.cursor [text]
    s'.history.isRecalling = (s.history.isRecalling && (s.recorded? host cursor).isNone)
      ∧ ∃ (above behind below : List String) (back : Nat) (s₁ : Session α β) (host₁ : Host),
        s'.Stands typed answer.cursor above (text :: behind) below
          ∧ s'.recallMove typed answer.cursor .backward = .ok (back, s₁, host₁)
          ∧ ∀ line, line = answer.cursor ∨ line = back →
              ∃ (forth : Nat) (s₂ : Session α β) (host₂ : Host),
                s₁.recallMove host₁ line .forward = .ok (forth, s₂, host₂)
                  ∧ (s'.history.isRecalling = false → host₂.lines s'.buffer = typed.lines s'.buffer)
                  ∧ ∀ i edit, s'.history.shown = some ⟨i, edit⟩ →
                      host₂.lines s'.buffer = above ++ s'.history.entries[max i 1]?.getD edit ++ below := by
  intro typed
  have horderly := hlived.orderly.submit hsubmit
  obtain ⟨halive, hcursor⟩ := isAlive_and_one_le_cursor_of_submit hsubmit hquit
  rw [← (submitted_of_submit hsubmit).marker] at htext
  obtain ⟨above, behind, below, hstands, hfirst, hlast⟩ := exists_stands_typed halive hcursor htext
  obtain ⟨back, s₁, host₁, hback, hpos, hforth⟩ := hstands.back_and_forth horderly
  refine ⟨isRecalling_of_submit hsubmit, above, behind, below, back, s₁, host₁, hstands, hback, ?_⟩
  intro line hline
  have hreach : above.length < line ∧ (line ≤ back ∨ below = []) := by
    rcases hline with rfl | rfl
    · exact ⟨hfirst, hlast.imp_left fun hnext => by omega⟩
    · exact ⟨hpos, Or.inl le_rfl⟩
  obtain ⟨forth, s₂, host₂, hmoved, hlines⟩ := hforth line hreach.1 hreach.2
  refine ⟨forth, s₂, host₂, hmoved, ?_, ?_⟩
  · intro hedit
    rw [hlines, hstands.lines_eq, History.backAndForth, History.isRecalling_eq_false_iff.1 hedit]
  · intro i edit hshown
    rw [hlines, History.backAndForth, hshown]

/-- The session with `/w` in its history, after a move back from the line `x`. -/
def recallingSession : StandardSession := headlessSession.withShown (some ⟨0, ["x"]⟩)

theorem lived_recallingSession : recallingSession.Lived := by
  have hmove : headlessSession.recallMove (Host.new.setLines 1 0 1 ["x"]) 1 .backward
      = .ok (1, recallingSession, (Host.new.setLines 1 0 1 ["x"]).setLines 1 0 1 ["/w"]) := by rfl
  exact lived_headlessSession.move hmove

/-- After a blank line was submitted, the text `y` gives way to the line that the recall began with. -/
theorem back_and_forth_after_blank_submit :
    ∃ (answer : Submission) (s' : StandardSession) (host' : Host) (back : Nat) (s₁ : StandardSession) (host₁ : Host)
        (forth : Nat) (s₂ : StandardSession) (host₂ : Host),
      recallingSession.submit Host.new 1 = .ok (answer, s', host')
        ∧ answer.cursor = 2
        ∧ (host'.setLines 1 1 2 ["y"]).lines 1 = ["", "y"]
        ∧ s'.recallMove (host'.setLines 1 1 2 ["y"]) 2 .backward = .ok (back, s₁, host₁)
        ∧ s₁.recallMove host₁ 2 .forward = .ok (forth, s₂, host₂)
        ∧ host₂.lines 1 = ["", "x"] := by
  have hanswer : (recallingSession.submit Host.new 1).toOption.map
      (fun r => (r.1, (r.2.2.setLines 1 1 2 ["y"]).lines 1)) = some (recallingSession.stay 2, ["", "y"]) := by
    decide +kernel
  have hsession : (recallingSession.submit Host.new 1).toOption.map (·.2.1) = some recallingSession := by rfl
  cases hsubmit : recallingSession.submit Host.new 1 with
  | error f =>
      rw [hsubmit] at hsession
      cases hsession
  | ok r =>
      obtain ⟨answer, s', host'⟩ := r
      rw [hsubmit] at hanswer hsession
      obtain ⟨rfl, htyped⟩ := Prod.mk.inj (Option.some.inj hanswer)
      obtain rfl : s' = recallingSession := Option.some.inj hsession
      have htext : isContinuation recallingSession.marker "y" = false := by rfl
      obtain ⟨-, above, behind, below, back, s₁, host₁, hstands, hback, hforth⟩ :=
        back_and_forth_after_submit lived_recallingSession hsubmit rfl htext
      obtain ⟨forth, s₂, host₂, hmoved, -, hlines⟩ := hforth 2 (Or.inl rfl)
      refine ⟨_, _, host', back, s₁, host₁, forth, s₂, host₂, rfl, rfl, htyped, hback, hmoved, ?_⟩
      -- The text stands on the second of two lines.
      have hwhole : above ++ "y" :: behind ++ below = ["", "y"] := hstands.lines_eq.symm.trans htyped
      have hresolved : recallingSession.statement? (host'.setLines 1 1 2 ["y"]) 2 = some ⟨["y"], 2, 2⟩ := by
        show Statement.resolve? _ ((host'.setLines 1 1 2 ["y"]).lines 1) 2 = _
        rw [htyped]
        decide
      obtain ⟨hstatement, hfirst, -⟩ := Statement.mk.inj (Option.some.inj (hstands.resolved.symm.trans hresolved))
      obtain ⟨line, rfl⟩ := List.length_eq_one_iff.1 (Nat.succ.inj hfirst)
      obtain rfl : behind = [] := (List.cons.inj hstatement).2
      obtain ⟨rfl, rfl⟩ : line = "" ∧ below = [] := by simpa using hwhole
      exact hlines 0 ["x"] rfl

end Session

end Transcript
