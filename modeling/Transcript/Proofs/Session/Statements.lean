import Transcript.Proofs.Session.Submission
import Transcript.Proofs.Statement.Insertion

/-!
What a submission leaves of the statements in its buffer. The output goes into the buffer as lines like any others, and
a statement is found by the markers of its lines alone. So of the statements that were there, the one that the block
goes below or into may be torn, by output that starts with the marker or by a block that goes below a mark inside it.
Every other statement is read where its lines went.
-/
namespace Transcript

variable {α β : Type}

/-- The lines that an answer puts into a buffer: its output behind the indent and, unless the line is held, an empty
line. -/
def Dispatch.block (d : Dispatch α β) : List String :=
  blockOf d.session.padded d.output.chunks ++ if d.next = .proceed then [""] else []

namespace Session

/-- An answer that does not end the session puts its block below the place where it fits between the marks. -/
theorem lines_conclude {d : Dispatch α β} (hproper : d.output.Proper) (hnext : d.next ≠ .exit) {b : Buffer}
    (hget : d.host.buffers.get? d.session.buffer = some b) (hwithin : b.MarksWithin) {last : Nat}
    (hlast : last ≤ b.lines.length) :
    (conclude d last).2.2.lines d.session.buffer
      = b.lines.take (Navigation.insertionPoint b.marks last) ++ d.block
        ++ b.lines.drop (Navigation.insertionPoint b.marks last) := by
  have hplace := Navigation.insertionPoint_le hlast hwithin
  have hmarks := Host.marks_of_get? hget
  have hcount : min last (d.host.lineCount d.session.buffer) = last := by
    rw [Host.lineCount_of_get? hget, Nat.min_eq_left hlast]
  unfold conclude Dispatch.block
  cases hd : d.next with
  | exit => exact absurd hd hnext
  | proceed =>
      simp only [hcount, report_eq _ _ _ hproper, hmarks, if_true]
      rw [Host.lines_of_get? (Host.get?_modifyBuffer hget _), Buffer.lines_report _ _ _ hplace]
  | hold =>
      simp only [hcount, insertChunks_eq _ _ _ hproper, hmarks, reduceCtorEq, if_false, List.append_nil]
      rw [Host.lines_of_get? (Host.get?_modifyBuffer hget _), Buffer.lines_insertOutput _ _ _ hplace]

variable [Evaluator α] [Evaluator β]

/-- A submission of anything but an accepted `clear` or `quit` puts the block of its answer below the statement. -/
theorem submit_inserts (s : Session α β) {host : Host} {b : Buffer} (cursor : Nat)
    (hget : host.buffers.get? s.buffer = some b) (hwithin : b.MarksWithin)
    (hclear : ∀ statement, s.statement? host cursor = some statement →
      Input.classify s.leader s.marker statement.lines ≠ .ok (.command .clear none))
    (hquit : ∀ statement, s.statement? host cursor = some statement →
      Input.classify s.leader s.marker statement.lines ≠ .ok (.command .quit none)) :
    ∃ (place : Nat) (submission : Submission) (s' : Session α β) (host' : Host),
      s.submit host cursor = .ok (submission, s', host')
        ∧ Statement.blockEnd s.marker b.lines cursor ≤ place
        ∧ place ≤ b.lines.length
        ∧ s'.buffer = s.buffer
        ∧ s'.marker = s.marker
        ∧ host'.lines s.buffer = b.lines.take place ++ (s.answer host cursor).block ++ b.lines.drop place := by
  have hkeeps : (s.answer host cursor).Keeps { s with history := (s.answer host cursor).session.history }
      host := by
    rcases s.answer_cases host cursor with hkeeps | ⟨statement, hst, h, -⟩ | ⟨statement, hst, h, -⟩
    · exact hkeeps
    · exact absurd h (hclear statement hst)
    · exact absurd h (hquit statement hst)
  have hsubmit := s.submit_eq cursor hget
  have hend := Statement.blockEnd_le s.marker b.lines cursor
  generalize s.answer host cursor = d at hkeeps hsubmit
  generalize Statement.blockEnd s.marker b.lines cursor = last at hsubmit hend
  have hbuffer : d.session.buffer = s.buffer := hkeeps.session.buffer
  have hget' : d.host.buffers.get? d.session.buffer = some b := by
    rw [hkeeps.buffers, hbuffer, hget]
  have hlines := lines_conclude hkeeps.output hkeeps.next hget' hwithin hend
  rw [hbuffer] at hlines
  obtain ⟨nextMark, hsession⟩ := session_conclude hkeeps.output last
  refine ⟨_, (conclude d last).1, (conclude d last).2.1, (conclude d last).2.2, hsubmit,
    Navigation.le_insertionPoint b.marks last, Navigation.insertionPoint_le hend hwithin, ?_, ?_, hlines⟩
  · rw [hsession]
    exact hbuffer
  · rw [hsession]
    exact hkeeps.session.marker

/-- **The statements after a submission.** Whatever the evaluators put out, each line of the buffer that resolved to a
statement resolves, where it went, to the statement of the same lines, and no line of the output resolves to that
statement, exactly if the block of output does not tear it. -/
theorem submit_keeps_statement_iff (s : Session α β) {host : Host} {b : Buffer} (cursor : Nat)
    (hget : host.buffers.get? s.buffer = some b) (hmarked : b.WellMarked)
    (hclear : ∀ statement, s.statement? host cursor = some statement →
      Input.classify s.leader s.marker statement.lines ≠ .ok (.command .clear none))
    (hquit : ∀ statement, s.statement? host cursor = some statement →
      Input.classify s.leader s.marker statement.lines ≠ .ok (.command .quit none)) :
    ∃ (place : Nat) (block : List String) (submission : Submission) (s' : Session α β) (host' : Host),
      s.submit host cursor = .ok (submission, s', host')
        ∧ Statement.blockEnd s.marker b.lines cursor ≤ place
        ∧ block = (s.answer host cursor).block
        ∧ host'.lines s.buffer = b.lines.take place ++ block ++ b.lines.drop place
        ∧ ∀ (line : Nat) (st : Statement), 0 < line → line ≤ b.lines.length → s.statement? host line = some st →
            ((s'.statement? host' (lineBelow place block.length line) = some (st.movedBelow place block.length)
                ∧ ∀ fresh, place < fresh → fresh ≤ place + block.length →
                    s'.statement? host' fresh ≠ some (st.movedBelow place block.length))
              ↔ ¬ st.TornBy s.marker place block) := by
  obtain ⟨place, submission, s', host', hsubmit, hend, hplace, hbuffer, hmarker, hlines⟩ :=
    s.submit_inserts cursor hget hmarked.within hclear hquit
  refine ⟨place, _, submission, s', host', hsubmit, hend, rfl, hlines, ?_⟩
  generalize (s.answer host cursor).block = block at hlines
  intro line st hpos hle hst
  have hafter : ∀ other, s'.statement? host' other
      = Statement.resolve? s.marker (b.lines.take place ++ block ++ b.lines.drop place) other := by
    intro other
    rw [statement?, hbuffer, hmarker, hlines]
  have htop : (b.lines.take place).length = place := by rw [List.length_take, Nat.min_eq_left hplace]
  rw [statement?, Host.lines_of_get? hget] at hst
  rw [← List.take_append_drop place b.lines] at hst hle
  simp only [hafter]
  have hkept : Statement.resolve? s.marker (b.lines.take place ++ block ++ b.lines.drop place)
        (lineBelow (b.lines.take place).length block.length line)
        = some (st.movedBelow (b.lines.take place).length block.length)
      ↔ ¬ st.TornBy s.marker (b.lines.take place).length block := Statement.resolve?_insert_iff hpos hle hst
  have hfresh : ¬ st.TornBy s.marker (b.lines.take place).length block →
      ∀ fresh, (b.lines.take place).length < fresh → fresh ≤ (b.lines.take place).length + block.length →
        Statement.resolve? s.marker (b.lines.take place ++ block ++ b.lines.drop place) fresh
          ≠ some (st.movedBelow (b.lines.take place).length block.length) :=
    fun huntorn _ habove hbelow => Statement.resolve?_block_ne huntorn habove hbelow
  rw [htop] at hkept hfresh
  rw [hkept]
  exact and_iff_left_of_imp hfresh

/-- A host with one buffer. -/
def hostWith (b : Buffer) : Host := { Host.new with buffers := Table.empty.insert 1 b }

/-- A statement, two lines of output in one mark and a line that goes on. -/
def outputAboveContinuation : Buffer where
  lines := ["f()", "first", "second", "\\x"]
  marks := [{ id := 1, first := 2, last := 3, highlight := .output }]
  lines_ne_nil := by simp

/-- The first line of output is submitted. The block goes below all of the output and tears the statement that the
second line of output is with the line below it. -/
theorem submit_keeps_statement_above_continuation :
    ∃ (place : Nat) (block : List String) (submission : Submission) (s' : StandardSession) (host' : Host),
      (StandardSession.new 1 {}).submit (hostWith outputAboveContinuation) 2 = .ok (submission, s', host')
        ∧ Statement.blockEnd '\\' outputAboveContinuation.lines 2 ≤ place
        ∧ block = ((StandardSession.new 1 {}).answer (hostWith outputAboveContinuation) 2).block
        ∧ host'.lines 1
            = outputAboveContinuation.lines.take place ++ block ++ outputAboveContinuation.lines.drop place
        ∧ ∀ (line : Nat) (st : Statement), 0 < line → line ≤ outputAboveContinuation.lines.length →
            (StandardSession.new 1 {}).statement? (hostWith outputAboveContinuation) line = some st →
            ((s'.statement? host' (lineBelow place block.length line) = some (st.movedBelow place block.length)
                ∧ ∀ fresh, place < fresh → fresh ≤ place + block.length →
                    s'.statement? host' fresh ≠ some (st.movedBelow place block.length))
              ↔ ¬ st.TornBy '\\' place block) := by
  have hstatement : (StandardSession.new 1 {}).statement? (hostWith outputAboveContinuation) 2
      = some { lines := ["first"], first := 2, last := 2 } := by rfl
  have hinput : Input.classify '/' '\\' ["first"] = .ok (.program ["first"]) := by rfl
  have hmarked : outputAboveContinuation.WellMarked := by
    refine ⟨?_, List.pairwise_singleton _ _⟩
    intro m hm
    rw [List.mem_singleton.1 hm]
    exact ⟨by decide, by decide, by decide, by decide⟩
  refine submit_keeps_statement_iff (StandardSession.new 1 {}) 2 rfl hmarked ?_ ?_
  · intro statement h
    rw [hstatement] at h
    cases h
    show Input.classify '/' '\\' ["first"] ≠ _
    rw [hinput]
    decide
  · intro statement h
    rw [hstatement] at h
    cases h
    show Input.classify '/' '\\' ["first"] ≠ _
    rw [hinput]
    decide

/-- A buffer with the call that prints a marker and a letter, and no marks. -/
def printsMarker : Buffer := .ofLines ["print('\\\\a')"]

/-- Output that starts with the marker is read as part of the statement that printed it. -/
theorem submit_grows_statement :
    printsMarker.marks = []
      ∧ Input.classify '/' '\\' printsMarker.lines = .ok (.program ["print('\\\\a')"])
      ∧ (StandardSession.new 1 {}).statement? (hostWith printsMarker) 1 = some ⟨["print('\\\\a')"], 1, 1⟩
      ∧ ((StandardSession.new 1 {}).submit (hostWith printsMarker) 1).toOption.map
          (fun (_, s', host') => s'.statement? host' 1) = some (some ⟨["print('\\\\a')", "\\a"], 1, 2⟩) := by
  decide +kernel

end Session

end Transcript
