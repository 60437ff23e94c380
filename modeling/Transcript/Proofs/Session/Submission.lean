import Transcript.Proofs.Buffer.Report
import Transcript.Proofs.Session.Dispatch
import Transcript.Proofs.Statement

/-!
What a submission does to the buffers. The output of the statement under the cursor and an empty line go into
the buffer of the session as one block, below the statement and below every mark that reaches across its end.
The marks that were there stay on their lines and each chunk of output gets a mark of its own. No other buffer
changes.
-/
namespace Transcript

namespace Session

variable {α β : Type}

theorem insertChunks_eq (s : Session α β) (host : Host) (after : Nat) {chunks : List Chunk}
    (hproper : ∀ c ∈ chunks, c.lines ≠ []) :
    s.insertChunks host after chunks
      = ({ s with nextMark := s.nextMark + chunks.length },
        host.modifyBuffer s.buffer (Buffer.insertOutput s.padded s.nextMark after chunks),
        after + heightOf chunks) := by
  induction chunks generalizing s host after with
  | nil =>
      have hsame : Buffer.insertOutput s.padded s.nextMark after [] = fun b => b := rfl
      rw [hsame, Host.modifyBuffer_self]
      rfl
  | cons c cs ih =>
      have hlines : c.lines.length ≠ 0 := by
        have hpos := List.length_pos_iff.2 (hproper c List.mem_cons_self)
        omega
      rw [insertChunks, insertChunk, if_neg hlines]
      simp only
      rw [ih _ _ _ fun c hc => hproper c (List.mem_cons_of_mem _ hc)]
      simp only [Host.addMark, Host.setLines, Host.modifyBuffer_modifyBuffer, heightOf_cons, Nat.add_assoc,
        List.length_cons, Nat.add_comm 1]
      refine Prod.ext rfl (Prod.ext ?_ rfl)
      show host.modifyBuffer s.buffer _ = host.modifyBuffer s.buffer _
      congr 1
      funext b
      rw [Buffer.insertOutput, Buffer.insertMarked, List.length_map]
      rfl

theorem report_eq (s : Session α β) (host : Host) (after : Nat) {output : Sink} (hproper : output.Proper) :
    s.report host after output
      = (s.stay (Navigation.insertionPoint (host.marks s.buffer) after + heightOf output.chunks + 1),
        { s with nextMark := s.nextMark + output.chunks.length },
        host.modifyBuffer s.buffer fun b =>
          b.report s.padded s.nextMark (Navigation.insertionPoint (host.marks s.buffer) after)
            output.chunks) := by
  rw [report, insertChunks_eq s host _ hproper]
  simp only [openLine, Host.setLines, Host.modifyBuffer_modifyBuffer]
  rfl

/-- The answer to a cursor line: the refusal of continuations without a statement, nothing for a blank
statement, else the dispatch of the statement, which is in the history by then. -/
def answer [Evaluator α] [Evaluator β] (s : Session α β) (host : Host) (cursor : Nat) : Dispatch α β :=
  match s.statement? host cursor with
  | none => s.refusing host .malformedContinuation
  | some statement =>
    if statement.isBlank s.marker then { output := .empty, next := .proceed, session := s, host := host }
    else { s with history := s.history.append statement.lines }.dispatch host statement.lines

/-- What is done with an answer, for a statement that ends on line `last`. -/
def conclude (d : Dispatch α β) (last : Nat) : Submission × Session α β × Host :=
  match d.next with
  | .exit => ({ cursor := 0, redraw := false, quit := true }, d.session, d.host)
  | .proceed => d.session.report d.host (min last (d.host.lineCount d.session.buffer)) d.output
  | .hold =>
    let after := Navigation.insertionPoint (d.host.marks d.session.buffer)
      (min last (d.host.lineCount d.session.buffer))
    let (s, host, last) := d.session.insertChunks d.host after d.output.chunks
    (s.stay (max last 1), s, host)

/-- Every path of a submission is an answer and what is done with it. -/
theorem submit_eq [Evaluator α] [Evaluator β] (s : Session α β) {host : Host} {b : Buffer} (cursor : Nat)
    (hget : host.buffers.get? s.buffer = some b) :
    s.submit host cursor
      = .ok (conclude (s.answer host cursor) (Statement.blockEnd s.marker b.lines cursor)) := by
  have halive : s.isAlive host = true := Host.hasBuffer_of_get? hget
  have hlines := Host.lines_of_get? hget
  have hend : min (Statement.blockEnd s.marker b.lines cursor) (host.lineCount s.buffer)
      = Statement.blockEnd s.marker b.lines cursor := by
    rw [Host.lineCount, hlines]
    exact Nat.min_eq_left (Statement.blockEnd_le s.marker b.lines cursor)
  rw [submit, if_neg (by simp [halive]), answer]
  cases hstatement : s.statement? host cursor with
  | none =>
      simp only [hlines, conclude, refusing, showing, hend]
  | some statement =>
      have hlast : statement.last = Statement.blockEnd s.marker b.lines cursor := by
        rw [statement?, hlines] at hstatement
        exact Statement.last_of_resolve? b.lines_ne_nil hstatement
      by_cases hblank : statement.isBlank s.marker = true
      · simp only [if_pos hblank, hlast, conclude, hend]
      · simp only [if_neg hblank, ← hlast]
        rfl

/-- An answer changes no buffer, or the statement is an accepted `clear` or `quit` and the answer is what
these commands do. -/
theorem answer_cases [Evaluator α] [Evaluator β] (s : Session α β) (host : Host) (cursor : Nat) :
    (s.answer host cursor).Keeps { s with history := (s.answer host cursor).session.history } host
      ∨ (∃ statement, s.statement? host cursor = some statement
          ∧ Input.classify s.leader s.marker statement.lines = .ok (.command .clear none)
          ∧ s.answer host cursor
              = { output := .empty
                  next := .hold
                  session := ({ s with history := s.history.append statement.lines }.clear host).1
                  host := (s.clear host).2 })
      ∨ (∃ statement, s.statement? host cursor = some statement
          ∧ Input.classify s.leader s.marker statement.lines = .ok (.command .quit none)
          ∧ s.answer host cursor
              = { output := .empty
                  next := .exit
                  session := { s with history := s.history.append statement.lines, nextMark := 1 }
                  host := (host.clearMarks s.buffer).deleteBuffer s.buffer }) := by
  unfold answer
  cases hstatement : s.statement? host cursor with
  | none => exact Or.inl (s.refusing_keeps host .malformedContinuation)
  | some statement =>
      by_cases hblank : statement.isBlank s.marker = true
      · simp only [if_pos hblank]
        exact Or.inl ⟨Sink.proper_empty, fun _ _ => Sink.plain_empty, by simp, fun _ _ => rfl, rfl, rfl, Frame.refl s⟩
      · simp only [if_neg hblank]
        by_cases hclear : Input.classify s.leader s.marker statement.lines = .ok (.command .clear none)
        · have hdispatch := { s with history := s.history.append statement.lines }.dispatch_clear hclear host
          exact Or.inr (Or.inl ⟨statement, rfl, hclear, hdispatch⟩)
        · by_cases hquit : Input.classify s.leader s.marker statement.lines = .ok (.command .quit none)
          · have hdispatch := { s with history := s.history.append statement.lines }.dispatch_quit hquit host
            exact Or.inr (Or.inr ⟨statement, rfl, hquit, hdispatch⟩)
          · obtain ⟨houtput, hplain, hnext, hproceeds, hbuffers, hnextBuffer, hframe⟩ :=
              { s with history := s.history.append statement.lines }.dispatch_keeps host statement.lines
                hclear hquit
            exact Or.inl ⟨houtput, hplain, hnext, hproceeds, hbuffers, hnextBuffer, { hframe with history := rfl }⟩

theorem keeps_of_proceed [Evaluator α] [Evaluator β] {s : Session α β} {host : Host} {cursor : Nat}
    (h : (s.answer host cursor).next = .proceed) :
    (s.answer host cursor).Keeps { s with history := (s.answer host cursor).session.history } host := by
  rcases s.answer_cases host cursor with hkeeps | ⟨statement, -, -, heq⟩ | ⟨statement, -, -, heq⟩
  · exact hkeeps
  · rw [heq] at h
    cases h
  · rw [heq] at h
    cases h

/-- A session ends without output. -/
theorem output_of_exit [Evaluator α] [Evaluator β] {s : Session α β} {host : Host} {cursor : Nat}
    (h : (s.answer host cursor).next = .exit) : (s.answer host cursor).output = .empty := by
  rcases s.answer_cases host cursor with hkeeps | ⟨statement, -, -, heq⟩ | ⟨statement, -, -, heq⟩
  · exact absurd h hkeeps.next
  · rw [heq]
  · rw [heq]

/-- If no evaluator holds the line, only `clear` does. -/
theorem clears_of_hold [Evaluator α] [Evaluator β] (hα : Evaluator.NeverHolds α) (hβ : Evaluator.NeverHolds β)
    {s : Session α β} {host : Host} {cursor : Nat} (h : (s.answer host cursor).next = .hold) :
    ∃ history, s.answer host cursor
      = { output := .empty
          next := .hold
          session := { s with history := history, nextMark := 1 }
          host := (s.clear host).2 } := by
  rcases s.answer_cases host cursor with hkeeps | ⟨statement, -, -, heq⟩ | ⟨statement, -, -, heq⟩
  · rw [hkeeps.proceeds hα hβ] at h
    cases h
  · exact ⟨_, heq⟩
  · rw [heq] at h
    cases h

theorem proper_answer [Evaluator α] [Evaluator β] (s : Session α β) (host : Host) (cursor : Nat) :
    (s.answer host cursor).output.Proper := by
  rcases s.answer_cases host cursor with hkeeps | ⟨statement, -, -, heq⟩ | ⟨statement, -, -, heq⟩
  · exact hkeeps.output
  · rw [heq]
    exact Sink.proper_empty
  · rw [heq]
    exact Sink.proper_empty

/-- The statement that a submission records: the one under the cursor unless it is blank. -/
def recorded? (s : Session α β) (host : Host) (cursor : Nat) : Option Statement :=
  (s.statement? host cursor).filter fun statement => !statement.isBlank s.marker

/-- The history of an answer is that of the session, with the statement that is recorded. -/
theorem history_answer [Evaluator α] [Evaluator β] (s : Session α β) (host : Host) (cursor : Nat) :
    (s.answer host cursor).session.history
      = (s.recorded? host cursor).elim s.history fun statement => s.history.append statement.lines := by
  unfold answer recorded?
  cases hstatement : s.statement? host cursor with
  | none => rfl
  | some statement =>
      by_cases hblank : statement.isBlank s.marker = true
      · have hnone : (some statement).filter (fun st => !st.isBlank s.marker) = none := by simp [hblank]
        simp only [if_pos hblank, hnone]
        rfl
      · have hsome : (some statement).filter (fun st => !st.isBlank s.marker) = some statement := by simp [hblank]
        simp only [if_neg hblank, hsome]
        exact (frame_dispatch _ host statement.lines).history

/-- Of the parts in the frame, an answer changes the history and the number of the next mark at most. -/
theorem frame_answer [Evaluator α] [Evaluator β] (s : Session α β) (host : Host) (cursor : Nat) :
    { s with
      history := (s.answer host cursor).session.history
      nextMark := (s.answer host cursor).session.nextMark }.Frame (s.answer host cursor).session := by
  rcases s.answer_cases host cursor with hkeeps | ⟨statement, -, -, heq⟩ | ⟨statement, -, -, heq⟩
  · have hframe := hkeeps.session
    exact { hframe with nextMark := rfl }
  · rw [heq]
    exact Frame.refl _
  · rw [heq]
    exact Frame.refl _

/-- Showing an answer takes numbers for marks, and changes nothing else of the session. -/
theorem session_conclude {d : Dispatch α β} (hproper : d.output.Proper) (last : Nat) :
    ∃ nextMark, (conclude d last).2.1 = { d.session with nextMark := nextMark } := by
  unfold conclude
  cases d.next with
  | exit => exact ⟨d.session.nextMark, rfl⟩
  | proceed =>
      simp only [report_eq _ _ _ hproper]
      exact ⟨_, rfl⟩
  | hold =>
      simp only [insertChunks_eq _ _ _ hproper]
      exact ⟨_, rfl⟩

theorem report_reported (s : Session α β) {host : Host} {b : Buffer}
    (hget : host.buffers.get? s.buffer = some b) (hmarked : b.WellMarked) {output : Sink}
    (hproper : output.Proper) {after : Nat} (hafter : after ≤ b.lines.length) :
    ∃ (place : Nat) (s' : Session α β) (host' : Host) (b' : Buffer),
      s.report host after output = (s'.stay (place + heightOf output.chunks + 1), s', host')
        ∧ after ≤ place
        ∧ host'.buffers.get? s.buffer = some b'
        ∧ Buffer.Reported s.padded output.chunks place b b'
        ∧ ∀ other, other ≠ s.buffer → host'.buffers.get? other = host.buffers.get? other := by
  have hmarks := Host.marks_of_get? hget
  have hplace := Navigation.insertionPoint_le hafter hmarked.within
  have hopen : b.OpenBelow (Navigation.insertionPoint b.marks after) := by
    intro m hm
    exact Navigation.not_goesOn_insertionPoint hmarked.disjoint after hm
  have hreport := s.report_eq host after hproper
  rw [hmarks] at hreport
  refine ⟨_, { s with nextMark := s.nextMark + output.chunks.length }, _, _, hreport,
    Navigation.le_insertionPoint b.marks after, Host.get?_modifyBuffer hget _, ?_, ?_⟩
  · exact Buffer.report_reported s.padded s.nextMark hproper hplace hmarked hopen
  · intro other hother
    exact host.get?_modifyBuffer_of_ne hother _

/-- **Submitting.** Any statement but an accepted `clear` or `quit` is submitted. The lines of its answer go into the
buffer below it, each behind as many spaces as the indent is then, and below them goes an empty line, where the cursor
is left. -/
theorem submit_reported (s : StandardSession) {host : Host} {b : Buffer} (cursor : Nat)
    (hget : host.buffers.get? s.buffer = some b) (hmarked : b.WellMarked)
    (hclear : ∀ statement, s.statement? host cursor = some statement →
      Input.classify s.leader s.marker statement.lines ≠ .ok (.command .clear none))
    (hquit : ∀ statement, s.statement? host cursor = some statement →
      Input.classify s.leader s.marker statement.lines ≠ .ok (.command .quit none)) :
    ∃ (place : Nat) (s' : StandardSession) (host' : Host) (b' : Buffer),
      s.submit host cursor
          = .ok
            ({ cursor := place + heightOf (s.answer host cursor).output.chunks + 1
               redraw := s'.redraw
               quit := false }, s', host')
        ∧ Statement.blockEnd s.marker b.lines cursor ≤ place
        ∧ host'.buffers.get? s.buffer = some b'
        ∧ Buffer.Reported
            (fun line => String.ofList (List.replicate (s.answer host cursor).session.indent ' ' ++ line.toList))
            (s.answer host cursor).output.chunks place b b'
        ∧ ∀ other, other ≠ s.buffer → host'.buffers.get? other = host.buffers.get? other := by
  have hkeeps : (s.answer host cursor).Keeps { s with history := (s.answer host cursor).session.history }
      host := by
    rcases s.answer_cases host cursor with hkeeps | ⟨statement, hst, h, -⟩ | ⟨statement, hst, h, -⟩
    · exact hkeeps
    · exact absurd h (hclear statement hst)
    · exact absurd h (hquit statement hst)
  have hnext := hkeeps.proceeds Script.neverHolds Ex.neverHolds
  rw [s.submit_eq cursor hget, conclude, hnext]
  generalize s.answer host cursor = d at hkeeps
  have hbuffer : d.session.buffer = s.buffer := hkeeps.session.buffer
  have hget' : d.host.buffers.get? d.session.buffer = some b := by
    rw [hkeeps.buffers, hbuffer, hget]
  have hend := Statement.blockEnd_le s.marker b.lines cursor
  have hcount : min (Statement.blockEnd s.marker b.lines cursor) (d.host.lineCount d.session.buffer)
      = Statement.blockEnd s.marker b.lines cursor := by
    rw [Host.lineCount, Host.lines_of_get? hget', Nat.min_eq_left hend]
  have hpadded : d.session.padded
      = fun line => String.ofList (List.replicate d.session.indent ' ' ++ line.toList) := by
    funext line
    rfl
  obtain ⟨place, s', host', b', hreport, hplace, hnew, hreported, hothers⟩ :=
    d.session.report_reported hget' hmarked hkeeps.output hend
  rw [hbuffer] at hnew hothers
  rw [hpadded] at hreported
  refine ⟨place, s', host', b', ?_, hplace, hnew, hreported, ?_⟩
  · simp only [hcount, hreport]
    rfl
  · intro other hother
    rw [hothers other hother, hkeeps.buffers]

/-- A statement, two lines of output in one mark and a fresh line. -/
def reportedBuffer : Buffer where
  lines := ["f()", "print('a')", "second", ""]
  marks := [{ id := 1, first := 2, last := 3, highlight := .output }]
  lines_ne_nil := by simp

/-- A host with that buffer. -/
def reportedHost : Host := { Host.new with buffers := Table.empty.insert 1 reportedBuffer }

/-- The first line of output, submitted as a statement with an indent of two, is answered below the whole output. -/
theorem submit_reported_inside_output :
    ∃ (s' : StandardSession) (host' : Host) (b' : Buffer),
      (StandardSession.new 1 { indent := 2 }).submit reportedHost 2
          = .ok ({ cursor := 5, redraw := s'.redraw, quit := false }, s', host')
        ∧ host'.buffers.get? 1 = some b'
        ∧ b'.lines = ["f()", "print('a')", "second", "  a", "", ""]
        ∧ b'.WellMarked
        ∧ ∀ other, other ≠ 1 → host'.buffers.get? other = reportedHost.buffers.get? other := by
  have hstatement : (StandardSession.new 1 { indent := 2 }).statement? reportedHost 2
      = some { lines := ["print('a')"], first := 2, last := 2 } := by rfl
  have hinput : Input.classify '/' '\\' ["print('a')"] = .ok (.program ["print('a')"]) := by rfl
  have hprogram : ∀ c, ∀ statement,
      (StandardSession.new 1 { indent := 2 }).statement? reportedHost 2 = some statement →
      Input.classify '/' '\\' statement.lines ≠ .ok (.command c none) := by
    intro c statement h
    rw [hstatement] at h
    cases h
    rw [hinput]
    rintro ⟨⟩
  have hmarked : reportedBuffer.WellMarked := by
    refine ⟨?_, List.pairwise_singleton _ _⟩
    intro m hm
    rw [List.mem_singleton.1 hm]
    exact ⟨by decide, by decide, by decide, by decide⟩
  have hchunks : ((StandardSession.new 1 { indent := 2 }).answer reportedHost 2).output.chunks
      = [⟨.output, ["a"]⟩] := by decide +kernel
  have hindent : ((StandardSession.new 1 { indent := 2 }).answer reportedHost 2).session.indent = 2 := by
    decide +kernel
  have hcursor : ((StandardSession.new 1 { indent := 2 }).submit reportedHost 2).toOption.map (·.1.cursor)
      = some 5 := by decide +kernel
  obtain ⟨place, s', host', b', hsubmit, -, hget, hreported, hothers⟩ :=
    submit_reported (StandardSession.new 1 { indent := 2 }) 2 rfl hmarked (hprogram .clear) (hprogram .quit)
  rw [hchunks] at hsubmit hreported
  rw [hindent] at hreported
  -- The line of the cursor says where the block went.
  have hplace : place = 3 := by
    rw [hsubmit] at hcursor
    have hline : place + 1 + 1 = 5 := Option.some.inj hcursor
    omega
  subst hplace
  refine ⟨s', host', b', hsubmit, hget, ?_, hreported.wellMarked, hothers⟩
  rw [hreported.lines]
  decide

end Session

end Transcript
