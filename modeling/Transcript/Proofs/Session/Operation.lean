import Transcript.Proofs.Session.Alike
import Transcript.Proofs.Session.Submission
import Transcript.Session.Editing

/-!
Operations of a session on a host that it shares. An operation changes nothing but the session, its buffer and what
windows show: where the current place is there, it is current again afterwards, and no evaluation on the host can
tell that the operation took place. Nor does an operation depend on more than that. On two hosts that evaluations
cannot tell apart and that agree on the buffer of the session, it has the same result. Quitting is the exception,
for it closes windows.
-/
namespace Transcript

/-- What is done with a session, the edits of its buffer included. -/
inductive Operation where
  | submit (cursor : Nat)
  | move (cursor : Nat) (direction : Direction)
  | breakLine (line col : Nat)
  | edit (start stop : Nat) (lines : List String)
  deriving DecidableEq, Repr

namespace Operation

inductive Answer where
  | submitted (submission : Submission)
  | moved (line : Nat)
  | edited
  | refused (failure : Failure)
  deriving DecidableEq, Repr

/-- Whether the operation ends the session. -/
def Answer.quits : Answer → Bool
  | .submitted submission => submission.quit
  | _ => false

end Operation

variable {α β : Type}

/-- Dispatches with the same answer that leave the same session and, unless they end it, hosts with the same
contents in its buffer that evaluations cannot tell apart. -/
structure Dispatch.AlikeAt (buffer : Nat) (d d' : Dispatch α β) : Prop where
  output : d'.output = d.output
  next : d'.next = d.next
  session : d'.session = d.session
  host : d.next ≠ .exit → Host.AlikeAt buffer d.host d'.host

/-- The same for the results of operations. -/
structure Operation.AlikeAt (buffer : Nat) (r r' : Operation.Answer × Session α β × Host) : Prop where
  answer : r'.1 = r.1
  session : r'.2.1 = r.2.1
  host : r.1.quits = false → Host.AlikeAt buffer r.2.2 r'.2.2

namespace Session

/-- An operation gives an answer, and leaves a session and a host. One that is refused leaves them as they are. -/
def operate [Evaluator α] [Evaluator β] (s : Session α β) (host : Host) :
    Operation → Operation.Answer × Session α β × Host
  | .submit cursor =>
    match s.submit host cursor with
    | .ok (submission, s, host) => (.submitted submission, s, host)
    | .error f => (.refused f, s, host)
  | .move cursor direction =>
    match s.recallMove host cursor direction with
    | .ok (line, s, host) => (.moved line, s, host)
    | .error f => (.refused f, s, host)
  | .breakLine line col =>
    match s.breakLine host line col with
    | .ok (line, host) => (.moved line, s, host)
    | .error f => (.refused f, s, host)
  | .edit start stop lines => (.edited, s, host.setLines s.buffer start stop lines)

theorem buffer_conclude {d : Dispatch α β} (hproper : d.output.Proper) (last : Nat) :
    (conclude d last).2.1.buffer = d.session.buffer := by
  obtain ⟨nextMark, hsession⟩ := session_conclude hproper last
  rw [hsession]

theorem next_ne_exit_of_quit {d : Dispatch α β} {last : Nat} (hquit : (conclude d last).1.quit = false) :
    d.next ≠ .exit := by
  intro hexit
  rw [conclude, hexit] at hquit
  cases hquit

/-! ### What an operation changes -/

section Confined

variable {s : Session α β} {host : Host}

theorem confined_conclude {d : Dispatch α β} (hproper : d.output.Proper) (last : Nat) :
    Host.Confined d.session.buffer d.host (conclude d last).2.2 := by
  unfold conclude
  cases d.next with
  | exit => exact Host.Confined.refl _ _
  | proceed =>
      simp only [report_eq _ _ _ hproper]
      exact d.host.confined_modifyBuffer _ _
  | hold =>
      simp only [insertChunks_eq _ _ _ hproper]
      exact d.host.confined_modifyBuffer _ _

variable [Evaluator α] [Evaluator β]

theorem alike_evaluate (s : Session α β) (hcurrent : host.HasCurrent) (language : Language) (program : List String) :
    host.Alike (s.evaluate host language program).host := by
  unfold evaluate
  by_cases hstale : s.staleOverrides host ≠ []
  · simp only [if_pos hstale]
    exact Host.Alike.refl host
  · simp only [if_neg hstale]
    exact hcurrent.alike_visit s.context

theorem alike_carryOut (s : Session α β) (hcurrent : host.HasCurrent) {e : Effect} (hquit : e ≠ .quit) :
    host.Alike (s.carryOut host e).host := by
  cases e with
  | refuse f => exact Host.Alike.refl host
  | inform setting text => exact Host.Alike.refl host
  | evaluate language program => exact s.alike_evaluate hcurrent language program
  | clear => exact (host.alike_modifyBuffer _ _).trans (Host.alike_modifyBuffer _ _ _)
  | quit => exact absurd rfl hquit

theorem confined_dispatch (s : Session α β) (hcurrent : host.HasCurrent) {lines : List String}
    (hnext : (s.dispatch host lines).next ≠ .exit) : Host.Confined s.buffer host (s.dispatch host lines).host := by
  by_cases hclear : Input.classify s.leader s.marker lines = .ok (.command .clear none)
  · rw [s.dispatch_clear hclear]
    exact (host.confined_modifyBuffer _ _).trans (Host.confined_modifyBuffer _ _ _)
  · by_cases hquit : Input.classify s.leader s.marker lines = .ok (.command .quit none)
    · rw [s.dispatch_quit hquit] at hnext
      exact absurd rfl hnext
    · refine ⟨?_, ?_⟩
      · obtain ⟨e, -, hquits, hdispatch⟩ := s.exists_carryOut host lines
        rw [hdispatch]
        exact s.alike_carryOut hcurrent (mt hquits hquit)
      · intro other _
        rw [(s.dispatch_keeps host lines hclear hquit).buffers]

theorem confined_answer (s : Session α β) (hcurrent : host.HasCurrent) {cursor : Nat}
    (hnext : (s.answer host cursor).next ≠ .exit) : Host.Confined s.buffer host (s.answer host cursor).host := by
  unfold answer at hnext ⊢
  cases hstatement : s.statement? host cursor with
  | none => exact Host.Confined.refl s.buffer host
  | some statement =>
      simp only [hstatement] at hnext ⊢
      by_cases hblank : statement.isBlank s.marker = true
      · simp only [if_pos hblank]
        exact Host.Confined.refl s.buffer host
      · simp only [if_neg hblank] at hnext ⊢
        exact confined_dispatch _ hcurrent hnext

end Confined

/-! ### Operations by their cases -/

section Cases

variable [Evaluator α] [Evaluator β] {s : Session α β} {host : Host}

theorem operate_submit {b : Buffer} (hget : host.buffers.get? s.buffer = some b) (cursor : Nat) :
    s.operate host (.submit cursor)
      = (.submitted (conclude (s.answer host cursor) (Statement.blockEnd s.marker b.lines cursor)).1,
          (conclude (s.answer host cursor) (Statement.blockEnd s.marker b.lines cursor)).2) := by
  rw [operate, s.submit_eq cursor hget]

theorem operate_move (halive : s.isAlive host = true) (cursor : Nat) (direction : Direction) :
    s.operate host (.move cursor direction)
      = (.moved ((s.recalled host cursor).first
            + max (s.history.move direction (s.recalled host cursor).lines).1.length 1 - 1),
          { s with history := (s.history.move direction (s.recalled host cursor).lines).2 },
          host.setLines s.buffer ((s.recalled host cursor).first - 1) (s.recalled host cursor).last
            (s.history.move direction (s.recalled host cursor).lines).1) := by
  rw [operate, recallMove, if_neg (not_not_intro halive)]

theorem operate_breakLine (halive : s.isAlive host = true) (line col : Nat) :
    s.operate host (.breakLine line col)
      = (.moved (s.nearestLine host line + 1), s,
          host.setLines s.buffer (s.nearestLine host line - 1) (s.nearestLine host line)
            [String.ofList (Text.cutAt col (host.lineAt s.buffer (s.nearestLine host line)).toList).1,
              String.ofList
                (s.marker :: (Text.cutAt col (host.lineAt s.buffer (s.nearestLine host line)).toList).2)]) := by
  rw [operate, breakLine, if_neg (not_not_intro halive)]

/-- Without its buffer a session refuses everything but edits. -/
theorem operate_of_dead (hdead : ¬ s.isAlive host = true) {op : Operation}
    (hop : ∀ start stop lines, op ≠ .edit start stop lines) :
    s.operate host op = (.refused (.sessionClosed s.buffer), s, host) := by
  cases op with
  | submit cursor => rw [operate, submit, if_pos hdead]
  | move cursor direction => rw [operate, recallMove, if_pos hdead]
  | breakLine line col => rw [operate, breakLine, if_pos hdead]
  | edit start stop lines => exact absurd rfl (hop start stop lines)

end Cases

theorem buffer_operate [Evaluator α] [Evaluator β] (s : Session α β) (host : Host) (op : Operation) :
    (s.operate host op).2.1.buffer = s.buffer := by
  by_cases halive : s.isAlive host = true
  · cases op with
    | submit cursor =>
        obtain ⟨b, hget⟩ := Option.isSome_iff_exists.1 halive
        rw [operate_submit hget]
        exact (buffer_conclude (s.proper_answer host cursor) _).trans (s.frame_answer host cursor).buffer
    | move cursor direction => rw [operate_move halive]
    | breakLine line col => rw [operate_breakLine halive]
    | edit start stop lines => rfl
  · cases op with
    | edit start stop lines => rfl
    | _ => rw [operate_of_dead halive (by simp)]

/-- An operation that does not quit is confined to the buffer of its session. -/
theorem confined_operate [Evaluator α] [Evaluator β] (s : Session α β) {host : Host} (hcurrent : host.HasCurrent)
    {op : Operation} (hquit : (s.operate host op).1.quits = false) :
    Host.Confined s.buffer host (s.operate host op).2.2 := by
  have hedit : ∀ f, Host.Confined s.buffer host (host.modifyBuffer s.buffer f) := host.confined_modifyBuffer s.buffer
  by_cases halive : s.isAlive host = true
  · cases op with
    | submit cursor =>
        obtain ⟨b, hget⟩ := Option.isSome_iff_exists.1 halive
        rw [operate_submit hget] at hquit ⊢
        have hshown := confined_conclude (s.proper_answer host cursor) (Statement.blockEnd s.marker b.lines cursor)
        rw [(s.frame_answer host cursor).buffer] at hshown
        exact (s.confined_answer hcurrent (next_ne_exit_of_quit hquit)).trans hshown
    | move cursor direction =>
        rw [operate_move halive]
        exact hedit _
    | breakLine line col =>
        rw [operate_breakLine halive]
        exact hedit _
    | edit start stop lines => exact hedit _
  · cases op with
    | edit start stop lines => exact hedit _
    | _ =>
        rw [operate_of_dead halive (by simp)]
        exact Host.Confined.refl s.buffer host

/-! ### What an operation depends on -/

section AlikeAt

variable {s : Session α β} {host host' : Host}

theorem statement?_of_alikeAt (ha : Host.AlikeAt s.buffer host host') (cursor : Nat) :
    s.statement? host' cursor = s.statement? host cursor := by
  rw [statement?, statement?, ha.lines]

theorem nearestLine_of_alikeAt (ha : Host.AlikeAt s.buffer host host') (line : Nat) :
    s.nearestLine host' line = s.nearestLine host line := by
  rw [nearestLine, nearestLine, ha.lineCount]

theorem recalled_of_alikeAt (ha : Host.AlikeAt s.buffer host host') (cursor : Nat) :
    s.recalled host' cursor = s.recalled host cursor := by
  unfold recalled
  rw [statement?_of_alikeAt ha, nearestLine_of_alikeAt ha]
  simp only [Host.slice, ha.get?]

variable [Evaluator α] [Evaluator β]

theorem dispatch_alikeAt (ha : Host.AlikeAt s.buffer host host') (lines : List String) :
    Dispatch.AlikeAt s.buffer (s.dispatch host lines) (s.dispatch host' lines) := by
  by_cases hclear : Input.classify s.leader s.marker lines = .ok (.command .clear none)
  · rw [s.dispatch_clear hclear, s.dispatch_clear hclear]
    refine ⟨rfl, rfl, rfl, fun _ => ?_⟩
    simp only [clear, ha.lineCount]
    exact (ha.modifyBuffer _).modifyBuffer _
  · by_cases hquit : Input.classify s.leader s.marker lines = .ok (.command .quit none)
    · rw [s.dispatch_quit hquit, s.dispatch_quit hquit]
      exact ⟨rfl, rfl, rfl, fun hnext => absurd rfl hnext⟩
    · have hkeeps := s.dispatch_keeps host lines hclear hquit
      have hkeeps' := s.dispatch_keeps host' lines hclear hquit
      obtain ⟨houtput, hnext, ⟨history, nextMark, hsession⟩, hhost⟩ := (Alike.refl s).dispatch ha.alike lines
      refine ⟨houtput, hnext, ?_, fun hgoes => ⟨hhost hgoes, ?_⟩⟩
      · -- Alike sessions differ in history and next mark at most, and a dispatch keeps both.
        have hhistory : history = (s.dispatch host lines).session.history := by
          rw [hkeeps.session.history, ← hkeeps'.session.history, hsession]
        have hmark : nextMark = (s.dispatch host lines).session.nextMark := by
          rw [hkeeps.session.nextMark, ← hkeeps'.session.nextMark, hsession]
        rw [hsession, hhistory, hmark]
      · rw [hkeeps.buffers, hkeeps'.buffers, ha.get?]

theorem answer_alikeAt (ha : Host.AlikeAt s.buffer host host') (cursor : Nat) :
    Dispatch.AlikeAt s.buffer (s.answer host cursor) (s.answer host' cursor) := by
  unfold answer
  rw [statement?_of_alikeAt ha]
  cases s.statement? host cursor with
  | none => exact ⟨rfl, rfl, rfl, fun _ => ha⟩
  | some statement =>
      by_cases hblank : statement.isBlank s.marker = true
      · simp only [if_pos hblank]
        exact ⟨rfl, rfl, rfl, fun _ => ha⟩
      · simp only [if_neg hblank]
        exact dispatch_alikeAt (s := { s with history := s.history.append statement.lines }) ha statement.lines

omit [Evaluator α] [Evaluator β] in
theorem conclude_alikeAt {d d' : Dispatch α β} (hproper : d.output.Proper)
    (h : d.AlikeAt d.session.buffer d') (last : Nat) :
    (conclude d' last).1 = (conclude d last).1 ∧ (conclude d' last).2.1 = (conclude d last).2.1
      ∧ (d.next ≠ .exit → Host.AlikeAt d.session.buffer (conclude d last).2.2 (conclude d' last).2.2) := by
  obtain ⟨output, next, session, host⟩ := d
  obtain ⟨output', next', session', host'⟩ := d'
  obtain ⟨rfl, rfl, rfl, hhost⟩ := h
  unfold conclude
  cases next' with
  | exit => exact ⟨rfl, rfl, fun hgoes => absurd rfl hgoes⟩
  | proceed =>
      have ha := hhost (by simp)
      simp only [report_eq _ _ _ hproper, ha.lineCount, ha.marks, true_and]
      exact fun _ => ha.modifyBuffer _
  | hold =>
      have ha := hhost (by simp)
      simp only [insertChunks_eq _ _ _ hproper, ha.lineCount, ha.marks, true_and]
      exact fun _ => ha.modifyBuffer _

/-- An operation has the same result on hosts that evaluations cannot tell apart and that agree on the buffer of its
session. -/
theorem operate_alikeAt (ha : Host.AlikeAt s.buffer host host') (op : Operation) :
    Operation.AlikeAt s.buffer (s.operate host op) (s.operate host' op) := by
  have hvalid : s.isAlive host' = s.isAlive host := ha.alike.hasBuffer s.buffer
  by_cases halive : s.isAlive host = true
  · have halive' := hvalid.trans halive
    cases op with
    | submit cursor =>
        obtain ⟨b, hget⟩ := Option.isSome_iff_exists.1 halive
        rw [operate_submit hget, operate_submit (ha.get?.trans hget)]
        have hanswer := answer_alikeAt ha cursor
        rw [← (s.frame_answer host cursor).buffer] at hanswer
        obtain ⟨hsubmission, hsession, hhost⟩ := conclude_alikeAt (s.proper_answer host cursor) hanswer
          (Statement.blockEnd s.marker b.lines cursor)
        rw [(s.frame_answer host cursor).buffer] at hhost
        exact ⟨congrArg Operation.Answer.submitted hsubmission, hsession,
          fun hquit => hhost (next_ne_exit_of_quit hquit)⟩
    | move cursor direction =>
        rw [operate_move halive, operate_move halive', recalled_of_alikeAt ha]
        exact ⟨rfl, rfl, fun _ => ha.modifyBuffer _⟩
    | breakLine line col =>
        rw [operate_breakLine halive, operate_breakLine halive', nearestLine_of_alikeAt ha, Host.lineAt, Host.lineAt,
          ha.lines]
        exact ⟨rfl, rfl, fun _ => ha.modifyBuffer _⟩
    | edit start stop lines => exact ⟨rfl, rfl, fun _ => ha.modifyBuffer _⟩
  · have hdead' : ¬ s.isAlive host' = true := by rwa [hvalid]
    cases op with
    | edit start stop lines => exact ⟨rfl, rfl, fun _ => ha.modifyBuffer _⟩
    | _ =>
        rw [operate_of_dead halive (by simp), operate_of_dead hdead' (by simp)]
        exact ⟨rfl, rfl, fun _ => ha⟩

end AlikeAt

end Session

end Transcript
