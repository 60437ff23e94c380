import Transcript.Console
import Transcript.Proofs.Buffer.Tail
import Transcript.Proofs.Session.Lived

/-!
Walking back through the history and forward again. The entries of a session are statements, so the entry that a move
leaves in the buffer is what the next move resolves and replaces, down to the lines that do not go on with it. The
walk gives back the lines that it began with, except where it began on a continuation that belongs to no statement:
such a line is replaced alone, the continuations below it go on with the entry, and they leave with it.
-/
namespace Transcript

namespace Session

variable {α β : Type}

/-! ### Entries are statements -/

def RecallsStatements (s : Session α β) : Prop := ∀ entry ∈ s.history.entries, IsStatement s.marker entry

theorem Lived.recallsStatements [Evaluator α] [Evaluator β] {s : Session α β} (h : s.Lived) :
    s.RecallsStatements := by
  intro entry hentry
  exact (h.orderly.recorded entry hentry).1

/-! ### Single moves -/

/-- Moves through the history, each at the cursor that the one before gives. -/
def recallMoves (s : Session α β) (host : Host) (cursor : Nat) :
    List Direction → Except Failure (Nat × Session α β × Host)
  | [] => .ok (cursor, s, host)
  | direction :: rest =>
    match s.recallMove host cursor direction with
    | .error f => .error f
    | .ok (cursor, s, host) => s.recallMoves host cursor rest

/-- The session with another entry shown, or with none. -/
def withShown (s : Session α β) (shown : Option Recall) : Session α β :=
  { s with history := { s.history with shown := shown } }

theorem withShown_self {s : Session α β} {shown : Option Recall} (h : s.history.shown = shown) :
    s.withShown shown = s := by
  subst h
  rfl

variable {s s' : Session α β} {host host' : Host} {cursor cursor' : Nat}

theorem recallMoves_cons {direction : Direction} (h : s.recallMove host cursor direction = .ok (cursor', s', host'))
    (rest : List Direction) : s.recallMoves host cursor (direction :: rest) = s'.recallMoves host' cursor' rest := by
  rw [recallMoves, h]

theorem recallMoves_append {front : List Direction} (h : s.recallMoves host cursor front = .ok (cursor', s', host'))
    (rest : List Direction) : s.recallMoves host cursor (front ++ rest) = s'.recallMoves host' cursor' rest := by
  induction front generalizing s host cursor with
  | nil =>
      cases h
      rfl
  | cons direction front ih =>
      rw [recallMoves] at h
      rw [List.cons_append, recallMoves]
      split at h
      · cases h
      next hmove => exact ih h

/-- A walk back, by what one move does to a recall that shows the entry with index `i`. Induction on the number of moves;
the oldest entry is where going back ends. -/
theorem exists_recallMoves_back {edit : Lines} {Q : Session α β → Host → Nat → Nat → Prop}
    (hshown : ∀ {s : Session α β} {host : Host} {cursor i : Nat}, Q s host cursor i →
      s.history.shown = some ⟨i, edit⟩)
    (hback : ∀ {s : Session α β} {host : Host} {cursor i : Nat}, Q s host cursor i →
      ∃ cursor' host', s.recallMove host cursor .backward = .ok (cursor', s.withShown (some ⟨i - 1, edit⟩), host')
        ∧ Q (s.withShown (some ⟨i - 1, edit⟩)) host' cursor' (i - 1))
    {i : Nat} (h : Q s host cursor i) (n : Nat) :
    ∃ cursor' host',
      s.recallMoves host cursor (List.replicate n .backward) = .ok (cursor', s.withShown (some ⟨i - n, edit⟩), host')
        ∧ Q (s.withShown (some ⟨i - n, edit⟩)) host' cursor' (i - n) := by
  induction n generalizing s host cursor i with
  | zero =>
      rw [Nat.sub_zero, withShown_self (hshown h)]
      exact ⟨cursor, host, rfl, h⟩
  | succ n ih =>
      obtain ⟨cursor', host', hok, h'⟩ := hback h
      rw [List.replicate_succ, recallMoves_cons hok, Nat.add_comm n 1, ← Nat.sub_sub]
      exact ih h'

/-- A move replaces the lines under the cursor by those that the history gives, and goes to the last of them. -/
theorem exists_recallMove (halive : s.isAlive host = true) {above old below new : List String} {direction : Direction}
    {shown : Option Recall} (hrecalled : s.recalled host cursor = ⟨old, above.length + 1, (above ++ old).length⟩)
    (hlines : host.lines s.buffer = above ++ old ++ below)
    (hmove : s.history.move direction old = (new, { s.history with shown := shown })) (hne : new ≠ []) :
    ∃ host', s.recallMove host cursor direction = .ok ((above ++ new).length, s.withShown shown, host')
      ∧ s.isAlive host' = true ∧ host'.lines s.buffer = above ++ new ++ below := by
  obtain ⟨b, hget⟩ := Option.isSome_iff_exists.1 halive
  rw [Host.lines_of_get? hget] at hlines
  have hget' := Host.get?_modifyBuffer hget fun b => b.splice above.length (above ++ old).length new
  refine ⟨_, ?_, Host.hasBuffer_of_get? hget', ?_⟩
  · have hpos := List.length_pos_iff.2 hne
    have hcursor : above.length + 1 + max new.length 1 - 1 = (above ++ new).length := by
      rw [List.length_append]
      omega
    rw [recallMove, if_neg (by simp [halive])]
    simp only [hrecalled, hmove, hcursor, Nat.add_sub_cancel]
    rfl
  · rw [Host.lines_of_get? hget']
    exact Buffer.lines_replace hlines (by simp [hne])

/-! ### A recall in progress -/

/-- The entry with index `i` is shown instead of the lines `edit`. The cursor is in a statement, and it stands between
the lines `above` and `below`. -/
structure Recalling (s : Session α β) (host : Host) (cursor : Nat) (above below edit : List String) (i : Nat) :
    Prop where
  alive : s.isAlive host = true
  stands : ∃ upto behind, Statement.Splits s.marker (host.lines s.buffer) cursor above upto behind below
    ∧ IsStatement s.marker upto
  shown : s.history.shown = some ⟨i, edit⟩
  index : i < s.history.size
  entries : s.RecallsStatements

variable {above below edit : List String} {i : Nat}

/-- The lines that the next move replaces. -/
theorem Recalling.recalled (h : s.Recalling host cursor above below edit i) :
    ∃ old, s.recalled host cursor = ⟨old, above.length + 1, (above ++ old).length⟩
      ∧ host.lines s.buffer = above ++ old ++ below ∧ IsStatement s.marker old ∧ EndsBlock s.marker below := by
  obtain ⟨upto, behind, hsplits, hupto⟩ := h.stands
  refine ⟨upto ++ behind, ?_, ?_, hupto.append hsplits.behind, hsplits.below⟩
  · have hstatement := hsplits.resolve?_eq hupto
    rw [Session.recalled, statement?, hstatement, List.append_assoc]
  · rw [hsplits.lines_eq, List.append_assoc above, List.append_assoc above, List.append_assoc upto]

/-- A statement that a move leaves in the buffer stands where the next move finds it. -/
theorem Recalling.of_statement {new behind : List String} (halive : s.isAlive host = true)
    (hlines : host.lines s.buffer = above ++ new ++ (behind ++ below)) (hnew : IsStatement s.marker new)
    (hbehind : ∀ line ∈ behind, isContinuation s.marker line = true) (hbelow : EndsBlock s.marker below)
    (hindex : i < s.history.size) (hentries : s.RecallsStatements) :
    (s.withShown (some ⟨i, edit⟩)).Recalling host (above ++ new).length above below edit i where
  alive := halive
  stands := by
    refine ⟨new, behind, ?_, hnew⟩
    show Statement.Splits s.marker (host.lines s.buffer) _ above new behind below
    rw [hlines]
    exact Statement.splits_at_end hnew.ne_nil hbehind hbelow
  shown := rfl
  index := hindex
  entries := hentries

theorem Recalling.of_lone_statement {new : List String} (halive : s.isAlive host = true)
    (hlines : host.lines s.buffer = above ++ new ++ below) (hnew : IsStatement s.marker new)
    (hbelow : EndsBlock s.marker below) (hindex : i < s.history.size) (hentries : s.RecallsStatements) :
    (s.withShown (some ⟨i, edit⟩)).Recalling host (above ++ new).length above below edit i := by
  have hnothing : ∀ line ∈ ([] : List String), isContinuation s.marker line = true := by simp
  have hlines' : host.lines s.buffer = above ++ new ++ ([] ++ below) := hlines
  exact .of_statement halive hlines' hnew hnothing hbelow hindex hentries

theorem RecallsStatements.showEntry (h : s.RecallsStatements) (hi : i < s.history.size) (edit : Lines) :
    IsStatement s.marker (s.history.showEntry i edit).1 :=
  h _ (List.mem_of_getElem? (History.getElem?_showEntry hi edit))

theorem Recalling.move (h : s.Recalling host cursor above below edit i) {direction : Direction} {j : Nat}
    (hj : j < s.history.size)
    (hmove : ∀ current, s.history.move direction current = s.history.showEntry j edit) :
    ∃ cursor' host', s.recallMove host cursor direction = .ok (cursor', s.withShown (some ⟨j, edit⟩), host')
      ∧ (s.withShown (some ⟨j, edit⟩)).Recalling host' cursor' above below edit j := by
  obtain ⟨old, hrecalled, hlines, -, hbelow⟩ := h.recalled
  have hentry := h.entries.showEntry hj edit
  obtain ⟨host', hok, halive', hlines'⟩ := exists_recallMove h.alive hrecalled hlines (hmove old) hentry.ne_nil
  exact ⟨_, host', hok, .of_lone_statement halive' hlines' hentry hbelow hj h.entries⟩

theorem Recalling.back_at_oldest (h : s.Recalling host cursor above below edit 0) :
    ∃ cursor' host', s.recallMove host cursor .backward = .ok (cursor', s.withShown (some ⟨0, edit⟩), host')
      ∧ (s.withShown (some ⟨0, edit⟩)).Recalling host' cursor' above below edit 0 := by
  obtain ⟨old, hrecalled, hlines, hold, hbelow⟩ := h.recalled
  have hmove : s.history.move .backward old = (old, { s.history with shown := some ⟨0, edit⟩ }) := by
    rw [History.move_backward_of_oldest old h.shown, ← h.shown]
  obtain ⟨host', hok, halive', hlines'⟩ := exists_recallMove h.alive hrecalled hlines hmove hold.ne_nil
  exact ⟨_, host', hok, .of_lone_statement halive' hlines' hold hbelow h.index h.entries⟩

theorem Recalling.back (h : s.Recalling host cursor above below edit i) :
    ∃ cursor' host', s.recallMove host cursor .backward = .ok (cursor', s.withShown (some ⟨i - 1, edit⟩), host')
      ∧ (s.withShown (some ⟨i - 1, edit⟩)).Recalling host' cursor' above below edit (i - 1) := by
  cases i with
  | zero => exact h.back_at_oldest
  | succ i => exact h.move (Nat.lt_of_succ_lt h.index) fun current => History.move_backward_of_entry current h.shown

theorem Recalling.forth (h : s.Recalling host cursor above below edit i) (hi : i + 1 < s.history.size) :
    ∃ cursor' host', s.recallMove host cursor .forward = .ok (cursor', s.withShown (some ⟨i + 1, edit⟩), host')
      ∧ (s.withShown (some ⟨i + 1, edit⟩)).Recalling host' cursor' above below edit (i + 1) :=
  h.move hi fun current => History.move_forward_of_entry current h.shown hi

/-- Going forward from the newest entry ends the recall, and puts the edit in place of the statement. -/
theorem Recalling.leave (h : s.Recalling host cursor above below edit i) (hi : i + 1 = s.history.size)
    (hedit : edit ≠ []) :
    ∃ cursor' host', s.recallMove host cursor .forward = .ok (cursor', s.withShown none, host')
      ∧ host'.lines s.buffer = above ++ edit ++ below := by
  obtain ⟨old, hrecalled, hlines, -, -⟩ := h.recalled
  obtain ⟨host', hok, -, hlines'⟩ :=
    exists_recallMove h.alive hrecalled hlines (History.move_forward_of_newest old h.shown hi) hedit
  exact ⟨_, host', hok, hlines'⟩

/-! ### Walks -/

theorem Recalling.walk_back (h : s.Recalling host cursor above below edit i) (n : Nat) :
    ∃ cursor' host',
      s.recallMoves host cursor (List.replicate n .backward) = .ok (cursor', s.withShown (some ⟨i - n, edit⟩), host')
        ∧ (s.withShown (some ⟨i - n, edit⟩)).Recalling host' cursor' above below edit (i - n) :=
  exists_recallMoves_back Recalling.shown Recalling.back h n

/-- Induction on the number of moves, the last of which leaves the newest entry. -/
theorem Recalling.walk_forth (h : s.Recalling host cursor above below edit i) (hedit : edit ≠ []) {n : Nat}
    (hn : i + n = s.history.size) :
    ∃ cursor' host',
      s.recallMoves host cursor (List.replicate n .forward) = .ok (cursor', s.withShown none, host')
        ∧ host'.lines s.buffer = above ++ edit ++ below := by
  induction n generalizing s host cursor i with
  | zero => exact absurd h.index (by omega)
  | succ n ih =>
      rw [List.replicate_succ]
      by_cases hlast : i + 1 = s.history.size
      · obtain ⟨cursor', host', hok, hlines⟩ := h.leave hlast hedit
        obtain rfl : n = 0 := by omega
        exact ⟨cursor', host', recallMoves_cons hok _, hlines⟩
      · obtain ⟨cursor', host', hok, h'⟩ := h.forth (by have hi := h.index; omega)
        rw [recallMoves_cons hok]
        exact ih h' (show i + 1 + n = s.history.size by omega)

/-! ### The first move -/

/-- The cursor stands where a recall is to begin. The first move replaces the lines `edit`: the statement under the
cursor with all its lines, or a line that belongs to none. The continuations `behind` are those that it leaves below
them. -/
structure AtEdit (s : Session α β) (host : Host) (cursor : Nat) (above edit behind below : List String) : Prop where
  recalled : s.recalled host cursor = ⟨edit, above.length + 1, (above ++ edit).length⟩
  lines : host.lines s.buffer = above ++ edit ++ (behind ++ below)
  ne_nil : edit ≠ []
  blockEnd : Statement.blockEnd s.marker (host.lines s.buffer) cursor = (above ++ edit ++ behind).length
  leavesNone : behind = [] ↔ (s.statement? host cursor).isSome = true
    ∨ Statement.continuationsBelow s.marker (host.lines s.buffer)
        (Statement.cursorIndex (host.lines s.buffer) cursor) = 0
  behind : ∀ line ∈ behind, isContinuation s.marker line = true
  below : EndsBlock s.marker below

theorem atEdit_of_statement {above upto behind below : List String}
    (hsplits : Statement.Splits s.marker (host.lines s.buffer) cursor above upto behind below)
    (hupto : IsStatement s.marker upto) : s.AtEdit host cursor above (upto ++ behind) [] below := by
  have hstatement : s.statement? host cursor = _ := hsplits.resolve?_eq hupto
  refine ⟨?_, ?_, ?_, ?_, ?_, by simp, hsplits.below⟩
  · rw [Session.recalled, hstatement, List.append_assoc]
  · rw [hsplits.lines_eq]
    simp
  · simp [hupto.ne_nil]
  · rw [hsplits.blockEnd_eq]
    simp
  · simp [hstatement]

theorem atEdit_of_headless {b : Buffer} (hget : host.buffers.get? s.buffer = some b)
    (hheadless : ∀ line ∈ b.lines.take (Statement.cursorIndex b.lines cursor + 1),
      isContinuation s.marker line = true) :
    ∃ above edit behind below, s.AtEdit host cursor above edit behind below := by
  have hlines := Host.lines_of_get? hget
  have hlt := Statement.cursorIndex_lt b.lines_ne_nil cursor
  have hnone : s.statement? host cursor = none := by
    rw [statement?, hlines]
    exact Statement.resolve?_of_headless b.lines_ne_nil hheadless
  have hnearest := nearestLine_eq hget cursor
  generalize hi : Statement.cursorIndex b.lines cursor = i at hlt hnearest
  have htake := List.take_succ_eq_append_getElem hlt
  have hlength : (b.lines.take i).length = i := by
    rw [List.length_take]
    exact Nat.min_eq_left hlt.le
  have hslice : host.slice s.buffer i (i + 1) = [b.lines[i]] := by
    rw [Host.slice, hget, Option.map_some, Option.getD_some, Buffer.slice, htake]
    exact List.drop_left' hlength
  have hsplits := Statement.splits_of_take b.lines_ne_nil (by rw [hi]; exact htake) s.marker
  refine ⟨b.lines.take i, [b.lines[i]], _, _, ?_, ?_, by simp, ?_, ?_, hsplits.behind, hsplits.below⟩
  · rw [Session.recalled, hnone, hnearest, List.length_append, hlength]
    simp only [Nat.add_sub_cancel, hslice]
    rfl
  · rw [hlines]
    exact hsplits.lines_eq
  · rw [hlines]
    exact hsplits.blockEnd_eq
  · rw [hnone, hlines, hsplits.continuationsBelow_eq]
    simp

theorem exists_atEdit (halive : s.isAlive host = true) (cursor : Nat) :
    ∃ above edit behind below, s.AtEdit host cursor above edit behind below := by
  obtain ⟨b, hget⟩ := Option.isSome_iff_exists.1 halive
  have hlines := Host.lines_of_get? hget
  rcases Statement.exists_statement_or_headless s.marker b.lines_ne_nil cursor with
    ⟨above, upto, behind, below, hsplits, hupto⟩ | hheadless
  · rw [← hlines] at hsplits
    exact ⟨above, _, _, below, atEdit_of_statement hsplits hupto⟩
  · exact atEdit_of_headless hget hheadless

theorem AtEdit.back {behind : List String} (h : s.AtEdit host cursor above edit behind below)
    (halive : s.isAlive host = true) (hshown : s.history.shown = none) (hsize : 0 < s.history.size)
    (hentries : s.RecallsStatements) :
    ∃ cursor' host',
      s.recallMove host cursor .backward = .ok (cursor', s.withShown (some ⟨s.history.size - 1, edit⟩), host')
        ∧ (s.withShown (some ⟨s.history.size - 1, edit⟩)).Recalling host' cursor' above below edit
            (s.history.size - 1) := by
  have hnewest : s.history.size - 1 < s.history.size := Nat.sub_one_lt_of_lt hsize
  have hentry := hentries.showEntry hnewest edit
  obtain ⟨host', hok, halive', hlines'⟩ := exists_recallMove halive h.recalled h.lines
    (History.move_backward_of_edit edit hshown (Nat.sub_add_cancel hsize)) hentry.ne_nil
  exact ⟨_, host', hok, .of_statement halive' hlines' hentry h.behind h.below hnewest hentries⟩

/-- **A walk back and forth restores the buffer exactly where it began in a statement**, or on a line with no
continuations below it. Otherwise it loses these continuations. -/
theorem recallMoves_back_and_forth [Evaluator α] [Evaluator β] (hlived : s.Lived) (halive : s.isAlive host = true)
    (hedit : s.history.isRecalling = false) (hentries : s.history.size ≠ 0) (cursor : Nat) {n : Nat} (hn : 1 ≤ n) :
    ∃ cursor' host',
      s.recallMoves host cursor
          (List.replicate n .backward ++ List.replicate (min n s.history.size) .forward) = .ok (cursor', s, host')
        ∧ host'.lines s.buffer
            = (host.lines s.buffer).take (s.recalled host cursor).last
              ++ (host.lines s.buffer).drop (Statement.blockEnd s.marker (host.lines s.buffer) cursor)
        ∧ (host'.lines s.buffer = host.lines s.buffer
            ↔ (s.statement? host cursor).isSome = true
              ∨ Statement.continuationsBelow s.marker (host.lines s.buffer)
                  (Statement.cursorIndex (host.lines s.buffer) cursor) = 0) := by
  obtain ⟨above, edit, behind, below, h⟩ := exists_atEdit halive cursor
  have hshown : s.history.shown = none := by simpa [History.isRecalling] using hedit
  obtain ⟨m, rfl⟩ : ∃ m, n = m + 1 := ⟨n - 1, by omega⟩
  obtain ⟨cursor₁, host₁, hfirst, h₁⟩ :=
    h.back halive hshown (Nat.pos_of_ne_zero hentries) hlived.recallsStatements
  obtain ⟨cursor₂, host₂, hback, h₂⟩ := h₁.walk_back m
  have hmoves : s.history.size - 1 - m + min (m + 1) s.history.size = s.history.size := by omega
  obtain ⟨cursor', host', hforth, hlines⟩ := h₂.walk_forth h.ne_nil hmoves
  -- What is shown is all that the moves change of the session, and no entry is shown in the end.
  have hsession : s.withShown none = s := withShown_self hshown
  change host'.lines s.buffer = _ at hlines
  refine ⟨cursor', host', ?_, ?_, ?_⟩
  · rw [List.replicate_succ, List.cons_append, recallMoves_cons hfirst, recallMoves_append hback, hforth]
    exact congrArg (fun s => Except.ok (cursor', s, host')) hsession
  · rw [hlines, h.recalled, h.blockEnd, h.lines, ← List.append_assoc, List.drop_left,
      List.append_assoc (above ++ edit), List.take_left]
  · rw [← h.leavesNone, hlines, h.lines, List.append_right_inj]
    simp

/-- A host with two continuations in its buffer. -/
def headlessHost : Host :=
  { Host.new with buffers := Table.empty.insert 1 (Buffer.ofLines ["\\a", "\\b"]) }

/-- A session that has `/w` in its history. -/
def headlessSession : StandardSession :=
  { StandardSession.new 1 {} with
    history := (History.new History.defaultCapacity).append ["/w"]
    nextMark := 2 }

theorem lived_headlessSession : headlessSession.Lived := by
  have hstart : (StandardSession.new 1 {}).Lived := .start 1 {} _ _
  have hsession : ((StandardSession.new 1 {}).submit (Host.new.setLines 1 0 1 ["/w"]) 1).toOption.map (·.2.1)
      = some headlessSession := by rfl
  cases hsubmit : (StandardSession.new 1 {}).submit (Host.new.setLines 1 0 1 ["/w"]) 1 with
  | error f =>
      rw [hsubmit] at hsession
      cases hsession
  | ok r =>
      rw [hsubmit] at hsession
      rw [← Option.some.inj hsession]
      exact hstart.submit hsubmit

/-- One move back and one forward on the first continuation lose the second one. -/
theorem recallMoves_back_and_forth_headless :
    ∃ cursor' host',
      headlessSession.recallMoves headlessHost 1 [.backward, .forward] = .ok (cursor', headlessSession, host')
        ∧ host'.lines 1 = ["\\a"] ∧ headlessHost.lines 1 = ["\\a", "\\b"] := by
  have halive : headlessSession.isAlive headlessHost = true := by rfl
  have hentries : headlessSession.history.size ≠ 0 := by decide
  obtain ⟨cursor', host', hok, hlines, -⟩ :=
    recallMoves_back_and_forth lived_headlessSession halive (by rfl) hentries 1 (le_refl 1)
  exact ⟨cursor', host', hok, hlines.trans (by rfl), by rfl⟩

end Session

end Transcript
