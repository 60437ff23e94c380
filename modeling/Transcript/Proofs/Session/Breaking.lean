import Transcript.Proofs.Buffer.Tail
import Transcript.Proofs.Session.Lived
import Transcript.Proofs.Statement.Insertion

/-!
Breaking a line of a statement. The part behind the break goes on as a continuation, so the statement has one more line
and the same text, as long as the part before the break goes on with the line above it where the whole line did. A
continuation line that is broken before its marker loses it: the statement ends above that line, and an empty line
heads the rest.
-/
namespace Transcript

/-- The text of a statement: its lines without their markers. -/
def bareText (marker : Char) (lines : List String) : String := String.join (lines.map (stripMarker marker))

variable {marker : Char}

theorem bareText_cons (marker : Char) (line : String) (lines : List String) :
    bareText marker (line :: lines) = stripMarker marker line ++ bareText marker lines := by
  simp [bareText]

theorem bareText_append (marker : Char) (lines more : List String) :
    bareText marker (lines ++ more) = bareText marker lines ++ bareText marker more := by
  simp [bareText]

/-! ### A broken line -/

/-- The two lines that a line gives way to when it is broken at a column. -/
def brokenAt (marker : Char) (col : Nat) (line : String) : List String :=
  [String.ofList (Text.cutAt col line.toList).1, String.ofList (marker :: (Text.cutAt col line.toList).2)]

/-- The break is before the marker of a continuation line, or inside it. -/
def BreaksMarker (marker : Char) (col : Nat) (line : String) : Prop :=
  isContinuation marker line = true ∧ col < marker.utf8Size

instance (marker : Char) (col : Nat) (line : String) : Decidable (BreaksMarker marker col line) :=
  inferInstanceAs (Decidable (_ ∧ _))

variable {col : Nat} {line : String}

theorem exists_eq_of_isContinuation (h : isContinuation marker line = true) :
    ∃ rest, line = String.ofList (marker :: rest) := by
  unfold isContinuation at h
  cases hline : line.toList with
  | nil => simp [hline] at h
  | cons c rest =>
      rw [hline] at h
      obtain rfl : c = marker := by simpa using h
      exact ⟨rest, by rw [← hline, String.ofList_toList]⟩

theorem stripMarker_ofList_cons (marker : Char) (rest : List Char) :
    stripMarker marker (String.ofList (marker :: rest)) = String.ofList rest := by
  simpa using stripMarker_cons marker (String.ofList rest)

/-- A line that is no continuation is broken into one that is none and its rest. -/
theorem isContinuation_before_of_not (h : isContinuation marker line = false) (col : Nat) :
    isContinuation marker (String.ofList (Text.cutAt col line.toList).1) = false := by
  unfold isContinuation at *
  rw [String.toList_ofList]
  cases hline : line.toList with
  | nil => simp [Text.cutAt]
  | cons c rest =>
      rw [hline] at h
      rw [Text.cutAt]
      split
      · exact h
      · rfl

/-- Off the marker, the part before the break keeps the marker. -/
theorem cutAt_of_not_breaksMarker {rest : List Char}
    (h : ¬ BreaksMarker marker col (String.ofList (marker :: rest))) :
    Text.cutAt col (marker :: rest)
      = (marker :: (Text.cutAt (col - marker.utf8Size) rest).1, (Text.cutAt (col - marker.utf8Size) rest).2) := by
  have hcol : marker.utf8Size ≤ col := Nat.not_lt.1 fun hlt => h ⟨isContinuation_cons marker rest, hlt⟩
  rw [Text.cutAt, if_pos hcol]

/-- Off the marker, the part before the break goes on with the line above it where the whole line did. -/
theorem isContinuation_before (h : ¬ BreaksMarker marker col line) :
    isContinuation marker (String.ofList (Text.cutAt col line.toList).1) = isContinuation marker line := by
  cases hline : isContinuation marker line with
  | false => exact isContinuation_before_of_not hline col
  | true =>
      obtain ⟨rest, rfl⟩ := exists_eq_of_isContinuation hline
      rw [String.toList_ofList, cutAt_of_not_breaksMarker h]
      exact isContinuation_cons marker _

/-- Off the marker, a break keeps the text of the line. -/
theorem bareText_brokenAt (h : ¬ BreaksMarker marker col line) :
    bareText marker (brokenAt marker col line) = stripMarker marker line := by
  have htext : bareText marker (brokenAt marker col line)
      = stripMarker marker (String.ofList (Text.cutAt col line.toList).1)
        ++ String.ofList (Text.cutAt col line.toList).2 := by
    rw [brokenAt, bareText_cons, bareText_cons, stripMarker_ofList_cons]
    simp [bareText]
  rw [htext]
  cases hline : isContinuation marker line with
  | false =>
      rw [stripMarker_of_not ((isContinuation_before h).trans hline), stripMarker_of_not hline, ← String.ofList_append,
        Text.cutAt_append, String.ofList_toList]
  | true =>
      obtain ⟨rest, rfl⟩ := exists_eq_of_isContinuation hline
      rw [String.toList_ofList, cutAt_of_not_breaksMarker h, stripMarker_ofList_cons, stripMarker_ofList_cons,
        ← String.ofList_append, Text.cutAt_append]

/-- A break of the marker leaves an empty line, and the whole line goes on behind a second marker. -/
theorem brokenAt_of_breaksMarker (h : BreaksMarker marker col line) :
    brokenAt marker col line = ["", String.ofList (marker :: line.toList)] := by
  obtain ⟨rest, rfl⟩ := exists_eq_of_isContinuation h.1
  rw [brokenAt, String.toList_ofList, Text.cutAt, if_neg (Nat.not_le.2 h.2)]

/-! ### A statement with a broken line -/

theorem bareText_replace (pre post : List String) {broken : List String}
    (h : bareText marker broken = stripMarker marker line) :
    bareText marker (pre ++ broken ++ post) = bareText marker (pre ++ line :: post) := by
  rw [bareText_append, bareText_append, bareText_append, bareText_cons, h, String.append_assoc]

/-- A statement stays one if one of its lines gives way to a line that goes on where it did, and continuations. -/
theorem IsStatement.replace {pre post more : List String} {head : String} (h : IsStatement marker (pre ++ line :: post))
    (hhead : isContinuation marker head = isContinuation marker line)
    (hmore : ∀ l ∈ more, isContinuation marker l = true) : IsStatement marker (pre ++ head :: more ++ post) := by
  obtain ⟨hline, hpost⟩ := isStatement_append_cons_iff.1 h
  rw [← hhead] at hline
  rw [List.append_assoc, List.cons_append]
  exact isStatement_append_cons_iff.2 ⟨hline, List.forall_mem_append.2 ⟨hmore, hpost⟩⟩

namespace Statement

variable {above below pre post lines : List String} {st : Statement}

/-- What stands below the break of `line`, between the lines `pre` and `post` of a statement: the statement with one
more line, or what the break of a marker leaves of it. -/
def breakLine (marker : Char) (col : Nat) (pre : List String) (line : String) (post : List String) (st : Statement) :
    Statement :=
  if BreaksMarker marker col line then
    { lines := brokenAt marker col line ++ post, first := st.first + pre.length, last := st.last + 1 }
  else { lines := pre ++ brokenAt marker col line ++ post, first := st.first, last := st.last + 1 }

theorem last_breakLine (marker : Char) (col : Nat) (pre : List String) (line : String) (post : List String)
    (st : Statement) : (st.breakLine marker col pre line post).last = st.last + 1 := by
  unfold breakLine
  split <;> rfl

theorem first_breakLine_le (marker : Char) (col : Nat) (pre : List String) (line : String) (post : List String)
    (st : Statement) : (st.breakLine marker col pre line post).first ≤ st.first + pre.length := by
  unfold breakLine
  split
  · exact le_rfl
  · exact Nat.le_add_right st.first pre.length

/-- What a break leaves of a statement stands between lines that do not go on with it. -/
theorem StandsIn.breakLine (h : StandsIn marker lines above below st) (hst : st.lines = pre ++ line :: post)
    (col : Nat) :
    ∃ above', StandsIn marker (above ++ pre ++ brokenAt marker col line ++ (post ++ below)) above' below
      (st.breakLine marker col pre line post) := by
  obtain ⟨-, hf, hl, hstatement, hbelow⟩ := h
  have hlast : st.last + 1 = above.length + (pre ++ brokenAt marker col line ++ post).length := by
    simp only [hl, hst, brokenAt, List.length_append, List.length_cons, List.length_nil]
    omega
  rw [hst] at hstatement
  have hafter := isContinuation_cons marker (Text.cutAt col line.toList).2
  unfold Statement.breakLine
  split
  next hbreaks =>
    -- The empty line ends the block above it, and is the first line of a statement.
    refine ⟨above ++ pre, by simp, ?_, ?_, ?_, hbelow⟩
    · simp only [hf, List.length_append]
      omega
    · simp only [hlast, List.length_append]
      omega
    · rw [brokenAt_of_breaksMarker hbreaks]
      refine ⟨"", String.ofList (marker :: line.toList) :: post, rfl, rfl, ?_⟩
      exact List.forall_mem_cons.2 ⟨isContinuation_cons marker _, (isStatement_append_cons_iff.1 hstatement).2⟩
  next hoff =>
    refine ⟨above, by simp, hf, hlast, ?_, hbelow⟩
    exact hstatement.replace (isContinuation_before hoff) (by simpa using hafter)

end Statement

namespace Session

variable {α β : Type} {s : Session α β} {host : Host} {cursor : Nat} {st : Statement}

/-- The line under the cursor is one of the statement there. -/
theorem exists_lineAt (halive : s.isAlive host = true) (hst : s.statement? host cursor = some st) :
    ∃ above pre post below, Statement.StandsIn s.marker (host.lines s.buffer) above below st
      ∧ st.lines = pre ++ host.lineAt s.buffer (s.nearestLine host cursor) :: post
      ∧ s.nearestLine host cursor = (above ++ pre).length + 1 := by
  obtain ⟨b, hget⟩ := Option.isSome_iff_exists.1 halive
  have hindex := nearestLine_eq hget cursor
  have hlt := Statement.cursorIndex_lt b.lines_ne_nil cursor
  generalize s.nearestLine host cursor = place at hindex ⊢
  have hplace : Statement.cursorIndex b.lines cursor = Statement.cursorIndex b.lines place := by
    unfold Statement.cursorIndex at *
    omega
  rw [statement?, Host.lines_of_get? hget, Statement.resolve?_congr hplace] at hst
  rw [Host.lineAt, Host.lines_of_get? hget]
  obtain ⟨⟨above, below, hstands⟩, hfirst, hlast⟩ := Statement.exists_standsIn (by omega) (by omega) hst
  rw [hstands.first] at hfirst
  rw [hstands.last] at hlast
  -- The line is the one with index `k` in the statement.
  obtain ⟨k, rfl⟩ : ∃ k, place = above.length + k + 1 := ⟨place - above.length - 1, by omega⟩
  have hk : k < st.lines.length := by omega
  have hline : b.lines[above.length + k + 1 - 1]?.getD "" = st.lines[k] := by
    rw [hstands.lines_eq, List.append_assoc, Nat.add_sub_cancel, List.getElem?_append_right (Nat.le_add_right _ _),
      Nat.add_sub_cancel_left, List.getElem?_append_left hk, List.getElem?_eq_getElem hk, Option.getD_some]
  refine ⟨above, st.lines.take k, st.lines.drop (k + 1), below, hstands, ?_, ?_⟩
  · rw [hline, ← List.drop_eq_getElem_cons hk, List.take_append_drop]
  · rw [List.length_append, List.length_take, Nat.min_eq_left hk.le]

theorem breakLine_eq (halive : s.isAlive host = true) (cursor col : Nat) :
    s.breakLine host cursor col
      = .ok (s.nearestLine host cursor + 1,
          host.setLines s.buffer (s.nearestLine host cursor - 1) (s.nearestLine host cursor)
            (brokenAt s.marker col (host.lineAt s.buffer (s.nearestLine host cursor)))) := by
  rw [breakLine, if_neg (by simp [halive])]
  rfl

/-- A break goes to the first line of what it leaves below. -/
theorem exists_breakLine (halive : s.isAlive host = true) (hst : s.statement? host cursor = some st) (col : Nat) :
    ∃ (host' : Host) (pre post : List String),
      let line := host.lineAt s.buffer (s.nearestLine host cursor)
      s.breakLine host cursor col = .ok (s.nearestLine host cursor + 1, host')
        ∧ st.lines = pre ++ line :: post ∧ st.first + pre.length = s.nearestLine host cursor
        ∧ s.statement? host' (s.nearestLine host cursor + 1) = some (st.breakLine s.marker col pre line post) := by
  obtain ⟨above, pre, post, below, hstands, hsplit, hplace⟩ := exists_lineAt halive hst
  obtain ⟨b, hget⟩ := Option.isSome_iff_exists.1 halive
  have hfirst : st.first + pre.length = s.nearestLine host cursor := by
    rw [hstands.first, hplace, List.length_append]
    omega
  refine ⟨_, pre, post, breakLine_eq halive cursor col, hsplit, hfirst, ?_⟩
  generalize s.nearestLine host cursor = place, host.lineAt s.buffer (s.nearestLine host cursor) = line
    at hsplit hplace hfirst ⊢
  obtain ⟨above', hstands'⟩ := hstands.breakLine hsplit col
  have hlast : place ≤ st.last := by
    rw [hstands.last, hplace, hsplit, List.length_append, List.length_append, List.length_cons]
    omega
  have habove : place - 1 = (above ++ pre).length := by omega
  have hupto : place = (above ++ pre ++ [line]).length := by
    simp only [hplace, List.length_append, List.length_singleton]
  have hold : b.lines = above ++ pre ++ [line] ++ (post ++ below) := by
    have hlines := hstands.lines_eq
    rw [Host.lines_of_get? hget, hsplit] at hlines
    simp [hlines]
  have hnew : (host.setLines s.buffer (place - 1) place (brokenAt s.marker col line)).lines s.buffer
      = above ++ pre ++ brokenAt s.marker col line ++ (post ++ below) := by
    rw [Host.setLines, Host.lines_of_get? (Host.get?_modifyBuffer hget _), habove, hupto]
    exact Buffer.lines_replace hold (by simp [brokenAt])
  rw [statement?, hnew]
  refine hstands'.resolve?_eq ?_ ?_
  · have hle := Statement.first_breakLine_le s.marker col pre line post st
    omega
  · rw [Statement.last_breakLine]
    omega

/-- **A break keeps the statement exactly if it keeps the marker of the line.** The line that it goes to belongs to a
statement that starts where the one with the broken line did, and has the same text. A break before the marker of a
continuation, or inside it, leaves no such statement. -/
theorem breakLine_keeps_statement_iff (halive : s.isAlive host = true) (hst : s.statement? host cursor = some st)
    (col : Nat) :
    ∃ host', s.breakLine host cursor col = .ok (s.nearestLine host cursor + 1, host')
      ∧ ((∃ st', s.statement? host' (s.nearestLine host cursor + 1) = some st' ∧ st'.first = st.first
            ∧ bareText s.marker st'.lines = bareText s.marker st.lines)
          ↔ ¬ BreaksMarker s.marker col (host.lineAt s.buffer (s.nearestLine host cursor))) := by
  obtain ⟨host', pre, post, hbreak, hsplit, hfirst, hst'⟩ := exists_breakLine halive hst col
  refine ⟨host', hbreak, ?_⟩
  generalize host.lineAt s.buffer (s.nearestLine host cursor) = line at hsplit hst' ⊢
  constructor
  · rintro ⟨st', hresolved, hsame, -⟩ hbreaks
    obtain rfl := Option.some.inj (hst'.symm.trans hresolved)
    -- The line heads what stands at the break, so it would head the statement that it goes on with.
    rw [Statement.breakLine, if_pos hbreaks] at hsame
    obtain rfl : pre = [] := List.eq_nil_of_length_eq_zero (Nat.left_eq_add.1 hsame.symm)
    have hstatement := isStatement_of_statement? halive hst
    rw [hsplit] at hstatement
    rcases (isStatement_append_cons_iff.1 hstatement).1 with ⟨-, hhead⟩ | ⟨hnil, -⟩
    · rw [hbreaks.1] at hhead
      cases hhead
    · exact hnil.ne_nil rfl
  · intro hoff
    refine ⟨_, hst', ?_, ?_⟩
    · rw [Statement.breakLine, if_neg hoff]
    · rw [Statement.breakLine, if_neg hoff, hsplit]
      exact bareText_replace pre post (bareText_brokenAt hoff)

/-- A continuation line that is broken behind its marker, and before it. -/
theorem breakLine_keeps_statement_behind_marker :
    let s := StandardSession.new 1 {}
    let host := Host.new.setLines 1 0 1 ["echo 1", "\\+ 2"]
    (∃ host', s.breakLine host 2 1 = .ok (3, host')
      ∧ ∃ st', s.statement? host' 3 = some st' ∧ st'.first = 1 ∧ bareText s.marker st'.lines = "echo 1+ 2")
    ∧ ∃ host', s.breakLine host 2 0 = .ok (3, host')
      ∧ ¬ ∃ st', s.statement? host' 3 = some st' ∧ st'.first = 1 ∧ bareText s.marker st'.lines = "echo 1+ 2" := by
  intro s host
  have hst : s.statement? host 2 = some ⟨["echo 1", "\\+ 2"], 1, 2⟩ := by rfl
  obtain ⟨behind, hbehind, hkeeps⟩ := breakLine_keeps_statement_iff (by rfl) hst 1
  obtain ⟨before, hbefore, hloses⟩ := breakLine_keeps_statement_iff (by rfl) hst 0
  exact ⟨⟨behind, hbehind, hkeeps.2 (by decide)⟩, before, hbefore, fun hkept => hloses.1 hkept (by decide)⟩

end Session

end Transcript
