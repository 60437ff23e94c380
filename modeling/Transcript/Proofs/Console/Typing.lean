import Transcript.Console
import Transcript.Proofs.Buffer.Tail
import Transcript.Proofs.Host
import Transcript.Proofs.Text

/-!
A console while a statement is typed. The lines above the statement are done with, and the pieces typed so far
end the buffer: the first one as it was typed, the others behind the marker. The cursor is on the last line,
whose piece is still empty. Every mark starts above the statement and ends above the cursor.
-/
namespace Transcript

/-! ### The lines of a statement -/

/-- A piece as a line of the buffer, behind the pieces `typed` before it. -/
def pieceLine (marker : Char) (typed : List String) (piece : String) : String :=
  if typed = [] then piece else String.ofList (marker :: piece.toList)

/-- Pieces as lines of the buffer: the first as typed, the others behind the marker. -/
def statementLines (marker : Char) : List String → List String
  | [] => []
  | first :: rest => first :: rest.map fun piece => String.ofList (marker :: piece.toList)

theorem statementLines_concat (marker : Char) (typed : List String) (piece : String) :
    statementLines marker (typed ++ [piece]) = statementLines marker typed ++ [pieceLine marker typed piece] := by
  cases typed with
  | nil => rfl
  | cons first rest => simp [statementLines, pieceLine]

@[simp] theorem length_statementLines (marker : Char) (pieces : List String) :
    (statementLines marker pieces).length = pieces.length := by
  cases pieces <;> simp [statementLines]

/-- Typing at the end of the empty piece. -/
theorem toList_pieceLine (marker : Char) (typed : List String) (body : List Char) :
    (pieceLine marker typed "").toList ++ body
      = (pieceLine marker typed (String.ofList body)).toList := by
  unfold pieceLine
  split <;> simp

namespace Console

/-! ### The states of a console -/

/-- The marks of a console: each starts among the `done` lines and ends above the cursor. -/
def MarksAbove (marks : List Mark) (done cursor : Nat) : Prop :=
  ∀ m ∈ marks, 1 ≤ m.first ∧ m.first ≤ done ∧ m.first ≤ m.last ∧ m.last < cursor

/-- The buffer of a console ends with the pieces `typed` and a last piece on the cursor line. -/
structure Holds (c : Console) (b : Buffer) (above typed : List String) (piece : String) : Prop where
  get : c.host.buffers.get? c.session.buffer = some b
  start : c.start = above.length + 1
  cursor : c.cursor = above.length + typed.length + 1
  lines : b.lines = above ++ statementLines c.session.marker typed ++ [pieceLine c.session.marker typed piece]
  marks : MarksAbove b.marks above.length c.cursor

/-- The console waits for the next piece. -/
abbrev Typing (c : Console) (b : Buffer) (above typed : List String) : Prop := c.Holds b above typed ""

theorem typing_new (settings : Settings) : (Console.new settings).Typing (Buffer.ofLines []) [] [] where
  get := rfl
  start := rfl
  cursor := rfl
  lines := rfl
  marks := by
    intro m hm
    cases hm

theorem MarksAbove.mono {marks : List Mark} {done cursor cursor' : Nat} (h : MarksAbove marks done cursor)
    (hcursor : cursor ≤ cursor') : MarksAbove marks done cursor' := by
  intro m hm
  obtain ⟨hone, hfirst, hle, hlast⟩ := h m hm
  exact ⟨hone, hfirst, hle, Nat.lt_of_lt_of_le hlast hcursor⟩

/-- Marks that are cut at the line above the cursor line still end above it. -/
theorem MarksAbove.endingAt {marks : List Mark} {done cursor last : Nat} (h : MarksAbove marks done cursor)
    (hdone : done ≤ last) (hlast : last < cursor) : MarksAbove (marks.map (·.endingAt last)) done cursor := by
  intro m hm
  obtain ⟨old, hold, rfl⟩ := List.mem_map.1 hm
  obtain ⟨hone, hfirst, -, -⟩ := h old hold
  exact ⟨hone, hfirst, Nat.le_trans hfirst hdone, hlast⟩

namespace Holds

variable {c : Console} {b : Buffer} {above typed : List String} {piece : String}

theorem length_lines (h : c.Holds b above typed piece) : b.lines.length = c.cursor := by
  rw [h.lines, h.cursor]
  simp [Nat.add_assoc]

theorem length_before (h : c.Holds b above typed piece) :
    (above ++ statementLines c.session.marker typed).length = c.cursor - 1 := by
  rw [h.cursor]
  simp

theorem lineAt_cursor (h : c.Holds b above typed piece) :
    c.host.lineAt c.session.buffer c.cursor = pieceLine c.session.marker typed piece := by
  rw [Host.lineAt, Host.lines_of_get? h.get, h.lines, ← h.length_before]
  simp

/-- Replacing the cursor line cuts every mark at the line above it. -/
theorem splice_cursor (h : c.Holds b above typed piece) (new : List String) (hnew : new ≠ []) :
    (b.splice (c.cursor - 1) c.cursor new).lines = above ++ statementLines c.session.marker typed ++ new
      ∧ (b.splice (c.cursor - 1) c.cursor new).marks = b.marks.map (·.endingAt (c.cursor - 1)) := by
  have hmarks : ∀ m ∈ b.marks, m.first ≤ (above ++ statementLines c.session.marker typed).length
      ∧ m.last ≤ b.lines.length := by
    intro m hm
    obtain ⟨-, hfirst, -, hlast⟩ := h.marks m hm
    rw [h.length_lines, List.length_append]
    exact ⟨by omega, by omega⟩
  rw [← h.length_before, ← h.length_lines]
  exact ⟨Buffer.lines_replaceTail h.lines hnew, Buffer.marks_replaceTail h.lines (by simp) new hmarks⟩

/-! ### Typing, breaking and cancelling -/

theorem type (h : c.Typing b above typed) (body : List Char) :
    ∃ b', (c.type body).1.Holds b' above typed (String.ofList body)
      ∧ (c.type body).2 = (pieceLine c.session.marker typed (String.ofList body)).toList
      ∧ b'.marks = b.marks.map (·.endingAt (c.cursor - 1))
      ∧ c.host.Alike (c.type body).1.host := by
  have hline : (c.host.lineAt c.session.buffer c.cursor).toList ++ body
      = (pieceLine c.session.marker typed (String.ofList body)).toList := by
    rw [h.lineAt_cursor, toList_pieceLine]
  obtain ⟨hlines, hmarks⟩ :=
    h.splice_cursor [pieceLine c.session.marker typed (String.ofList body)] (by simp)
  have habove : c.cursor - 1 < c.cursor ∧ above.length ≤ c.cursor - 1 := by
    have hcursor := h.cursor
    omega
  refine ⟨_, ⟨Host.get?_modifyBuffer h.get _, h.start, h.cursor, ?_, ?_⟩, hline, ?_,
    c.host.alike_modifyBuffer _ _⟩
  · simp only [hline, String.ofList_toList]
    exact hlines
  · simp only [hline, String.ofList_toList]
    rw [hmarks]
    exact h.marks.endingAt habove.2 habove.1
  · simp only [hline, String.ofList_toList]
    exact hmarks

theorem breakLine (h : c.Holds b above typed piece) :
    ∃ host b', c.session.breakLine c.host c.cursor
        (Text.byteLength (pieceLine c.session.marker typed piece).toList) = .ok (c.cursor + 1, host)
      ∧ { c with host := host, cursor := c.cursor + 1 }.Typing b' above (typed ++ [piece])
      ∧ b'.marks = b.marks.map (·.endingAt (c.cursor - 1))
      ∧ c.host.Alike host := by
  have halive : c.session.isAlive c.host = true := Host.hasBuffer_of_get? h.get
  have hcursor := h.cursor
  have hnearest : c.session.nearestLine c.host c.cursor = c.cursor := by
    rw [Session.nearestLine, Host.lineCount_of_get? h.get, h.length_lines]
    omega
  obtain ⟨hlines, hmarks⟩ :=
    h.splice_cursor [pieceLine c.session.marker typed piece, String.ofList [c.session.marker]] (by simp)
  have hbreak : c.session.breakLine c.host c.cursor
      (Text.byteLength (pieceLine c.session.marker typed piece).toList)
        = .ok (c.cursor + 1, c.host.setLines c.session.buffer (c.cursor - 1) c.cursor
            [pieceLine c.session.marker typed piece, String.ofList [c.session.marker]]) := by
    rw [Session.breakLine, if_neg (by simp [halive])]
    simp only [hnearest, h.lineAt_cursor, Text.cutAt_byteLength, String.ofList_toList]
  refine ⟨_, _, hbreak, ⟨Host.get?_modifyBuffer h.get _, h.start, ?_, ?_, ?_⟩, hmarks,
    c.host.alike_modifyBuffer _ _⟩
  · show c.cursor + 1 = _
    rw [hcursor, List.length_append, List.length_singleton]
    omega
  · show (b.splice _ _ _).lines = above ++ statementLines c.session.marker (typed ++ [piece])
      ++ [pieceLine c.session.marker (typed ++ [piece]) ""]
    have hlast : pieceLine c.session.marker (typed ++ [piece]) "" = String.ofList [c.session.marker] := by
      simp [pieceLine]
    rw [hlines, statementLines_concat, hlast]
    simp
  · show MarksAbove _ above.length (c.cursor + 1)
    rw [hmarks]
    exact h.marks.mono (Nat.le_succ _) |>.endingAt (by omega) (by omega)

/-- Cancelling cuts every mark at the line above the statement. -/
theorem cancel (h : c.Holds b above typed piece) :
    ∃ b', c.cancel.Typing b' above [] ∧ b'.marks = b.marks.map (·.endingAt above.length)
      ∧ c.host.Alike c.cancel.host := by
  have hcount : c.host.lineCount c.session.buffer = b.lines.length := Host.lineCount_of_get? h.get
  have hstart : c.start - 1 = above.length := by
    rw [h.start, Nat.add_sub_cancel]
  have htail : b.lines = above ++ (statementLines c.session.marker typed
      ++ [pieceLine c.session.marker typed piece]) := by
    rw [h.lines, List.append_assoc]
  have hmarks : ∀ m ∈ b.marks, m.first ≤ above.length ∧ m.last ≤ b.lines.length := by
    intro m hm
    obtain ⟨-, hfirst, -, hlast⟩ := h.marks m hm
    rw [h.length_lines]
    exact ⟨hfirst, by omega⟩
  have hspliced := Buffer.marks_replaceTail htail (by simp) [""] hmarks
  refine ⟨b.splice above.length b.lines.length [""], ⟨?_, h.start, h.start, ?_, ?_⟩, hspliced,
    c.host.alike_modifyBuffer _ _⟩
  · rw [← hstart, ← hcount]
    exact Host.get?_modifyBuffer h.get _
  · rw [Buffer.lines_replaceTail htail (by simp)]
    simp [statementLines, pieceLine]
  · show MarksAbove _ above.length c.start
    rw [hspliced, h.start]
    intro m hm
    obtain ⟨old, hold, rfl⟩ := List.mem_map.1 hm
    obtain ⟨hone, hfirst, -, -⟩ := h.marks old hold
    exact ⟨hone, hfirst, hfirst, Nat.lt_succ_self _⟩

end Holds

/-- A piece that ends in the marker is followed by a new piece. -/
theorem Holds.feed_more {c : Console} {b : Buffer} {above typed : List String} (h : c.Typing b above typed)
    {text : String} {body : List Char} (hsplit : splitMarker c.session.marker text.toList = (body, true)) :
    ∃ c' b', c.feed text = .ok (.more, c')
      ∧ c'.Typing b' above (typed ++ [String.ofList body])
      ∧ b'.marks = b.marks.map (·.endingAt (c.cursor - 1))
      ∧ c'.session = c.session
      ∧ c.host.Alike c'.host := by
  obtain ⟨b₁, h₁, hline, hmarks₁, halike₁⟩ := h.type body
  obtain ⟨host, b₂, hbreak, h₂, hmarks₂, halike₂⟩ := h₁.breakLine
  refine ⟨_, b₂, ?_, h₂, ?_, rfl, halike₁.trans halike₂⟩
  · rw [feed, hsplit]
    simp only [hline]
    show ((c.type body).1.session.breakLine (c.type body).1.host (c.type body).1.cursor
      (Text.byteLength (pieceLine (c.type body).1.session.marker typed (String.ofList body)).toList)
        >>= _) = _
    rw [hbreak]
    rfl
  · rw [hmarks₂, hmarks₁, List.map_map]
    rfl

end Console

end Transcript
