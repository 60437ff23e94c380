import Mathlib.Data.List.Basic
import Transcript.Buffer

/-!
Replacing lines of a buffer, most of all those at its end. A mark that starts above the end that is replaced is taken
to reach into it, so it ends on the line above afterwards. A mark that ended further up is stretched down to that
line.
-/
namespace Transcript

/-- The mark with another last line. -/
def Mark.endingAt (last : Nat) (m : Mark) : Mark := { m with last := last }

theorem Mark.endingAt_endingAt (a b : Nat) (m : Mark) : (m.endingAt a).endingAt b = m.endingAt b := rfl

/-- A replacement takes the line above it for the end of a mark that starts above it. -/
theorem Edit.track?_of_tail {e : Edit} (hremoved : e.removed ≠ 0) {m : Mark} (hfirst : m.first ≤ e.start)
    (hlast : m.last ≤ e.stop) : e.track? m = some (m.endingAt e.start) := by
  have hstop : e.start ≤ e.stop := Nat.le_add_right e.start e.removed
  have hreplaced : e.replaceIn m = m.endingAt e.start := by
    rw [replaceIn, if_neg (by omega), if_neg (by omega), if_pos hfirst]
    rfl
  rw [track?, if_neg hremoved, if_neg (by omega)]
  simp only [hreplaced]
  exact if_pos hfirst

namespace Buffer

variable {b : Buffer} {above tail : List String}

/-- Lines that are replaced give way to the new ones. -/
theorem lines_replace {old below new : List String} (hlines : b.lines = above ++ old ++ below)
    (hne : above ++ new ++ below ≠ []) :
    (b.splice above.length (above ++ old).length new).lines = above ++ new ++ below := by
  have hlength : b.lines.length = above.length + old.length + below.length := by
    rw [hlines, List.length_append, List.length_append]
  have hstop : min (above ++ old).length b.lines.length = (above ++ old).length := by
    rw [hlength, List.length_append]
    omega
  have hstart : min above.length (above ++ old).length = above.length := by
    rw [List.length_append]
    omega
  have hend : above.length + ((above ++ old).length - above.length) = (above ++ old).length := by
    rw [List.length_append]
    omega
  rw [← atLeastOneLine_of_ne_nil hne]
  simp only [splice, editOf, Edit.stop, hstop, hstart, hend]
  rw [hlines, List.drop_left, List.append_assoc above, List.take_left]

theorem lines_replaceTail (hlines : b.lines = above ++ tail) {new : List String} (hnew : new ≠ []) :
    (b.splice above.length b.lines.length new).lines = above ++ new := by
  have hreplaced := lines_replace (hlines.trans (List.append_nil _).symm)
    (show above ++ new ++ [] ≠ [] by simp [hnew])
  rwa [List.append_nil, ← hlines] at hreplaced

theorem marks_replaceTail (hlines : b.lines = above ++ tail) (htail : tail ≠ []) (new : List String)
    (hmarks : ∀ m ∈ b.marks, m.first ≤ above.length ∧ m.last ≤ b.lines.length) :
    (b.splice above.length b.lines.length new).marks = b.marks.map (·.endingAt above.length) := by
  have hpos := List.length_pos_iff.2 htail
  have hlength : b.lines.length = above.length + tail.length := by rw [hlines, List.length_append]
  have hstart : (b.editOf above.length b.lines.length new.length).start = above.length := by
    simp only [editOf]
    omega
  have hremoved : (b.editOf above.length b.lines.length new.length).removed = tail.length := by
    simp only [editOf]
    omega
  have hkept : ∀ m ∈ b.marks,
      (b.editOf above.length b.lines.length new.length).track? m = some (m.endingAt above.length) := by
    intro m hm
    obtain ⟨hfirst, hlast⟩ := hmarks m hm
    rw [Edit.track?_of_tail (by omega) (by omega) (by rw [Edit.stop]; omega), hstart]
  exact List.filterMap_eq_map_iff_forall_eq_some.2 hkept

/-- A buffer whose lines and marks are removed has one empty line. -/
theorem lines_cleared (b : Buffer) : (b.splice 0 b.lines.length [""]).clearMarks.lines = [""] :=
  lines_replaceTail (b.lines.nil_append).symm (List.cons_ne_nil _ _)

end Buffer

end Transcript
