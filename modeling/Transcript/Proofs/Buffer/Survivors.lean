import Transcript.Proofs.Buffer.Bounds
import Transcript.Proofs.Buffer.Tail
import Transcript.Proofs.Host

/-!
Marks through an edit of any lines. A mark stays on the lines it covered that survive the edit, and takes in the new
lines if they stand between two of these. Only a mark that ends further up than the line above a region that is replaced
does not: it is stretched down to that line.
-/
namespace Transcript

namespace Edit

/-- Where a line is found after the edit; a line of the region is not found. -/
def survivor? (e : Edit) (line : Nat) : Option Nat :=
  if line ≤ e.start then some line
  else if line ≤ e.stop then none
  else some (line - e.removed + e.inserted)

/-- The mark covers exactly the lines that survive of those that `m` covered, and the new lines if the lines above and
below them are two of these. Without a mark no line is covered. -/
def CoversSurvivors (e : Edit) (m : Mark) (r : Option Mark) : Prop :=
  ∀ line, (∃ m' ∈ r, m'.covers line) ↔ (∃ before, m.covers before ∧ e.survivor? before = some line)
    ∨ m.covers e.start ∧ m.covers (e.stop + 1) ∧ e.start < line ∧ line ≤ e.start + e.inserted

/-- What an edit makes of a mark that keeps its lines, by where the mark stands to the region. -/
inductive Keeps (e : Edit) (m : Mark) : Option Mark → Prop where
  | above (hlast : m.last ≤ e.start) : Keeps e m (some m)
  | below (hfirst : e.stop < m.first) :
      Keeps e m (some { m with first := m.first - e.removed + e.inserted, last := m.last - e.removed + e.inserted })
  | inside (hfirst : e.start < m.first) (hlast : m.last ≤ e.stop) : Keeps e m none
  | around (hfirst : m.first ≤ e.start) (hlast : e.stop < m.last) :
      Keeps e m (some { m with last := m.last - e.removed + e.inserted })
  | overStart (hfirst : m.first ≤ e.start) (hover : e.start < m.last) (hlast : m.last ≤ e.stop) :
      Keeps e m (some { m with last := e.start })
  | overStop (hfirst : e.start < m.first) (hover : m.first ≤ e.stop) (hlast : e.stop < m.last) :
      Keeps e m (some { m with
        first := e.start + e.inserted + 1
        last := m.last - e.removed + e.inserted })

/-- The edit replaces lines, and the mark ends above the line that stands above them. -/
def Stretches (e : Edit) (m : Mark) : Prop := e.removed ≠ 0 ∧ m.last < e.start

instance (e : Edit) (m : Mark) : Decidable (e.Stretches m) := inferInstanceAs (Decidable (_ ∧ _))

variable {e : Edit} {m : Mark}

theorem survivor?_eq_some_iff {before line : Nat} :
    e.survivor? before = some line
      ↔ before ≤ e.start ∧ line = before ∨ e.stop < before ∧ line = before - e.removed + e.inserted := by
  have hstop : e.stop = e.start + e.removed := rfl
  unfold survivor?
  split
  · rw [Option.some_inj]
    omega
  · split
    · simp only [reduceCtorEq, false_iff]
      omega
    · rw [Option.some_inj]
      omega

/-- The lines above the region stay, those below it move, and no other line comes from the mark. -/
theorem exists_survivor_iff {line : Nat} :
    (∃ before, m.covers before ∧ e.survivor? before = some line)
      ↔ m.covers line ∧ line ≤ e.start
        ∨ m.first + e.inserted ≤ line + e.removed ∧ line + e.removed ≤ m.last + e.inserted
          ∧ e.start + e.inserted < line := by
  have hstop : e.stop = e.start + e.removed := rfl
  simp only [Mark.covers_iff, survivor?_eq_some_iff]
  constructor
  · rintro ⟨before, hcovers, ⟨habove, rfl⟩ | ⟨hbelow, rfl⟩⟩
    · exact Or.inl ⟨hcovers, habove⟩
    · right
      omega
  · rintro (⟨hcovers, habove⟩ | ⟨hfirst, hlast, hbelow⟩)
    · exact ⟨line, hcovers, Or.inl ⟨habove, rfl⟩⟩
    · exact ⟨line + e.removed - e.inserted, by omega, Or.inr ⟨by omega, by omega⟩⟩

/-! ### What is kept -/

/-- A mark that keeps its lines covers the survivors. -/
theorem Keeps.coversSurvivors {r : Option Mark} (hm : m.InRange e.length) (h : e.Keeps m r) :
    e.CoversSurvivors m r := by
  obtain ⟨hone, hle, -⟩ := hm
  have hstop : e.stop = e.start + e.removed := rfl
  intro line
  rw [exists_survivor_iff]
  simp only [Mark.covers_iff]
  cases h with
  | above hlast =>
      simp only [Option.mem_some_iff, exists_eq_left']
      omega
  | below hfirst =>
      simp only [Option.mem_some_iff, exists_eq_left']
      omega
  | inside hfirst hlast =>
      simp only [Option.not_mem_none, false_and, exists_false, false_iff]
      omega
  | around hfirst hlast =>
      simp only [Option.mem_some_iff, exists_eq_left']
      omega
  | overStart hfirst hover hlast =>
      simp only [Option.mem_some_iff, exists_eq_left']
      omega
  | overStop hfirst hover hlast =>
      simp only [Option.mem_some_iff, exists_eq_left']
      omega

/-- A stretched mark covers the line above the region, which it did not cover before. -/
theorem not_coversSurvivors_of_stretches (hm : m.InRange e.length) (h : e.Stretches m) :
    ¬ e.CoversSurvivors m (some (m.endingAt e.start)) := by
  intro hcovers
  have hcovered : (m.endingAt e.start).covers e.start := by
    rw [Mark.covers_iff]
    exact ⟨Nat.le_trans hm.first_le_last (Nat.le_of_lt h.2), Nat.le_refl e.start⟩
  have hsurvivor := (hcovers e.start).1 ⟨_, rfl, hcovered⟩
  rw [exists_survivor_iff] at hsurvivor
  simp only [Mark.covers_iff] at hsurvivor
  have hlast := h.2
  omega

/-! ### What the edit does -/

/-- An insertion keeps every mark. -/
theorem keeps_insertInto (hm : m.InRange e.length) (hremoved : e.removed = 0) : e.Keeps m (some (e.insertInto m)) := by
  obtain ⟨hone, hle, hlast⟩ := hm
  have hstop : e.stop = e.start := by rw [stop, hremoved, Nat.add_zero]
  unfold insertInto
  split
  next hbelow =>
    rw [← hstop] at hbelow
    rw [shift_of_below hbelow (Nat.le_trans hle hlast), shift_of_below (Nat.lt_of_lt_of_le hbelow hle) hlast]
    exact Keeps.below hbelow
  next hfirst =>
    split
    next hacross =>
      rw [← hstop] at hacross
      rw [shift_of_below hacross hlast]
      exact Keeps.around (Nat.le_of_not_lt hfirst) hacross
    next habove => exact Keeps.above (Nat.le_of_not_lt habove)

/-- A replacement keeps every mark that it does not stretch and that is not inside the region. -/
theorem keeps_replaceIn (hm : m.InRange e.length) (hkept : ¬ (e.start < m.first ∧ m.last ≤ e.stop))
    (hreach : e.start ≤ m.last) : e.Keeps m (some (e.replaceIn m)) := by
  obtain ⟨hone, hle, hlast⟩ := hm
  unfold replaceIn
  split
  next hbelow =>
    rw [shift_of_below hbelow (Nat.le_trans hle hlast), shift_of_below (Nat.lt_of_lt_of_le hbelow hle) hlast]
    exact Keeps.below hbelow
  next hfirst =>
    split
    next hacross =>
      rw [shift_of_below hacross.2 hlast]
      exact Keeps.around hacross.1 hacross.2
    next hacross =>
      split
      next habove =>
        by_cases hend : m.last = e.start
        · -- The last line of the mark is the line above the region, so the mark stays as it is.
          rw [← hend]
          exact Keeps.above (Nat.le_of_eq hend)
        · exact Keeps.overStart habove (by omega) (by omega)
      next hinside =>
        have hover : e.stop < m.last := by omega
        rw [shift_of_below hover hlast]
        exact Keeps.overStop (by omega) (by omega) hover

theorem track?_of_stretches (hm : m.InRange e.length) (h : e.Stretches m) :
    e.track? m = some (m.endingAt e.start) := by
  obtain ⟨hremoved, hlast⟩ := h
  have hfirst := hm.first_le_last
  exact track?_of_tail hremoved (by omega) (by rw [stop]; omega)

theorem keeps_track? (hm : m.InRange e.length) (h : ¬ e.Stretches m) : e.Keeps m (e.track? m) := by
  unfold track?
  split
  next hremoved => exact keeps_insertInto hm hremoved
  next hremoved =>
    split
    next hinside => exact Keeps.inside hinside.1 hinside.2
    next hkept =>
      have hreach : e.start ≤ m.last := Nat.le_of_not_lt fun hlast => h ⟨hremoved, hlast⟩
      simp only
      rw [if_pos (inRange_replaceIn hm hkept).first_le_last]
      exact keeps_replaceIn hm hkept hreach

/-- A mark covers the survivors exactly if the edit does not stretch it. -/
theorem coversSurvivors_track?_iff (hm : m.InRange e.length) :
    e.CoversSurvivors m (e.track? m) ↔ ¬ e.Stretches m := by
  refine ⟨fun hcovers hstretches => ?_, fun h => (keeps_track? hm h).coversSurvivors hm⟩
  rw [track?_of_stretches hm hstretches] at hcovers
  exact not_coversSurvivors_of_stretches hm hstretches hcovers

/-- A mark keeps its lines exactly if the edit does not stretch it. -/
theorem keeps_track?_iff (hm : m.InRange e.length) : e.Keeps m (e.track? m) ↔ ¬ e.Stretches m :=
  ⟨fun hkeeps => (coversSurvivors_track?_iff hm).1 (hkeeps.coversSurvivors hm), keeps_track? hm⟩

end Edit

namespace Buffer

variable {b : Buffer} {before line : Nat}

/-- A line that survives has the text that it had. -/
theorem getElem?_splice_of_survivor (start stop : Nat) (lines : List String) (hone : 1 ≤ before)
    (hle : before ≤ b.lines.length) (h : (b.editOf start stop lines.length).survivor? before = some line) :
    (b.splice start stop lines).lines[line - 1]? = b.lines[before - 1]? := by
  have hinserted : (b.editOf start stop lines.length).inserted = lines.length := rfl
  have hlength : (b.editOf start stop lines.length).length = b.lines.length := rfl
  have hlines : (b.splice start stop lines).lines = atLeastOneLine
      (b.lines.take (b.editOf start stop lines.length).start ++ lines
        ++ b.lines.drop (b.editOf start stop lines.length).stop) := rfl
  generalize b.editOf start stop lines.length = e at *
  have hfits := e.fits
  have hstop : e.stop = e.start + e.removed := rfl
  have htake : (b.lines.take e.start).length = e.start := by
    rw [List.length_take]
    omega
  have hne : b.lines.take e.start ++ lines ++ b.lines.drop e.stop ≠ [] := by
    intro hnil
    have hnone := congrArg List.length hnil
    rw [List.length_append, List.length_append, htake, List.length_drop, List.length_nil] at hnone
    rcases Edit.survivor?_eq_some_iff.1 h with ⟨habove, -⟩ | ⟨hbelow, -⟩ <;> omega
  rw [hlines, atLeastOneLine_of_ne_nil hne]
  rcases Edit.survivor?_eq_some_iff.1 h with ⟨habove, rfl⟩ | ⟨hbelow, rfl⟩
  · rw [List.append_assoc, List.getElem?_append_left (by omega), List.getElem?_take_of_lt (by omega)]
  · rw [List.getElem?_append_right (by rw [List.length_append]; omega), List.getElem?_drop]
    congr 1
    rw [List.length_append]
    omega

end Buffer

namespace Host

variable {h : Host} {buffer : Nat} {b : Buffer}

/-- **An edit of lines keeps each mark on the lines that survive of those it covered,** in each of the places that the
mark can have to the region, except where it stretches the mark down to the line above the region. -/
theorem setLines_keeps_marks_iff (hget : h.buffers.get? buffer = some b) (start stop : Nat) (lines : List String)
    {e : Edit} (he : e = b.editOf start stop lines.length) :
    (h.setLines buffer start stop lines).marks buffer = (h.marks buffer).filterMap e.track?
      ∧ (∀ before line, 1 ≤ before → before ≤ h.lineCount buffer → e.survivor? before = some line →
          (h.setLines buffer start stop lines).lineAt buffer line = h.lineAt buffer before)
      ∧ ∀ m ∈ h.marks buffer, m.InRange (h.lineCount buffer) →
          (e.Keeps m (e.track? m) ↔ ¬ e.Stretches m)
          ∧ (e.CoversSurvivors m (e.track? m) ↔ ¬ e.Stretches m)
          ∧ (e.Stretches m → e.track? m = some (m.endingAt e.start)) := by
  have hget' : (h.setLines buffer start stop lines).buffers.get? buffer = some (b.splice start stop lines) :=
    get?_modifyBuffer hget _
  have hlength : e.length = b.lines.length := by rw [he]; rfl
  refine ⟨?_, ?_, ?_⟩
  · rw [marks_of_get? hget, marks_of_get? hget', he]
    rfl
  · intro before line hone hle hsurvivor
    rw [lineCount_of_get? hget] at hle
    rw [he] at hsurvivor
    rw [lineAt, lineAt, lines_of_get? hget, lines_of_get? hget',
      Buffer.getElem?_splice_of_survivor start stop lines hone hle hsurvivor]
  · intro m _ hm
    rw [lineCount_of_get? hget, ← hlength] at hm
    exact ⟨Edit.keeps_track?_iff hm, Edit.coversSurvivors_track?_iff hm, Edit.track?_of_stretches hm⟩

/-- Five lines with marks on the first, on the three below it and on the last. -/
def markedBuffer : Buffer :=
  { Buffer.ofLines ["1", "print(2)", "2", "3", "4"] with
    marks := [⟨1, 1, 1, .value⟩, ⟨2, 2, 4, .output⟩, ⟨3, 5, 5, .info⟩] }

def markedHost : Host := { new with buffers := Table.empty.insert 1 markedBuffer }

/-- Two lines in the place of the third: the mark around it grows, the one below it moves, and the first one is
stretched down to the second line. -/
theorem setLines_keeps_marks_around_edit :
    markedHost.buffers.get? 1 = some markedBuffer
      ∧ (∀ m ∈ markedHost.marks 1, m.InRange (markedHost.lineCount 1))
      ∧ (markedHost.setLines 1 2 3 ["a", "b"]).marks 1 = [⟨1, 1, 2, .value⟩, ⟨2, 2, 5, .output⟩, ⟨3, 6, 6, .info⟩]
      ∧ (markedBuffer.editOf 2 3 2).Keeps ⟨2, 2, 4, .output⟩ (some ⟨2, 2, 5, .output⟩)
      ∧ ¬ (markedBuffer.editOf 2 3 2).Keeps ⟨1, 1, 1, .value⟩ (some ⟨1, 1, 2, .value⟩) := by
  have hget : markedHost.buffers.get? 1 = some markedBuffer := rfl
  have hrange : ∀ m ∈ markedHost.marks 1, m.InRange (markedHost.lineCount 1) := by decide
  obtain ⟨hmarks, -, hkept⟩ := setLines_keeps_marks_iff hget 2 3 ["a", "b"] rfl
  have haround := hkept ⟨2, 2, 4, .output⟩ (by decide) (hrange _ (by decide))
  have habove := hkept ⟨1, 1, 1, .value⟩ (by decide) (hrange _ (by decide))
  exact ⟨hget, hrange, hmarks.trans (by decide), haround.1.2 (by decide), fun hkeeps => habove.1.1 hkeeps (by decide)⟩

end Host

end Transcript
