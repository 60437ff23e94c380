import Transcript.Proofs.Buffer.Report

/-!
Marks stay in their buffer. A mark that covers a line of the buffer, and none beyond its end, does so after every edit
that does not remove it: where it is cut, a line of it is left, and where it moves, all that is above it and below it
moves along. Marks on output are put on lines that were inserted for them.
-/
namespace Transcript

namespace Mark

/-- The mark covers a line, and only lines of a buffer of `lineCount` lines. -/
structure InRange (lineCount : Nat) (m : Mark) : Prop where
  one_le_first : 1 ≤ m.first
  first_le_last : m.first ≤ m.last
  last_le : m.last ≤ lineCount

instance (lineCount : Nat) (m : Mark) : Decidable (m.InRange lineCount) :=
  decidable_of_iff (1 ≤ m.first ∧ m.first ≤ m.last ∧ m.last ≤ lineCount)
    ⟨fun h => ⟨h.1, h.2.1, h.2.2⟩, fun h => ⟨h.one_le_first, h.first_le_last, h.last_le⟩⟩

variable {m : Mark} {lineCount : Nat}

theorem InRange.mono (h : m.InRange lineCount) {lineCount' : Nat} (hle : lineCount ≤ lineCount') :
    m.InRange lineCount' :=
  ⟨h.one_le_first, h.first_le_last, Nat.le_trans h.last_le hle⟩

/-- Only where the mark starts and ends counts. -/
theorem inRange_moved {first last : Nat} (hone : 1 ≤ first) (hle : first ≤ last) (hlast : last ≤ lineCount) :
    { m with first := first, last := last }.InRange lineCount :=
  ⟨hone, hle, hlast⟩

theorem InRange.within (h : m.InRange lineCount) : m.Within lineCount where
  one_le_first := h.one_le_first
  first_le := Nat.le_trans h.first_le_last h.last_le
  one_le_last := Nat.le_trans h.one_le_first h.first_le_last
  last_le := h.last_le

end Mark

namespace Edit

variable {e : Edit} {m m' : Mark}

/-- How many lines there are after the edit. -/
def lengthAfter (e : Edit) : Nat := e.length - e.removed + e.inserted

/-- A line below the region moves by the lines that come and go. -/
theorem shift_of_below {line : Nat} (hbelow : e.stop < line) (hle : line ≤ e.length) :
    e.shift line = line - e.removed + e.inserted := by
  rw [stop] at hbelow
  have hmax : max ((line : Int) + e.inserted - e.removed) 1 = ((line - e.removed + e.inserted : Nat) : Int) := by omega
  rw [shift, if_pos hle]
  simp only [hmax, Int.toNat_natCast]

theorem inRange_insertInto (hm : m.InRange e.length) (hremoved : e.removed = 0) :
    (e.insertInto m).InRange e.lengthAfter := by
  obtain ⟨hone, hle, hlast⟩ := hm
  have hstop : e.stop = e.start := by rw [stop, hremoved, Nat.add_zero]
  unfold insertInto lengthAfter
  split
  next hbelow =>
    have hbelow' : e.stop < m.first := by omega
    have hfirst' := shift_of_below hbelow' (Nat.le_trans hle hlast)
    have hlast' := shift_of_below (Nat.lt_of_lt_of_le hbelow' hle) hlast
    exact Mark.inRange_moved (by omega) (by omega) (by omega)
  · split
    next hacross =>
      have hacross' : e.stop < m.last := by omega
      have hlast' := shift_of_below hacross' hlast
      exact Mark.inRange_moved hone (by omega) (by omega)
    · exact ⟨hone, hle, by omega⟩

/-- A mark that is not inside the region keeps a line. -/
theorem inRange_replaceIn (hm : m.InRange e.length) (hkept : ¬ (e.start < m.first ∧ m.last ≤ e.stop)) :
    (e.replaceIn m).InRange e.lengthAfter := by
  obtain ⟨hone, hle, hlast⟩ := hm
  have hfits := e.fits
  have hstop : e.stop = e.start + e.removed := rfl
  unfold replaceIn lengthAfter
  split
  next hbelow =>
    have hfirst' := shift_of_below hbelow (Nat.le_trans hle hlast)
    have hlast' := shift_of_below (Nat.lt_of_lt_of_le hbelow hle) hlast
    exact Mark.inRange_moved (by omega) (by omega) (by omega)
  · split
    next hacross =>
      have hlast' := shift_of_below hacross.2 hlast
      exact Mark.inRange_moved hone (by omega) (by omega)
    · split
      · exact Mark.inRange_moved hone (by omega) (by omega)
      · have hbelow' : e.stop < m.last := by omega
        have hlast' := shift_of_below hbelow' hlast
        exact Mark.inRange_moved (by omega) (by omega) (by omega)

theorem inRange_of_track? (hm : m.InRange e.length) (htrack : e.track? m = some m') : m'.InRange e.lengthAfter := by
  unfold track? at htrack
  split at htrack
  next hremoved =>
    obtain rfl := Option.some.inj htrack
    exact inRange_insertInto hm hremoved
  · split at htrack
    · cases htrack
    next hkept =>
      simp only at htrack
      split at htrack
      · obtain rfl := Option.some.inj htrack
        exact inRange_replaceIn hm hkept
      · cases htrack

end Edit

namespace Buffer

variable {b : Buffer}

/-- The marks cover lines of the buffer. -/
def MarksInRange (b : Buffer) : Prop := ∀ m ∈ b.marks, m.InRange b.lines.length

theorem MarksInRange.within (h : b.MarksInRange) : b.MarksWithin := fun m hm => (h m hm).within

theorem marksInRange_ofLines (lines : List String) : (ofLines lines).MarksInRange := by
  intro m hm
  cases hm

/-- A buffer that an edit empties gets a line back, else it has the lines that the edit leaves. -/
theorem lengthAfter_le (b : Buffer) (start stop : Nat) (lines : List String) :
    (b.editOf start stop lines.length).lengthAfter ≤ (b.splice start stop lines).lines.length := by
  have hlines : (b.editOf start stop lines.length).lengthAfter
      = (b.lines.take (b.editOf start stop lines.length).start ++ lines
        ++ b.lines.drop (b.editOf start stop lines.length).stop).length := by
    simp only [Edit.lengthAfter, Edit.stop, editOf, List.length_append, List.length_take, List.length_drop]
    omega
  rw [hlines]
  show _ ≤ (atLeastOneLine _).length
  unfold atLeastOneLine
  split
  next hnone => simp [List.isEmpty_iff.1 hnone]
  · exact Nat.le_refl _

theorem MarksInRange.splice (h : b.MarksInRange) (start stop : Nat) (lines : List String) :
    (b.splice start stop lines).MarksInRange := by
  intro m' hm'
  obtain ⟨m, hm, htrack⟩ := List.mem_filterMap.1 hm'
  exact (Edit.inRange_of_track? (h m hm) htrack).mono (b.lengthAfter_le start stop lines)

theorem MarksInRange.insertMarked (h : b.MarksInRange) {place : Nat} (hplace : place ≤ b.lines.length) (id : Nat)
    (highlight : Highlight) {lines : List String} (hlines : lines ≠ []) :
    (b.insertMarked id place highlight lines).MarksInRange := by
  intro m hm
  have hpos := List.length_pos_iff.2 hlines
  rcases List.mem_append.1 hm with hm | hm
  · exact h.splice place place lines m hm
  · rw [length_insertMarked hplace, List.mem_singleton.1 hm]
    have hfirst : place + 1 ≤ place + lines.length := by omega
    have hlast : place + lines.length ≤ b.lines.length + lines.length := by omega
    exact ⟨Nat.le_add_left 1 place, hfirst, hlast⟩

theorem MarksInRange.insertOutput (h : b.MarksInRange) (pad : String → String) (id : Nat) {place : Nat}
    (hplace : place ≤ b.lines.length) {chunks : List Chunk} (hproper : ∀ c ∈ chunks, c.lines ≠ []) :
    (Buffer.insertOutput pad id place chunks b).MarksInRange := by
  induction chunks generalizing b id place with
  | nil => exact h
  | cons c cs ih =>
      have hne : c.lines.map pad ≠ [] := by simpa using hproper c List.mem_cons_self
      have hlength := length_insertMarked hplace id c.highlight (c.lines.map pad)
      rw [List.length_map] at hlength
      exact ih (h.insertMarked hplace id c.highlight hne) (id + 1) (by omega)
        fun c hc => hproper c (List.mem_cons_of_mem _ hc)

theorem MarksInRange.report (h : b.MarksInRange) (pad : String → String) (id : Nat) {place : Nat}
    (hplace : place ≤ b.lines.length) {chunks : List Chunk} (hproper : ∀ c ∈ chunks, c.lines ≠ []) :
    (b.report pad id place chunks).MarksInRange :=
  (h.insertOutput pad id hplace hproper).splice _ _ _

end Buffer

end Transcript
