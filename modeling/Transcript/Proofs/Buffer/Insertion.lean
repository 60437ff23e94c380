import Mathlib.Data.List.Basic
import Mathlib.Data.List.Pairwise
import Transcript.Buffer
import Transcript.Navigation

/-!
Insertions. A block of lines goes below a line `place`. A mark that does not go on below that line keeps its
lines: it stays where it is, or it stands below the line and moves down by the length of the block. So marks
that lie in the buffer and share no line still do after the insertion. A mark whose last line is above its
first line covers nothing; such marks are allowed.
-/
namespace Transcript

/-- Where a line is found after `count` lines went below line `place`. -/
def lineBelow (place count line : Nat) : Nat := if place < line then line + count else line

namespace Mark

/-- The mark names two lines of a buffer of `lineCount` lines. -/
structure Within (lineCount : Nat) (m : Mark) : Prop where
  one_le_first : 1 ≤ m.first
  first_le : m.first ≤ lineCount
  one_le_last : 1 ≤ m.last
  last_le : m.last ≤ lineCount

/-- The marks share no line. -/
def Disjoint (a b : Mark) : Prop := ∀ line, ¬ (a.covers line ∧ b.covers line)

/-- The mark covers a line and the line below it. -/
def GoesOn (place : Nat) (m : Mark) : Prop := m.first ≤ place ∧ place < m.last

/-- The mark after `count` lines went below line `place`, if it does not go on there. -/
def shiftBelow (place count : Nat) (m : Mark) : Mark :=
  if place < m.first then { m with first := m.first + count, last := m.last + count } else m

theorem covers_iff (m : Mark) (line : Nat) : m.covers line ↔ m.first ≤ line ∧ line ≤ m.last := by
  simp [covers]

instance : Std.Symm Disjoint where
  symm := by
    intro a b h line hline
    exact h line hline.symm

theorem disjoint_of_lt {m m' : Mark} (h : m.last < m'.first) : m.Disjoint m' := by
  rintro line ⟨hm, hm'⟩
  rw [covers_iff] at hm hm'
  omega

@[simp] theorem shiftBelow_id (place count : Nat) (m : Mark) : (m.shiftBelow place count).id = m.id := by
  unfold shiftBelow
  split <;> rfl

@[simp] theorem shiftBelow_highlight (place count : Nat) (m : Mark) :
    (m.shiftBelow place count).highlight = m.highlight := by
  unfold shiftBelow
  split <;> rfl

theorem shiftBelow_zero (place : Nat) (m : Mark) : m.shiftBelow place 0 = m := by
  unfold shiftBelow
  split <;> rfl

theorem shiftBelow_of_first_le {place : Nat} {m : Mark} (h : m.first ≤ place) (count : Nat) :
    m.shiftBelow place count = m := by
  rw [shiftBelow, if_neg (by omega)]

/-- Two blocks one below the other move a mark like one block. -/
theorem shiftBelow_shiftBelow (place a b : Nat) (m : Mark) :
    (m.shiftBelow place a).shiftBelow (place + a) b = m.shiftBelow place (a + b) := by
  unfold shiftBelow
  by_cases h : place < m.first
  · have hb : place + a < m.first + a := by omega
    simp [h, hb, Nat.add_assoc]
  · have hb : ¬ place + a < m.first := by omega
    simp [h, hb]

/-- A mark that does not go on below the place covers the same lines as before. -/
theorem covers_shiftBelow {place count : Nat} {m : Mark} (h : ¬ m.GoesOn place) (line : Nat) :
    (m.shiftBelow place count).covers line
      ↔ ∃ before, m.covers before ∧ line = lineBelow place count before := by
  unfold GoesOn at h
  simp only [covers_iff, lineBelow]
  by_cases hp : place < m.first
  · simp only [shiftBelow, if_pos hp]
    constructor
    · intro hline
      refine ⟨line - count, by omega, ?_⟩
      rw [if_pos (by omega)]
      omega
    · rintro ⟨before, hbefore, rfl⟩
      rw [if_pos (by omega)]
      omega
  · simp only [shiftBelow, if_neg hp]
    constructor
    · intro hline
      refine ⟨line, hline, ?_⟩
      rw [if_neg (by omega)]
    · rintro ⟨before, hbefore, rfl⟩
      rw [if_neg (by omega)]
      exact hbefore

theorem lineBelow_injective {place count a b : Nat} (h : lineBelow place count a = lineBelow place count b) :
    a = b := by
  unfold lineBelow at h
  split at h <;> split at h <;> omega

/-- Marks that share no line share none after an insertion. -/
theorem Disjoint.shiftBelow {place count : Nat} {a b : Mark} (h : a.Disjoint b)
    (ha : ¬ a.GoesOn place) (hb : ¬ b.GoesOn place) :
    (a.shiftBelow place count).Disjoint (b.shiftBelow place count) := by
  rintro line ⟨hla, hlb⟩
  obtain ⟨i, hi, hia⟩ := (covers_shiftBelow ha line).1 hla
  obtain ⟨j, hj, hjb⟩ := (covers_shiftBelow hb line).1 hlb
  have hij : i = j := lineBelow_injective (hia.symm.trans hjb)
  exact h i ⟨hi, hij ▸ hj⟩

theorem Within.shiftBelow {lineCount place count : Nat} {m : Mark} (h : m.Within lineCount) :
    (m.shiftBelow place count).Within (lineCount + count) := by
  obtain ⟨h1, h2, h3, h4⟩ := h
  unfold Mark.shiftBelow
  split
  · exact ⟨by simp only; omega, by simp only; omega, by simp only; omega, by simp only; omega⟩
  · exact ⟨h1, by omega, h3, by omega⟩

/-- The block itself shares no line with a mark that moved out of its way. -/
theorem disjoint_block {place count : Nat} {m block : Mark} (h : ¬ m.GoesOn place)
    (hfirst : place < block.first) (hlast : block.last ≤ place + count) :
    (m.shiftBelow place count).Disjoint block := by
  rintro line ⟨hm, hb⟩
  rw [covers_iff] at hb
  obtain ⟨before, hbefore, rfl⟩ := (covers_shiftBelow h line).1 hm
  unfold lineBelow at hb
  split at hb <;> omega

theorem not_goesOn_shiftBelow {place count : Nat} {m : Mark} (h : ¬ m.GoesOn place) :
    ¬ (m.shiftBelow place count).GoesOn (place + count) := by
  unfold GoesOn at *
  unfold shiftBelow
  split
  · show ¬ (m.first + count ≤ place + count ∧ place + count < m.last + count)
    omega
  · omega

end Mark

namespace Edit

/-- A line of the buffer moves down by what an insertion puts above it. -/
theorem shift_of_insertion {e : Edit} (hremoved : e.removed = 0) {line : Nat} (hone : 1 ≤ line)
    (hline : line ≤ e.length) : e.shift line = line + e.inserted := by
  have hmax : max ((line : Int) + e.inserted - e.removed) 1 = ((line + e.inserted : Nat) : Int) := by omega
  rw [shift, if_pos hline]
  simp only [hmax, Int.toNat_natCast]

/-- An insertion keeps every mark that does not go on at its place. -/
theorem track?_of_insertion {e : Edit} (hremoved : e.removed = 0) {m : Mark} (hm : m.Within e.length)
    (hplace : ¬ m.GoesOn e.start) : e.track? m = some (m.shiftBelow e.start e.inserted) := by
  obtain ⟨h1, h2, h3, h4⟩ := hm
  rw [track?, if_pos hremoved, insertInto, Mark.shiftBelow]
  by_cases hfirst : e.start < m.first
  · rw [if_pos hfirst, if_pos hfirst, shift_of_insertion hremoved h1 h2, shift_of_insertion hremoved h3 h4]
  · have hlast : ¬ e.start < m.last := fun h => hplace ⟨by omega, h⟩
    rw [if_neg hfirst, if_neg hlast, if_neg hfirst]

end Edit

namespace Buffer

/-- The marks name lines of the buffer. -/
def MarksWithin (b : Buffer) : Prop := ∀ m ∈ b.marks, m.Within b.lines.length

/-- The marks name lines of the buffer and share no line. -/
structure WellMarked (b : Buffer) : Prop where
  within : b.MarksWithin
  disjoint : b.marks.Pairwise Mark.Disjoint

/-- No mark goes on below the line. -/
def OpenBelow (b : Buffer) (place : Nat) : Prop := ∀ m ∈ b.marks, ¬ m.GoesOn place

theorem lines_insertion (b : Buffer) {place : Nat} (hplace : place ≤ b.lines.length) (lines : List String) :
    (b.splice place place lines).lines = b.lines.take place ++ lines ++ b.lines.drop place := by
  have hstop : min place b.lines.length = place := Nat.min_eq_left hplace
  have hne : b.lines.take place ++ lines ++ b.lines.drop place ≠ [] := by
    intro h
    obtain ⟨hkept, hbelow⟩ := List.append_eq_nil_iff.1 h
    have hwhole := List.take_append_drop place b.lines
    rw [(List.append_eq_nil_iff.1 hkept).1, hbelow] at hwhole
    exact b.lines_ne_nil hwhole.symm
  rw [← atLeastOneLine_of_ne_nil hne]
  simp only [splice, editOf, Edit.stop, hstop, Nat.min_self, Nat.sub_self, Nat.add_zero]

theorem length_insertion (b : Buffer) {place : Nat} (hplace : place ≤ b.lines.length) (lines : List String) :
    (b.splice place place lines).lines.length = b.lines.length + lines.length := by
  rw [b.lines_insertion hplace]
  simp
  omega

theorem marks_insertion (b : Buffer) {place : Nat} (hplace : place ≤ b.lines.length) (lines : List String)
    (hwithin : b.MarksWithin) (hopen : b.OpenBelow place) :
    (b.splice place place lines).marks = b.marks.map (·.shiftBelow place lines.length) := by
  have hstop : min place b.lines.length = place := Nat.min_eq_left hplace
  have hkept : ∀ m ∈ b.marks,
      (b.editOf place place lines.length).track? m = some (m.shiftBelow place lines.length) := by
    intro m hm
    have htrack := Edit.track?_of_insertion (e := b.editOf place place lines.length) (m := m)
      (by simp [editOf]) (hwithin m hm) (by simpa [editOf, hstop] using hopen m hm)
    simpa [editOf, hstop] using htrack
  exact List.filterMap_eq_map_iff_forall_eq_some.2 hkept

end Buffer

/-! ### Where to insert -/

namespace Navigation

theorem mem_inLineOrder {m : Mark} {marks : List Mark} : m ∈ inLineOrder marks ↔ m ∈ marks :=
  List.mem_mergeSort

theorem le_insertionPoint (marks : List Mark) (after : Nat) : after ≤ insertionPoint marks after := by
  unfold insertionPoint
  split
  next m hm =>
    have hgoes := List.find?_some hm
    simp only [Bool.and_eq_true, decide_eq_true_eq] at hgoes
    exact Nat.le_of_lt hgoes.2
  · exact Nat.le_refl after

/-- If no mark goes on below the line, that line is the place. -/
theorem insertionPoint_of_open {marks : List Mark} {after : Nat} (h : ∀ m ∈ marks, ¬ m.GoesOn after) :
    insertionPoint marks after = after := by
  unfold insertionPoint
  split
  next m hm =>
    have hgoes := List.find?_some hm
    simp only [Bool.and_eq_true, decide_eq_true_eq] at hgoes
    exact absurd hgoes (h m (mem_inLineOrder.1 (List.mem_of_find?_eq_some hm)))
  · rfl

theorem insertionPoint_le {marks : List Mark} {after lineCount : Nat} (hafter : after ≤ lineCount)
    (hwithin : ∀ m ∈ marks, m.Within lineCount) : insertionPoint marks after ≤ lineCount := by
  unfold insertionPoint
  split
  next m hm => exact (hwithin m (mem_inLineOrder.1 (List.mem_of_find?_eq_some hm))).last_le
  · exact hafter

/-- Among marks that share no line, none goes on below the place. -/
theorem not_goesOn_insertionPoint {marks : List Mark} (hdisjoint : marks.Pairwise Mark.Disjoint)
    (after : Nat) {m : Mark} (hm : m ∈ marks) : ¬ m.GoesOn (insertionPoint marks after) := by
  rintro ⟨hfirst, hlast⟩
  unfold insertionPoint at hfirst hlast
  split at hfirst
  next found hfound =>
    rw [hfound] at hlast
    have hgoes := List.find?_some hfound
    simp only [Bool.and_eq_true, decide_eq_true_eq] at hgoes
    have hmem := mem_inLineOrder.1 (List.mem_of_find?_eq_some hfound)
    have hne : m ≠ found := by
      rintro rfl
      exact Nat.lt_irrefl _ hlast
    have hapart : m.Disjoint found := hdisjoint.forall hm hmem hne
    refine hapart found.last ⟨?_, ?_⟩
    · rw [Mark.covers_iff]
      exact ⟨hfirst, Nat.le_of_lt hlast⟩
    · rw [Mark.covers_iff]
      omega
  next hnone =>
    rw [hnone] at hlast
    have hnot := List.find?_eq_none.1 hnone m (mem_inLineOrder.2 hm)
    simp only [Bool.and_eq_true, decide_eq_true_eq] at hnot
    exact hnot ⟨hfirst, hlast⟩

end Navigation

end Transcript
