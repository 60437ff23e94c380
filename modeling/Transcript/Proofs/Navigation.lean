import Mathlib.Algebra.Group.Nat.Defs
import Mathlib.Data.List.Sort
import Transcript.Proofs.Buffer.Insertion

/-!
Travelling among marks that share no line. In the order of lines they stand one below the other, so the edges that a
journey can go to ascend, and those that lie ahead of a line are at one end of them. The index that a journey computes
counts from there, whether the line is inside a mark or between two, and where no edge is ahead the journey stays.
-/
namespace Transcript

namespace Navigation

/-! ### Marks in the order of lines -/

/-- Marks that cover lines, each mark above those that follow. -/
structure Stacked (marks : List Mark) : Prop where
  apart : marks.Pairwise fun a b => a.last < b.first
  proper : ∀ m ∈ marks, m.first ≤ m.last

theorem precedes_trans (a b c : Mark) (hab : a.precedes b = true) (hbc : b.precedes c = true) :
    a.precedes c = true := by
  unfold Mark.precedes at *
  split_ifs at * <;> simp only [decide_eq_true_eq] at * <;> omega

theorem precedes_total (a b : Mark) : (a.precedes b || b.precedes a) = true := by
  unfold Mark.precedes
  split_ifs <;> simp only [Bool.or_eq_true, decide_eq_true_eq] at * <;> omega

theorem first_le_of_precedes {a b : Mark} (h : a.precedes b = true) : a.first ≤ b.first := by
  unfold Mark.precedes at h
  split_ifs at h <;> simp only [decide_eq_true_eq] at * <;> omega

theorem inLineOrder_perm (marks : List Mark) : (inLineOrder marks).Perm marks := List.mergeSort_perm marks _

/-- Marks that share no line stand one below the other. -/
theorem stacked_inLineOrder {marks : List Mark} (hdisjoint : marks.Pairwise Mark.Disjoint)
    (hproper : ∀ m ∈ marks, m.first ≤ m.last) : Stacked (inLineOrder marks) := by
  have hproper' : ∀ m ∈ inLineOrder marks, m.first ≤ m.last := fun m hm => hproper m (mem_inLineOrder.1 hm)
  have hsorted := List.pairwise_mergeSort precedes_trans precedes_total marks
  have hapart : (inLineOrder marks).Pairwise Mark.Disjoint :=
    hdisjoint.perm (inLineOrder_perm marks).symm fun h => symm h
  refine ⟨(hsorted.and hapart).imp_of_mem ?_, hproper'⟩
  rintro a b ha hb ⟨hprecedes, hdisjoint⟩
  have hfirst := first_le_of_precedes hprecedes
  have hb' := hproper' b hb
  by_contra hlast
  refine hdisjoint b.first ⟨?_, ?_⟩
  · rw [Mark.covers_iff]
    omega
  · rw [Mark.covers_iff]
    omega

theorem outputs_segments (lastLine next : Nat) (marks : List Mark) :
    outputs (segments lastLine next marks) = marks := by
  induction marks generalizing next with
  | nil => rfl
  | cons m marks ih => exact congrArg (m :: ·) (ih (m.last + 1))

/-- The outputs between the gaps are the marks in the order of lines. -/
theorem outputs_partition (marks : List Mark) (lastLine : Nat) :
    outputs (partition marks lastLine) = inLineOrder marks :=
  outputs_segments lastLine 1 _

variable {marks : List Mark}

/-- A line is in a mark or between two of them. -/
theorem Stacked.exists_around (h : Stacked marks) (line : Nat) :
    ∃ above here below, marks = above ++ (here ++ below)
      ∧ (∀ m ∈ above, m.last < line) ∧ (∀ m ∈ below, line < m.first)
      ∧ (here = [] ∨ ∃ m, here = [m] ∧ m.first ≤ line ∧ line ≤ m.last) := by
  induction marks with
  | nil => exact ⟨[], [], [], rfl, by simp, by simp, Or.inl rfl⟩
  | cons m marks ih =>
      obtain ⟨hbelow, happart⟩ := List.pairwise_cons.1 h.apart
      have hfirst := h.proper m List.mem_cons_self
      by_cases hpassed : m.last < line
      · obtain ⟨above, here, below, rfl, habove, hrest⟩ :=
          ih ⟨happart, fun m' hm' => h.proper m' (List.mem_cons_of_mem m hm')⟩
        refine ⟨m :: above, here, below, rfl, ?_, hrest⟩
        intro m' hm'
        rcases List.mem_cons.1 hm' with rfl | hm'
        · exact hpassed
        · exact habove m' hm'
      · by_cases hinside : m.first ≤ line
        · refine ⟨[], [m], marks, rfl, by simp, ?_, Or.inr ⟨m, rfl, hinside, Nat.le_of_not_lt hpassed⟩⟩
          intro m' hm'
          have := hbelow m' hm'
          omega
        · refine ⟨[], [], m :: marks, rfl, by simp, ?_, Or.inl rfl⟩
          intro m' hm'
          rcases List.mem_cons.1 hm' with rfl | hm'
          · exact Nat.lt_of_not_le hinside
          · have := hbelow m' hm'
            omega

/-! ### The index to go to -/

namespace Journey

variable {j : Journey} {line : Nat}

theorem edge_bounds (j : Journey) {m : Mark} (hm : m.first ≤ m.last) : m.first ≤ j.edge m ∧ j.edge m ≤ m.last := by
  unfold edge
  split
  · exact ⟨hm, Nat.le_refl _⟩
  · exact ⟨Nat.le_refl _, hm⟩

theorem edge_lt_of_above (j : Journey) {m : Mark} (hm : m.first ≤ m.last) (habove : m.last < line) : j.edge m < line :=
  (j.edge_bounds hm).2.trans_lt habove

theorem lt_edge_of_below (j : Journey) {m : Mark} (hm : m.first ≤ m.last) (hbelow : line < m.first) : line < j.edge m :=
  hbelow.trans_le (j.edge_bounds hm).1

theorem steps_eq (hcount : 1 ≤ j.count) (hbound : (j.count : Int) < Word.bound) : j.steps = j.count := by
  rw [steps, Nat.max_eq_left hcount, Word.ofBits_of_lt hbound]

theorem findIdx?_between {above below : List Mark} (habove : ∀ m ∈ above, m.last < line)
    (hbelow : ∀ m ∈ below, line < m.first) : (above ++ below).findIdx? (·.covers line) = none := by
  rw [List.findIdx?_eq_none_iff]
  intro m hm
  rw [Bool.eq_false_iff, ne_eq, Mark.covers_iff]
  rcases List.mem_append.1 hm with hm | hm
  · have := habove m hm
    omega
  · have := hbelow m hm
    omega

theorem findIdx?_inside {above below : List Mark} {m : Mark} (habove : ∀ m ∈ above, m.last < line)
    (hfirst : m.first ≤ line) (hlast : line ≤ m.last) :
    (above ++ m :: below).findIdx? (·.covers line) = some above.length := by
  have hnone : above.findIdx? (·.covers line) = none := by
    simpa using findIdx?_between habove (List.forall_mem_nil fun m : Mark => line < m.first)
  have hcovers : m.covers line = true := (m.covers_iff line).2 ⟨hfirst, hlast⟩
  rw [List.findIdx?_append, hnone, List.findIdx?_cons, if_pos hcovers]
  simp

/-- The marks that end above a line. -/
theorem length_filter_above {above rest : List Mark} (habove : ∀ m ∈ above, m.last < line)
    (hrest : ∀ m ∈ rest, line ≤ m.last) : ((above ++ rest).filter fun m => m.last < line).length = above.length := by
  have hkept : above.filter (fun m => m.last < line) = above :=
    List.filter_eq_self.2 fun m hm => decide_eq_true (habove m hm)
  have hlost : rest.filter (fun m => m.last < line) = [] :=
    List.filter_eq_nil_iff.2 fun m hm hpassed => Nat.not_lt.2 (hrest m hm) (of_decide_eq_true hpassed)
  rw [List.filter_append, hkept, hlost, List.append_nil]

/-- The index between two marks. -/
theorem index?_between (j : Journey) {above below : List Mark} (habove : ∀ m ∈ above, m.last < line)
    (hproper : ∀ m ∈ below, m.first ≤ m.last) (hbelow : ∀ m ∈ below, line < m.first) :
    j.index? (above ++ below) line
      = if j.backward then Word.sub? above.length j.steps
        else (Word.add? above.length j.steps).bind (Word.sub? · 1) := by
  have hrest : ∀ m ∈ below, line ≤ m.last := fun m hm => (hbelow m hm).le.trans (hproper m hm)
  rw [index?, findIdx?_between habove hbelow]
  simp only [length_filter_above habove hrest]
  rfl

/-- Inside a mark its last line alone can be ahead, or its first line alone behind. -/
theorem line_lt_edge_iff {m : Mark} (hfirst : m.first ≤ line) :
    line < j.edge m ↔ (j.toEnd && decide (line < m.last)) = true := by
  unfold edge
  cases j.toEnd with
  | true => simp
  | false => simpa using hfirst

theorem edge_lt_line_iff {m : Mark} (hlast : line ≤ m.last) :
    j.edge m < line ↔ (!j.toEnd && decide (m.first < line)) = true := by
  unfold edge
  cases j.toEnd with
  | true => simpa using hlast
  | false => simp

/-- The index inside a mark: its own edge is counted if it is still ahead. -/
theorem index?_inside (j : Journey) {above : List Mark} (below : List Mark) {m : Mark}
    (habove : ∀ m ∈ above, m.last < line) (hfirst : m.first ≤ line) (hlast : line ≤ m.last) :
    j.index? (above ++ m :: below) line
      = if j.backward then
          if j.edge m < line then (Word.sub? j.steps 1).bind (Word.sub? above.length ·)
          else Word.sub? above.length j.steps
        else if line < j.edge m then (Word.add? above.length j.steps).bind (Word.sub? · 1)
        else Word.add? above.length j.steps := by
  have hhere : (above ++ m :: below)[above.length]? = some m := by simp
  rw [index?, findIdx?_inside habove hfirst hlast]
  simp only [hhere, Option.any_some, line_lt_edge_iff hfirst, edge_lt_line_iff hlast]
  cases j.backward with
  | true => cases !j.toEnd && decide (m.first < line) <;> simp
  | false => cases j.toEnd && decide (line < m.last) <;> simp

/-! ### What lies ahead -/

/-- The edges strictly beyond a line in the direction of the journey, in the order in which it comes to them. -/
def ahead (j : Journey) (marks : List Mark) (line : Nat) : List Nat :=
  let edges := marks.map j.edge
  if j.backward then (edges.filter (· < line)).mergeSort fun a b => b ≤ a
  else (edges.filter (line < ·)).mergeSort

/-- Where a journey ends: at the last of the edges ahead that it counts, or on its line if there is none. Without marks
it goes to the end of the buffer. -/
def destination (j : Journey) (marks : List Mark) (lastLine line : Nat) : Nat :=
  if marks = [] then if j.backward then 1 else lastLine
  else ((j.ahead marks line).take j.count).getLast?.getD line

/-- A forward journey counts from the edges that are not beyond the line: those of the marks above it, and the edge of
a mark around it unless that is still ahead. The index takes back the first step in the one case alone. -/
theorem exists_index?_forward_eq (h : Stacked marks) (hforward : j.backward = false) (line : Nat) :
    ∃ passed coming, marks = passed ++ coming ∧ (∀ m ∈ passed, j.edge m ≤ line) ∧ (∀ m ∈ coming, line < j.edge m)
      ∧ (passed.length = (marks.filter fun m => m.last < line).length
          ∧ j.index? marks line = (Word.add? passed.length j.steps).bind (Word.sub? · 1)
        ∨ passed.length = (marks.filter fun m => m.last < line).length + 1
          ∧ j.index? marks line = Word.add? (passed.length - 1) j.steps) := by
  obtain ⟨above, here, below, rfl, habove, hbelow, hhere⟩ := h.exists_around line
  have hproper (m : Mark) (hm : m ∈ here ++ below) : m.first ≤ m.last := h.proper m (List.mem_append_right _ hm)
  have hpassed : ∀ m ∈ above, j.edge m ≤ line := fun m hm =>
    (j.edge_lt_of_above (h.proper m (List.mem_append_left _ hm)) (habove m hm)).le
  have hcoming : ∀ m ∈ below, line < j.edge m := fun m hm =>
    j.lt_edge_of_below (hproper m (List.mem_append_right _ hm)) (hbelow m hm)
  rcases hhere with rfl | ⟨m, rfl, hfirst, hlast⟩
  · have hindex := j.index?_between habove hproper hbelow
    have hrest : ∀ m ∈ below, line ≤ m.last := fun m hm => (hbelow m hm).le.trans (hproper m hm)
    rw [if_neg (by simp [hforward])] at hindex
    exact ⟨above, below, rfl, hpassed, hcoming, Or.inl ⟨(length_filter_above habove hrest).symm, hindex⟩⟩
  · have hindex := j.index?_inside below habove hfirst hlast
    have hrest : ∀ m' ∈ m :: below, line ≤ m'.last := List.forall_mem_cons.2
      ⟨hlast, fun m' hm => (hbelow m' hm).le.trans (hproper m' (List.mem_cons_of_mem m hm))⟩
    have hlength := length_filter_above habove hrest
    rw [hforward] at hindex
    by_cases hedge : line < j.edge m
    · refine ⟨above, m :: below, rfl, hpassed, List.forall_mem_cons.2 ⟨hedge, hcoming⟩, Or.inl ⟨hlength.symm, ?_⟩⟩
      simpa [hedge] using hindex
    · refine ⟨above ++ [m], below, by simp, ?_, hcoming, Or.inr ⟨?_, ?_⟩⟩
      · exact List.forall_mem_append.2 ⟨hpassed, by simpa using hedge⟩
      · rw [List.length_append, List.length_singleton]
        exact congrArg (· + 1) hlength.symm
      · simpa [hedge] using hindex

/-- A backward journey counts from the edges that are before the line, the edge of a mark around the line last. Its
first step is then one to the mark itself. -/
theorem exists_index?_backward_eq (h : Stacked marks) (hbackward : j.backward = true) (line : Nat) :
    ∃ coming passed, marks = coming ++ passed ∧ (∀ m ∈ coming, j.edge m < line) ∧ (∀ m ∈ passed, line ≤ j.edge m)
      ∧ (j.index? marks line = Word.sub? coming.length j.steps
        ∨ coming ≠ [] ∧ j.index? marks line = (Word.sub? j.steps 1).bind (Word.sub? (coming.length - 1) ·)) := by
  obtain ⟨above, here, below, rfl, habove, hbelow, hhere⟩ := h.exists_around line
  have hproper (m : Mark) (hm : m ∈ here ++ below) : m.first ≤ m.last := h.proper m (List.mem_append_right _ hm)
  have hcoming : ∀ m ∈ above, j.edge m < line := fun m hm =>
    j.edge_lt_of_above (h.proper m (List.mem_append_left _ hm)) (habove m hm)
  have hpassed : ∀ m ∈ below, line ≤ j.edge m := fun m hm =>
    (j.lt_edge_of_below (hproper m (List.mem_append_right _ hm)) (hbelow m hm)).le
  rcases hhere with rfl | ⟨m, rfl, hfirst, hlast⟩
  · have hindex := j.index?_between habove hproper hbelow
    exact ⟨above, below, rfl, hcoming, hpassed, Or.inl (hindex.trans (if_pos hbackward))⟩
  · have hindex := j.index?_inside below habove hfirst hlast
    rw [hbackward] at hindex
    by_cases hedge : j.edge m < line
    · refine ⟨above ++ [m], below, by simp, ?_, hpassed, Or.inr ⟨by simp, ?_⟩⟩
      · exact List.forall_mem_append.2 ⟨hcoming, by simpa using hedge⟩
      · simpa [hedge] using hindex
    · refine ⟨above, m :: below, rfl, hcoming, ?_, Or.inl ?_⟩
      · exact List.forall_mem_cons.2 ⟨Nat.le_of_not_lt hedge, hpassed⟩
      · simpa [hedge] using hindex

/-- While the count and the marks above the line add up to a word, a forward journey goes on by its count. -/
theorem exists_index?_forward_of_fits (h : Stacked marks) (hforward : j.backward = false) (hcount : 1 ≤ j.count)
    (line : Nat) (hsum : ((marks.filter fun m => m.last < line).length + j.count : Int) < Word.bound) :
    ∃ passed coming, marks = passed ++ coming ∧ (∀ m ∈ passed, j.edge m ≤ line) ∧ (∀ m ∈ coming, line < j.edge m)
      ∧ j.index? marks line = some ((passed.length : Int) + j.count - 1) := by
  have hsteps : j.steps = j.count := steps_eq hcount (by omega)
  obtain ⟨passed, coming, hmarks, hpassed, hcoming, ⟨hlength, hindex⟩ | ⟨hlength, hindex⟩⟩ :=
    exists_index?_forward_eq h hforward line
  · refine ⟨passed, coming, hmarks, hpassed, hcoming, ?_⟩
    rw [hindex, hsteps, Word.add?_of_bounds (by rw [Word.bound]; omega) (by omega), Option.bind_some]
    exact Word.sub?_of_bounds (by rw [Word.bound]; omega) (by omega)
  · refine ⟨passed, coming, hmarks, hpassed, hcoming, ?_⟩
    rw [hindex, hsteps, Word.add?_of_bounds (by rw [Word.bound]; omega) (by omega)]
    exact congrArg some (by omega)

/-- While the count is a word, a backward journey goes back by it. -/
theorem exists_index?_backward_of_fits (h : Stacked marks) (hbackward : j.backward = true) (hcount : 1 ≤ j.count)
    (hsize : (marks.length : Int) < Word.bound) (hbound : (j.count : Int) < Word.bound) (line : Nat) :
    ∃ coming passed, marks = coming ++ passed ∧ (∀ m ∈ coming, j.edge m < line) ∧ (∀ m ∈ passed, line ≤ j.edge m)
      ∧ j.index? marks line = some ((coming.length : Int) - j.count) := by
  have hsteps : j.steps = j.count := steps_eq hcount hbound
  obtain ⟨coming, passed, rfl, hcoming, hpassed, hindex | ⟨hne, hindex⟩⟩ := exists_index?_backward_eq h hbackward line
  all_goals
    rw [List.length_append, Int.natCast_add] at hsize
    refine ⟨coming, passed, rfl, hcoming, hpassed, ?_⟩
  · rw [hindex, hsteps, Word.sub?_of_bounds (by omega) (by omega)]
  · rw [hindex, hsteps, Word.sub?_of_bounds (by rw [Word.bound]; omega) (by omega), Option.bind_some,
      Word.sub?_of_bounds (by omega) (by omega)]
    exact congrArg some (by omega)

theorem exists_index?_forward (h : Stacked marks) (hforward : j.backward = false) (hcount : 1 ≤ j.count)
    (hsize : (marks.length + j.count : Int) < Word.bound) (line : Nat) :
    ∃ passed coming, marks = passed ++ coming ∧ (∀ m ∈ passed, j.edge m ≤ line) ∧ (∀ m ∈ coming, line < j.edge m)
      ∧ j.index? marks line = some ((passed.length : Int) + j.count - 1) := by
  have hlength := List.length_filter_le (fun m => decide (m.last < line)) marks
  exact exists_index?_forward_of_fits h hforward hcount line (by omega)

theorem exists_index?_backward (h : Stacked marks) (hbackward : j.backward = true) (hcount : 1 ≤ j.count)
    (hsize : (marks.length + j.count : Int) < Word.bound) (line : Nat) :
    ∃ coming passed, marks = coming ++ passed ∧ (∀ m ∈ coming, j.edge m < line) ∧ (∀ m ∈ passed, line ≤ j.edge m)
      ∧ j.index? marks line = some ((coming.length : Int) - j.count) :=
  exists_index?_backward_of_fits h hbackward hcount (by omega) (by omega) line

/-- The edges of marks that stand one below the other ascend. -/
theorem pairwise_edges (j : Journey) (h : Stacked marks) : (marks.map j.edge).Pairwise (· < ·) := by
  refine List.pairwise_map.2 (h.apart.imp_of_mem ?_)
  intro a b ha hb hapart
  have hedge := j.edge_bounds (h.proper a ha)
  have hedge' := j.edge_bounds (h.proper b hb)
  omega

theorem filter_edges (p : Nat → Bool) {kept lost : List Mark} (hkept : ∀ m ∈ kept, p (j.edge m) = true)
    (hlost : ∀ m ∈ lost, ¬ p (j.edge m) = true) :
    (kept.map j.edge).filter p = kept.map j.edge ∧ (lost.map j.edge).filter p = [] := by
  refine ⟨List.filter_eq_self.2 ?_, List.filter_eq_nil_iff.2 ?_⟩
  · exact List.forall_mem_map.2 hkept
  · exact List.forall_mem_map.2 hlost

/-- Marks are stored in any order: the edges ahead are those of the marks that are, as they stand. -/
theorem ahead_forward (hforward : j.backward = false) {passed coming : List Mark} (h : Stacked (passed ++ coming))
    (hperm : marks.Perm (passed ++ coming)) (hpassed : ∀ m ∈ passed, j.edge m ≤ line)
    (hcoming : ∀ m ∈ coming, line < j.edge m) : j.ahead marks line = coming.map j.edge := by
  obtain ⟨hkept, hlost⟩ := filter_edges (fun n => decide (line < n)) (fun m hm => decide_eq_true (hcoming m hm))
    (fun m hm hahead => Nat.not_lt.2 (hpassed m hm) (of_decide_eq_true hahead))
  have hedges : ((marks.map j.edge).filter fun n => decide (line < n)).Perm (coming.map j.edge) := by
    refine ((hperm.map j.edge).filter _).trans (List.Perm.of_eq ?_)
    rw [List.map_append, List.filter_append, hkept, hlost, List.nil_append]
  have hascend : (coming.map j.edge).Pairwise (· < ·) := by
    have hall := j.pairwise_edges h
    rw [List.map_append] at hall
    exact (List.pairwise_append.1 hall).2.1
  simp only [ahead, hforward, Bool.false_eq_true, if_false]
  refine List.Perm.eq_of_pairwise (fun a b _ _ => Nat.le_antisymm) ?_ (hascend.imp Nat.le_of_lt)
    ((List.mergeSort_perm _ _).trans hedges)
  simpa using List.pairwise_mergeSort' (· ≤ ·) ((marks.map j.edge).filter fun n => decide (line < n))

theorem ahead_backward (hbackward : j.backward = true) {coming passed : List Mark} (h : Stacked (coming ++ passed))
    (hperm : marks.Perm (coming ++ passed)) (hcoming : ∀ m ∈ coming, j.edge m < line)
    (hpassed : ∀ m ∈ passed, line ≤ j.edge m) : j.ahead marks line = (coming.map j.edge).reverse := by
  obtain ⟨hkept, hlost⟩ := filter_edges (fun n => decide (n < line)) (fun m hm => decide_eq_true (hcoming m hm))
    (fun m hm hahead => Nat.not_lt.2 (hpassed m hm) (of_decide_eq_true hahead))
  have hedges : ((marks.map j.edge).filter fun n => decide (n < line)).Perm (coming.map j.edge).reverse := by
    refine ((hperm.map j.edge).filter _).trans (List.Perm.trans (List.Perm.of_eq ?_) (List.reverse_perm _).symm)
    rw [List.map_append, List.filter_append, hkept, hlost, List.append_nil]
  have hdescend : (coming.map j.edge).reverse.Pairwise (· > ·) := by
    have hall := j.pairwise_edges h
    rw [List.map_append] at hall
    exact List.pairwise_reverse.2 (List.pairwise_append.1 hall).1
  simp only [ahead, hbackward, if_true]
  refine List.Perm.eq_of_pairwise (fun a b _ _ hab hba => Nat.le_antisymm hba hab) ?_ (hdescend.imp Nat.le_of_lt)
    ((List.mergeSort_perm _ _).trans hedges)
  simpa using List.pairwise_mergeSort' (· ≥ ·) ((marks.map j.edge).filter fun n => decide (n < line))

/-! ### The goal -/

/-- The last of at most `count` elements. -/
theorem getLast?_take_of_pos {α : Type} (xs : List α) {count : Nat} (hcount : 1 ≤ count) :
    (xs.take count).getLast? = xs[min count xs.length - 1]? := by
  rw [List.getLast?_eq_getElem?, List.length_take]
  by_cases hnil : xs.length = 0
  · rw [List.length_eq_zero_iff.1 hnil]
    simp
  · exact List.getElem?_take_of_lt (by omega)

/-- A journey goes to the mark at its index, brought into range, unless that is against its direction. -/
theorem target?_of_index {index : Int} (hne : inLineOrder marks ≠ []) (lastLine : Nat)
    (hindex : j.index? (inLineOrder marks) line = some index) {k : Nat}
    (hk : (min (max index 0) ((inLineOrder marks).length - 1)).toNat = k) {m : Mark}
    (hm : (inLineOrder marks)[k]? = some m) :
    j.target? marks lastLine line
      = some (if (if j.backward then line < j.edge m else j.edge m < line) then line else j.edge m) := by
  have hempty : ¬ (inLineOrder marks).isEmpty = true := by simpa using hne
  unfold target?
  simp only [outputs_partition, hindex, hempty, Option.bind_eq_bind, Option.bind_some, hk, hm]
  rfl

theorem inLineOrder_ne_nil (hne : marks ≠ []) : inLineOrder marks ≠ [] :=
  fun hnil => hne (hnil ▸ inLineOrder_perm marks).symm.eq_nil

theorem target?_forward (hforward : j.backward = false) (hcount : 1 ≤ j.count) {passed coming : List Mark}
    (hmarks : inLineOrder marks = passed ++ coming) (hne : marks ≠ []) (hpassed : ∀ m ∈ passed, j.edge m ≤ line)
    (hcoming : ∀ m ∈ coming, line < j.edge m)
    (hindex : j.index? (inLineOrder marks) line = some ((passed.length : Int) + j.count - 1)) (lastLine : Nat) :
    j.target? marks lastLine line = some (((coming.map j.edge).take j.count).getLast?.getD line) := by
  have hne' := inLineOrder_ne_nil hne
  have hpos := List.length_pos_iff.2 hne'
  have hlength : (inLineOrder marks).length = passed.length + coming.length := by rw [hmarks, List.length_append]
  rw [getLast?_take_of_pos _ hcount, List.length_map, List.getElem?_map]
  by_cases hnone : coming = []
  · -- The index is brought back to the last mark, whose edge is not beyond the line.
    subst hnone
    rw [List.append_nil] at hmarks
    rw [List.length_nil, Nat.add_zero] at hlength
    obtain ⟨m, hm⟩ : ∃ m, (inLineOrder marks)[passed.length - 1]? = some m :=
      ⟨_, List.getElem?_eq_getElem (by omega)⟩
    have hedge := hpassed m (List.mem_of_getElem? (hmarks ▸ hm))
    rw [target?_of_index hne' lastLine hindex (by omega) hm, hforward]
    simp only [Bool.false_eq_true, if_false, List.getElem?_nil, Option.map_none, Option.getD_none]
    congr 1
    split <;> omega
  · have hsome := List.length_pos_iff.2 hnone
    obtain ⟨m, hm⟩ : ∃ m, coming[min j.count coming.length - 1]? = some m :=
      ⟨_, List.getElem?_eq_getElem (by omega)⟩
    have hedge := hcoming m (List.mem_of_getElem? hm)
    have hm' : (inLineOrder marks)[passed.length + (min j.count coming.length - 1)]? = some m := by
      rw [hmarks, List.getElem?_append_right (Nat.le_add_right _ _), Nat.add_sub_cancel_left, hm]
    rw [target?_of_index hne' lastLine hindex (by omega) hm', hforward, hm]
    simp only [Bool.false_eq_true, if_false, if_neg (Nat.not_lt.2 hedge.le), Option.map_some, Option.getD_some]

theorem target?_backward (hbackward : j.backward = true) (hcount : 1 ≤ j.count) {coming passed : List Mark}
    (hmarks : inLineOrder marks = coming ++ passed) (hne : marks ≠ []) (hcoming : ∀ m ∈ coming, j.edge m < line)
    (hpassed : ∀ m ∈ passed, line ≤ j.edge m)
    (hindex : j.index? (inLineOrder marks) line = some ((coming.length : Int) - j.count)) (lastLine : Nat) :
    j.target? marks lastLine line = some (((coming.map j.edge).reverse.take j.count).getLast?.getD line) := by
  have hne' := inLineOrder_ne_nil hne
  have hpos := List.length_pos_iff.2 hne'
  have hlength : (inLineOrder marks).length = coming.length + passed.length := by rw [hmarks, List.length_append]
  rw [getLast?_take_of_pos _ hcount, List.length_reverse, List.length_map]
  by_cases hnone : coming = []
  · -- The index is brought back to the first mark, whose edge is not before the line.
    subst hnone
    rw [List.nil_append] at hmarks
    obtain ⟨m, hm⟩ : ∃ m, (inLineOrder marks)[0]? = some m := ⟨_, List.getElem?_eq_getElem hpos⟩
    have hedge := hpassed m (List.mem_of_getElem? (hmarks ▸ hm))
    rw [List.length_nil] at hindex
    rw [target?_of_index hne' lastLine hindex (by omega) hm, hbackward]
    simp only [if_true, List.map_nil, List.reverse_nil, List.getElem?_nil, Option.getD_none]
    congr 1
    split <;> omega
  · have hsome := List.length_pos_iff.2 hnone
    obtain ⟨m, hm⟩ : ∃ m, coming[coming.length - min j.count coming.length]? = some m :=
      ⟨_, List.getElem?_eq_getElem (by omega)⟩
    have hedge := hcoming m (List.mem_of_getElem? hm)
    have hm' : (inLineOrder marks)[coming.length - min j.count coming.length]? = some m := by
      rw [hmarks, List.getElem?_append_left (by omega), hm]
    have hlast : coming.length - 1 - (min j.count coming.length - 1) = coming.length - min j.count coming.length := by
      omega
    rw [target?_of_index hne' lastLine hindex (by omega) hm', hbackward,
      List.getElem?_reverse (by rw [List.length_map]; omega), List.length_map, hlast, List.getElem?_map, hm]
    simp only [if_true, if_neg (Nat.not_lt.2 hedge.le), Option.map_some, Option.getD_some]

/-- **A journey ends at the last edge it counts of those ahead,** for marks that share no line, in whatever order they
are stored. The marks are as many as fit into a memory of words, so that their number and the count add up to a signed
word. -/
theorem target?_eq_destination {b : Buffer} (hproper : ∀ m ∈ b.marks, m.first ≤ m.last)
    (hdisjoint : b.marks.Pairwise Mark.Disjoint) (hsize : b.marks.length < 2 ^ 62) (hcount : 1 ≤ j.count)
    (hbound : j.count ≤ 2 ^ 62) (line : Nat) :
    j.target? b.marks b.lines.length line = some (j.destination b.marks b.lines.length line) := by
  have hlines : max b.lines.length 1 = b.lines.length := Nat.max_eq_left (List.length_pos_iff.2 b.lines_ne_nil)
  by_cases hnone : b.marks = []
  · have hmarks : inLineOrder [] = [] := List.mergeSort_nil
    unfold target? destination
    simp only [outputs_partition, hnone, hmarks, List.isEmpty_nil, if_true, hlines]
    rfl
  · have hperm := inLineOrder_perm b.marks
    have hstacked := stacked_inLineOrder hdisjoint hproper
    have hsum : ((inLineOrder b.marks).length + j.count : Int) < Word.bound := by
      rw [hperm.length_eq, Word.bound]
      omega
    rw [destination, if_neg hnone]
    cases hdirection : j.backward with
    | false =>
        obtain ⟨passed, coming, hmarks, hpassed, hcoming, hindex⟩ :=
          exists_index?_forward hstacked hdirection hcount hsum line
        rw [hmarks] at hstacked hperm
        rw [ahead_forward hdirection hstacked hperm.symm hpassed hcoming,
          target?_forward hdirection hcount hmarks hnone hpassed hcoming hindex]
    | true =>
        obtain ⟨coming, passed, hmarks, hcoming, hpassed, hindex⟩ :=
          exists_index?_backward hstacked hdirection hcount hsum line
        rw [hmarks] at hstacked hperm
        rw [ahead_backward hdirection hstacked hperm.symm hcoming hpassed,
          target?_backward hdirection hcount hmarks hnone hcoming hpassed hindex]

/-- Twelve lines with two outputs, the lower one stored first. -/
def outputBuffer : Buffer :=
  { Buffer.ofLines (List.replicate 12 "") with marks := [⟨2, 9, 9, .value⟩, ⟨1, 3, 5, .output⟩] }

/-- Inside the upper output its start is the first edge behind and its end the first edge ahead. -/
theorem target?_eq_destination_inside_output :
    (∀ m ∈ outputBuffer.marks, m.first ≤ m.last) ∧ outputBuffer.marks.Pairwise Mark.Disjoint
      ∧ Journey.target? ⟨false, true, 2⟩ outputBuffer.marks outputBuffer.lines.length 4 = some 9
      ∧ Journey.target? ⟨true, false, 7⟩ outputBuffer.marks outputBuffer.lines.length 4 = some 3 := by
  have hproper : ∀ m ∈ outputBuffer.marks, m.first ≤ m.last := by decide
  have hdisjoint : outputBuffer.marks.Pairwise Mark.Disjoint :=
    List.pairwise_pair.2 (symm (Mark.disjoint_of_lt (by decide)))
  have hjourney (j : Journey) (hcount : 1 ≤ j.count) (hbound : j.count ≤ 2 ^ 62) :=
    target?_eq_destination hproper hdisjoint (by decide) hcount hbound 4
  have hsorted : [9, 5].mergeSort (fun a b => decide (a ≤ b)) = [5, 9] :=
    (List.mergeSort_eq_insertionSort (· ≤ ·) [9, 5]).trans (by decide)
  refine ⟨hproper, hdisjoint, ?_, ?_⟩
  · refine (hjourney ⟨false, true, 2⟩ (by decide) (by decide)).trans (congrArg some ?_)
    show (([9, 5].mergeSort.take 2).getLast?).getD 4 = 9
    rw [hsorted]
    rfl
  · exact (hjourney ⟨true, false, 7⟩ (by decide) (by decide)).trans (by decide +kernel)

end Journey

end Navigation

end Transcript
