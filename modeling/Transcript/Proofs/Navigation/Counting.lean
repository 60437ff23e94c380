import Transcript.Proofs.Navigation

/-!
How far a journey can count. Its count is read as a signed word, and a forward journey adds it to the number of marks
above the line. As long as these fit a word, a journey that counts more goes at least as far, and one that counts all
marks comes to the last edge ahead. The first count that does not fit takes the goal away or leaves the journey on its
line.
-/
namespace Transcript

namespace Navigation

namespace Journey

variable {j : Journey} {marks : List Mark} {line limit : Nat}

/-- The journey with another count. -/
def counting (j : Journey) (count : Nat) : Journey := { j with count := count }

/-- The first goal is no farther than the second in the direction of the journey. -/
def NoFarther (j : Journey) (goal goal' : Nat) : Prop := if j.backward then goal' ≤ goal else goal ≤ goal'

theorem NoFarther.refl (j : Journey) (goal : Nat) : j.NoFarther goal goal := by
  unfold NoFarther
  split <;> exact Nat.le_refl goal

/-- The last edge ahead, or the line if there is none. Without marks it is the end of the buffer. -/
def farthest (j : Journey) (marks : List Mark) (lastLine line : Nat) : Nat :=
  if marks = [] then if j.backward then 1 else lastLine else (j.ahead marks line).getLast?.getD line

/-- The marks that the index counts from: those above the line, if the journey goes away from them. -/
def base (j : Journey) (marks : List Mark) (line : Nat) : Nat :=
  if j.backward then 0 else (marks.filter fun m => m.last < line).length

/-- What a journey does for all its counts up to a limit: it has a goal, no greater count has a nearer one, and the
number of marks is enough for the last edge ahead. -/
structure CountsTo (j : Journey) (b : Buffer) (line limit : Nat) : Prop where
  arrives : ∀ count, 1 ≤ count → count ≤ limit →
    ∃ goal, (j.counting count).target? b.marks b.lines.length line = some goal
  monotone : ∀ count count' goal goal', 1 ≤ count → count ≤ count' → count' ≤ limit →
    (j.counting count).target? b.marks b.lines.length line = some goal →
    (j.counting count').target? b.marks b.lines.length line = some goal' → j.NoFarther goal goal'
  reaches : ∀ count, 1 ≤ count → b.marks.length ≤ count → count ≤ limit →
    (j.counting count).target? b.marks b.lines.length line = some (j.farthest b.marks b.lines.length line)

/-! ### The edges ahead -/

theorem pairwise_ahead (j : Journey) (marks : List Mark) (line : Nat) : (j.ahead marks line).Pairwise j.NoFarther := by
  unfold ahead NoFarther
  cases j.backward with
  | true => simpa using List.pairwise_mergeSort' (· ≥ ·) ((marks.map j.edge).filter fun n => decide (n < line))
  | false => simpa using List.pairwise_mergeSort' (· ≤ ·) ((marks.map j.edge).filter fun n => decide (line < n))

theorem length_ahead_le (j : Journey) (marks : List Mark) (line : Nat) :
    (j.ahead marks line).length ≤ marks.length := by
  unfold ahead
  split <;> simpa using List.length_filter_le _ (marks.map j.edge)

theorem lt_of_mem_ahead (hforward : j.backward = false) {n : Nat} (hn : n ∈ j.ahead marks line) : line < n := by
  simp only [ahead, hforward, Bool.false_eq_true, if_false, List.mem_mergeSort] at hn
  exact of_decide_eq_true (List.mem_filter.1 hn).2

/-- The last of more elements is no nearer, in a list in the order of the journey. -/
theorem noFarther_getLast?_take {xs : List Nat} (hxs : xs.Pairwise j.NoFarther) {count count' : Nat}
    (hcount : 1 ≤ count) (hle : count ≤ count') (line : Nat) :
    j.NoFarther ((xs.take count).getLast?.getD line) ((xs.take count').getLast?.getD line) := by
  rw [getLast?_take_of_pos xs hcount, getLast?_take_of_pos xs (hcount.trans hle)]
  by_cases hnil : xs = []
  · subst hnil
    exact NoFarther.refl j line
  · have hpos := List.length_pos_iff.2 hnil
    rw [List.getElem?_eq_getElem (by omega), List.getElem?_eq_getElem (by omega), Option.getD_some, Option.getD_some]
    rcases Nat.eq_or_lt_of_le (show min count xs.length - 1 ≤ min count' xs.length - 1 by omega) with heq | hlt
    · simp only [heq, NoFarther.refl]
    · exact List.pairwise_iff_getElem.1 hxs _ _ _ _ hlt

/-! ### Counts that fit -/

theorem target?_nil (j : Journey) {b : Buffer} (hnone : b.marks = []) (line : Nat) :
    j.target? b.marks b.lines.length line = some (j.farthest b.marks b.lines.length line) := by
  have hlines : max b.lines.length 1 = b.lines.length := Nat.max_eq_left (List.length_pos_iff.2 b.lines_ne_nil)
  have hmarks : inLineOrder [] = [] := List.mergeSort_nil
  unfold target? farthest
  simp only [outputs_partition, hnone, hmarks, List.isEmpty_nil, if_true, hlines]
  rfl

theorem length_filter_inLineOrder (marks : List Mark) (p : Mark → Bool) :
    ((inLineOrder marks).filter p).length = (marks.filter p).length :=
  ((inLineOrder_perm marks).filter p).length_eq

/-- Where the count and the base fit a word, the journey ends at the last edge it counts. -/
theorem target?_of_fits (hstacked : Stacked (inLineOrder marks)) (hsize : marks.length < 2 ^ 63) (hne : marks ≠ [])
    (hcount : 1 ≤ j.count) (hfits : j.count + j.base marks line < 2 ^ 63) (lastLine : Nat) :
    j.target? marks lastLine line = some (((j.ahead marks line).take j.count).getLast?.getD line) := by
  have hperm := inLineOrder_perm marks
  cases hdirection : j.backward with
  | false =>
      simp only [base, hdirection, Bool.false_eq_true, if_false] at hfits
      obtain ⟨passed, coming, hmarks, hpassed, hcoming, hindex⟩ :=
        exists_index?_forward_of_fits hstacked hdirection hcount line
          (by rw [length_filter_inLineOrder, Word.bound]; omega)
      rw [hmarks] at hstacked hperm
      rw [ahead_forward hdirection hstacked hperm.symm hpassed hcoming,
        target?_forward hdirection hcount hmarks hne hpassed hcoming hindex]
  | true =>
      obtain ⟨coming, passed, hmarks, hcoming, hpassed, hindex⟩ :=
        exists_index?_backward_of_fits hstacked hdirection hcount (by rw [hperm.length_eq, Word.bound]; omega)
          (by rw [Word.bound]; omega) line
      rw [hmarks] at hstacked hperm
      rw [ahead_backward hdirection hstacked hperm.symm hcoming hpassed,
        target?_backward hdirection hcount hmarks hne hcoming hpassed hindex]

theorem CountsTo.of_constant {b : Buffer} (h : ∀ count, 1 ≤ count →
    (j.counting count).target? b.marks b.lines.length line = some (j.farthest b.marks b.lines.length line)) :
    j.CountsTo b line limit where
  arrives count hcount _ := ⟨_, h count hcount⟩
  monotone count count' goal goal' hcount hle _ hgoal hgoal' := by
    rw [h count hcount, Option.some.injEq] at hgoal
    rw [h count' (hcount.trans hle), Option.some.injEq] at hgoal'
    exact hgoal ▸ hgoal' ▸ NoFarther.refl j _
  reaches count hcount _ _ := h count hcount

theorem CountsTo.of_fits {b : Buffer} (hstacked : Stacked (inLineOrder b.marks)) (hsize : b.marks.length < 2 ^ 63)
    (hne : b.marks ≠ []) (hfits : limit + j.base b.marks line < 2 ^ 63) : j.CountsTo b line limit := by
  have htarget (count : Nat) (hcount : 1 ≤ count) (hlimit : count ≤ limit) :
      (j.counting count).target? b.marks b.lines.length line
        = some (((j.ahead b.marks line).take count).getLast?.getD line) :=
    target?_of_fits hstacked hsize hne hcount (show count + j.base b.marks line < 2 ^ 63 by omega) b.lines.length
  refine ⟨fun count hcount hlimit => ⟨_, htarget count hcount hlimit⟩, ?_, ?_⟩
  · intro count count' goal goal' hcount hle hlimit hgoal hgoal'
    rw [htarget count hcount (hle.trans hlimit), Option.some.injEq] at hgoal
    rw [htarget count' (hcount.trans hle) hlimit, Option.some.injEq] at hgoal'
    rw [← hgoal, ← hgoal']
    exact noFarther_getLast?_take (j.pairwise_ahead b.marks line) hcount hle line
  · intro count hcount hall hlimit
    rw [htarget count hcount hlimit, farthest, if_neg hne,
      List.take_of_length_le ((j.length_ahead_le b.marks line).trans hall)]

/-! ### Counts that do not fit -/

theorem target?_of_index?_none (hne : marks ≠ []) (hindex : j.index? (inLineOrder marks) line = none) (lastLine : Nat) :
    j.target? marks lastLine line = none := by
  have hempty : ¬ (inLineOrder marks).isEmpty = true := by simpa using inLineOrder_ne_nil hne
  unfold target?
  simp only [outputs_partition, hindex, hempty, Option.bind_eq_bind, Option.bind_none]
  rfl

theorem steps_eq_least (hcount : j.count = 2 ^ 63) : j.steps = -Word.bound := by
  rw [steps, hcount]
  exact Word.ofBits_bound

/-- A backward journey that counts half the unsigned words counts the least word, which nothing can be reduced by. -/
theorem target?_backward_overflow (hstacked : Stacked (inLineOrder marks)) (hne : marks ≠ [])
    (hbackward : j.backward = true) (hcount : j.count = 2 ^ 63) (lastLine line : Nat) :
    j.target? marks lastLine line = none := by
  refine target?_of_index?_none hne ?_ lastLine
  obtain ⟨coming, passed, -, -, -, hindex | ⟨-, hindex⟩⟩ := exists_index?_backward_eq hstacked hbackward line
  · rw [hindex, steps_eq_least hcount, Word.sub?_eq_none (Or.inr (by omega))]
  · rw [hindex, steps_eq_least hcount, Word.sub?_eq_none (Or.inl (by omega)), Option.bind_none]

theorem base_eq_length_filter (hforward : j.backward = false) (marks : List Mark) (line : Nat) :
    j.base marks line = ((inLineOrder marks).filter fun m => m.last < line).length := by
  rw [length_filter_inLineOrder]
  simp [base, hforward]

theorem base_le_length (j : Journey) (marks : List Mark) (line : Nat) : j.base marks line ≤ marks.length := by
  unfold base
  split
  · exact Nat.zero_le _
  · exact List.length_filter_le _ marks

/-- Beside the marks above the line the count is one too many. -/
theorem target?_forward_overflow (hstacked : Stacked (inLineOrder marks)) (hsize : marks.length < 2 ^ 63)
    (hne : marks ≠ []) (hforward : j.backward = false) (hpos : 1 ≤ j.base marks line)
    (hcount : j.count + j.base marks line = 2 ^ 63) (lastLine : Nat) : j.target? marks lastLine line = none := by
  have hle := j.base_le_length marks line
  have hsteps : j.steps = j.count := steps_eq (by omega) (by rw [Word.bound]; omega)
  refine target?_of_index?_none hne ?_ lastLine
  obtain ⟨passed, coming, -, -, -, hindex⟩ := exists_index?_forward_eq hstacked hforward line
  rw [← base_eq_length_filter hforward] at hindex
  rcases hindex with ⟨hlength, hindex⟩ | ⟨hlength, hindex⟩
  · rw [hindex, hsteps, hlength, Word.add?_eq_none (Or.inr (by rw [Word.bound]; omega)), Option.bind_none]
  · rw [hindex, hsteps, Word.add?_eq_none (Or.inr (by rw [Word.bound]; omega))]

/-- With no mark above the line, half the unsigned words count the least word, and the step that is taken back from it
has no result. Inside the uppermost mark, with its edge not ahead, none is taken back, and the journey stays on its
line. -/
theorem target?_forward_least (hstacked : Stacked (inLineOrder marks)) (hne : marks ≠ [])
    (hforward : j.backward = false) (hzero : j.base marks line = 0) (hcount : j.count = 2 ^ 63) (lastLine : Nat) :
    j.target? marks lastLine line = none
      ∨ j.target? marks lastLine line = some line
        ∧ ∃ m coming, inLineOrder marks = m :: coming ∧ j.edge m ≤ line ∧ ∀ m ∈ coming, line < j.edge m := by
  obtain ⟨passed, coming, hmarks, hpassed, hcoming, hindex⟩ := exists_index?_forward_eq hstacked hforward line
  rw [← base_eq_length_filter hforward, hzero, steps_eq_least hcount] at hindex
  rcases hindex with ⟨hlength, hindex⟩ | ⟨hlength, hindex⟩
  · refine Or.inl (target?_of_index?_none hne ?_ lastLine)
    rw [hindex, hlength, Word.add?_of_bounds (by decide) (by decide), Option.bind_some,
      Word.sub?_eq_none (Or.inl (by decide))]
  · -- The index is brought back to the mark that the line is in, which is against the direction.
    have hleast : j.index? (inLineOrder marks) line = some (-Word.bound) := by
      rw [hindex, hlength]
      exact (Word.add?_of_bounds (by decide) (by decide)).trans (by decide)
    obtain ⟨m, rfl⟩ := List.length_eq_one_iff.1 hlength
    have hedge := hpassed m (List.mem_singleton_self m)
    refine Or.inr ⟨?_, m, coming, hmarks, hedge, hcoming⟩
    rw [target?_of_index (inLineOrder_ne_nil hne) lastLine hleast (k := 0)
      (by rw [hmarks, Word.bound]; simp) (m := m) (by rw [hmarks]; rfl), hforward]
    simp only [Bool.false_eq_true, if_false]
    refine congrArg some ?_
    split <;> omega

/-- Inside the only mark, with its edge not ahead, every count leaves a forward journey on its line. -/
theorem target?_around_only {m : Mark} (hforward : j.backward = false) (hfirst : m.first ≤ line)
    (hedge : j.edge m ≤ line) (hlast : line ≤ m.last) (lastLine : Nat) :
    j.target? [m] lastLine line = some (j.farthest [m] lastLine line) := by
  have hordered : inLineOrder [m] = [m] := List.mergeSort_singleton m
  have hindex : j.index? (inLineOrder [m]) line = some (0 + j.steps) := by
    have hbounds : -Word.bound ≤ j.steps ∧ j.steps < Word.bound := Word.ofBits_bounds (max j.count 1)
    rw [hordered]
    refine (j.index?_inside [] (List.forall_mem_nil _) hfirst hlast).trans ?_
    rw [if_neg (by simp [hforward]), if_neg (Nat.not_lt.2 hedge)]
    exact Word.add?_of_bounds (by simpa using hbounds.1) (by simpa using hbounds.2)
  have hahead : j.ahead [m] line = [] := by simp [ahead, hforward, hedge]
  rw [target?_of_index (inLineOrder_ne_nil (List.cons_ne_nil m [])) lastLine hindex (k := 0)
    (by rw [hordered, List.length_singleton]; omega) (m := m) (by rw [hordered]; rfl), farthest, hahead, hforward]
  simp only [Bool.false_eq_true, if_false, if_neg (List.cons_ne_nil m []), List.getLast?_nil, Option.getD_none]
  refine congrArg some ?_
  split <;> omega

/-! ### The limit -/

/-- Where a journey stays on its line with one count, it has nowhere to go with the count of one. -/
theorem CountsTo.ahead_eq_nil {b : Buffer} (h : j.CountsTo b line limit) (hstacked : Stacked (inLineOrder b.marks))
    (hsize : b.marks.length < 2 ^ 63) (hne : b.marks ≠ []) (hforward : j.backward = false)
    (hzero : j.base b.marks line = 0) {count : Nat} (hcount : 1 ≤ count) (hlimit : count ≤ limit)
    (hstays : (j.counting count).target? b.marks b.lines.length line = some line) : j.ahead b.marks line = [] := by
  cases hahead : j.ahead b.marks line with
  | nil => rfl
  | cons n rest =>
      have hone : (j.counting 1).target? b.marks b.lines.length line
          = some (((j.ahead b.marks line).take 1).getLast?.getD line) :=
        target?_of_fits (j := j.counting 1) hstacked hsize hne (Nat.le_refl 1)
          (show 1 + j.base b.marks line < 2 ^ 63 by rw [hzero]; decide) b.lines.length
      have hnear : j.NoFarther n line :=
        h.monotone 1 count n line (Nat.le_refl 1) hcount hlimit (hone.trans (by rw [hahead]; rfl)) hstays
      have hlt : line < n := lt_of_mem_ahead hforward (hahead ▸ List.mem_cons_self)
      simp only [NoFarther, hforward, Bool.false_eq_true, if_false] at hnear
      omega

/-- If a journey can count more than fits, it is a forward one inside the only mark, with the edge of that not ahead. -/
theorem CountsTo.around_only {b : Buffer} (h : j.CountsTo b line limit) (hstacked : Stacked (inLineOrder b.marks))
    (hsize : b.marks.length < 2 ^ 63) (hne : b.marks ≠ []) (hover : 2 ^ 63 ≤ limit + j.base b.marks line) :
    j.backward = false ∧ ∃ m, b.marks = [m] ∧ j.edge m ≤ line ∧ line ≤ m.last := by
  have hle := j.base_le_length b.marks line
  obtain ⟨goal, hgoal⟩ := h.arrives (2 ^ 63 - j.base b.marks line) (by omega) (by omega)
  cases hdirection : j.backward with
  | true =>
      have hzero : j.base b.marks line = 0 := if_pos hdirection
      rw [hzero] at hgoal
      have hnone := target?_backward_overflow (j := j.counting (2 ^ 63)) hstacked hne hdirection rfl b.lines.length line
      exact absurd (hnone.symm.trans hgoal) (by simp)
  | false =>
      rcases Nat.eq_zero_or_pos (j.base b.marks line) with hzero | hpos
      · rw [hzero] at hgoal
        rcases target?_forward_least (j := j.counting (2 ^ 63)) hstacked hne hdirection hzero rfl b.lines.length with
          hnone | ⟨hstays, m, coming, hmarks, hedge, hcoming⟩
        · exact absurd (hnone.symm.trans hgoal) (by simp)
        have hnil := h.ahead_eq_nil hstacked hsize hne hdirection hzero (by decide) (by omega) hstays
        have hsplit : inLineOrder b.marks = [m] ++ coming := hmarks
        have hperm : b.marks.Perm ([m] ++ coming) := hsplit ▸ (inLineOrder_perm b.marks).symm
        have hahead : j.ahead b.marks line = coming.map j.edge :=
          ahead_forward hdirection (hsplit ▸ hstacked) hperm (List.forall_mem_singleton.2 hedge) hcoming
        obtain rfl : coming = [] := List.map_eq_nil_iff.1 (hahead.symm.trans hnil)
        have honly : b.marks = [m] := List.perm_singleton.1 hperm
        refine ⟨rfl, m, honly, hedge, ?_⟩
        simpa [base, hdirection, honly, List.filter_cons] using hzero
      · have hnone := target?_forward_overflow (j := j.counting (2 ^ 63 - j.base b.marks line)) hstacked hsize hne
          hdirection hpos (Nat.sub_add_cancel (by omega)) b.lines.length
        exact absurd (hnone.symm.trans hgoal) (by simp)

/-- **A journey can count up to a limit exactly if the limit and the marks above the line fit a signed word,** for marks
that share no line, in whatever order they are stored. There are two exceptions, in which the count does not matter: a
buffer without marks, and a forward journey inside the only mark when the edge of that is not ahead. In all other cases
some unsigned word is too much to count. The marks are as many as a signed word can number. -/
theorem countsTo_iff {b : Buffer} (hproper : ∀ m ∈ b.marks, m.first ≤ m.last)
    (hdisjoint : b.marks.Pairwise Mark.Disjoint) (hsize : b.marks.length < 2 ^ 63) (line limit : Nat) :
    j.CountsTo b line limit ↔ limit + j.base b.marks line < 2 ^ 63 ∨ b.marks = []
      ∨ j.backward = false ∧ ∃ m, b.marks = [m] ∧ j.edge m ≤ line ∧ line ≤ m.last := by
  have hstacked := stacked_inLineOrder hdisjoint hproper
  by_cases hnone : b.marks = []
  · exact iff_of_true (CountsTo.of_constant fun count _ => (j.counting count).target?_nil hnone line)
      (Or.inr (Or.inl hnone))
  constructor
  · intro h
    by_cases hfits : limit + j.base b.marks line < 2 ^ 63
    · exact Or.inl hfits
    · exact Or.inr (Or.inr (h.around_only hstacked hsize hnone (Nat.le_of_not_lt hfits)))
  · rintro (hfits | hnil | ⟨hforward, m, hmarks, hedge, hlast⟩)
    · exact CountsTo.of_fits hstacked hsize hnone hfits
    · exact absurd hnil hnone
    · have hfirst : m.first ≤ line :=
        (j.edge_bounds (hproper m (by simp [hmarks]))).1.trans hedge
      refine CountsTo.of_constant fun count _ => ?_
      rw [hmarks]
      exact target?_around_only (j := j.counting count) hforward hfirst hedge hlast b.lines.length

/-- With one output above the line the greatest of the signed words is one too many. -/
theorem countsTo_iff_below_output :
    (∀ m ∈ outputBuffer.marks, m.first ≤ m.last) ∧ outputBuffer.marks.Pairwise Mark.Disjoint
      ∧ outputBuffer.marks.length < 2 ^ 63
      ∧ Journey.CountsTo ⟨false, false, 1⟩ outputBuffer 6 (2 ^ 63 - 2)
      ∧ ¬ Journey.CountsTo ⟨false, false, 1⟩ outputBuffer 6 (2 ^ 63 - 1) := by
  have hproper : ∀ m ∈ outputBuffer.marks, m.first ≤ m.last := by decide
  have hdisjoint : outputBuffer.marks.Pairwise Mark.Disjoint :=
    List.pairwise_pair.2 (symm (Mark.disjoint_of_lt (by decide)))
  have hsize : outputBuffer.marks.length < 2 ^ 63 := by decide
  have hlimit := countsTo_iff (j := ⟨false, false, 1⟩) hproper hdisjoint hsize 6
  refine ⟨hproper, hdisjoint, hsize, (hlimit _).2 (Or.inl (by decide)), fun h => ?_⟩
  rcases (hlimit _).1 h with hfits | hnil | ⟨-, m, hmarks, -⟩
  · exact absurd hfits (by decide)
  · exact absurd hnil (by decide)
  · cases hmarks

end Journey

end Navigation

end Transcript
