import Transcript.Proofs.Buffer.Insertion
import Transcript.Proofs.Statement

/-!
Statements around an insertion. A statement stands in a list of lines where the line below it does not go on with it,
and each of its lines resolves to it. After a block of lines went in, a statement stands where its lines went, unless
the block tears it: unless the block went between two of its lines, or right below it with a first line that goes on.
-/
namespace Transcript

theorem EndsBlock.append {marker : Char} {block below : List String} (hblock : EndsBlock marker block)
    (hbelow : EndsBlock marker below) : EndsBlock marker (block ++ below) := by
  cases block with
  | nil => exact hbelow
  | cons line rest => exact hblock

theorem EndsBlock.of_append {marker : Char} {block below : List String} (h : EndsBlock marker (block ++ below)) :
    EndsBlock marker block := by
  cases block with
  | nil =>
      intro line hline
      cases hline
  | cons line rest => exact h

namespace Statement

/-- The statement stands in the lines, between some above and some below that do not go on with it. -/
structure StandsIn (marker : Char) (lines above below : List String) (st : Statement) : Prop where
  lines_eq : lines = above ++ st.lines ++ below
  first : st.first = above.length + 1
  last : st.last = above.length + st.lines.length
  isStatement : IsStatement marker st.lines
  below : EndsBlock marker below

variable {marker : Char} {lines above below : List String} {st : Statement}

theorem StandsIn.first_le_last (h : StandsIn marker lines above below st) : st.first ≤ st.last := by
  have hpos := List.length_pos_iff.2 h.isStatement.ne_nil
  rw [h.first, h.last]
  omega

/-- Every line of a statement resolves to it. -/
theorem StandsIn.resolve?_eq (h : StandsIn marker lines above below st) {cursor : Nat} (hfirst : st.first ≤ cursor)
    (hlast : cursor ≤ st.last) : resolve? marker lines cursor = some st := by
  obtain ⟨hlines, hf, hl, ⟨first, rest, hcons, hhead, hrest⟩, hbelow⟩ := h
  have hlength : st.last = above.length + 1 + rest.length := by
    rw [hl, hcons, List.length_cons]
    omega
  -- The cursor is on the last of the lines `first :: rest.take k`.
  obtain ⟨k, rfl⟩ : ∃ k, cursor = above.length + 1 + k := ⟨cursor - (above.length + 1), by omega⟩
  have hk : k ≤ rest.length := by omega
  have hwhole : first :: rest.take k ++ rest.drop k = st.lines := by
    rw [hcons, List.cons_append, List.take_append_drop]
  have hsplits : Splits marker (above ++ first :: rest.take k ++ (rest.drop k ++ below))
      (above ++ first :: rest.take k).length above (first :: rest.take k) (rest.drop k) below :=
    splits_at_end (List.cons_ne_nil _ _) (fun line hline => hrest line (List.mem_of_mem_drop hline)) hbelow
  have hcursor : (above ++ first :: rest.take k).length = above.length + 1 + k := by
    rw [List.length_append, List.length_cons, List.length_take, Nat.min_eq_left hk]
    omega
  have hsplit : above ++ first :: rest.take k ++ (rest.drop k ++ below) = lines := by
    rw [hlines, ← hwhole]
    simp only [List.append_assoc]
  rw [hcursor, hsplit] at hsplits
  have hresolve := hsplits.resolve?_eq
    ⟨first, rest.take k, rfl, hhead, fun line hline => hrest line (List.mem_of_mem_take hline)⟩
  rw [hresolve, List.append_assoc, hwhole, ← hf, List.length_append, ← hl]

/-- What a line resolves to stands around it. -/
theorem exists_standsIn {cursor : Nat} (hpos : 0 < cursor) (hle : cursor ≤ lines.length)
    (h : resolve? marker lines cursor = some st) :
    (∃ above below, StandsIn marker lines above below st) ∧ st.first ≤ cursor ∧ cursor ≤ st.last := by
  have hlines : lines ≠ [] := by
    rintro rfl
    rw [List.length_nil] at hle
    omega
  have hindex := cursorIndex_of_le hpos hle
  rcases exists_statement_or_headless marker hlines cursor with ⟨above, upto, behind, below, hsplits, hupto⟩ | hall
  · have hst := h.symm.trans (hsplits.resolve?_eq hupto)
    obtain rfl := Option.some.inj hst
    have hcursor : (above ++ upto).length = cursor := hsplits.cursor.symm.trans hindex
    have hnonempty := List.length_pos_iff.2 hupto.ne_nil
    rw [List.length_append] at hcursor
    refine ⟨⟨above, below, ?_, rfl, ?_, hupto.append hsplits.behind, hsplits.below⟩, ?_, ?_⟩
    · rw [hsplits.lines_eq]
      simp
    · simp
    · show above.length + 1 ≤ cursor
      omega
    · show cursor ≤ (above ++ upto ++ behind).length
      rw [List.length_append, List.length_append]
      omega
  · rw [resolve?_of_headless hlines hall] at h
    cases h

/-! ### Insertions -/

/-- The statement after `count` lines went below line `place`. -/
def movedBelow (place count : Nat) (st : Statement) : Statement :=
  { st with first := lineBelow place count st.first, last := lineBelow place count st.last }

/-- A block that goes below line `place` tears the statement: it goes between two of its lines, or right below it and
goes on with it. -/
def TornBy (marker : Char) (place : Nat) (block : List String) (st : Statement) : Prop :=
  block ≠ [] ∧ st.first ≤ place ∧ (place < st.last ∨ place = st.last ∧ ¬ EndsBlock marker block)

variable {top bottom block : List String}

/-- A statement below the block keeps its lines. -/
theorem StandsIn.insert_above (h : StandsIn marker (top ++ bottom) above below st) (habove : top.length < st.first) :
    StandsIn marker (top ++ block ++ bottom) (top ++ block ++ above.drop top.length) below
      (st.movedBelow top.length block.length) := by
  obtain ⟨hlines, hf, hl, hst, hbelow⟩ := h
  have hlast : top.length < st.last := by
    have hpos := List.length_pos_iff.2 hst.ne_nil
    omega
  obtain ⟨between, rfl⟩ : top <+: above := by
    refine List.prefix_of_prefix_length_le (List.prefix_append top bottom) ?_ (by omega)
    rw [hlines, List.append_assoc]
    exact List.prefix_append above _
  rw [List.append_assoc, List.append_assoc, List.append_cancel_left_eq] at hlines
  rw [List.length_append] at hf hl
  rw [movedBelow, lineBelow, lineBelow, if_pos habove, if_pos hlast]
  refine ⟨by simp [hlines], ?_, ?_, hst, hbelow⟩
  · simp only [hf, List.drop_left, List.length_append]
    omega
  · simp only [hl, List.drop_left, List.length_append]
    omega

/-- A statement above the block keeps its lines, unless the block goes on with it. -/
theorem StandsIn.insert_below (h : StandsIn marker (top ++ bottom) above below st) (hlast : st.last ≤ top.length)
    (hends : st.last = top.length → EndsBlock marker block) :
    StandsIn marker (top ++ block ++ bottom) above (top.drop st.last ++ block ++ bottom)
      (st.movedBelow top.length block.length) := by
  have hfirst := h.first_le_last
  obtain ⟨hlines, hf, hl, hst, hbelow⟩ := h
  obtain ⟨between, rfl⟩ : above ++ st.lines <+: top := by
    refine List.prefix_of_prefix_length_le ?_ (List.prefix_append top bottom) (by rw [List.length_append]; omega)
    rw [hlines]
    exact List.prefix_append _ below
  rw [List.append_assoc (above ++ st.lines), List.append_cancel_left_eq] at hlines
  have hdrop : (above ++ st.lines ++ between).drop st.last = between := by
    rw [hl, ← List.length_append, List.drop_left]
  rw [movedBelow, lineBelow, lineBelow, if_neg (by omega), if_neg (by omega), hdrop]
  refine ⟨by simp, hf, hl, hst, ?_⟩
  rw [← hlines] at hbelow
  cases between with
  | nil =>
      refine EndsBlock.append (hends ?_) hbelow
      rw [hl, List.append_nil, List.length_append]
  | cons line rest => exact hbelow

/-- A statement that the block tears does not stand where its lines went. -/
theorem not_standsIn_of_tornBy (h : StandsIn marker (top ++ bottom) above below st)
    (htorn : st.TornBy marker top.length block) (above' below' : List String) :
    ¬ StandsIn marker (top ++ block ++ bottom) above' below' (st.movedBelow top.length block.length) := by
  obtain ⟨hne, hfirst, hwhere⟩ := htorn
  have hpos := List.length_pos_iff.2 hne
  rintro ⟨hlines, hf, hl, -, hbelow⟩
  have hstays : lineBelow top.length block.length st.first = st.first := by
    rw [lineBelow, if_neg (by omega)]
  simp only [movedBelow, hstays] at hlines hf hl
  have hsame : above'.length = above.length := by
    have hbefore := h.first
    omega
  rcases hwhere with hbetween | ⟨hend, hgoes⟩
  · -- The statement would have grown by the block.
    rw [lineBelow, if_pos hbetween, h.last] at hl
    omega
  · have hbefore : (above' ++ st.lines).length = top.length := by
      rw [List.length_append, hsame, hend, h.last]
    rw [List.append_assoc] at hlines
    have hrest := (List.append_inj hlines hbefore.symm).2
    rw [← hrest] at hbelow
    exact hgoes hbelow.of_append

theorem lineBelow_mono {place count a b : Nat} (h : a ≤ b) : lineBelow place count a ≤ lineBelow place count b := by
  unfold lineBelow
  split <;> split <;> omega

/-- **A line resolves to its statement after an insertion exactly if the block does not tear it.** -/
theorem resolve?_insert_iff {cursor : Nat} (hpos : 0 < cursor) (hle : cursor ≤ (top ++ bottom).length)
    (h : resolve? marker (top ++ bottom) cursor = some st) :
    resolve? marker (top ++ block ++ bottom) (lineBelow top.length block.length cursor)
        = some (st.movedBelow top.length block.length)
      ↔ ¬ st.TornBy marker top.length block := by
  obtain ⟨⟨above, below, hst⟩, hfirst, hlast⟩ := exists_standsIn hpos hle h
  constructor
  · intro hresolve htorn
    have hpos' : 0 < lineBelow top.length block.length cursor := by
      unfold lineBelow
      split <;> omega
    have hle' : lineBelow top.length block.length cursor ≤ (top ++ block ++ bottom).length := by
      simp only [List.length_append] at hle ⊢
      unfold lineBelow
      split <;> omega
    obtain ⟨⟨above', below', hst'⟩, -, -⟩ := exists_standsIn hpos' hle' hresolve
    exact not_standsIn_of_tornBy hst htorn above' below' hst'
  · intro huntorn
    by_cases habove : top.length < st.first
    · exact (hst.insert_above habove).resolve?_eq (lineBelow_mono hfirst) (lineBelow_mono hlast)
    · by_cases hempty : block = []
      · subst hempty
        have hsame : ∀ line, lineBelow top.length ([] : List String).length line = line := by
          intro line
          unfold lineBelow
          split <;> rfl
        rw [movedBelow, hsame, hsame, hsame, List.append_nil]
        exact h
      · have hbelow : st.last ≤ top.length := by
          by_contra hlt
          exact huntorn ⟨hempty, by omega, Or.inl (by omega)⟩
        have hends : st.last = top.length → EndsBlock marker block := by
          intro hend
          by_contra hgoes
          exact huntorn ⟨hempty, by omega, Or.inr ⟨hend.symm, hgoes⟩⟩
        exact (hst.insert_below hbelow hends).resolve?_eq (lineBelow_mono hfirst) (lineBelow_mono hlast)

/-- No line of the block resolves to a statement that the block does not tear. -/
theorem resolve?_block_ne (huntorn : ¬ st.TornBy marker top.length block) {line : Nat} (habove : top.length < line)
    (hbelow : line ≤ top.length + block.length) :
    resolve? marker (top ++ block ++ bottom) line ≠ some (st.movedBelow top.length block.length) := by
  intro h
  have hblock : block ≠ [] := by
    rintro rfl
    rw [List.length_nil] at hbelow
    omega
  have hle : line ≤ (top ++ block ++ bottom).length := by
    rw [List.length_append, List.length_append]
    omega
  obtain ⟨-, hfirst, hlast⟩ := exists_standsIn (by omega) hle h
  simp only [movedBelow, lineBelow] at hfirst hlast
  by_cases hplace : top.length < st.first
  · rw [if_pos hplace] at hfirst
    omega
  · have hbetween : ¬ top.length < st.last := fun hlt => huntorn ⟨hblock, by omega, Or.inl hlt⟩
    rw [if_neg hbetween] at hlast
    omega

end Statement

end Transcript
