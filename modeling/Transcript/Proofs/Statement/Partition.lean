import Transcript.Proofs.Statement.Insertion

/-!
Statements cut up the lines of a buffer. A block is a stretch of lines that starts with a line that is no continuation,
goes on with continuations, and is not gone on with below. What is resolved under a cursor is the block that the cursor
is in, found upwards for its first line and downwards for its last one; so all lines of a block resolve to it, and two
blocks that share a line are one. Only the continuations on top of a buffer, which go on with nothing, are in no block.
-/
namespace Transcript.Statement

variable {marker : Char} {lines above below : List String} {st st' : Statement} {cursor line : Nat}

/-- The lines from `first` to `last`, counted from 1: the first one is no continuation, all others are, and the line
below them, if there is one, is not. -/
structure IsBlock (marker : Char) (lines : List String) (st : Statement) : Prop where
  first_pos : 1 ≤ st.first
  first_le : st.first ≤ st.last
  last_le : st.last ≤ lines.length
  lines_eq : st.lines = (lines.take st.last).drop (st.first - 1)
  head : ∀ text, lines[st.first - 1]? = some text → isContinuation marker text = false
  rest : ∀ line text, st.first < line → line ≤ st.last → lines[line - 1]? = some text →
    isContinuation marker text = true
  next : ∀ text, lines[st.last]? = some text → isContinuation marker text = false

/-- The line is one of the statement. -/
def Covers (st : Statement) (line : Nat) : Prop := st.first ≤ line ∧ line ≤ st.last

/-- Some cursor resolves to the statement. -/
def IsResolved (marker : Char) (lines : List String) (st : Statement) : Prop :=
  ∃ cursor, resolve? marker lines cursor = some st

/-! ### Blocks between other lines -/

theorem StandsIn.isBlock (h : StandsIn marker lines above below st) : IsBlock marker lines st := by
  obtain ⟨rfl, hfirst, hlast, ⟨first, rest, hcons, hhead, hrest⟩, hbelow⟩ := h
  have hlength : st.lines.length = rest.length + 1 := by rw [hcons, List.length_cons]
  have htop : st.first - 1 = above.length := by omega
  refine ⟨by omega, by omega, ?_, ?_, ?_, ?_, ?_⟩
  · simp only [List.length_append]
    omega
  · rw [hlast, htop, ← List.length_append, List.take_left, List.drop_left]
  · intro text htext
    rw [htop, hcons, List.append_assoc, List.getElem?_append_right le_rfl, Nat.sub_self] at htext
    rw [← Option.some.inj htext]
    exact hhead
  · intro line text hbehind hle htext
    -- Counted from the first line, a line behind it is one of `rest`.
    obtain ⟨k, rfl⟩ : ∃ k, line = st.first + 1 + k := ⟨line - (st.first + 1), by omega⟩
    have hplace : st.first + 1 + k - 1 = above.length + (k + 1) := by omega
    rw [hplace, hcons, List.append_assoc, List.getElem?_append_right (by omega), Nat.add_sub_cancel_left,
      List.cons_append, List.getElem?_cons_succ, List.getElem?_append_left (by omega)] at htext
    exact hrest text (List.mem_of_getElem? htext)
  · intro text htext
    rw [hlast, ← List.length_append, List.getElem?_append_right le_rfl, Nat.sub_self] at htext
    exact hbelow text (by rw [List.head?_eq_getElem?, htext])

theorem IsBlock.standsIn (h : IsBlock marker lines st) :
    StandsIn marker lines (lines.take (st.first - 1)) (lines.drop st.last) st := by
  obtain ⟨hpos, hle, hlength, hlines, hhead, hrest, hnext⟩ := h
  have hcount : st.lines.length = st.last - (st.first - 1) := by
    rw [hlines, List.length_drop, List.length_take, Nat.min_eq_left hlength]
  have htop : (lines.take (st.first - 1)).length = st.first - 1 := by
    rw [List.length_take, Nat.min_eq_left (by omega)]
  have hat : ∀ i, i < st.lines.length → st.lines[i]? = lines[st.first - 1 + i]? := by
    intro i hi
    rw [hlines, List.getElem?_drop, List.getElem?_take_of_lt (by omega)]
  refine ⟨?_, by omega, by omega, ?_, ?_⟩
  · have htake : lines.take (st.first - 1) = (lines.take st.last).take (st.first - 1) := by
      rw [List.take_take, Nat.min_eq_left (by omega)]
    rw [hlines, htake, List.take_append_drop, List.take_append_drop]
  · obtain ⟨first, rest, hcons⟩ := List.exists_cons_of_ne_nil (List.length_pos_iff.1 (by omega : 0 < st.lines.length))
    refine ⟨first, rest, hcons, ?_, ?_⟩
    · refine hhead first ?_
      rw [← Nat.add_zero (st.first - 1), ← hat 0 (by omega), hcons]
      rfl
    · intro text htext
      obtain ⟨i, hi, rfl⟩ := List.mem_iff_getElem.1 htext
      have hbound : i + 1 < st.lines.length := by
        rw [hcons, List.length_cons]
        omega
      refine hrest (st.first + 1 + i) _ (by omega) (by omega) ?_
      have hplace : st.first + 1 + i - 1 = st.first - 1 + (i + 1) := by omega
      rw [hplace, ← hat (i + 1) hbound, hcons, List.getElem?_cons_succ, List.getElem?_eq_getElem hi]
  · intro text htext
    rw [List.head?_drop] at htext
    exact hnext text htext

/-! ### What is resolved -/

/-- A cursor outside of the lines counts as the line that it is nearest to. -/
theorem resolve?_nearest (marker : Char) (lines : List String) (cursor : Nat) :
    resolve? marker lines (min (max cursor 1) lines.length) = resolve? marker lines cursor := by
  apply resolve?_congr
  unfold cursorIndex
  omega

/-- The statement under a cursor is the block that the cursor is in. -/
theorem resolve?_eq_some_iff (hlines : lines ≠ []) :
    resolve? marker lines cursor = some st
      ↔ IsBlock marker lines st ∧ st.Covers (min (max cursor 1) lines.length) := by
  have hpos := List.length_pos_iff.2 hlines
  rw [← resolve?_nearest]
  constructor
  · intro h
    obtain ⟨⟨above, below, hst⟩, hcovers⟩ := exists_standsIn (by omega) (by omega) h
    exact ⟨hst.isBlock, hcovers⟩
  · rintro ⟨hblock, hfirst, hlast⟩
    exact hblock.standsIn.resolve?_eq hfirst hlast

theorem resolve?_eq_none_iff (hlines : lines ≠ []) :
    resolve? marker lines cursor = none
      ↔ ∀ text ∈ lines.take (min (max cursor 1) lines.length), isContinuation marker text = true := by
  have hindex : cursorIndex lines cursor + 1 = min (max cursor 1) lines.length := by
    have hpos := List.length_pos_iff.2 hlines
    unfold cursorIndex
    omega
  rw [← hindex]
  refine ⟨fun hnone => ?_, resolve?_of_headless hlines⟩
  rcases exists_statement_or_headless marker hlines cursor with ⟨above, upto, behind, below, hsplits, hupto⟩ | hall
  · rw [hsplits.resolve?_eq hupto] at hnone
    cases hnone
  · exact hall

theorem isResolved_iff (hlines : lines ≠ []) : IsResolved marker lines st ↔ IsBlock marker lines st := by
  constructor
  · rintro ⟨cursor, h⟩
    exact ((resolve?_eq_some_iff hlines).1 h).1
  · intro h
    exact ⟨st.first, h.standsIn.resolve?_eq le_rfl h.first_le⟩

/-! ### The partition -/

theorem IsBlock.resolve?_of_covers (h : IsBlock marker lines st) (hcovers : st.Covers line) :
    resolve? marker lines line = some st :=
  h.standsIn.resolve?_eq hcovers.1 hcovers.2

/-- Blocks that share a line are one. -/
theorem IsBlock.eq_of_covers (h : IsBlock marker lines st) (h' : IsBlock marker lines st') (hcovers : st.Covers line)
    (hcovers' : st'.Covers line) : st = st' :=
  Option.some.inj ((h.resolve?_of_covers hcovers).symm.trans (h'.resolve?_of_covers hcovers'))

/-- All lines up to a line have a property exactly if it is one of the lines on top that have it. -/
theorem forall_mem_take_iff {p : String → Bool} (hle : line ≤ lines.length) :
    (∀ text ∈ lines.take line, p text = true) ↔ line ≤ (lines.takeWhile p).length := by
  constructor
  · intro hall
    have htop : (lines.take line).length = line := by rw [List.length_take, Nat.min_eq_left hle]
    rw [← List.take_append_drop line lines, List.takeWhile_append_of_pos hall, List.length_append, htop]
    exact Nat.le_add_right _ _
  · intro htop text htext
    obtain ⟨rest, hrest⟩ := List.takeWhile_prefix (l := lines) p
    rw [← hrest, List.take_append_of_le_length htop] at htext
    exact List.mem_takeWhile_imp (List.mem_of_mem_take htext)

/-- The lines that are in a block are those below the continuations on top. -/
theorem exists_covers_iff (hlines : lines ≠ []) :
    (∃ st, IsBlock marker lines st ∧ st.Covers line)
      ↔ (lines.takeWhile (isContinuation marker)).length < line ∧ line ≤ lines.length := by
  have hinside : 1 ≤ line → line ≤ lines.length →
      (resolve? marker lines line = none ↔ line ≤ (lines.takeWhile (isContinuation marker)).length) := by
    intro hpos hle
    rw [resolve?_eq_none_iff hlines, Nat.max_eq_left hpos, Nat.min_eq_left hle, forall_mem_take_iff hle]
  constructor
  · rintro ⟨st, hblock, hcovers⟩
    have hle := hcovers.2.trans hblock.last_le
    refine ⟨?_, hle⟩
    by_contra htop
    have hnone := (hinside (hblock.first_pos.trans hcovers.1) hle).2 (by omega)
    rw [hblock.resolve?_of_covers hcovers] at hnone
    cases hnone
  · rintro ⟨htop, hle⟩
    have hpos : 1 ≤ line := by omega
    cases hst : resolve? marker lines line with
    | none => exact absurd ((hinside hpos hle).1 hst) (by omega)
    | some st =>
        rw [resolve?_eq_some_iff hlines, Nat.max_eq_left hpos, Nat.min_eq_left hle] at hst
        exact ⟨st, hst⟩

/-- **Resolving a cursor.** Nothing is resolved exactly if all lines up to the cursor are continuations. What is resolved
is the block that the cursor is in: a stretch of the lines, of which the first is no continuation, all others are, and
the one that follows is not. Each of its lines resolves to it. So the statements that are resolved cut up the lines
below the continuations on top: each such line is in one of them, and no other line is in any. -/
theorem resolve?_partition (marker : Char) {lines : List String} (hlines : lines ≠ []) (cursor : Nat) :
    (resolve? marker lines cursor = none
        ↔ ∀ text ∈ lines.take (min (max cursor 1) lines.length), isContinuation marker text = true)
      ∧ (∀ st, resolve? marker lines cursor = some st
          ↔ IsBlock marker lines st ∧ st.Covers (min (max cursor 1) lines.length))
      ∧ (∀ st, resolve? marker lines cursor = some st →
          ∀ other, st.Covers other → resolve? marker lines other = some st)
      ∧ (∀ line, (lines.takeWhile (isContinuation marker)).length < line → line ≤ lines.length →
          ∃! st, IsResolved marker lines st ∧ st.Covers line)
      ∧ ∀ line st, IsResolved marker lines st → st.Covers line →
          (lines.takeWhile (isContinuation marker)).length < line ∧ line ≤ lines.length := by
  refine ⟨resolve?_eq_none_iff hlines, fun _ => resolve?_eq_some_iff hlines, ?_, ?_, ?_⟩
  · intro st h other hcovers
    exact ((resolve?_eq_some_iff hlines).1 h).1.resolve?_of_covers hcovers
  · intro line htop hle
    obtain ⟨st, hblock, hcovers⟩ := (exists_covers_iff hlines).2 ⟨htop, hle⟩
    refine ⟨st, ⟨(isResolved_iff hlines).2 hblock, hcovers⟩, ?_⟩
    rintro st' ⟨hresolved, hcovers'⟩
    exact ((isResolved_iff hlines).1 hresolved).eq_of_covers hblock hcovers' hcovers
  · intro line st hresolved hcovers
    exact (exists_covers_iff hlines).1 ⟨st, (isResolved_iff hlines).1 hresolved, hcovers⟩

/-- A continuation that goes on with nothing, and two statements. -/
def headlessLines : List String := ["\\a", "x = 1", "\\+ 2", "y"]

/-- The first line is in no statement, the next two are one, and a cursor below the last line is on the last statement. -/
theorem resolve?_partition_below_headless :
    headlessLines ≠ []
      ∧ (∀ text ∈ headlessLines.take 1, isContinuation '\\' text = true)
      ∧ (∀ other, 2 ≤ other → other ≤ 3 →
          resolve? '\\' headlessLines other = some ⟨["x = 1", "\\+ 2"], 2, 3⟩)
      ∧ (IsBlock '\\' headlessLines ⟨["y"], 4, 4⟩ ∧ Covers ⟨["y"], 4, 4⟩ 4)
      ∧ ∃! st, IsResolved '\\' headlessLines st ∧ st.Covers 4 := by
  have hlines : headlessLines ≠ [] := List.cons_ne_nil _ _
  obtain ⟨htop, -, -, hunique, -⟩ := resolve?_partition '\\' hlines 1
  obtain ⟨-, -, hcovered, -, -⟩ := resolve?_partition '\\' hlines 3
  obtain ⟨-, hbelow, -, -, -⟩ := resolve?_partition '\\' hlines 9
  refine ⟨hlines, htop.1 (by decide), ?_, (hbelow _).1 (by decide), hunique 4 (by decide) (by decide)⟩
  intro other hfirst hlast
  exact hcovered _ (by decide) other ⟨hfirst, hlast⟩

end Transcript.Statement
