import Mathlib.Data.List.DropRight
import Mathlib.Data.List.TakeWhile
import Transcript.Statement

/-!
Resolving statements. A statement is a line that is no continuation with the continuation lines below it. The cursor
may be on any of them: the statement that stands there is the one that is resolved. Under a cursor with nothing but
continuations up to it there is none.
-/
namespace Transcript

theorem isContinuation_cons (marker : Char) (cs : List Char) :
    isContinuation marker (String.ofList (marker :: cs)) = true := by
  simp [isContinuation]

theorem stripMarker_cons (marker : Char) (piece : String) :
    stripMarker marker (String.ofList (marker :: piece.toList)) = piece := by
  rw [stripMarker, if_pos (isContinuation_cons marker piece.toList)]
  simp

theorem stripMarker_of_not {marker : Char} {line : String} (h : isContinuation marker line = false) :
    stripMarker marker line = line := by
  rw [stripMarker, if_neg (by simp [h])]

/-- The lines of a statement: the first one is no continuation, all others are. -/
def IsStatement (marker : Char) (lines : List String) : Prop :=
  ∃ first rest, lines = first :: rest ∧ isContinuation marker first = false
    ∧ ∀ line ∈ rest, isContinuation marker line = true

/-- Lines that do not go on with what stands above them. -/
def EndsBlock (marker : Char) (lines : List String) : Prop :=
  ∀ line, lines.head? = some line → isContinuation marker line = false

theorem IsStatement.ne_nil {marker : Char} {lines : List String} (h : IsStatement marker lines) : lines ≠ [] := by
  obtain ⟨first, rest, rfl, -, -⟩ := h
  exact List.cons_ne_nil first rest

theorem IsStatement.append {marker : Char} {lines more : List String} (h : IsStatement marker lines)
    (hmore : ∀ line ∈ more, isContinuation marker line = true) : IsStatement marker (lines ++ more) := by
  obtain ⟨first, rest, rfl, hfirst, hrest⟩ := h
  refine ⟨first, rest ++ more, rfl, hfirst, ?_⟩
  intro line hline
  exact (List.mem_append.1 hline).elim (hrest line) (hmore line)

/-- A line of a statement heads it, or goes on with a statement above it; the lines below go on with it. -/
theorem isStatement_append_cons_iff {marker : Char} {pre post : List String} {line : String} :
    IsStatement marker (pre ++ line :: post)
      ↔ (pre = [] ∧ isContinuation marker line = false ∨ IsStatement marker pre ∧ isContinuation marker line = true)
        ∧ ∀ l ∈ post, isContinuation marker l = true := by
  constructor
  · rintro ⟨first, rest, hcons, hfirst, hrest⟩
    cases pre with
    | nil =>
        obtain ⟨rfl, rfl⟩ := List.cons.inj hcons
        exact ⟨Or.inl ⟨rfl, hfirst⟩, hrest⟩
    | cons before pre =>
        rw [List.cons_append] at hcons
        obtain ⟨rfl, rfl⟩ := List.cons.inj hcons
        obtain ⟨hpre, hbelow⟩ := List.forall_mem_append.1 hrest
        obtain ⟨hline, hpost⟩ := List.forall_mem_cons.1 hbelow
        exact ⟨Or.inr ⟨⟨before, pre, rfl, hfirst, hpre⟩, hline⟩, hpost⟩
  · rintro ⟨⟨rfl, hline⟩ | ⟨hpre, hline⟩, hpost⟩
    · exact ⟨line, post, rfl, hline, hpost⟩
    · exact hpre.append (List.forall_mem_cons.2 ⟨hline, hpost⟩)

theorem takeWhile_of_endsBlock {marker : Char} {behind below : List String}
    (hbehind : ∀ line ∈ behind, isContinuation marker line = true) (hbelow : EndsBlock marker below) :
    (behind ++ below).takeWhile (isContinuation marker) = behind := by
  rw [List.takeWhile_append_of_pos hbehind]
  cases below with
  | nil => simp
  | cons line below => simp [hbelow line rfl]

theorem endsBlock_dropWhile (marker : Char) (lines : List String) :
    EndsBlock marker (lines.dropWhile (isContinuation marker)) := by
  intro line hline
  have hhead := List.head?_dropWhile_not (isContinuation marker) lines
  rw [hline] at hhead
  simpa using hhead

namespace Statement

theorem blockEnd_le (marker : Char) (lines : List String) (cursor : Nat) :
    blockEnd marker lines cursor ≤ lines.length := by
  unfold blockEnd
  split
  · exact Nat.zero_le _
  next hlines =>
    have hpos : 0 < lines.length := by
      cases lines with
      | nil => simp at hlines
      | cons line lines => exact Nat.zero_lt_succ _
    have hbelow : continuationsBelow marker lines (cursorIndex lines cursor)
        ≤ (lines.drop (cursorIndex lines cursor + 1)).length := (List.takeWhile_sublist _).length_le
    rw [List.length_drop] at hbelow
    simp only
    unfold cursorIndex at *
    omega

theorem cursorIndex_of_le {lines : List String} {cursor : Nat} (hpos : 0 < cursor) (hle : cursor ≤ lines.length) :
    cursorIndex lines cursor + 1 = cursor := by
  unfold cursorIndex
  omega

/-- A cursor counts by the line that it is nearest to. -/
theorem resolve?_congr {marker : Char} {lines : List String} {cursor cursor' : Nat}
    (h : cursorIndex lines cursor = cursorIndex lines cursor') :
    resolve? marker lines cursor = resolve? marker lines cursor' := by
  simp only [resolve?, blockEnd, h]

theorem cursorIndex_length {lines : List String} (hlines : lines ≠ []) :
    cursorIndex lines lines.length + 1 = lines.length :=
  cursorIndex_of_le (List.length_pos_iff.2 hlines) le_rfl

/-- No line follows the last one. -/
theorem blockEnd_length (marker : Char) {lines : List String} (hlines : lines ≠ []) :
    blockEnd marker lines lines.length = lines.length := by
  have hindex := cursorIndex_length hlines
  rw [blockEnd, if_neg (by simpa using hlines)]
  simp only [continuationsBelow, hindex, List.drop_length, List.takeWhile_nil, List.length_nil, Nat.add_zero]

theorem last_of_resolve? {marker : Char} {lines : List String} {cursor : Nat} {statement : Statement}
    (hlines : lines ≠ []) (h : resolve? marker lines cursor = some statement) :
    statement.last = blockEnd marker lines cursor := by
  have hempty : ¬ lines.isEmpty = true := by simpa using hlines
  rw [resolve?, if_neg hempty] at h
  simp only at h
  split at h
  · cases h
  · rw [← Option.some.inj h]

/-! ### Where a statement stands -/

/-- The cursor is on the last of the lines `upto`, the continuation lines `behind` follow it, and `below` does not go
on with them. -/
structure Splits (marker : Char) (lines : List String) (cursor : Nat) (above upto behind below : List String) :
    Prop where
  lines_eq : lines = above ++ upto ++ (behind ++ below)
  cursor : cursorIndex lines cursor + 1 = (above ++ upto).length
  behind : ∀ line ∈ behind, isContinuation marker line = true
  below : EndsBlock marker below

variable {marker : Char} {lines above upto behind below : List String} {cursor : Nat}

theorem cursorIndex_lt (hlines : lines ≠ []) (cursor : Nat) : cursorIndex lines cursor < lines.length := by
  have hpos := List.length_pos_iff.2 hlines
  unfold cursorIndex
  omega

/-- Lines are split by what stands up to the cursor. -/
theorem splits_of_take (hlines : lines ≠ []) (htake : lines.take (cursorIndex lines cursor + 1) = above ++ upto)
    (marker : Char) :
    Splits marker lines cursor above upto
      ((lines.drop (cursorIndex lines cursor + 1)).takeWhile (isContinuation marker))
      ((lines.drop (cursorIndex lines cursor + 1)).dropWhile (isContinuation marker)) where
  lines_eq := by rw [← htake, List.takeWhile_append_dropWhile, List.take_append_drop]
  cursor := by
    rw [← htake, List.length_take]
    exact (Nat.min_eq_left (cursorIndex_lt hlines cursor)).symm
  behind := fun line hline => List.mem_takeWhile_imp hline
  below := endsBlock_dropWhile marker _

/-- A cursor on the last of some lines. -/
theorem splits_at_end (hne : upto ≠ []) (hbehind : ∀ line ∈ behind, isContinuation marker line = true)
    (hbelow : EndsBlock marker below) :
    Splits marker (above ++ upto ++ (behind ++ below)) (above ++ upto).length above upto behind below where
  lines_eq := rfl
  cursor := by
    have hpos := List.length_pos_iff.2 hne
    refine cursorIndex_of_le ?_ ?_
    · rw [List.length_append]
      omega
    · exact (List.prefix_append (above ++ upto) (behind ++ below)).length_le
  behind := hbehind
  below := hbelow

namespace Splits

theorem take_eq (h : Splits marker lines cursor above upto behind below) :
    lines.take (cursorIndex lines cursor + 1) = above ++ upto := by
  rw [h.cursor, h.lines_eq, List.take_left]

theorem continuationsBelow_eq (h : Splits marker lines cursor above upto behind below) :
    continuationsBelow marker lines (cursorIndex lines cursor) = behind.length := by
  rw [continuationsBelow, h.cursor, h.lines_eq, List.drop_left, takeWhile_of_endsBlock h.behind h.below]

theorem ne_nil (h : Splits marker lines cursor above upto behind below) : lines ≠ [] := by
  rintro rfl
  have hlength := congrArg List.length h.lines_eq
  have hcursor := h.cursor
  rw [List.length_append, List.length_nil] at hlength
  omega

theorem blockEnd_eq (h : Splits marker lines cursor above upto behind below) :
    blockEnd marker lines cursor = (above ++ upto ++ behind).length := by
  rw [blockEnd, if_neg (by simpa using h.ne_nil)]
  simp only [h.continuationsBelow_eq, h.cursor, List.length_append]

/-- A statement up to the cursor is resolved, with the lines that go on with it. -/
theorem resolve?_eq (h : Splits marker lines cursor above upto behind below) (hupto : IsStatement marker upto) :
    resolve? marker lines cursor
      = some { lines := upto ++ behind
               first := above.length + 1
               last := (above ++ upto ++ behind).length } := by
  obtain ⟨first, rest, hcons, hfirst, hrest⟩ := hupto
  have habove : continuationsAbove marker lines (cursorIndex lines cursor) = rest.length := by
    rw [continuationsAbove, h.take_eq, hcons, List.reverse_append, List.reverse_cons, List.append_assoc,
      List.takeWhile_append_of_pos (by simpa using hrest)]
    simp [hfirst]
  have hindex : cursorIndex lines cursor + 1 = above.length + rest.length + 1 := by
    rw [h.cursor, hcons]
    simp [Nat.add_assoc]
  rw [resolve?, if_neg (by simpa using h.ne_nil)]
  simp only [habove, h.blockEnd_eq]
  rw [if_neg (by omega)]
  have hstart : cursorIndex lines cursor - rest.length = above.length := by omega
  rw [hstart, h.lines_eq, ← List.append_assoc, List.take_left, List.append_assoc, List.drop_left]

end Splits

/-- The cursor is in a statement, or all lines up to it are continuations. -/
theorem exists_statement_or_headless (marker : Char) (hlines : lines ≠ []) (cursor : Nat) :
    (∃ above upto behind below, Splits marker lines cursor above upto behind below ∧ IsStatement marker upto)
      ∨ ∀ line ∈ lines.take (cursorIndex lines cursor + 1), isContinuation marker line = true := by
  generalize hupto : lines.take (cursorIndex lines cursor + 1) = front
  have hfront := List.rdropWhile_append_rtakeWhile (p := isContinuation marker) (l := front)
  have hrest : ∀ line ∈ front.rtakeWhile (isContinuation marker), isContinuation marker line = true :=
    fun line hline => List.mem_rtakeWhile_imp hline
  rcases List.eq_nil_or_concat (front.rdropWhile (isContinuation marker)) with hnil | ⟨above, first, htop⟩
  · right
    rw [hnil, List.nil_append] at hfront
    rwa [hfront] at hrest
  · left
    have hfirst : isContinuation marker first = false := by
      have hlast := List.rdropWhile_last_not (isContinuation marker) front (by simp [htop])
      simpa [htop] using hlast
    rw [htop, List.concat_eq_append, List.append_assoc, List.singleton_append] at hfront
    exact ⟨_, _, _, _, splits_of_take hlines (hupto.trans hfront.symm) marker, first, _, rfl, hfirst, hrest⟩

/-- Below continuations alone nothing is resolved. -/
theorem resolve?_of_headless (hlines : lines ≠ [])
    (h : ∀ line ∈ lines.take (cursorIndex lines cursor + 1), isContinuation marker line = true) :
    resolve? marker lines cursor = none := by
  have hlt := cursorIndex_lt hlines cursor
  have habove : continuationsAbove marker lines (cursorIndex lines cursor) = cursorIndex lines cursor + 1 := by
    rw [continuationsAbove, List.takeWhile_eq_self_iff.2 (by simpa using h), List.length_reverse, List.length_take]
    omega
  rw [resolve?, if_neg (by simpa using hlines)]
  simp only [habove, if_true]

/-- The lines of what is resolved are a statement. -/
theorem isStatement_of_resolve? {statement : Statement} (hlines : lines ≠ [])
    (h : resolve? marker lines cursor = some statement) : IsStatement marker statement.lines := by
  rcases exists_statement_or_headless marker hlines cursor with ⟨above, upto, behind, below, hsplits, hupto⟩ | hall
  · rw [hsplits.resolve?_eq hupto] at h
    obtain rfl := Option.some.inj h
    exact hupto.append hsplits.behind
  · rw [resolve?_of_headless hlines hall] at h
    cases h

/-- The statement that ends a buffer. -/
theorem resolve?_length {marker : Char} {above rest : List String} {first : String}
    (hfirst : isContinuation marker first = false) (hrest : ∀ line ∈ rest, isContinuation marker line = true) :
    resolve? marker (above ++ first :: rest) (above ++ first :: rest).length
      = some { lines := first :: rest
               first := above.length + 1
               last := (above ++ first :: rest).length } := by
  have hsplits : Splits marker (above ++ first :: rest) (above ++ first :: rest).length above (first :: rest)
      [] [] := {
    lines_eq := by simp
    cursor := cursorIndex_length (by simp)
    behind := by simp
    below := by simp [EndsBlock] }
  simpa using hsplits.resolve?_eq ⟨first, rest, rfl, hfirst, hrest⟩

end Statement

end Transcript
