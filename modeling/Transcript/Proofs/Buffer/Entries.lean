import Transcript.Proofs.Buffer.Report
import Transcript.Proofs.Buffer.Tail

/-!
Where the lines of a buffer come from. A buffer is a list of entries, typed lines and chunks of output, and each
chunk has a mark. Marks are faithful if no two share a line, every line of output lies in one and no typed line
lies in any. Marks on exactly their chunks are faithful. If the marks of the chunks above an edited line all end
on the line above it, they are faithful only if no chunk but the last entry stands there.
-/
namespace Transcript

/-- Whether a line was typed, or opened for typing, or is output. -/
inductive Origin where
  | typed
  | output
  deriving DecidableEq, Repr

/-- A typed line, or a chunk of output under the number of its mark. -/
inductive Entry where
  | typed (line : String)
  | output (id : Nat) (chunk : Chunk)
  deriving DecidableEq, Repr

namespace Entry

/-- The lines of an entry and where they come from. -/
def lines : Entry → List (Origin × String)
  | .typed line => [(.typed, line)]
  | .output _ chunk => chunk.lines.map fun line => (.output, line)

/-- An output entry has a line. -/
def IsProper : Entry → Prop
  | .typed _ => True
  | .output _ chunk => chunk.lines ≠ []

/-- The entry is a typed line. -/
def IsTyped : Entry → Prop
  | .typed _ => True
  | .output _ _ => False

end Entry

/-- The lines of entries. -/
def linesOf (entries : List Entry) : List (Origin × String) := entries.flatMap Entry.lines

/-- Marks on exactly the chunks of entries that stand below line `place`. -/
def exactMarks (place : Nat) : List Entry → List Mark
  | [] => []
  | .typed _ :: rest => exactMarks (place + 1) rest
  | .output id chunk :: rest =>
    { id := id, first := place + 1, last := place + chunk.lines.length, highlight := chunk.highlight }
      :: exactMarks (place + chunk.lines.length) rest

/-- The chunks of an answer as entries, numbered from `id` on. -/
def outputEntries (pad : String → String) (id : Nat) : List Chunk → List Entry
  | [] => []
  | c :: cs => .output id ⟨c.highlight, c.lines.map pad⟩ :: outputEntries pad (id + 1) cs

@[simp] theorem linesOf_nil : linesOf [] = [] := rfl

@[simp] theorem linesOf_cons (e : Entry) (rest : List Entry) : linesOf (e :: rest) = e.lines ++ linesOf rest := rfl

@[simp] theorem linesOf_append (es es' : List Entry) : linesOf (es ++ es') = linesOf es ++ linesOf es' :=
  List.flatMap_append

theorem linesOf_typed (lines : List String) : (linesOf (lines.map .typed)).map Prod.snd = lines := by
  induction lines with
  | nil => rfl
  | cons line lines ih => simp [Entry.lines, ih]

theorem linesOf_outputEntries (pad : String → String) (id : Nat) (chunks : List Chunk) :
    (linesOf (outputEntries pad id chunks)).map Prod.snd = blockOf pad chunks := by
  induction chunks generalizing id with
  | nil => rfl
  | cons c cs ih => simp [outputEntries, Entry.lines, ih, blockOf, Function.comp_def]

theorem isProper_outputEntries (pad : String → String) (id : Nat) {chunks : List Chunk}
    (hproper : ∀ c ∈ chunks, c.lines ≠ []) : ∀ e ∈ outputEntries pad id chunks, e.IsProper := by
  induction chunks generalizing id with
  | nil =>
      intro e he
      cases he
  | cons c cs ih =>
      intro e he
      rcases List.mem_cons.1 he with rfl | he
      · show c.lines.map pad ≠ []
        simpa using hproper c List.mem_cons_self
      · exact ih (id + 1) (fun c hc => hproper c (List.mem_cons_of_mem _ hc)) e he

/-! ### Exact marks -/

theorem exactMarks_append (place : Nat) (es es' : List Entry) :
    exactMarks place (es ++ es') = exactMarks place es ++ exactMarks (place + (linesOf es).length) es' := by
  induction es generalizing place with
  | nil => simp [exactMarks]
  | cons e rest ih =>
      cases e with
      | typed line => simp [exactMarks, ih, Entry.lines, Nat.add_assoc, Nat.add_comm 1]
      | output id chunk => simp [exactMarks, ih, Entry.lines, Nat.add_assoc]

theorem exactMarks_typed (place : Nat) (lines : List String) : exactMarks place (lines.map .typed) = [] := by
  induction lines generalizing place with
  | nil => rfl
  | cons line lines ih => exact ih (place + 1)

theorem exactMarks_outputEntries (pad : String → String) (id place : Nat) (chunks : List Chunk) :
    exactMarks place (outputEntries pad id chunks) = marksOf id place chunks := by
  induction chunks generalizing id place with
  | nil => rfl
  | cons c cs ih => simp [outputEntries, exactMarks, marksOf, ih]

theorem lt_first_of_mem_exactMarks {place : Nat} {entries : List Entry} {m : Mark}
    (h : m ∈ exactMarks place entries) : place < m.first := by
  induction entries generalizing place with
  | nil => cases h
  | cons e rest ih =>
      cases e with
      | typed line => exact Nat.lt_of_succ_lt (ih h)
      | output id chunk =>
          rcases List.mem_cons.1 h with rfl | h
          · exact Nat.lt_succ_self place
          · exact Nat.lt_of_le_of_lt (Nat.le_add_right place _) (ih h)

/-! ### Faithful marks -/

/-- How many marks a line lies in. -/
def marksOn (marks : List Mark) (line : Nat) : Nat := marks.countP (·.covers line)

/-- The marks share no line, every line of output lies in one mark, and no typed line lies in any. The entries
begin below line `place`. -/
structure Faithful (marks : List Mark) (place : Nat) (entries : List Entry) : Prop where
  disjoint : marks.Pairwise Mark.Disjoint
  output : ∀ i text, (linesOf entries)[i]? = some (.output, text) → marksOn marks (place + i + 1) = 1
  typed : ∀ i text, (linesOf entries)[i]? = some (.typed, text) → marksOn marks (place + i + 1) = 0

theorem marksOn_eq_zero {marks : List Mark} {line : Nat} (h : ∀ m ∈ marks, line < m.first) :
    marksOn marks line = 0 := by
  refine List.countP_eq_zero.2 ?_
  intro m hm hcovers
  have hfirst := h m hm
  rw [Mark.covers_iff] at hcovers
  omega

/-- A typed line above all marks. -/
theorem Faithful.cons_typed {marks : List Mark} {place : Nat} {entries : List Entry}
    (h : Faithful marks (place + 1) entries) (hbelow : ∀ m ∈ marks, place + 1 < m.first) (line : String) :
    Faithful marks place (.typed line :: entries) := by
  have hline : ∀ i, place + 1 + i + 1 = place + (i + 1) + 1 := by omega
  refine ⟨h.disjoint, ?_, ?_⟩
  · intro i text hi
    cases i with
    | zero => cases hi
    | succ i =>
        rw [← hline]
        exact h.output i text hi
  · intro i text hi
    cases i with
    | zero => exact marksOn_eq_zero hbelow
    | succ i =>
        rw [← hline]
        exact h.typed i text hi

/-- A line of entries that start with a chunk is one of the chunk, or one of the entries below it. -/
theorem linesOf_output_cons {id : Nat} {chunk : Chunk} {entries : List Entry} {i : Nat} {x : Origin × String}
    (hi : (linesOf (.output id chunk :: entries))[i]? = some x) :
    (i < chunk.lines.length ∧ x.1 = .output)
      ∨ (chunk.lines.length ≤ i ∧ (linesOf entries)[i - chunk.lines.length]? = some x) := by
  have hlength : (Entry.output id chunk).lines.length = chunk.lines.length := by simp [Entry.lines]
  rw [linesOf_cons] at hi
  by_cases hlt : i < chunk.lines.length
  · rw [List.getElem?_append_left (hlength.symm ▸ hlt), Entry.lines, List.getElem?_map] at hi
    obtain ⟨line, -, rfl⟩ := Option.map_eq_some_iff.1 hi
    exact Or.inl ⟨hlt, rfl⟩
  · rw [List.getElem?_append_right (hlength.symm ▸ Nat.le_of_not_lt hlt), hlength] at hi
    exact Or.inr ⟨Nat.le_of_not_lt hlt, hi⟩

/-- A line in a mark above all others lies in no other mark. -/
theorem marksOn_cons_inside {marks : List Mark} {place count : Nat} {m : Mark}
    (hbelow : ∀ m' ∈ marks, place + count < m'.first) (hfirst : m.first = place + 1)
    (hlast : m.last = place + count) {i : Nat} (hi : i < count) : marksOn (m :: marks) (place + i + 1) = 1 := by
  have hcovers : m.covers (place + i + 1) = true := by
    rw [Mark.covers_iff]
    omega
  have hothers : marksOn marks (place + i + 1) = 0 := by
    apply marksOn_eq_zero
    intro m' hm'
    have := hbelow m' hm'
    omega
  rw [marksOn, List.countP_cons, if_pos hcovers]
  exact congrArg (· + 1) hothers

theorem marksOn_cons_below {place count : Nat} {m : Mark} (hlast : m.last = place + count) (marks : List Mark)
    {i : Nat} (hi : count ≤ i) :
    marksOn (m :: marks) (place + i + 1) = marksOn marks (place + count + (i - count) + 1) := by
  have hcovers : ¬ m.covers (place + i + 1) = true := by
    rw [Mark.covers_iff]
    omega
  have hline : place + count + (i - count) + 1 = place + i + 1 := by omega
  rw [hline, marksOn, List.countP_cons, if_neg hcovers, Nat.add_zero]
  rfl

/-- A chunk in a mark of its own above all other marks. -/
theorem Faithful.cons_output {marks : List Mark} {place : Nat} {chunk : Chunk} {entries : List Entry}
    (h : Faithful marks (place + chunk.lines.length) entries)
    (hbelow : ∀ m ∈ marks, place + chunk.lines.length < m.first) (id : Nat) {m : Mark}
    (hfirst : m.first = place + 1) (hlast : m.last = place + chunk.lines.length) :
    Faithful (m :: marks) place (.output id chunk :: entries) := by
  refine ⟨List.pairwise_cons.2 ⟨?_, h.disjoint⟩, ?_, ?_⟩
  · intro m' hm'
    apply Mark.disjoint_of_lt
    rw [hlast]
    exact hbelow m' hm'
  · intro i text hi
    rcases linesOf_output_cons hi with ⟨hlt, -⟩ | ⟨hle, hi⟩
    · exact marksOn_cons_inside hbelow hfirst hlast hlt
    · rw [marksOn_cons_below hlast _ hle]
      exact h.output _ text hi
  · intro i text hi
    rcases linesOf_output_cons hi with ⟨-, horigin⟩ | ⟨hle, hi⟩
    · cases horigin
    · rw [marksOn_cons_below hlast _ hle]
      exact h.typed _ text hi

/-- Marks on exactly their chunks are faithful. -/
theorem faithful_exactMarks (place : Nat) (entries : List Entry) :
    Faithful (exactMarks place entries) place entries := by
  induction entries generalizing place with
  | nil => exact ⟨List.Pairwise.nil, by simp, by simp⟩
  | cons e rest ih =>
      cases e with
      | typed line => exact (ih (place + 1)).cons_typed (fun m hm => lt_first_of_mem_exactMarks hm) line
      | output id chunk =>
          exact (ih (place + chunk.lines.length)).cons_output (fun m hm => lt_first_of_mem_exactMarks hm) id rfl rfl

/-! ### Stretched marks -/

/-- The marks of entries after an edit of the line below `above`: the marks of the chunks above it end on the last
line of `above`, the others are exact. -/
def stretchedMarks (above below : List Entry) : List Mark :=
  (exactMarks 0 above).map (·.endingAt (linesOf above).length) ++ exactMarks (linesOf above).length below

/-- Only the last entry may be output. -/
def OutputLast (entries : List Entry) : Prop := ∀ e ∈ entries.dropLast, e.IsTyped

theorem exactMarks_of_typed {entries : List Entry} (h : ∀ e ∈ entries, e.IsTyped) (place : Nat) :
    exactMarks place entries = [] := by
  induction entries generalizing place with
  | nil => rfl
  | cons e rest ih =>
      cases e with
      | typed line => exact ih (fun e he => h e (List.mem_cons_of_mem _ he)) (place + 1)
      | output id chunk => exact (h _ List.mem_cons_self).elim

/-- An edit that replaces typed lines at the end stretches the marks of all chunks above it. -/
theorem stretchedMarks_edit {above below kept : List Entry} {lines : List String}
    (h : above ++ below = kept ++ lines.map .typed) (new : List Entry) :
    (stretchedMarks above below).map (·.endingAt (linesOf kept).length)
        ++ exactMarks (linesOf kept).length new
      = stretchedMarks kept new := by
  have hexact : exactMarks 0 (above ++ below) = exactMarks 0 kept := by
    rw [h, exactMarks_append, exactMarks_typed, List.append_nil]
  calc (stretchedMarks above below).map (·.endingAt (linesOf kept).length) ++ exactMarks (linesOf kept).length new
      = (exactMarks 0 (above ++ below)).map (·.endingAt (linesOf kept).length)
          ++ exactMarks (linesOf kept).length new := by
        rw [stretchedMarks, exactMarks_append, Nat.zero_add, List.map_append, List.map_append, List.map_map]
        simp only [Function.comp_def, Mark.endingAt_endingAt]
    _ = stretchedMarks kept new := by rw [hexact, stretchedMarks]

/-- With output as the last entry at most, no mark is stretched. -/
theorem stretchedMarks_of_outputLast {above : List Entry} (h : OutputLast above) (below : List Entry) :
    stretchedMarks above below = exactMarks 0 (above ++ below) := by
  have hexact : (exactMarks 0 above).map (·.endingAt (linesOf above).length) = exactMarks 0 above := by
    rcases List.eq_nil_or_concat above with rfl | ⟨init, last, rfl⟩
    · rfl
    · rw [List.concat_eq_append] at h ⊢
      have hinit : ∀ e ∈ init, e.IsTyped := by
        intro e he
        exact h e (by rwa [List.dropLast_concat])
      rw [exactMarks_append, exactMarks_of_typed hinit, List.nil_append, Nat.zero_add, linesOf_append]
      cases last with
      | typed line => rfl
      | output id chunk => simp [exactMarks, Mark.endingAt, Entry.lines]
  rw [stretchedMarks, hexact, exactMarks_append, Nat.zero_add]

/-- The mark of a chunk, stretched over all entries below it. -/
theorem stretchedMarks_split (first rest below : List Entry) (id : Nat) (chunk : Chunk) :
    ∃ before, stretchedMarks (first ++ .output id chunk :: rest) below
      = before
        ++ { id := id
             first := (linesOf first).length + 1
             last := (linesOf (first ++ .output id chunk :: rest)).length
             highlight := chunk.highlight }
        :: ((exactMarks ((linesOf first).length + chunk.lines.length) rest).map
              (·.endingAt (linesOf (first ++ .output id chunk :: rest)).length)
            ++ exactMarks (linesOf (first ++ .output id chunk :: rest)).length below) := by
  refine ⟨(exactMarks 0 first).map (·.endingAt (linesOf (first ++ .output id chunk :: rest)).length), ?_⟩
  rw [stretchedMarks, exactMarks_append, Nat.zero_add, exactMarks, List.map_append, List.map_cons,
    List.append_assoc, List.cons_append]
  rfl

/-- A chunk above another entry has its mark stretched over that entry. -/
theorem not_faithful_of_output_above {first rest below : List Entry} {id : Nat} {chunk : Chunk} {next : Entry}
    (hnext : next.IsProper) :
    ¬ Faithful (stretchedMarks (first ++ .output id chunk :: next :: rest) below) 0
      ((first ++ .output id chunk :: next :: rest) ++ below) := by
  intro h
  obtain ⟨before, hmarks⟩ := stretchedMarks_split first (next :: rest) below id chunk
  have hlength : (linesOf (first ++ .output id chunk :: next :: rest)).length
      = (linesOf first).length + chunk.lines.length + next.lines.length + (linesOf rest).length := by
    simp [Entry.lines, Nat.add_assoc]
  rw [hmarks] at h
  cases next with
  | typed line =>
      -- The typed line lies in the mark of the chunk.
      have htyped := h.typed ((linesOf first).length + chunk.lines.length) line (by
        simp [Entry.lines])
      have hcovers := List.countP_eq_zero.1 htyped _ (List.mem_append_right before List.mem_cons_self)
      refine hcovers ?_
      rw [Mark.covers_iff, hlength]
      exact ⟨by simp only; omega, by simp only [Entry.lines, List.length_singleton]; omega⟩
  | output id' chunk' =>
      -- The first line of the other chunk lies in both marks.
      have hpos : 0 < chunk'.lines.length := List.length_pos_iff.2 hnext
      have hapart := (List.pairwise_cons.1 (List.pairwise_append.1 h.disjoint).2.1).1 _ List.mem_cons_self
      refine hapart ((linesOf first).length + chunk.lines.length + 1) ⟨?_, ?_⟩
      · rw [Mark.covers_iff, hlength]
        exact ⟨by simp only; omega, by simp only [Entry.lines, List.length_map]; omega⟩
      · rw [Mark.covers_iff, hlength]
        exact ⟨Nat.le_refl _, by simp only [Mark.endingAt, Entry.lines, List.length_map]; omega⟩

/-- The stretched marks are faithful exactly if no chunk stands above another entry over the edited line. -/
theorem faithful_stretchedMarks_iff {above : List Entry} (hproper : ∀ e ∈ above, e.IsProper)
    (below : List Entry) :
    Faithful (stretchedMarks above below) 0 (above ++ below) ↔ OutputLast above := by
  constructor
  · intro h e he
    rcases List.eq_nil_or_concat above with rfl | ⟨init, last, rfl⟩
    · cases he
    · rw [List.concat_eq_append] at *
      rw [List.dropLast_concat] at he
      cases e with
      | typed line => exact trivial
      | output id chunk =>
          obtain ⟨first, middle, rfl⟩ := List.append_of_mem he
          rw [List.append_assoc, List.cons_append] at h hproper
          cases middle with
          | nil => exact not_faithful_of_output_above (hproper last (by simp)) h
          | cons next rest => exact not_faithful_of_output_above (hproper next (by simp)) h
  · intro h
    rw [stretchedMarks_of_outputLast h]
    exact faithful_exactMarks 0 (above ++ below)

end Transcript
