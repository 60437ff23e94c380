import Transcript.Proofs.Buffer.Insertion

/-!
Output in a buffer. Chunks are inserted one below the other, each with a mark of its own. Together they are one
block below the line where the first one went: the marks that were there move as for one insertion, and the
marks of the chunks cut the block at the ends of the chunks.
-/
namespace Transcript

/-- The lines of chunks as a buffer shows them. -/
def blockOf (pad : String → String) (chunks : List Chunk) : List String :=
  chunks.flatMap fun c => c.lines.map pad

/-- How many lines chunks have. -/
def heightOf : List Chunk → Nat
  | [] => 0
  | c :: cs => c.lines.length + heightOf cs

/-- The marks of chunks whose block goes below line `place`, numbered from `id` on. -/
def marksOf (id place : Nat) : List Chunk → List Mark
  | [] => []
  | c :: cs =>
    { id := id, first := place + 1, last := place + c.lines.length, highlight := c.highlight }
      :: marksOf (id + 1) (place + c.lines.length) cs

@[simp] theorem heightOf_nil : heightOf [] = 0 := rfl

@[simp] theorem heightOf_cons (c : Chunk) (cs : List Chunk) :
    heightOf (c :: cs) = c.lines.length + heightOf cs := rfl

@[simp] theorem heightOf_append (cs cs' : List Chunk) : heightOf (cs ++ cs') = heightOf cs + heightOf cs' := by
  induction cs with
  | nil => simp
  | cons c cs ih => simp [ih, Nat.add_assoc]

@[simp] theorem length_blockOf (pad : String → String) (chunks : List Chunk) :
    (blockOf pad chunks).length = heightOf chunks := by
  induction chunks with
  | nil => rfl
  | cons c cs ih => simpa [blockOf] using ih

/-! ### The marks of the chunks -/

theorem mem_marksOf {id place : Nat} {chunks : List Chunk} {m : Mark} (h : m ∈ marksOf id place chunks) :
    place < m.first ∧ m.last ≤ place + heightOf chunks := by
  induction chunks generalizing id place with
  | nil => cases h
  | cons c cs ih =>
      rw [heightOf_cons]
      rcases List.mem_cons.1 h with rfl | h
      · exact ⟨Nat.lt_succ_self place, by simp only; omega⟩
      · obtain ⟨hfirst, hlast⟩ := ih h
        exact ⟨by omega, by omega⟩

theorem first_le_last_of_mem_marksOf {id place : Nat} {chunks : List Chunk}
    (hproper : ∀ c ∈ chunks, c.lines ≠ []) {m : Mark} (h : m ∈ marksOf id place chunks) :
    m.first ≤ m.last := by
  induction chunks generalizing id place with
  | nil => cases h
  | cons c cs ih =>
      rcases List.mem_cons.1 h with rfl | h
      · have hpos := List.length_pos_iff.2 (hproper c List.mem_cons_self)
        show place + 1 ≤ place + c.lines.length
        omega
      · exact ih (fun c hc => hproper c (List.mem_cons_of_mem _ hc)) h

theorem pairwise_marksOf (id place : Nat) (chunks : List Chunk) :
    (marksOf id place chunks).Pairwise Mark.Disjoint := by
  induction chunks generalizing id place with
  | nil => exact List.Pairwise.nil
  | cons c cs ih =>
      refine List.pairwise_cons.2 ⟨?_, ih (id + 1) (place + c.lines.length)⟩
      intro m hm
      exact Mark.disjoint_of_lt (mem_marksOf hm).1

/-- The mark of each chunk stands where the chunk stands in the block. -/
theorem getElem?_marksOf (id place : Nat) (chunks : List Chunk) (i : Nat) :
    (marksOf id place chunks)[i]? = chunks[i]?.map fun c =>
      { id := id + i
        first := place + heightOf (chunks.take i) + 1
        last := place + heightOf (chunks.take i) + c.lines.length
        highlight := c.highlight } := by
  induction chunks generalizing id place i with
  | nil => simp [marksOf]
  | cons c cs ih =>
      cases i with
      | zero => simp [marksOf]
      | succ i =>
          rw [marksOf, List.getElem?_cons_succ, ih, List.getElem?_cons_succ]
          simp [Nat.add_assoc, Nat.add_comm 1 i]

namespace Buffer

/-! ### One chunk -/

/-- Puts lines below line `place` and marks them. -/
def insertMarked (b : Buffer) (id place : Nat) (highlight : Highlight) (lines : List String) : Buffer :=
  (b.splice place place lines).addMark
    { id := id, first := place + 1, last := place + lines.length, highlight := highlight }

variable {b : Buffer} {place : Nat}

theorem lines_insertMarked (hplace : place ≤ b.lines.length) (id : Nat) (highlight : Highlight)
    (lines : List String) :
    (b.insertMarked id place highlight lines).lines = b.lines.take place ++ lines ++ b.lines.drop place :=
  b.lines_insertion hplace lines

theorem length_insertMarked (hplace : place ≤ b.lines.length) (id : Nat) (highlight : Highlight)
    (lines : List String) :
    (b.insertMarked id place highlight lines).lines.length = b.lines.length + lines.length :=
  b.length_insertion hplace lines

theorem marks_insertMarked (hplace : place ≤ b.lines.length) (hwithin : b.MarksWithin)
    (hopen : b.OpenBelow place) (id : Nat) (highlight : Highlight) (lines : List String) :
    (b.insertMarked id place highlight lines).marks
      = b.marks.map (·.shiftBelow place lines.length)
        ++ [{ id := id, first := place + 1, last := place + lines.length, highlight := highlight }] := by
  rw [insertMarked, addMark]
  show _ ++ _ = _
  rw [b.marks_insertion hplace lines hwithin hopen]

theorem within_insertMarked (hplace : place ≤ b.lines.length) (hwithin : b.MarksWithin)
    (hopen : b.OpenBelow place) (id : Nat) (highlight : Highlight) {lines : List String} (hlines : lines ≠ []) :
    (b.insertMarked id place highlight lines).MarksWithin := by
  intro m hm
  rw [marks_insertMarked hplace hwithin hopen] at hm
  rw [length_insertMarked hplace]
  rcases List.mem_append.1 hm with hm | hm
  · obtain ⟨old, hold, rfl⟩ := List.mem_map.1 hm
    exact (hwithin old hold).shiftBelow
  · have hpos := List.length_pos_iff.2 hlines
    rw [List.mem_singleton.1 hm]
    exact ⟨by simp only; omega, by simp only; omega, by simp only; omega, by simp only; omega⟩

theorem openBelow_insertMarked (hplace : place ≤ b.lines.length) (hwithin : b.MarksWithin)
    (hopen : b.OpenBelow place) (id : Nat) (highlight : Highlight) (lines : List String) :
    (b.insertMarked id place highlight lines).OpenBelow (place + lines.length) := by
  intro m hm
  rw [marks_insertMarked hplace hwithin hopen] at hm
  rcases List.mem_append.1 hm with hm | hm
  · obtain ⟨old, hold, rfl⟩ := List.mem_map.1 hm
    exact Mark.not_goesOn_shiftBelow (hopen old hold)
  · rw [List.mem_singleton.1 hm]
    exact fun h => Nat.lt_irrefl _ h.2

/-! ### All chunks -/

/-- Puts chunks one below the other, the first one below line `place`. -/
def insertOutput (pad : String → String) (id place : Nat) : List Chunk → Buffer → Buffer
  | [], b => b
  | c :: cs, b =>
    insertOutput pad (id + 1) (place + c.lines.length) cs
      (b.insertMarked id place c.highlight (c.lines.map pad))

variable (pad : String → String) (id : Nat) {chunks : List Chunk}

theorem lines_insertOutput (chunks : List Chunk) (hplace : place ≤ b.lines.length) :
    (insertOutput pad id place chunks b).lines
      = b.lines.take place ++ blockOf pad chunks ++ b.lines.drop place := by
  induction chunks generalizing b id place with
  | nil => simp [insertOutput, blockOf]
  | cons c cs ih =>
      have hlength := length_insertMarked hplace id c.highlight (c.lines.map pad)
      rw [List.length_map] at hlength
      have hhead : (b.lines.take place ++ c.lines.map pad).length = place + c.lines.length := by
        simp [Nat.min_eq_left hplace]
      rw [insertOutput, ih (id + 1) (by omega), lines_insertMarked hplace, ← hhead, List.take_left,
        List.drop_left]
      simp [blockOf]

/-- What chunks leave in a buffer none of whose marks goes on at their place. -/
structure Grown (id place : Nat) (chunks : List Chunk) (b b' : Buffer) : Prop where
  within : b'.MarksWithin
  openBelow : b'.OpenBelow (place + heightOf chunks)
  marks : b'.marks = b.marks.map (·.shiftBelow place (heightOf chunks)) ++ marksOf id place chunks

theorem insertOutput_grown (hproper : ∀ c ∈ chunks, c.lines ≠ []) (hplace : place ≤ b.lines.length)
    (hwithin : b.MarksWithin) (hopen : b.OpenBelow place) :
    Grown id place chunks b (insertOutput pad id place chunks b) := by
  induction chunks generalizing b id place with
  | nil => exact ⟨hwithin, hopen, by simp [insertOutput, marksOf, Mark.shiftBelow_zero]⟩
  | cons c cs ih =>
      have hne : c.lines.map pad ≠ [] := by simpa using hproper c List.mem_cons_self
      have hlength := length_insertMarked hplace id c.highlight (c.lines.map pad)
      have hopen' := openBelow_insertMarked hplace hwithin hopen id c.highlight (c.lines.map pad)
      have hmarks := marks_insertMarked hplace hwithin hopen id c.highlight (c.lines.map pad)
      rw [List.length_map] at hlength hopen' hmarks
      obtain ⟨hw, ho, hm⟩ := ih (id + 1) (fun c hc => hproper c (List.mem_cons_of_mem _ hc)) (by omega)
        (within_insertMarked hplace hwithin hopen id c.highlight hne) hopen'
      refine ⟨hw, ?_, ?_⟩
      · rw [heightOf_cons, ← Nat.add_assoc]
        exact ho
      · -- The mark of this chunk is above the rest of the block, so the rest does not move it.
        have habove : place + 1 ≤ place + c.lines.length := by
          have hpos := List.length_pos_iff.2 (hproper c List.mem_cons_self)
          omega
        rw [insertOutput, hm, hmarks, List.map_append, List.map_map, heightOf_cons, marksOf, List.map_singleton,
          Mark.shiftBelow_of_first_le habove, List.append_assoc, List.singleton_append]
        congr 1
        apply List.map_congr_left
        intro m _
        exact m.shiftBelow_shiftBelow place c.lines.length (heightOf cs)

/-! ### Output and a fresh line -/

/-- Puts chunks below line `place` and an empty line below them. -/
def report (b : Buffer) (pad : String → String) (id place : Nat) (chunks : List Chunk) : Buffer :=
  (insertOutput pad id place chunks b).splice (place + heightOf chunks) (place + heightOf chunks) [""]

/-- The mark `m'` covers the lines that `m` covered before `count` lines went below line `place`. -/
structure KeepsLines (place count : Nat) (m m' : Mark) : Prop where
  id : m'.id = m.id
  highlight : m'.highlight = m.highlight
  covers : ∀ line, m'.covers line ↔ ∃ before, m.covers before ∧ line = lineBelow place count before

/-- The marks cover the chunks of a block below line `place`, one mark for each chunk. -/
def CoverChunks (place : Nat) (chunks : List Chunk) (marks : List Mark) : Prop :=
  marks.length = chunks.length ∧
    ∀ i c m, chunks[i]? = some c → marks[i]? = some m → m.highlight = c.highlight ∧
      ∀ line, m.covers line ↔ place + heightOf (chunks.take i) < line
        ∧ line ≤ place + heightOf (chunks.take (i + 1))

/-- What a report leaves in a buffer: one block of output lines and an empty line below line `place`, the old
marks on their lines, and a mark on each chunk. -/
structure Reported (pad : String → String) (chunks : List Chunk) (place : Nat) (old new : Buffer) : Prop where
  place_le : place ≤ old.lines.length
  lines : new.lines = old.lines.take place ++ (blockOf pad chunks ++ [""]) ++ old.lines.drop place
  opened : new.lines[place + heightOf chunks]? = some ""
  marks : ∃ (move : Mark → Mark) (fresh : List Mark),
    new.marks = old.marks.map move ++ fresh
      ∧ (∀ m ∈ old.marks, KeepsLines place (heightOf chunks + 1) m (move m))
      ∧ CoverChunks place chunks fresh
  wellMarked : new.WellMarked

theorem heightOf_take_succ {chunks : List Chunk} {i : Nat} {c : Chunk} (h : chunks[i]? = some c) :
    heightOf (chunks.take (i + 1)) = heightOf (chunks.take i) + c.lines.length := by
  rw [List.take_add_one, h]
  simp

theorem coverChunks_marksOf (id place : Nat) (chunks : List Chunk) :
    CoverChunks place chunks (marksOf id place chunks) := by
  have hlength : ∀ (cs : List Chunk) (id place : Nat), (marksOf id place cs).length = cs.length := by
    intro cs
    induction cs with
    | nil => intros; rfl
    | cons c cs ih => intro id place; rw [marksOf, List.length_cons, ih, List.length_cons]
  refine ⟨hlength chunks id place, ?_⟩
  intro i c m hc hm
  rw [getElem?_marksOf, hc, Option.map_some, Option.some_inj] at hm
  subst hm
  refine ⟨rfl, ?_⟩
  intro line
  rw [Mark.covers_iff, heightOf_take_succ hc]
  simp only
  omega

theorem lines_report (chunks : List Chunk) (hplace : place ≤ b.lines.length) :
    (b.report pad id place chunks).lines
      = b.lines.take place ++ (blockOf pad chunks ++ [""]) ++ b.lines.drop place := by
  have hlines := lines_insertOutput pad id chunks hplace
  have hhead : (b.lines.take place ++ blockOf pad chunks).length = place + heightOf chunks := by
    simp [Nat.min_eq_left hplace]
  have hle : place + heightOf chunks ≤ (insertOutput pad id place chunks b).lines.length := by
    rw [hlines, List.length_append, hhead]
    exact Nat.le_add_right _ _
  rw [report, lines_insertion _ hle, hlines, ← hhead, List.take_left, List.drop_left]
  simp

theorem marks_report (hproper : ∀ c ∈ chunks, c.lines ≠ []) (hplace : place ≤ b.lines.length)
    (hwithin : b.MarksWithin) (hopen : b.OpenBelow place) :
    (b.report pad id place chunks).marks
      = b.marks.map (·.shiftBelow place (heightOf chunks + 1)) ++ marksOf id place chunks := by
  obtain ⟨hw, ho, hm⟩ := insertOutput_grown pad id hproper hplace hwithin hopen
  have hle : place + heightOf chunks ≤ (insertOutput pad id place chunks b).lines.length := by
    rw [lines_insertOutput pad id chunks hplace]
    simp [Nat.min_eq_left hplace]
  rw [report, marks_insertion _ hle _ hw ho, hm, List.map_append, List.map_map]
  congr 1
  · apply List.map_congr_left
    intro m _
    exact m.shiftBelow_shiftBelow place (heightOf chunks) 1
  · have hstays : ∀ m ∈ marksOf id place chunks, m.shiftBelow (place + heightOf chunks) [""].length = m := by
      intro m hm
      have hle := first_le_last_of_mem_marksOf hproper hm
      have hlast := (mem_marksOf hm).2
      exact Mark.shiftBelow_of_first_le (by omega) 1
    exact (List.map_congr_left hstays).trans (List.map_id _)

theorem length_report (chunks : List Chunk) (hplace : place ≤ b.lines.length) :
    (b.report pad id place chunks).lines.length = b.lines.length + (heightOf chunks + 1) := by
  rw [lines_report pad id chunks hplace]
  simp
  omega

theorem wellMarked_report (hproper : ∀ c ∈ chunks, c.lines ≠ []) (hplace : place ≤ b.lines.length)
    (hmarked : b.WellMarked) (hopen : b.OpenBelow place) : (b.report pad id place chunks).WellMarked := by
  have hmarks := marks_report pad id hproper hplace hmarked.within hopen
  refine ⟨?_, ?_⟩
  · intro m hm
    rw [hmarks] at hm
    rw [length_report pad id chunks hplace]
    rcases List.mem_append.1 hm with hm | hm
    · obtain ⟨old, hold, rfl⟩ := List.mem_map.1 hm
      exact (hmarked.within old hold).shiftBelow
    · obtain ⟨hfirst, hlast⟩ := mem_marksOf hm
      have hle := first_le_last_of_mem_marksOf hproper hm
      exact ⟨by omega, by omega, by omega, by omega⟩
  · rw [hmarks]
    -- Old marks share no line with each other, nor do new ones, and no old mark reaches into the block.
    refine List.pairwise_append.2 ⟨?_, pairwise_marksOf id place chunks, ?_⟩
    · refine List.pairwise_map.2 (List.Pairwise.imp_of_mem ?_ hmarked.disjoint)
      intro m m' hm hm' hapart
      exact hapart.shiftBelow (hopen m hm) (hopen m' hm')
    · intro m hm m' hm'
      obtain ⟨old, hold, rfl⟩ := List.mem_map.1 hm
      obtain ⟨hfirst, hlast⟩ := mem_marksOf hm'
      exact Mark.disjoint_block (hopen old hold) hfirst (by omega)

theorem report_reported (hproper : ∀ c ∈ chunks, c.lines ≠ []) (hplace : place ≤ b.lines.length)
    (hmarked : b.WellMarked) (hopen : b.OpenBelow place) :
    Reported pad chunks place b (b.report pad id place chunks) where
  place_le := hplace
  lines := lines_report pad id chunks hplace
  opened := by
    rw [lines_report pad id chunks hplace]
    simp [Nat.min_eq_left hplace]
  marks := by
    refine ⟨(·.shiftBelow place (heightOf chunks + 1)), marksOf id place chunks,
      marks_report pad id hproper hplace hmarked.within hopen, ?_, coverChunks_marksOf id place chunks⟩
    intro m hm
    exact ⟨m.shiftBelow_id _ _, m.shiftBelow_highlight _ _, Mark.covers_shiftBelow (hopen m hm)⟩
  wellMarked := wellMarked_report pad id hproper hplace hmarked hopen

end Buffer

end Transcript
