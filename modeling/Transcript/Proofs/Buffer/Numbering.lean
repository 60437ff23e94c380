import Transcript.Proofs.Buffer.Report

/-!
The numbers of marks. An edit gives no mark another number and only removes marks, an insertion removes none. Output
brings a mark for each chunk, with numbers that are counted on from the one that is given.
-/
namespace Transcript

namespace Edit

variable {e : Edit} {m m' : Mark}

theorem insertInto_id (e : Edit) (m : Mark) : (e.insertInto m).id = m.id := by
  unfold insertInto
  split
  · rfl
  · split <;> rfl

theorem replaceIn_id (e : Edit) (m : Mark) : (e.replaceIn m).id = m.id := by
  unfold replaceIn
  split
  · rfl
  · split
    · rfl
    · split <;> rfl

theorem id_of_track? (htrack : e.track? m = some m') : m'.id = m.id := by
  unfold track? at htrack
  split at htrack
  · obtain rfl := Option.some.inj htrack
    exact e.insertInto_id m
  · split at htrack
    · cases htrack
    · simp only at htrack
      split at htrack
      · obtain rfl := Option.some.inj htrack
        exact e.replaceIn_id m
      · cases htrack

end Edit

namespace Buffer

/-- The numbers of the marks. -/
def ids (b : Buffer) : List Nat := b.marks.map Mark.id

theorem ids_splice (b : Buffer) (start stop : Nat) (lines : List String) :
    (b.splice start stop lines).ids.Sublist b.ids := by
  show ((b.marks.filterMap _).map Mark.id).Sublist (b.marks.map Mark.id)
  induction b.marks with
  | nil => exact List.Sublist.slnil
  | cons m marks ih =>
      cases htrack : (b.editOf start stop lines.length).track? m with
      | none =>
          rw [List.filterMap_cons_none htrack, List.map_cons]
          exact ih.cons m.id
      | some m' =>
          rw [List.filterMap_cons_some htrack, List.map_cons, List.map_cons, Edit.id_of_track? htrack]
          exact ih.cons_cons m.id

/-- An insertion removes no mark. -/
theorem ids_insertion (b : Buffer) (place : Nat) (lines : List String) : (b.splice place place lines).ids = b.ids := by
  have hremoved : (b.editOf place place lines.length).removed = 0 := by
    simp only [editOf]
    omega
  have htrack : ∀ m ∈ b.marks, (b.editOf place place lines.length).track? m
      = some ((b.editOf place place lines.length).insertInto m) := by
    intro m _
    rw [Edit.track?, if_pos hremoved]
  show (b.marks.filterMap _).map Mark.id = b.marks.map Mark.id
  rw [List.filterMap_eq_map_iff_forall_eq_some.2 htrack, List.map_map]
  apply List.map_congr_left
  intro m _
  exact Edit.insertInto_id _ m

theorem ids_insertOutput (pad : String → String) (id place : Nat) (chunks : List Chunk) (b : Buffer) :
    (insertOutput pad id place chunks b).ids = b.ids ++ List.range' id chunks.length := by
  induction chunks generalizing b id place with
  | nil => exact (List.append_nil _).symm
  | cons c cs ih =>
      have hmarked : (b.insertMarked id place c.highlight (c.lines.map pad)).ids = b.ids ++ [id] := by
        rw [← ids_insertion b place (c.lines.map pad)]
        exact List.map_append
      rw [insertOutput, ih, hmarked, List.append_assoc, List.length_cons, List.range'_succ]
      rfl

theorem ids_report (b : Buffer) (pad : String → String) (id place : Nat) (chunks : List Chunk) :
    (b.report pad id place chunks).ids = b.ids ++ List.range' id chunks.length := by
  rw [report, ids_insertion, ids_insertOutput]

end Buffer

end Transcript
