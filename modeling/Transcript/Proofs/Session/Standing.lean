import Transcript.Proofs.Session.Recall
import Transcript.Proofs.Statement.Insertion

/-!
Moves through the history over a statement. A move puts the lines that the history gives in the place of the statement
under the cursor, and goes to the last of them. If these lines are a statement again, it stands between the same
lines, and the next move replaces exactly it: nothing above or below it is ever merged with it or cut off.
-/
namespace Transcript

namespace Statement

/-- A cursor below the last line is taken to be there. -/
theorem resolve?_of_length_le {marker : Char} {lines : List String} {cursor : Nat} (h : lines.length ≤ cursor) :
    resolve? marker lines cursor = resolve? marker lines lines.length := by
  apply resolve?_congr
  unfold cursorIndex
  omega

end Statement

namespace Session

variable {α β : Type} {s : Session α β} {host : Host} {cursor : Nat} {above lines below : List String}

/-- The statement under the cursor has the lines `lines`, and stands between `above` and `below`. -/
structure Stands (s : Session α β) (host : Host) (cursor : Nat) (above lines below : List String) : Prop where
  alive : s.isAlive host = true
  lines_eq : host.lines s.buffer = above ++ lines ++ below
  resolved : s.statement? host cursor = some ⟨lines, above.length + 1, (above ++ lines).length⟩
  below : EndsBlock s.marker below

namespace Stands

theorem isStatement (h : s.Stands host cursor above lines below) : IsStatement s.marker lines :=
  isStatement_of_statement? h.alive h.resolved

/-- A statement stands under each of its lines, and below the last line of the buffer if it ends there. -/
theorem of_reach (halive : s.isAlive host = true) (hlines : host.lines s.buffer = above ++ lines ++ below)
    (hstatement : IsStatement s.marker lines) (hbelow : EndsBlock s.marker below) (hfirst : above.length < cursor)
    (hlast : cursor ≤ (above ++ lines).length ∨ below = []) : s.Stands host cursor above lines below := by
  have hstands : Statement.StandsIn s.marker (host.lines s.buffer) above below
      ⟨lines, above.length + 1, (above ++ lines).length⟩ :=
    ⟨hlines, rfl, List.length_append, hstatement, hbelow⟩
  refine ⟨halive, hlines, ?_, hbelow⟩
  by_cases hle : cursor ≤ (above ++ lines).length
  · exact hstands.resolve?_eq hfirst hle
  · have hend : (host.lines s.buffer).length = (above ++ lines).length := by
      rw [hlines, hlast.resolve_left hle, List.append_nil]
    rw [statement?, Statement.resolve?_of_length_le (by omega), hend]
    exact hstands.resolve?_eq hstands.first_le_last le_rfl

/-- The statement that is resolved stands in the buffer. -/
theorem exists_of_statement? (halive : s.isAlive host = true) {statement : Statement}
    (h : s.statement? host cursor = some statement) :
    ∃ above below, s.Stands host cursor above statement.lines below := by
  obtain ⟨b, hget⟩ := Option.isSome_iff_exists.1 halive
  have hlines := Host.lines_of_get? hget
  rcases Statement.exists_statement_or_headless s.marker b.lines_ne_nil cursor with
    ⟨above, upto, behind, below, hsplits, hupto⟩ | hheadless
  · rw [← hlines] at hsplits
    have hresolved : s.statement? host cursor = _ := hsplits.resolve?_eq hupto
    obtain rfl := Option.some.inj (h.symm.trans hresolved)
    refine ⟨above, below, halive, ?_, ?_, hsplits.below⟩
    · rw [hsplits.lines_eq]
      simp only [List.append_assoc]
    · rw [hresolved, List.append_assoc]
  · rw [statement?, hlines, Statement.resolve?_of_headless b.lines_ne_nil hheadless] at h
    cases h

/-- A move replaces the statement by what the history gives. -/
theorem exists_recallMove (h : s.Stands host cursor above lines below) (direction : Direction)
    (hne : (s.history.move direction lines).1 ≠ []) :
    ∃ host', s.recallMove host cursor direction
          = .ok ((above ++ (s.history.move direction lines).1).length,
              s.withShown (s.history.move direction lines).2.shown, host')
      ∧ s.isAlive host' = true
      ∧ host'.lines s.buffer = above ++ (s.history.move direction lines).1 ++ below := by
  have hrecalled : s.recalled host cursor = ⟨lines, above.length + 1, (above ++ lines).length⟩ := by
    rw [recalled, h.resolved]
  exact Session.exists_recallMove h.alive hrecalled h.lines_eq
    (Prod.ext rfl (History.move_eq_with s.history direction lines)) hne

/-- What the history gives stands in the place of the statement if it is one. -/
theorem move (h : s.Stands host cursor above lines below) (direction : Direction)
    (hstatement : IsStatement s.marker (s.history.move direction lines).1) :
    ∃ host', s.recallMove host cursor direction
          = .ok ((above ++ (s.history.move direction lines).1).length,
              s.withShown (s.history.move direction lines).2.shown, host')
      ∧ ∀ cursor', above.length < cursor' →
          (cursor' ≤ (above ++ (s.history.move direction lines).1).length ∨ below = []) →
          (s.withShown (s.history.move direction lines).2.shown).Stands host' cursor' above
            (s.history.move direction lines).1 below := by
  obtain ⟨host', hmove, halive, hlines⟩ := h.exists_recallMove direction hstatement.ne_nil
  exact ⟨host', hmove, fun cursor' hfirst hlast => of_reach halive hlines hstatement h.below hfirst hlast⟩

end Stands

end Session

end Transcript
