import Transcript.Console
import Transcript.Proofs.Buffer.Report
import Transcript.Proofs.Host

/-!
Reading fresh output back. The highlights of the lines below the submitted one are those of the chunks just
inserted: every line of the block lies in the mark of its chunk and in no older one, and the empty line below
the block shows nothing.
-/
namespace Transcript

/-- The lines of chunks with their classes, as they are shown. -/
def shownLines (pad : String → String) (chunks : List Chunk) : List OutputLine :=
  chunks.flatMap fun c => c.lines.map fun line => (c.highlight, pad line)

theorem map_snd_shownLines (pad : String → String) (chunks : List Chunk) :
    (shownLines pad chunks).map Prod.snd = blockOf pad chunks := by
  simp [shownLines, blockOf, List.map_flatMap, Function.comp_def]

theorem shownLines_cons (pad : String → String) (c : Chunk) (cs : List Chunk) :
    shownLines pad (c :: cs) = (c.lines.map fun line => (c.highlight, pad line)) ++ shownLines pad cs := rfl

theorem ne_continuation_of_mem_shownLines {pad : String → String} {chunks : List Chunk}
    (hplain : ∀ c ∈ chunks, c.highlight ≠ .continuation) {x : OutputLine} (h : x ∈ shownLines pad chunks) :
    x.1 ≠ .continuation := by
  obtain ⟨c, hc, hx⟩ := List.mem_flatMap.1 h
  obtain ⟨line, -, rfl⟩ := List.mem_map.1 hx
  exact hplain c hc

/-- A line of the block lies in a mark of the block, and all such marks have the class of its chunk. -/
theorem marksOf_of_shownLines {pad : String → String} {chunks : List Chunk} {i : Nat} {x : OutputLine}
    (h : (shownLines pad chunks)[i]? = some x) (id place : Nat) :
    (∃ m ∈ marksOf id place chunks, m.covers (place + i + 1))
      ∧ ∀ m ∈ marksOf id place chunks, m.covers (place + i + 1) → m.highlight = x.1 := by
  induction chunks generalizing id place i with
  | nil => cases h
  | cons c cs ih =>
      rw [shownLines_cons] at h
      by_cases hi : i < c.lines.length
      · rw [List.getElem?_append_left (by simpa using hi), List.getElem?_map] at h
        obtain ⟨line, -, rfl⟩ := Option.map_eq_some_iff.1 h
        refine ⟨⟨_, List.mem_cons_self, ?_⟩, ?_⟩
        · rw [Mark.covers_iff]
          exact ⟨by simp only; omega, by simp only; omega⟩
        · intro m hm hcovers
          rcases List.mem_cons.1 hm with rfl | hm
          · rfl
          · have hfirst := (mem_marksOf hm).1
            rw [Mark.covers_iff] at hcovers
            omega
      · rw [List.getElem?_append_right (by simpa using hi), List.length_map] at h
        obtain ⟨⟨m, hm, hcovers⟩, hall⟩ := ih h (id + 1) (place + c.lines.length)
        have hline : place + c.lines.length + (i - c.lines.length) + 1 = place + i + 1 := by omega
        rw [hline] at hcovers hall
        refine ⟨⟨m, List.mem_cons_of_mem _ hm, hcovers⟩, ?_⟩
        intro m' hm' hcovers'
        rcases List.mem_cons.1 hm' with rfl | hm'
        · rw [Mark.covers_iff] at hcovers'
          simp only at hcovers'
          omega
        · exact hall m' hm' hcovers'

namespace Session

/-- A line of the block shows the class of its chunk. -/
theorem highlightOf_block {pad : String → String} {chunks : List Chunk} {i : Nat} {x : OutputLine}
    (h : (shownLines pad chunks)[i]? = some x) {old : List Mark} {place : Nat}
    (hold : ∀ m ∈ old, m.last ≤ place) (id : Nat) (marker : Char) (text : String) :
    highlightOf (inLineOrder (old ++ marksOf id place chunks)) marker (place + i + 1) text = some x.1 := by
  obtain ⟨⟨m, hm, hcovers⟩, hall⟩ := marksOf_of_shownLines h id place
  unfold highlightOf
  cases hfind : (inLineOrder (old ++ marksOf id place chunks)).find? (·.covers (place + i + 1)) with
  | none =>
      have hmem := Navigation.mem_inLineOrder.2 (List.mem_append_right old hm)
      exact absurd hcovers (List.find?_eq_none.1 hfind m hmem)
  | some found =>
      have hfound := List.find?_some hfind
      have hmem := Navigation.mem_inLineOrder.1 (List.mem_of_find?_eq_some hfind)
      rcases List.mem_append.1 hmem with hmem | hmem
      · have hlast := hold found hmem
        rw [Mark.covers_iff] at hfound
        omega
      · exact congrArg some (hall found hmem hfound)

/-- A line that no mark covers shows at most that it is a continuation. -/
theorem highlightOf_of_not_covers {marks : List Mark} {line : Nat} (h : ∀ m ∈ marks, ¬ m.covers line)
    (marker : Char) (text : String) :
    highlightOf (inLineOrder marks) marker line text
      = if isContinuation marker text then some .continuation else none := by
  have hfind : (inLineOrder marks).find? (·.covers line) = none := by
    rw [List.find?_eq_none]
    intro m hm
    exact h m (Navigation.mem_inLineOrder.1 hm)
  rw [highlightOf, hfind]

end Session

theorem filterMap_zipIdx_map_snd {ι κ : Type} (F : ι × Nat → Option (κ × ι)) (xs : List (κ × ι)) (n : Nat)
    (h : ∀ i x, xs[i]? = some x → F (x.2, n + i) = some x) :
    ((xs.map Prod.snd).zipIdx n).filterMap F = xs := by
  induction xs generalizing n with
  | nil => rfl
  | cons x xs ih =>
      have hhead : F (x.2, n) = some x := h 0 x rfl
      rw [List.map_cons, List.zipIdx_cons, List.filterMap_cons_some hhead]
      congr 1
      apply ih
      intro i y hy
      rw [Nat.add_assoc, Nat.add_comm 1 i]
      exact h (i + 1) y hy

namespace Console

/-- What the line with index `x.2` adds to the fresh output. -/
def freshLine? (c : Console) (submitted : Nat) (x : String × Nat) : Option OutputLine :=
  if submitted ≤ x.2 then
    ((Session.highlightOf (inLineOrder (c.host.marks c.session.buffer)) c.session.marker (x.2 + 1) x.1).filter
      (· != .continuation)).map fun h => (h, c.host.lineAt c.session.buffer (x.2 + 1))
  else none

theorem freshOutput_eq_filterMap {c : Console} (halive : c.session.isAlive c.host = true) (submitted : Nat) :
    ∃ shown, c.session.highlights c.host = .ok shown
      ∧ c.freshOutput submitted shown
        = (c.host.lines c.session.buffer).zipIdx.filterMap (c.freshLine? submitted) := by
  refine ⟨_, if_neg (by simp [halive]), ?_⟩
  rw [freshOutput, List.filter_filterMap, List.map_filterMap]
  congr 1
  funext ⟨text, i⟩
  have hbelow : submitted < i + 1 ↔ submitted ≤ i := Nat.lt_succ_iff
  dsimp only [freshLine?]
  cases Session.highlightOf (inLineOrder (c.host.marks c.session.buffer)) c.session.marker (i + 1) text with
  | none => simp
  | some h =>
      by_cases hi : submitted ≤ i <;> by_cases hh : h = .continuation <;>
        simp [hbelow, hi, hh, Option.filter]

/-- The buffer of the console ends in a block of chunks, each with a mark of its own, and an empty line. -/
structure EndsIn (c : Console) (pad : String → String) (chunks : List Chunk) (above : List String)
    (old : List Mark) (id : Nat) : Prop where
  alive : c.session.isAlive c.host = true
  lines : c.host.lines c.session.buffer = above ++ blockOf pad chunks ++ [""]
  marks : c.host.marks c.session.buffer = old ++ marksOf id above.length chunks
  old_le : ∀ m ∈ old, m.last ≤ above.length

namespace EndsIn

variable {c : Console} {pad : String → String} {chunks : List Chunk} {above : List String} {old : List Mark}
  {id : Nat}

theorem lineAt_block (h : c.EndsIn pad chunks above old id) {i : Nat} {x : OutputLine}
    (hx : (shownLines pad chunks)[i]? = some x) :
    c.host.lineAt c.session.buffer (above.length + i + 1) = x.2 := by
  have hx' : (blockOf pad chunks)[i]? = some x.2 := by
    rw [← map_snd_shownLines, List.getElem?_map, hx, Option.map_some]
  obtain ⟨hi, -⟩ := List.getElem?_eq_some_iff.1 hx'
  rw [Host.lineAt, h.lines, Nat.add_sub_cancel, List.append_assoc,
    List.getElem?_append_right (Nat.le_add_right _ _), Nat.add_sub_cancel_left, List.getElem?_append_left hi, hx',
    Option.getD_some]

/-- A line of the block is shown with the class of its chunk. -/
theorem freshLine?_block (h : c.EndsIn pad chunks above old id)
    (hplain : ∀ ch ∈ chunks, ch.highlight ≠ .continuation) {i : Nat} {x : OutputLine}
    (hx : (shownLines pad chunks)[i]? = some x) :
    c.freshLine? above.length (x.2, above.length + i) = some x := by
  have hhighlight := Session.highlightOf_block hx h.old_le id c.session.marker x.2
  have hclass : x.1 ≠ .continuation := ne_continuation_of_mem_shownLines hplain (List.mem_of_getElem? hx)
  have hplace : above.length ≤ above.length + i := Nat.le_add_right _ _
  simp only [freshLine?, if_pos hplace, h.marks, hhighlight, h.lineAt_block hx]
  simp [Option.filter, hclass]

/-- The empty line below the block shows nothing. -/
theorem freshLine?_end (h : c.EndsIn pad chunks above old id) :
    c.freshLine? above.length ("", above.length + heightOf chunks) = none := by
  have hnone : ∀ m ∈ old ++ marksOf id above.length chunks, ¬ m.covers (above.length + heightOf chunks + 1) := by
    intro m hm hcovers
    rw [Mark.covers_iff] at hcovers
    rcases List.mem_append.1 hm with hm | hm
    · have hlast := h.old_le m hm
      omega
    · have hlast := (mem_marksOf hm).2
      omega
  have hhighlight := Session.highlightOf_of_not_covers hnone c.session.marker ""
  simp only [freshLine?, h.marks, hhighlight]
  simp [isContinuation]

/-- The fresh output is the block. -/
theorem freshOutput_eq (h : c.EndsIn pad chunks above old id)
    (hplain : ∀ ch ∈ chunks, ch.highlight ≠ .continuation) :
    ∃ shown, c.session.highlights c.host = .ok shown
      ∧ c.freshOutput above.length shown = shownLines pad chunks := by
  obtain ⟨shown, hshown, hfresh⟩ := freshOutput_eq_filterMap h.alive above.length
  have habove : above.zipIdx.filterMap (c.freshLine? above.length) = [] := by
    rw [List.filterMap_eq_nil_iff]
    rintro ⟨text, i⟩ hx
    have hi := List.snd_lt_of_mem_zipIdx hx
    exact if_neg (by simp only at hi ⊢; omega)
  have hblock : ((blockOf pad chunks).zipIdx above.length).filterMap (c.freshLine? above.length)
      = shownLines pad chunks := by
    rw [← map_snd_shownLines]
    apply filterMap_zipIdx_map_snd
    intro i x hx
    exact h.freshLine?_block hplain hx
  have hempty : ([""].zipIdx (above.length + heightOf chunks)).filterMap (c.freshLine? above.length) = [] :=
    List.filterMap_cons_none h.freshLine?_end
  refine ⟨shown, hshown, ?_⟩
  calc c.freshOutput above.length shown
      = (above ++ blockOf pad chunks ++ [""]).zipIdx.filterMap (c.freshLine? above.length) := by
        rw [hfresh, h.lines]
    _ = above.zipIdx.filterMap (c.freshLine? above.length)
          ++ ((blockOf pad chunks).zipIdx above.length).filterMap (c.freshLine? above.length)
          ++ ([""].zipIdx (above.length + heightOf chunks)).filterMap (c.freshLine? above.length) := by
        rw [List.zipIdx_append, List.zipIdx_append, List.filterMap_append, List.filterMap_append,
          List.length_append, length_blockOf, Nat.zero_add, Nat.zero_add]
    _ = shownLines pad chunks := by rw [habove, hblock, hempty, List.nil_append, List.append_nil]

end EndsIn

end Console

end Transcript
