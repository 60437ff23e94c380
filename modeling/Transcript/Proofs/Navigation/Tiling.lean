import Transcript.Proofs.Navigation

/-!
Gaps and outputs tile the lines. Marks that share no line have one order of lines, in whatever order they are stored.
Laid one below the other they leave gaps, some of them empty: above a mark on the first line, between marks that touch,
and below a mark on the last line. From the line that is next, each gap goes up to the mark below it, and the lines
behind that mark are laid in the same way, so every line ends up in one segment.
-/
namespace Transcript

theorem Segment.contains_iff (s : Segment) (line : Nat) : s.contains line = true ↔ s.first ≤ line ∧ line ≤ s.last := by
  simp [Segment.contains]

namespace Navigation

open scoped List

/-- Gaps and outputs in turn, with a gap at either end. -/
inductive Alternates : List Segment → Prop where
  | gap (first last : Nat) : Alternates [.gap first last]
  | output (first last : Nat) (m : Mark) {segs : List Segment} (h : Alternates segs) :
      Alternates (.gap first last :: .output m :: segs)

/-- Segments that cut the lines up to `lastLine` into gaps and all the marks. -/
structure Tiles (lastLine : Nat) (marks : List Mark) (segs : List Segment) : Prop where
  length_eq : segs.length = 2 * marks.length + 1
  alternates : Alternates segs
  outputs_perm : (outputs segs).Perm marks
  ascending : (outputs segs).Pairwise fun a b => a.last < b.first
  first_eq : segs.head?.map Segment.first = some 1
  last_eq : segs.getLast?.map Segment.last = some lastLine
  adjacent : segs.IsChain fun s t => t.first = s.last + 1
  first_le : ∀ s ∈ segs, s.first ≤ s.last + 1
  countP_contains : ∀ line, segs.countP (·.contains line) = if 1 ≤ line ∧ line ≤ lastLine then 1 else 0

/-! ### One order of lines -/

/-- Marks that stand one below the other are in the only order in which they do. -/
theorem Stacked.eq_of_perm {marks marks' : List Mark} (h : Stacked marks) (h' : Stacked marks')
    (hperm : marks.Perm marks') : marks = marks' := by
  refine List.Perm.eq_of_pairwise ?_ h.apart h'.apart hperm
  intro a b ha hb hab hba
  have ha' := h.proper a ha
  have hb' := h'.proper b hb
  omega

/-! ### Segments laid one below the other -/

/-- Segments laid from line `next` down to `lastLine`. -/
inductive Laid (lastLine : Nat) : Nat → List Segment → Prop where
  | gap {next : Nat} (hnext : next ≤ lastLine + 1) : Laid lastLine next [.gap next lastLine]
  | output {next last : Nat} {m : Mark} {segs : List Segment} (hgap : next ≤ last + 1) (hfirst : m.first = last + 1)
      (hproper : m.first ≤ m.last) (hrest : Laid lastLine (m.last + 1) segs) :
      Laid lastLine next (.gap next last :: .output m :: segs)

/-- Marks that stand one below the other between two lines are laid with the gaps between them. -/
theorem laid_segments {lastLine next : Nat} {marks : List Mark} (hstacked : Stacked marks) (hpos : 1 ≤ next)
    (hnext : next ≤ lastLine + 1) (hfirst : ∀ m ∈ marks, next ≤ m.first) (hlast : ∀ m ∈ marks, m.last ≤ lastLine) :
    Laid lastLine next (segments lastLine next marks) := by
  induction marks generalizing next with
  | nil => exact Laid.gap hnext
  | cons m marks ih =>
      obtain ⟨hbelow, happart⟩ := List.pairwise_cons.1 hstacked.apart
      obtain ⟨hproper, hproper'⟩ := List.forall_mem_cons.1 hstacked.proper
      obtain ⟨hm, -⟩ := List.forall_mem_cons.1 hfirst
      obtain ⟨hm', hlast'⟩ := List.forall_mem_cons.1 hlast
      have hrest : Laid lastLine (m.last + 1) (segments lastLine (m.last + 1) marks) :=
        ih ⟨happart, hproper'⟩ (by omega) (by omega) hbelow hlast'
      exact Laid.output (by omega) (by omega) hproper hrest

section Laid

variable {lastLine next : Nat} {segs : List Segment}

theorem Laid.alternates (h : Laid lastLine next segs) : Alternates segs := by
  induction h with
  | gap hnext => exact Alternates.gap _ _
  | output hgap hfirst hproper hrest ih => exact Alternates.output _ _ _ ih

theorem Alternates.length_eq (h : Alternates segs) : segs.length = 2 * (outputs segs).length + 1 := by
  induction h with
  | gap first last => rfl
  | @output first last m segs h ih =>
      have houtputs : outputs (.gap first last :: .output m :: segs) = m :: outputs segs := rfl
      rw [houtputs, List.length_cons, List.length_cons, List.length_cons, ih]
      omega

/-- The first segment starts on the line that was next. -/
theorem Laid.exists_cons (h : Laid lastLine next segs) : ∃ last rest, segs = .gap next last :: rest := by
  cases h with
  | gap hnext => exact ⟨_, _, rfl⟩
  | output hgap hfirst hproper hrest => exact ⟨_, _, rfl⟩

theorem Laid.getLast?_eq (h : Laid lastLine next segs) : segs.getLast?.map Segment.last = some lastLine := by
  induction h with
  | gap hnext => rfl
  | output hgap hfirst hproper hrest ih =>
      obtain ⟨last, rest, rfl⟩ := hrest.exists_cons
      rw [List.getLast?_cons_cons, List.getLast?_cons_cons]
      exact ih

theorem Laid.isChain (h : Laid lastLine next segs) : segs.IsChain fun s t => t.first = s.last + 1 := by
  induction h with
  | gap hnext => exact List.IsChain.singleton _
  | output hgap hfirst hproper hrest ih =>
      obtain ⟨last, rest, rfl⟩ := hrest.exists_cons
      exact List.isChain_cons_cons.2 ⟨hfirst, List.isChain_cons_cons.2 ⟨rfl, ih⟩⟩

/-- No segment ends further up than right above its start. -/
theorem Laid.first_le (h : Laid lastLine next segs) : ∀ s ∈ segs, s.first ≤ s.last + 1 := by
  induction h with
  | gap hnext =>
      intro s hs
      obtain rfl := List.mem_singleton.1 hs
      exact hnext
  | output hgap hfirst hproper hrest ih =>
      exact List.forall_mem_cons.2 ⟨hgap, List.forall_mem_cons.2 ⟨Nat.le_succ_of_le hproper, ih⟩⟩

theorem Laid.next_le (h : Laid lastLine next segs) : next ≤ lastLine + 1 := by
  induction h with
  | gap hnext => exact hnext
  | output hgap hfirst hproper hrest ih => omega

/-- The gap, the mark and what is below it share no line and leave none out. -/
theorem Laid.countP_contains (h : Laid lastLine next segs) (line : Nat) :
    segs.countP (·.contains line) = if next ≤ line ∧ line ≤ lastLine then 1 else 0 := by
  induction h with
  | @gap next hnext =>
      simp only [List.countP_cons, List.countP_nil, Segment.contains_iff, Nat.zero_add]
      rfl
  | @output next last m segs hgap hfirst hproper hrest ih =>
      have hbelow := hrest.next_le
      rw [List.countP_cons, List.countP_cons, ih]
      simp only [Segment.contains_iff, Segment.first, Segment.last]
      split_ifs <;> omega

end Laid

/-- **Gaps and outputs tile the lines.** Marks that share no line cut the lines in one way, in whatever order they are
stored: into gaps and the marks in turn, one right below the other, with each line in one of them. -/
theorem partition_tiles {marks stored : List Mark} {lastLine : Nat}
    (hbounds : ∀ m ∈ marks, 1 ≤ m.first ∧ m.first ≤ m.last ∧ m.last ≤ lastLine)
    (hdisjoint : marks.Pairwise Mark.Disjoint) (hstored : stored.Perm marks) :
    partition stored lastLine = partition marks lastLine ∧ Tiles lastLine marks (partition stored lastLine) := by
  have hproper : ∀ m ∈ marks, m.first ≤ m.last := fun m hm => (hbounds m hm).2.1
  have hstacked := stacked_inLineOrder hdisjoint hproper
  have hstacked' := stacked_inLineOrder (hdisjoint.perm hstored.symm fun h => symm h)
    fun m hm => hproper m (hstored.mem_iff.1 hm)
  have horder : inLineOrder stored = inLineOrder marks := by
    refine hstacked'.eq_of_perm hstacked ?_
    calc inLineOrder stored ~ stored := inLineOrder_perm stored
      _ ~ marks := hstored
      _ ~ inLineOrder marks := (inLineOrder_perm marks).symm
  have hsame : partition stored lastLine = partition marks lastLine := by rw [partition, partition, horder]
  have hlaid : Laid lastLine 1 (partition marks lastLine) := by
    refine laid_segments hstacked (Nat.le_refl 1) (Nat.le_add_left 1 lastLine) ?_ ?_
    · exact fun m hm => (hbounds m (mem_inLineOrder.1 hm)).1
    · exact fun m hm => (hbounds m (mem_inLineOrder.1 hm)).2.2
  have houtputs := outputs_partition marks lastLine
  rw [hsame]
  refine ⟨rfl, ?_⟩
  exact
    { length_eq := by rw [hlaid.alternates.length_eq, houtputs, (inLineOrder_perm marks).length_eq]
      alternates := hlaid.alternates
      outputs_perm := houtputs ▸ inLineOrder_perm marks
      ascending := houtputs ▸ hstacked.apart
      first_eq := by
        obtain ⟨last, rest, heq⟩ := hlaid.exists_cons
        rw [heq]
        rfl
      last_eq := hlaid.getLast?_eq
      adjacent := hlaid.isChain
      first_le := hlaid.first_le
      countP_contains := hlaid.countP_contains }

/-- A mark on the first lines and one on the last lines, which touch, in either order. -/
theorem partition_tiles_without_room :
    let above : Mark := ⟨1, 1, 2, .output⟩
    let below : Mark := ⟨2, 3, 4, .value⟩
    partition [below, above] 4 = [.gap 1 0, .output above, .gap 3 2, .output below, .gap 5 4]
      ∧ Tiles 4 [above, below] (partition [below, above] 4) := by
  intro above below
  have hbounds : ∀ m ∈ [above, below], 1 ≤ m.first ∧ m.first ≤ m.last ∧ m.last ≤ 4 := by decide
  have hdisjoint : [above, below].Pairwise Mark.Disjoint := List.pairwise_pair.2 (Mark.disjoint_of_lt (by decide))
  obtain ⟨hsame, htiles⟩ := partition_tiles hbounds hdisjoint (List.Perm.swap above below [])
  refine ⟨?_, htiles⟩
  rw [hsame]
  have horder : inLineOrder [above, below] = [above, below] := List.mergeSort_of_pairwise (by decide)
  rw [partition, horder]
  rfl

end Navigation

end Transcript
