import Transcript.Proofs.Buffer.Bounds
import Transcript.Proofs.Host.Current
import Transcript.Proofs.Session.Changes

/-!
Marks stay in their buffers, whatever sessions and editors do. Every operation of a session comes down to edits of its
buffer, to output that is inserted with marks on it, and to marks that are removed; each of these keeps the marks of
all buffers on lines that are there.
-/
namespace Transcript

namespace Host

variable {h h' : Host}

/-- The marks of every buffer cover lines of it. -/
def MarksInRange (h : Host) : Prop := ∀ buffer b, h.buffers.get? buffer = some b → b.MarksInRange

theorem MarksInRange.congr (hmarks : h.MarksInRange) (hbuffers : h'.buffers = h.buffers) : h'.MarksInRange := by
  intro buffer b hget
  rw [hbuffers] at hget
  exact hmarks buffer b hget

/-- A change of one buffer need only keep what holds of that one. -/
theorem MarksInRange.modifyBuffer (hmarks : h.MarksInRange) {buffer : Nat} {f : Buffer → Buffer}
    (hf : ∀ b, h.buffers.get? buffer = some b → b.MarksInRange → (f b).MarksInRange) :
    (h.modifyBuffer buffer f).MarksInRange := by
  intro other b' hget
  by_cases hother : other = buffer
  · subst hother
    simp only [Host.modifyBuffer, Table.get?_modify, if_true] at hget
    obtain ⟨b, hb, rfl⟩ := Option.map_eq_some_iff.1 hget
    exact hf b hb (hmarks other b hb)
  · rw [h.get?_modifyBuffer_of_ne hother] at hget
    exact hmarks other b' hget

theorem MarksInRange.setLines (hmarks : h.MarksInRange) (buffer start stop : Nat) (lines : List String) :
    (h.setLines buffer start stop lines).MarksInRange :=
  hmarks.modifyBuffer fun _ _ hb => hb.splice start stop lines

theorem MarksInRange.clearMarks (hmarks : h.MarksInRange) (buffer : Nat) : (h.clearMarks buffer).MarksInRange := by
  refine hmarks.modifyBuffer ?_
  intro b _ _ m hm
  cases hm

theorem MarksInRange.deleteBuffer (hmarks : h.MarksInRange) (buffer : Nat) : (h.deleteBuffer buffer).MarksInRange := by
  intro other b hget
  simp only [Host.deleteBuffer, Table.get?_erase] at hget
  split at hget
  · cases hget
  · exact hmarks other b hget

theorem marksInRange_new : new.MarksInRange := by
  intro buffer b hget
  by_cases hone : buffer = 1
  · simp only [new, Table.get?_insert, hone, if_true] at hget
    obtain rfl := Option.some.inj hget
    exact Buffer.marksInRange_ofLines []
  · simp [new, hone] at hget

theorem MarksInRange.act (hmarks : h.MarksInRange) (a : Action) : (h.act a).MarksInRange := by
  cases a with
  | createBuffer lines =>
      intro buffer b hget
      simp only [Host.act, createBuffer, Table.get?_insert] at hget
      split at hget
      · obtain rfl := Option.some.inj hget
        exact Buffer.marksInRange_ofLines lines
      · exact hmarks buffer b hget
  | createWindow buffer => exact hmarks.congr rfl
  | closeWindow window => exact hmarks.congr rfl
  | deleteBuffer buffer => exact hmarks.deleteBuffer buffer
  | setCurrent place => exact hmarks.congr (h.buffers_setCurrent place)
  | setLines buffer start stop lines => exact hmarks.setLines buffer start stop lines
  | enter override => exact hmarks.congr (h.buffers_enter override)
  | leave saved => exact hmarks.congr (h.buffers_leave saved)

end Host

namespace Session

variable {α β : Type} {host : Host}

/-! ### One operation -/

/-- Output goes below a line of the buffer. -/
theorem insertionPoint_le_length (hmarks : host.MarksInRange) {buffer : Nat} {b : Buffer}
    (hget : host.buffers.get? buffer = some b) (last : Nat) :
    Navigation.insertionPoint (host.marks buffer) (min last (host.lineCount buffer)) ≤ b.lines.length := by
  rw [Host.marks_of_get? hget, Host.lineCount_of_get? hget]
  exact Navigation.insertionPoint_le (Nat.min_le_right last _) (hmarks buffer b hget).within

theorem Changes.marksInRange {s s' : Session α β} {host' : Host} (h : s.Changes host s' host')
    (hmarks : host.MarksInRange) : host'.MarksInRange := by
  induction h with
  | same _ _ hbuffers _ => exact hmarks.congr hbuffers
  | edit s host start stop lines => exact hmarks.setLines _ _ _ _
  | report s host last hproper =>
      refine hmarks.modifyBuffer fun b hget hb => ?_
      exact hb.report _ _ (insertionPoint_le_length hmarks hget last) hproper
  | insert s host last hproper =>
      refine hmarks.modifyBuffer fun b hget hb => ?_
      exact hb.insertOutput _ _ (insertionPoint_le_length hmarks hget last) hproper
  | clear s host => exact (hmarks.setLines _ _ _ _).clearMarks _
  | quit s host => exact (hmarks.clearMarks _).deleteBuffer _
  | trans _ _ ih ih' => exact ih' (ih hmarks)

end Session

/-! ### Runs -/

namespace Host

/-- The hosts that there are where sessions work: the fresh one, and what is made of it by actions, edits among them,
and by the operations of sessions, which may be any sessions. -/
inductive Worked : Host → Prop where
  | new : Worked new
  | act {h : Host} (hw : Worked h) (a : Action) : Worked (h.act a)
  | operate {h : Host} (hw : Worked h) {α β : Type} [Evaluator α] [Evaluator β] (s : Session α β) (op : Operation) :
      Worked (s.operate h op).2.2
  | dispatch {h : Host} (hw : Worked h) {α β : Type} [Evaluator α] [Evaluator β] (s : Session α β)
      (lines : List String) : Worked (s.dispatch h lines).host
  | clear {h : Host} (hw : Worked h) {α β : Type} (s : Session α β) : Worked (s.clear h).2

/-- Induction on what is done. -/
theorem Worked.marksInRange {h : Host} (hw : h.Worked) : h.MarksInRange := by
  induction hw with
  | new => exact marksInRange_new
  | act _ a ih => exact ih.act a
  | operate _ s op ih => exact (s.changes_operate _ op).marksInRange ih
  | dispatch _ s lines ih => exact (s.changes_dispatch _ lines).marksInRange ih
  | clear _ s ih => exact (Session.Changes.clear s _).marksInRange ih

/-- **Marks stay in their buffers.** Whatever edits and operations of sessions come one after the other, a buffer that is
there has a line, and a mark of it covers lines from 1 to the last one. -/
theorem Worked.marks_on_lines {h : Host} (hw : h.Worked) {buffer : Nat}
    (hvalid : h.hasBuffer buffer = true) :
    1 ≤ h.lineCount buffer
      ∧ ∀ m ∈ h.marks buffer, 1 ≤ m.first ∧ m.first ≤ m.last ∧ m.last ≤ h.lineCount buffer := by
  obtain ⟨b, hget⟩ := Option.isSome_iff_exists.1 hvalid
  rw [lineCount_of_get? hget, marks_of_get? hget]
  refine ⟨List.length_pos_iff.2 b.lines_ne_nil, ?_⟩
  intro m hm
  obtain ⟨hone, hle, hlast⟩ := hw.marksInRange buffer b hget m hm
  exact ⟨hone, hle, hlast⟩

/-- A command is submitted, the lines below its output are cut off by an edit that goes past the end, and a line is
put above it by an edit whose end is above its start. -/
def cutHost : Host :=
  (((StandardSession.new 1 {}).operate (new.act (.setLines 1 0 1 ["/i", "x"])) (.submit 1)).2.2.act
    (.setLines 1 2 9 [])).act (.setLines 1 9 0 ["y"])

theorem Worked.marks_on_lines_of_cutHost :
    cutHost.hasBuffer 1 = true
      ∧ cutHost.marks 1 = [{ id := 1, first := 3, last := 3, highlight := .info }]
      ∧ 1 ≤ cutHost.lineCount 1
      ∧ ∀ m ∈ cutHost.marks 1, 1 ≤ m.first ∧ m.first ≤ m.last ∧ m.last ≤ cutHost.lineCount 1 := by
  have hw : cutHost.Worked :=
    (((Worked.new.act _).operate (StandardSession.new 1 {}) (.submit 1)).act _).act _
  have hvalid : cutHost.hasBuffer 1 = true := by decide +kernel
  have hmarks : cutHost.marks 1 = [{ id := 1, first := 3, last := 3, highlight := .info }] := by decide +kernel
  exact ⟨hvalid, hmarks, hw.marks_on_lines hvalid⟩

end Host

end Transcript
