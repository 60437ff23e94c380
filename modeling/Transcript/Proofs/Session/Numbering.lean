import Transcript.Proofs.Buffer.Numbering
import Transcript.Proofs.Session.Changes
import Transcript.Proofs.Session.Lived

/-!
How a session numbers its marks. It counts: every mark gets the next number. Only where all marks of its buffer are
removed, or the buffer with them, does it start anew at 1. Of the other marks of its buffer it knows nothing.
-/
namespace Transcript

/-- The numbers of the marks of a buffer. -/
def Host.ids (h : Host) (buffer : Nat) : List Nat := (h.marks buffer).map Mark.id

namespace Host

variable {h h' : Host}

theorem ids_of_get? {buffer : Nat} {b : Buffer} (hget : h.buffers.get? buffer = some b) : h.ids buffer = b.ids := by
  rw [ids, marks_of_get? hget, Buffer.ids]

theorem ids_of_get?_none {buffer : Nat} (hget : h.buffers.get? buffer = none) : h.ids buffer = [] := by
  simp [ids, marks, hget]

theorem ids_congr {buffer : Nat} (hget : h'.buffers.get? buffer = h.buffers.get? buffer) :
    h'.ids buffer = h.ids buffer := by
  rw [ids, ids, marks, marks, hget]

theorem ids_modifyBuffer (h : Host) (buffer : Nat) {f : Buffer → Buffer} {fresh : List Nat}
    (hf : ∀ b, (f b).ids.Sublist (b.ids ++ fresh)) :
    ((h.modifyBuffer buffer f).ids buffer).Sublist (h.ids buffer ++ fresh) := by
  cases hget : h.buffers.get? buffer with
  | none =>
      have hnone : (h.modifyBuffer buffer f).buffers.get? buffer = none := by simp [modifyBuffer, hget]
      rw [ids_of_get?_none hnone]
      exact List.nil_sublist _
  | some b =>
      rw [ids_of_get? (get?_modifyBuffer hget f), ids_of_get? hget]
      exact hf b

theorem ids_modifyBuffer_of_ne (h : Host) {buffer other : Nat} (hother : other ≠ buffer) (f : Buffer → Buffer) :
    (h.modifyBuffer buffer f).ids other = h.ids other :=
  ids_congr (h.get?_modifyBuffer_of_ne hother f)

/-- An edit only takes numbers away. -/
theorem ids_setLines (h : Host) (edited start stop : Nat) (lines : List String) (buffer : Nat) :
    ((h.setLines edited start stop lines).ids buffer).Sublist (h.ids buffer) := by
  by_cases hedited : buffer = edited
  · subst hedited
    have hleft : ((h.setLines buffer start stop lines).ids buffer).Sublist (h.ids buffer ++ []) := by
      apply h.ids_modifyBuffer buffer
      intro b
      rw [List.append_nil]
      exact b.ids_splice start stop lines
    rwa [List.append_nil] at hleft
  · show ((h.modifyBuffer edited _).ids buffer).Sublist _
    rw [h.ids_modifyBuffer_of_ne hedited]

theorem ids_clearMarks (h : Host) (buffer : Nat) : (h.clearMarks buffer).ids buffer = [] := by
  cases hget : h.buffers.get? buffer with
  | none =>
      have hnone : (h.clearMarks buffer).buffers.get? buffer = none := by simp [clearMarks, modifyBuffer, hget]
      exact ids_of_get?_none hnone
  | some b => exact ids_of_get? (get?_modifyBuffer hget Buffer.clearMarks)

theorem ids_deleteBuffer (h : Host) (buffer : Nat) : (h.deleteBuffer buffer).ids buffer = [] :=
  ids_of_get?_none (by simp [deleteBuffer])

theorem ids_deleteBuffer_of_ne (h : Host) {buffer other : Nat} (hother : other ≠ buffer) :
    (h.deleteBuffer buffer).ids other = h.ids other :=
  ids_congr (by simp [deleteBuffer, hother])

end Host

/-- Of the numbers in use some are left, and more are given out: counting on from the next one, or anew from 1 with
none left. -/
inductive Counted (ids : List Nat) (next : Nat) (ids' : List Nat) (next' : Nat) : Prop where
  | on (count : Nat) (hnext : next' = next + count) (hids : ids'.Sublist (ids ++ List.range' next count))
  | anew (count : Nat) (hnext : next' = 1 + count) (hids : ids'.Sublist (List.range' 1 count))

namespace Counted

variable {ids ids' ids'' : List Nat} {next next' next'' : Nat}

theorem of_sublist (h : ids'.Sublist ids) : Counted ids next ids' next :=
  .on 0 rfl (by simpa using h)

theorem trans (h : Counted ids next ids' next') (h' : Counted ids' next' ids'' next'') :
    Counted ids next ids'' next'' := by
  cases h' with
  | anew count hnext hids => exact .anew count hnext hids
  | on count hnext hids =>
      cases h with
      | on before hbefore hleft =>
          subst hbefore
          refine .on (before + count) (by omega) (hids.trans ?_)
          have hrange := (hleft.append_right (List.range' (next + before) count))
          rwa [List.append_assoc, List.range'_append_1] at hrange
      | anew before hbefore hleft =>
          subst hbefore
          refine .anew (before + count) (by omega) (hids.trans ?_)
          have hrange := (hleft.append_right (List.range' (1 + before) count))
          rwa [List.range'_append_1] at hrange

/-- A number that is not 0 stays so. -/
theorem pos (h : Counted ids next ids' next') (hids : ∀ id ∈ ids, 0 < id) (hnext : 0 < next) :
    (∀ id ∈ ids', 0 < id) ∧ 0 < next' := by
  cases h with
  | on count heq hleft =>
      refine ⟨?_, by omega⟩
      intro id hid
      rcases List.mem_append.1 (hleft.subset hid) with hold | hnew
      · exact hids id hold
      · have := (List.mem_range'_1.1 hnew).1
        omega
  | anew count heq hleft =>
      refine ⟨?_, by omega⟩
      intro id hid
      exact (List.mem_range'_1.1 (hleft.subset hid)).1

/-- The counter stays ahead of numbers that differ. -/
theorem ahead (h : Counted ids next ids' next') (hnodup : ids.Nodup) (hids : ∀ id ∈ ids, id < next) :
    ids'.Nodup ∧ ∀ id ∈ ids', id < next' := by
  cases h with
  | on count heq hleft =>
      refine ⟨hleft.nodup (List.nodup_append.2 ⟨hnodup, List.nodup_range', ?_⟩), ?_⟩
      · intro id hold id' hnew
        have hlt := hids id hold
        have hle := (List.mem_range'_1.1 hnew).1
        omega
      · intro id hid
        rcases List.mem_append.1 (hleft.subset hid) with hold | hnew
        · have := hids id hold
          omega
        · have := (List.mem_range'_1.1 hnew).2
          omega
  | anew count heq hleft =>
      refine ⟨hleft.nodup List.nodup_range', ?_⟩
      intro id hid
      have := (List.mem_range'_1.1 (hleft.subset hid)).2
      omega

end Counted

namespace Session

variable {α β : Type}

/-- What a session does to numbers: it counts in its own buffer and changes none elsewhere. -/
structure Numbers (s : Session α β) (host : Host) (s' : Session α β) (host' : Host) : Prop where
  buffer : s'.buffer = s.buffer
  counted : Counted (host.ids s.buffer) s.nextMark (host'.ids s.buffer) s'.nextMark
  ids_of_ne : ∀ other, other ≠ s.buffer → host'.ids other = host.ids other

variable {s s' s'' : Session α β} {host host' host'' : Host}

theorem Numbers.trans (h : s.Numbers host s' host') (h' : s'.Numbers host' s'' host'') :
    s.Numbers host s'' host'' := by
  obtain ⟨hbuffer, hcounted, hothers⟩ := h'
  rw [h.buffer] at hbuffer hcounted hothers
  refine ⟨hbuffer, h.counted.trans hcounted, ?_⟩
  intro other hother
  exact (hothers other hother).trans (h.ids_of_ne other hother)

theorem numbers_of_same (hbuffer : s'.buffer = s.buffer) (hnext : s'.nextMark = s.nextMark)
    (hbuffers : host'.buffers = host.buffers) : s.Numbers host s' host' := by
  have hids : ∀ other, host'.ids other = host.ids other := fun other => Host.ids_congr (by rw [hbuffers])
  refine ⟨hbuffer, ?_, fun other _ => hids other⟩
  rw [hids, hnext]
  exact .of_sublist (List.Sublist.refl _)

/-- Every change of a session counts. -/
theorem Changes.numbers (h : s.Changes host s' host') : s.Numbers host s' host' := by
  induction h with
  | same hbuffer hnext hbuffers _ => exact numbers_of_same hbuffer hnext hbuffers
  | edit s host start stop lines =>
      refine ⟨rfl, .of_sublist (host.ids_setLines s.buffer start stop lines s.buffer), ?_⟩
      intro other hother
      exact host.ids_modifyBuffer_of_ne hother _
  | report s host last =>
      refine ⟨rfl, .on _ rfl ?_, fun other hother => host.ids_modifyBuffer_of_ne hother _⟩
      refine host.ids_modifyBuffer _ fun b => ?_
      rw [Buffer.ids_report]
  | insert s host last =>
      refine ⟨rfl, .on _ rfl ?_, fun other hother => host.ids_modifyBuffer_of_ne hother _⟩
      refine host.ids_modifyBuffer _ fun b => ?_
      rw [Buffer.ids_insertOutput]
  | clear s host =>
      refine ⟨rfl, .anew 0 rfl (by simp [Session.clear, Host.ids_clearMarks]), ?_⟩
      intro other hother
      exact (Host.ids_modifyBuffer_of_ne _ hother _).trans (Host.ids_modifyBuffer_of_ne _ hother _)
  | quit s host =>
      refine ⟨rfl, .anew 0 rfl (by simp [Host.ids_deleteBuffer]), ?_⟩
      intro other hother
      exact (Host.ids_deleteBuffer_of_ne _ hother).trans (Host.ids_modifyBuffer_of_ne _ hother _)
  | trans _ _ ih ih' => exact ih.trans ih'

/-- No session gives out the number 0. -/
theorem Lived.nextMark_pos [Evaluator α] [Evaluator β] (h : s.Lived) : 0 < s.nextMark := by
  have hcounts : ∀ {next next' : Nat} {ids ids' : List Nat}, 0 < next → Counted ids next ids' next' → 0 < next' := by
    intro next next' ids ids' hpos hcounted
    cases hcounted <;> omega
  induction h with
  | start buffer settings lua vim => exact Nat.zero_lt_one
  | @submit s s' host host' cursor answer _ hsubmit ih =>
      have hchanges := s.changes_operate host (.submit cursor)
      rw [operate, hsubmit] at hchanges
      exact hcounts ih hchanges.numbers.counted
  | dispatch _ host lines ih => exact hcounts ih (changes_dispatch _ host lines).numbers.counted
  | @move s s' host host' cursor cursor' direction _ hrecall ih =>
      rw [(session_of_recallMove hrecall).2]
      exact ih
  | clear _ host ih => exact Nat.zero_lt_one

end Session

end Transcript
