import Transcript.Host

/-!
What the operations of a host change. Edits and marks go through `modifyBuffer`, which composes, and reach one
buffer only. Making a place current, and making the saved one current again, changes no buffer, and the saved place
is current afterwards if its buffer and its window are valid.
-/
namespace Transcript.Host

/-! ### One buffer -/

theorem modifyBuffer_modifyBuffer (h : Host) (buffer : Nat) (f g : Buffer → Buffer) :
    (h.modifyBuffer buffer f).modifyBuffer buffer g = h.modifyBuffer buffer fun b => g (f b) := by
  simp only [modifyBuffer, Table.modify, List.map_map]
  congr 2
  apply List.map_congr_left
  rintro ⟨k, b⟩ -
  by_cases hk : k = buffer <;> simp [hk]

theorem modifyBuffer_self (h : Host) (buffer : Nat) : h.modifyBuffer buffer (fun b => b) = h := by
  simp [modifyBuffer, Table.modify]

theorem get?_modifyBuffer {h : Host} {buffer : Nat} {b : Buffer} (hget : h.buffers.get? buffer = some b)
    (f : Buffer → Buffer) : (h.modifyBuffer buffer f).buffers.get? buffer = some (f b) := by
  simp [modifyBuffer, hget]

theorem get?_modifyBuffer_of_ne (h : Host) {buffer other : Nat} (hother : other ≠ buffer)
    (f : Buffer → Buffer) : (h.modifyBuffer buffer f).buffers.get? other = h.buffers.get? other := by
  simp [modifyBuffer, hother]

/-- The valid numbers are the same. -/
@[simp] theorem hasBuffer_modifyBuffer (h : Host) (buffer : Nat) (f : Buffer → Buffer) (other : Nat) :
    (h.modifyBuffer buffer f).hasBuffer other = h.hasBuffer other := by
  by_cases hother : other = buffer <;> simp [modifyBuffer, hasBuffer, Table.contains, hother]

theorem hasBuffer_of_get? {h : Host} {buffer : Nat} {b : Buffer} (hget : h.buffers.get? buffer = some b) :
    h.hasBuffer buffer = true := by
  simp [hasBuffer, Table.contains, hget]

theorem lines_of_get? {h : Host} {buffer : Nat} {b : Buffer} (hget : h.buffers.get? buffer = some b) :
    h.lines buffer = b.lines := by
  simp [lines, hget]

theorem marks_of_get? {h : Host} {buffer : Nat} {b : Buffer} (hget : h.buffers.get? buffer = some b) :
    h.marks buffer = b.marks := by
  simp [marks, hget]

theorem lineCount_of_get? {h : Host} {buffer : Nat} {b : Buffer} (hget : h.buffers.get? buffer = some b) :
    h.lineCount buffer = b.lines.length := by
  rw [lineCount, lines_of_get? hget]

/-! ### What evaluations depend on -/

/-- Hosts with the same valid buffers and windows and the same current place. What the windows show is left out, for
no evaluation sees it. -/
structure Alike (h h' : Host) : Prop where
  hasBuffer : ∀ buffer, h'.hasBuffer buffer = h.hasBuffer buffer
  hasWindow : ∀ window, h'.hasWindow window = h.hasWindow window
  current : h'.current = h.current

theorem Alike.refl (h : Host) : h.Alike h := ⟨fun _ => rfl, fun _ => rfl, rfl⟩

theorem Alike.symm {h h' : Host} (ha : h.Alike h') : h'.Alike h where
  hasBuffer buffer := (ha.hasBuffer buffer).symm
  hasWindow window := (ha.hasWindow window).symm
  current := ha.current.symm

theorem Alike.trans {h h' h'' : Host} (ha : h.Alike h') (ha' : h'.Alike h'') : h.Alike h'' where
  hasBuffer buffer := (ha'.hasBuffer buffer).trans (ha.hasBuffer buffer)
  hasWindow window := (ha'.hasWindow window).trans (ha.hasWindow window)
  current := ha'.current.trans ha.current

/-- Changing a buffer is not seen. -/
theorem alike_modifyBuffer (h : Host) (buffer : Nat) (f : Buffer → Buffer) :
    h.Alike (h.modifyBuffer buffer f) :=
  ⟨fun other => h.hasBuffer_modifyBuffer buffer f other, fun _ => rfl, rfl⟩

theorem Alike.modifyBuffer {h h' : Host} (ha : h.Alike h') (buffer : Nat) (f g : Buffer → Buffer) :
    (h.modifyBuffer buffer f).Alike (h'.modifyBuffer buffer g) :=
  ((h.alike_modifyBuffer buffer f).symm.trans ha).trans (h'.alike_modifyBuffer buffer g)

/-- Two hosts that evaluations cannot tell apart, with the same contents in one buffer. -/
structure AlikeAt (buffer : Nat) (h h' : Host) : Prop where
  alike : h.Alike h'
  get? : h'.buffers.get? buffer = h.buffers.get? buffer

/-- What changes from one host to the other is within one buffer, as far as evaluations can tell. -/
structure Confined (buffer : Nat) (h h' : Host) : Prop where
  alike : h.Alike h'
  get?_of_ne : ∀ other, other ≠ buffer → h'.buffers.get? other = h.buffers.get? other

section Changes

variable {h h' h'' : Host} {buffer : Nat}

theorem AlikeAt.symm (ha : AlikeAt buffer h h') : AlikeAt buffer h' h := ⟨ha.alike.symm, ha.get?.symm⟩

theorem AlikeAt.lines (ha : AlikeAt buffer h h') : h'.lines buffer = h.lines buffer := by
  rw [Host.lines, Host.lines, ha.get?]

theorem AlikeAt.lineCount (ha : AlikeAt buffer h h') : h'.lineCount buffer = h.lineCount buffer := by
  rw [Host.lineCount, Host.lineCount, ha.lines]

theorem AlikeAt.marks (ha : AlikeAt buffer h h') : h'.marks buffer = h.marks buffer := by
  rw [Host.marks, Host.marks, ha.get?]

theorem AlikeAt.modifyBuffer (ha : AlikeAt buffer h h') (f : Buffer → Buffer) :
    AlikeAt buffer (h.modifyBuffer buffer f) (h'.modifyBuffer buffer f) where
  alike := ha.alike.modifyBuffer buffer f f
  get? := by simp [Host.modifyBuffer, ha.get?]

theorem Confined.refl (buffer : Nat) (h : Host) : Confined buffer h h := ⟨Alike.refl h, fun _ _ => rfl⟩

theorem Confined.trans (hc : Confined buffer h h') (hc' : Confined buffer h' h'') : Confined buffer h h'' where
  alike := hc.alike.trans hc'.alike
  get?_of_ne other hother := (hc'.get?_of_ne other hother).trans (hc.get?_of_ne other hother)

theorem confined_modifyBuffer (h : Host) (buffer : Nat) (f : Buffer → Buffer) :
    Confined buffer h (h.modifyBuffer buffer f) :=
  ⟨h.alike_modifyBuffer buffer f, fun _ hother => h.get?_modifyBuffer_of_ne hother f⟩

theorem Confined.alikeAt (hc : Confined buffer h h') {other : Nat} (hother : other ≠ buffer) : AlikeAt other h h' :=
  ⟨hc.alike, hc.get?_of_ne other hother⟩

end Changes

/-! ### The current place -/

@[simp] theorem buffers_setCurrent (h : Host) (place : Place) : (h.setCurrent place).buffers = h.buffers := by
  by_cases hplace : place.buffer ≠ 0 ∧ h.hasBuffer place.buffer = true <;> simp [setCurrent, hplace]

@[simp] theorem buffers_enter (h : Host) (override : Place) : (h.enter override).buffers = h.buffers := by
  unfold enter
  split
  · rfl
  · exact h.buffers_setCurrent override

@[simp] theorem buffers_leave (h : Host) (saved : Place) : (h.leave saved).buffers = h.buffers := by
  unfold leave
  split
  · rfl
  · exact h.buffers_setCurrent saved

@[simp] theorem nextBuffer_setCurrent (h : Host) (place : Place) : (h.setCurrent place).nextBuffer = h.nextBuffer := by
  by_cases hplace : place.buffer ≠ 0 ∧ h.hasBuffer place.buffer = true <;> simp [setCurrent, hplace]

@[simp] theorem nextBuffer_enter (h : Host) (override : Place) : (h.enter override).nextBuffer = h.nextBuffer := by
  unfold enter
  split
  · rfl
  · exact h.nextBuffer_setCurrent override

@[simp] theorem nextBuffer_leave (h : Host) (saved : Place) : (h.leave saved).nextBuffer = h.nextBuffer := by
  unfold leave
  split
  · rfl
  · exact h.nextBuffer_setCurrent saved

@[simp] theorem hasBuffer_setCurrent (h : Host) (place : Place) (buffer : Nat) :
    (h.setCurrent place).hasBuffer buffer = h.hasBuffer buffer := by
  rw [hasBuffer, hasBuffer, buffers_setCurrent]

/-- The window that is made current shows another buffer, and stays valid. -/
@[simp] theorem hasWindow_setCurrent (h : Host) (place : Place) (window : Nat) :
    (h.setCurrent place).hasWindow window = h.hasWindow window := by
  have hmodify : ∀ (t : Table Nat) (k : Nat) (f : Nat → Nat), (t.modify k f).contains window = t.contains window := by
    intro t k f
    by_cases hk : window = k <;> simp [Table.contains, hk]
  by_cases hplace : place.buffer ≠ 0 ∧ h.hasBuffer place.buffer = true
  · simp only [hasWindow, setCurrent, if_pos hplace, hmodify]
  · simp only [hasWindow, setCurrent, if_neg hplace]

@[simp] theorem hasBuffer_enter (h : Host) (override : Place) (buffer : Nat) :
    (h.enter override).hasBuffer buffer = h.hasBuffer buffer := by
  rw [hasBuffer, hasBuffer, buffers_enter]

@[simp] theorem hasWindow_enter (h : Host) (override : Place) (window : Nat) :
    (h.enter override).hasWindow window = h.hasWindow window := by
  unfold enter
  split
  · rfl
  · exact h.hasWindow_setCurrent override window

/-- The current buffer and the current window are there. -/
structure HasCurrent (h : Host) : Prop where
  buffer_ne : h.current.buffer ≠ 0
  hasBuffer : h.hasBuffer h.current.buffer = true
  window_ne : h.current.window ≠ 0
  hasWindow : h.hasWindow h.current.window = true

theorem HasCurrent.congr {h h' : Host} (hcurrent : h.HasCurrent) (ha : h.Alike h') : h'.HasCurrent where
  buffer_ne := by rw [ha.current]; exact hcurrent.buffer_ne
  hasBuffer := by rw [ha.current, ha.hasBuffer]; exact hcurrent.hasBuffer
  window_ne := by rw [ha.current]; exact hcurrent.window_ne
  hasWindow := by rw [ha.current, ha.hasWindow]; exact hcurrent.hasWindow

/-- Entering an override and leaving it again is not seen where the current place is there: each part of it is made
current again, whatever the override was. -/
theorem HasCurrent.alike_visit {h : Host} (hcurrent : h.HasCurrent) (override : Place) :
    h.Alike ((h.enter override).leave h.current) := by
  have hbuffer := h.hasBuffer_enter override
  have hwindow := h.hasWindow_enter override
  unfold leave
  split
  next hsame => exact ⟨hbuffer, hwindow, hsame⟩
  next hmoved =>
    refine ⟨?_, ?_, ?_⟩
    · intro buffer
      rw [hasBuffer_setCurrent, hbuffer]
    · intro window
      rw [hasWindow_setCurrent, hwindow]
    · unfold setCurrent
      simp only [hbuffer, hwindow]
      rw [if_pos ⟨hcurrent.buffer_ne, hcurrent.hasBuffer⟩, if_pos ⟨hcurrent.window_ne, hcurrent.hasWindow⟩]

/-! ### Numbers that are given out -/

/-- The hosts that there are: the fresh one, and what the operations make of it. -/
inductive Reached : Host → Prop where
  | new : Reached new
  | createBuffer {h : Host} (hr : Reached h) (lines : List String) : Reached (h.createBuffer lines).2
  | createWindow {h : Host} (hr : Reached h) (buffer : Nat) : Reached (h.createWindow buffer).2
  | closeWindow {h : Host} (hr : Reached h) (window : Nat) : Reached (h.closeWindow window)
  | setCurrent {h : Host} (hr : Reached h) (place : Place) : Reached (h.setCurrent place)
  | modifyBuffer {h : Host} (hr : Reached h) (buffer : Nat) (f : Buffer → Buffer) : Reached (h.modifyBuffer buffer f)
  | deleteBuffer {h : Host} (hr : Reached h) (buffer : Nat) : Reached (h.deleteBuffer buffer)

/-- The number 0 is neither given out nor about to be. -/
structure SparesZero (h : Host) : Prop where
  hasBuffer : h.hasBuffer 0 = false
  hasWindow : h.hasWindow 0 = false
  nextBuffer : 0 < h.nextBuffer
  nextWindow : 0 < h.nextWindow

theorem SparesZero.setCurrent {h : Host} (hs : h.SparesZero) (place : Place) : (h.setCurrent place).SparesZero where
  hasBuffer := (h.hasBuffer_setCurrent place 0).trans hs.hasBuffer
  hasWindow := (h.hasWindow_setCurrent place 0).trans hs.hasWindow
  nextBuffer := by
    rw [Host.nextBuffer_setCurrent]
    exact hs.nextBuffer
  nextWindow := by
    by_cases hplace : place.buffer ≠ 0 ∧ h.hasBuffer place.buffer = true <;>
      simpa [Host.setCurrent, hplace] using hs.nextWindow

theorem Reached.sparesZero {h : Host} (hr : h.Reached) : h.SparesZero := by
  induction hr with
  | new => exact ⟨rfl, rfl, Nat.zero_lt_two, Nat.zero_lt_two⟩
  | createBuffer _ lines ih =>
      refine ⟨?_, ih.hasWindow, Nat.succ_pos _, ih.nextWindow⟩
      have hne := Nat.ne_of_lt ih.nextBuffer
      simpa [Host.createBuffer, Host.hasBuffer, Table.contains, hne] using ih.hasBuffer
  | createWindow _ buffer ih =>
      refine ⟨ih.hasBuffer, ?_, ih.nextBuffer, Nat.succ_pos _⟩
      have hne := Nat.ne_of_lt ih.nextWindow
      simpa [Host.createWindow, Host.hasWindow, Table.contains, hne] using ih.hasWindow
  | closeWindow _ window ih =>
      refine ⟨ih.hasBuffer, ?_, ih.nextBuffer, ih.nextWindow⟩
      have hnone := ih.hasWindow
      simp_all [Host.closeWindow, Host.hasWindow, Table.contains]
  | setCurrent _ place ih => exact ih.setCurrent place
  | modifyBuffer _ buffer f ih =>
      exact ⟨(hasBuffer_modifyBuffer _ buffer f 0).trans ih.hasBuffer, ih.hasWindow, ih.nextBuffer, ih.nextWindow⟩
  | deleteBuffer _ buffer ih =>
      have hbuffer := ih.hasBuffer
      have hwindow := ih.hasWindow
      refine ⟨?_, ?_, ih.nextBuffer, ih.nextWindow⟩
      · simp_all [Host.deleteBuffer, Host.hasBuffer, Table.contains]
      · simp_all [Host.deleteBuffer, Host.hasWindow, Table.contains]

/-- A valid number is none that stands for nothing. -/
theorem Reached.hasCurrent {h : Host} (hr : h.Reached) (hbuffer : h.hasBuffer h.current.buffer = true)
    (hwindow : h.hasWindow h.current.window = true) : h.HasCurrent where
  buffer_ne hzero := by
    rw [hzero, hr.sparesZero.hasBuffer] at hbuffer
    cases hbuffer
  hasBuffer := hbuffer
  window_ne hzero := by
    rw [hzero, hr.sparesZero.hasWindow] at hwindow
    cases hwindow
  hasWindow := hwindow

end Transcript.Host
