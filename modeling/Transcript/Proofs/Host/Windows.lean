import Transcript.Proofs.Host.Current

/-!
What the windows show after a visit of an override. To make a place current makes one window show a buffer, the window
that is current from then on, and a visit does so twice: on entering it may be the overriding window, and on leaving it
is the window that was current before. What a window showed until then is not kept. So the overriding window goes on
showing the overriding buffer, the current window shows the current buffer even if it showed another one, and when a
buffer is deleted the windows that show it by then are closed.
-/
namespace Transcript.Host

/-! ### What windows are made to show -/

/-- Only the window that is current from then on may show another buffer. -/
theorem get?_windows_setCurrent (h : Host) (place : Place) (window : Nat) :
    (h.setCurrent place).windows.get? window
      = if (place.buffer ≠ 0 ∧ h.hasBuffer place.buffer = true) ∧ window = (h.pick place h.current).window then
          (h.windows.get? window).map fun _ => place.buffer
        else h.windows.get? window := by
  by_cases hplace : place.buffer ≠ 0 ∧ h.hasBuffer place.buffer = true
  · simp only [setCurrent, if_pos hplace, Table.get?_modify, and_iff_right hplace]
    rfl
  · simp only [setCurrent, hplace, false_and, if_false]

theorem get?_windows_enter (h : Host) (override : Place) (window : Nat) :
    (h.enter override).windows.get? window
      = if (override.buffer ≠ 0 ∧ h.hasBuffer override.buffer = true)
            ∧ window = (h.pick override h.current).window then
          (h.windows.get? window).map fun _ => override.buffer
        else h.windows.get? window := by
  unfold enter
  split
  next hnone => simp [hnone]
  · exact h.get?_windows_setCurrent override window

/-- On leaving for a place that is there, its window shows its buffer, unless nothing has moved. -/
theorem get?_windows_leave {h : Host} {saved : Place} (hbuffer : saved.buffer ≠ 0 ∧ h.hasBuffer saved.buffer = true)
    (hwindow : saved.window ≠ 0 ∧ h.hasWindow saved.window = true) (window : Nat) :
    (h.leave saved).windows.get? window
      = if h.current ≠ saved ∧ window = saved.window then (h.windows.get? window).map fun _ => saved.buffer
        else h.windows.get? window := by
  have hpick : (h.pick saved h.current).window = saved.window := if_pos hwindow
  unfold leave
  split
  next hsame => rw [if_neg fun hmoved => hmoved.1 hsame]
  next hmoved =>
    rw [get?_windows_setCurrent, hpick]
    simp only [hbuffer, hmoved, ne_eq, not_false_eq_true, true_and, and_self]

/-! ### After a visit -/

section Visit

variable {h : Host} {override : Place}

/-- What a window that showed `shown` shows after a visit. -/
def shownAfter (h : Host) (override : Place) (window shown : Nat) : Nat :=
  if window = h.current.window then
    if override.buffer ≠ 0 ∨ (override.window ≠ 0 ∧ override.window ≠ h.current.window) then h.current.buffer
    else shown
  else if override.buffer ≠ 0 ∧ override.window ≠ 0 ∧ window = override.window then override.buffer
  else shown

/-- The place that an override which is there makes current. -/
theorem pick_of_there (hbuffer : override.buffer = 0 ∨ h.hasBuffer override.buffer = true)
    (hwindow : override.window = 0 ∨ h.hasWindow override.window = true) (other : Place) :
    h.pick override other
      = ⟨if override.buffer = 0 then other.buffer else override.buffer,
        if override.window = 0 then other.window else override.window⟩ := by
  have hhalf : ∀ {half saved : Nat} {has : Bool}, (half = 0 ∨ has = true) →
      (if half ≠ 0 ∧ has = true then half else saved) = if half = 0 then saved else half := by
    rintro half saved has (rfl | rfl)
    · simp
    · simp
  rw [pick, hhalf hbuffer, hhalf hwindow]

/-- An override that is there moves nothing exactly if it has no part but those that are current. -/
theorem pick_eq_current_iff (hbuffer : override.buffer = 0 ∨ h.hasBuffer override.buffer = true)
    (hwindow : override.window = 0 ∨ h.hasWindow override.window = true) :
    h.pick override h.current = h.current
      ↔ (override.buffer = 0 ∨ override.buffer = h.current.buffer)
        ∧ (override.window = 0 ∨ override.window = h.current.window) := by
  have hhalf : ∀ half saved : Nat, (if half = 0 then saved else half) = saved ↔ half = 0 ∨ half = saved := by
    intro half saved
    by_cases hnone : half = 0 <;> simp [hnone]
  rw [pick_of_there hbuffer hwindow, ← hhalf, ← hhalf]
  exact ⟨fun hsame => ⟨congrArg Place.buffer hsame, congrArg Place.window hsame⟩,
    fun ⟨hb, hw⟩ => by rw [hb, hw]⟩

theorem get?_windows_visit (hcurrent : h.HasCurrent)
    (hbuffer : override.buffer = 0 ∨ h.hasBuffer override.buffer = true)
    (hwindow : override.window = 0 ∨ h.hasWindow override.window = true) (window : Nat) :
    ((h.enter override).leave h.current).windows.get? window
      = (h.windows.get? window).map (h.shownAfter override window) := by
  have hthere : (h.enter override).hasBuffer h.current.buffer = true := by rw [hasBuffer_enter, hcurrent.hasBuffer]
  have hthere' : (h.enter override).hasWindow h.current.window = true := by rw [hasWindow_enter, hcurrent.hasWindow]
  have hoverrides : override.buffer ≠ 0 ∧ h.hasBuffer override.buffer = true ↔ override.buffer ≠ 0 :=
    ⟨And.left, fun hne => ⟨hne, hbuffer.resolve_left hne⟩⟩
  have hpick := congrArg Place.window (pick_of_there hbuffer hwindow h.current)
  rw [get?_windows_leave ⟨hcurrent.buffer_ne, hthere⟩ ⟨hcurrent.window_ne, hthere'⟩, get?_windows_enter, current_enter]
  simp only [ne_eq, pick_eq_current_iff hbuffer hwindow, hoverrides, hpick]
  cases h.windows.get? window with
  | none => simp
  | some shown =>
      simp only [Option.map_some, shownAfter]
      by_cases hhere : window = h.current.window
      · -- Where entering and leaving move nothing, the overriding buffer is the current one.
        simp only [hhere, if_true]
        grind
      · -- Leaving does not reach the window.
        simp only [hhere, and_false, if_false]
        grind

/-- What a window shows after a visit is what it showed, or a buffer that is there. -/
theorem shownAfter_eq_or_hasBuffer (hcurrent : h.HasCurrent)
    (hbuffer : override.buffer = 0 ∨ h.hasBuffer override.buffer = true) (window shown : Nat) :
    h.shownAfter override window shown = shown ∨ h.hasBuffer (h.shownAfter override window shown) = true := by
  unfold shownAfter
  split
  · split
    · exact Or.inr hcurrent.hasBuffer
    · exact Or.inl rfl
  · split
    next hoverrides => exact Or.inr (hbuffer.resolve_left hoverrides.1)
    · exact Or.inl rfl

/-- What a visit makes windows show, they show already: the current window the current buffer, if the override has a
part that could move it, and a window that overrides it the overriding buffer. -/
structure ShowsAlready (h : Host) (override : Place) : Prop where
  current : override.buffer ≠ 0 ∨ (override.window ≠ 0 ∧ override.window ≠ h.current.window) →
    h.windows.get? h.current.window = some h.current.buffer
  overriding : override.buffer ≠ 0 → override.window ≠ 0 ∧ override.window ≠ h.current.window →
    h.windows.get? override.window = some override.buffer

/-- A visit changes nothing that windows show. -/
def KeepsShown (h : Host) (override : Place) : Prop :=
  ∀ window shown, h.windows.get? window = some shown → h.shownAfter override window shown = shown

theorem keepsShown_iff (hcurrent : h.HasCurrent)
    (hwindow : override.window = 0 ∨ h.hasWindow override.window = true) :
    h.KeepsShown override ↔ h.ShowsAlready override := by
  constructor
  · intro hkeeps
    refine ⟨fun hmoves => ?_, fun hbuffer hmoves => ?_⟩
    · obtain ⟨shown, hshown⟩ := Option.isSome_iff_exists.1 hcurrent.hasWindow
      have hsame := hkeeps _ _ hshown
      rw [shownAfter, if_pos rfl, if_pos hmoves] at hsame
      rw [hshown, hsame]
    · obtain ⟨shown, hshown⟩ := Option.isSome_iff_exists.1 (hwindow.resolve_left hmoves.1)
      have hsame := hkeeps _ _ hshown
      rw [shownAfter, if_neg hmoves.2, if_pos ⟨hbuffer, hmoves.1, rfl⟩] at hsame
      rw [hshown, hsame]
  · intro hshows window shown hshown
    unfold shownAfter
    split
    next hhere =>
      subst hhere
      split
      next hmoves =>
        have hcurrent := hshows.current hmoves
        rw [hshown] at hcurrent
        exact (Option.some.inj hcurrent).symm
      · rfl
    next hother =>
      split
      next hoverrides =>
        obtain ⟨hbuffer, hne, rfl⟩ := hoverrides
        have hoverriding := hshows.overriding hbuffer ⟨hne, hother⟩
        rw [hshown] at hoverriding
        exact (Option.some.inj hoverriding).symm
      · rfl

theorem windows_visit_eq_iff (hcurrent : h.HasCurrent)
    (hbuffer : override.buffer = 0 ∨ h.hasBuffer override.buffer = true)
    (hwindow : override.window = 0 ∨ h.hasWindow override.window = true) :
    (∀ window, ((h.enter override).leave h.current).windows.get? window = h.windows.get? window)
      ↔ h.KeepsShown override := by
  constructor
  · intro hsame window shown hshown
    have hafter := hsame window
    rw [get?_windows_visit hcurrent hbuffer hwindow, hshown] at hafter
    exact Option.some.inj hafter
  · intro hkeeps window
    rw [get?_windows_visit hcurrent hbuffer hwindow]
    cases hshown : h.windows.get? window with
    | none => rfl
    | some shown => exact congrArg some (hkeeps window shown hshown)

/-- **What windows show after a visit.** For a current place and an override that are there, all windows show what they
showed exactly if those that are made to show a buffer showed it already. Otherwise there is a buffer whose deletion
closes other windows than without the visit. -/
theorem windows_visit_iff (hr : h.Reached) (hbuffer : h.hasBuffer h.current.buffer = true)
    (hwindow : h.hasWindow h.current.window = true)
    (hoverride : override.buffer = 0 ∨ h.hasBuffer override.buffer = true)
    (hoverride' : override.window = 0 ∨ h.hasWindow override.window = true) :
    ((∀ window, ((h.enter override).leave h.current).windows.get? window = h.windows.get? window)
        ↔ h.ShowsAlready override)
      ∧ ((∀ buffer, h.hasBuffer buffer = true → ∀ window,
          (((h.enter override).leave h.current).deleteBuffer buffer).hasWindow window
            = (h.deleteBuffer buffer).hasWindow window)
        ↔ h.ShowsAlready override) := by
  have hcurrent := hr.hasCurrent hbuffer hwindow
  have hsame_iff := windows_visit_eq_iff hcurrent hoverride hoverride'
  rw [← keepsShown_iff hcurrent hoverride']
  refine ⟨hsame_iff, ?_, ?_⟩
  · intro hcloses window shown hshown
    refine Decidable.byContradiction fun hmoved => ?_
    -- The buffer that the window did not show before is there, and its deletion tells.
    have hthere := (shownAfter_eq_or_hasBuffer hcurrent hoverride window shown).resolve_left hmoved
    have hopen : (h.deleteBuffer (h.shownAfter override window shown)).hasWindow window = true :=
      (h.hasWindow_deleteBuffer _ window).2 ⟨shown, hshown, Ne.symm hmoved⟩
    rw [← hcloses _ hthere window, hasWindow_deleteBuffer, get?_windows_visit hcurrent hoverride hoverride',
      hshown] at hopen
    obtain ⟨shown', hshown', hne⟩ := hopen
    exact hne (Option.some.inj hshown').symm
  · intro hkeeps buffer _ window
    rw [Bool.eq_iff_iff, hasWindow_deleteBuffer, hasWindow_deleteBuffer, hsame_iff.2 hkeeps]

end Visit

/-- Two windows show the first buffer, and there is a second. -/
def sharedHost : Host := ((new.createBuffer []).2.createWindow 1).2

/-- After a visit of the second window with the second buffer that window shows it, and is closed with it. -/
theorem windows_visit_of_shared :
    sharedHost.current = ⟨1, 1⟩ ∧ sharedHost.windows.get? 2 = some 1
      ∧ (∃ window, ((sharedHost.enter ⟨2, 2⟩).leave sharedHost.current).windows.get? window
        ≠ sharedHost.windows.get? window)
      ∧ ∃ buffer, sharedHost.hasBuffer buffer = true ∧ ∃ window,
        (((sharedHost.enter ⟨2, 2⟩).leave sharedHost.current).deleteBuffer buffer).hasWindow window
          ≠ (sharedHost.deleteBuffer buffer).hasWindow window := by
  have hr : sharedHost.Reached := (Reached.new.createBuffer []).createWindow 1
  have hshown : sharedHost.windows.get? 2 = some 1 := by decide
  have hmoves : ¬ sharedHost.ShowsAlready ⟨2, 2⟩ := by
    intro hshows
    have hoverriding := hshows.overriding (by decide) (by decide)
    revert hoverriding
    decide
  obtain ⟨hkeeps, hcloses⟩ :=
    @windows_visit_iff sharedHost ⟨2, 2⟩ hr (by decide) (by decide) (Or.inr (by decide)) (Or.inr (by decide))
  refine ⟨rfl, hshown, ?_, ?_⟩
  · simpa using mt hkeeps.1 hmoves
  · simpa using mt hcloses.1 hmoves

end Transcript.Host
