import Transcript.Proofs.Session.Standing

/-!
Submitting what was recalled. A walk back through the history that begins in a statement leaves an entry standing in
its place, however many lines the two have. The entry is resolved with its own lines and no others, so it is what a
submission dispatches and records once more.
-/
namespace Transcript

/-- A move back from an entry gives the one before it, or the oldest one again. -/
theorem History.exists_move_backward {h : History} {i : Nat} {edit entry : Lines} (hshown : h.shown = some ⟨i, edit⟩)
    (hentry : h.entries[i]? = some entry) :
    ∃ older, h.entries[i - 1]? = some older
      ∧ h.move .backward entry = (older, { h with shown := some ⟨i - 1, edit⟩ }) := by
  cases i with
  | zero =>
      refine ⟨entry, hentry, ?_⟩
      rw [move_backward_of_oldest entry hshown, ← hshown]
  | succ i =>
      have hi := Nat.lt_of_succ_lt (List.getElem?_eq_some_iff.1 hentry).1
      exact ⟨_, getElem?_showEntry hi edit, move_backward_of_entry entry hshown⟩

namespace Session

variable {α β : Type} {s : Session α β} {host : Host} {cursor : Nat} {above entry below : List String} {edit : Lines}
  {i : Nat}

/-- The entry with index `i` stands there instead of the lines `edit`, and the cursor is on its last line. -/
structure Shows (s : Session α β) (host : Host) (cursor : Nat) (above entry below : List String) (edit : Lines)
    (i : Nat) : Prop extends s.Stands host cursor above entry below where
  cursor_eq : cursor = (above ++ entry).length
  shown : s.history.shown = some ⟨i, edit⟩
  entry : s.history.entries[i]? = some entry
  entries : s.RecallsStatements

/-- A move that gives an entry shows it in the place of the statement. -/
theorem Stands.exists_shows {lines : List String} (h : s.Stands host cursor above lines below)
    (hentries : s.RecallsStatements) (hentry : s.history.entries[i]? = some entry)
    (hmove : s.history.move .backward lines = (entry, { s.history with shown := some ⟨i, edit⟩ })) :
    ∃ cursor' host', s.recallMove host cursor .backward = .ok (cursor', s.withShown (some ⟨i, edit⟩), host')
      ∧ (s.withShown (some ⟨i, edit⟩)).Shows host' cursor' above entry below edit i := by
  have hstatement : IsStatement s.marker entry := hentries entry (List.mem_of_getElem? hentry)
  have hpos := List.length_pos_iff.2 hstatement.ne_nil
  have hgives := h.move .backward (by rw [hmove]; exact hstatement)
  rw [hmove] at hgives
  obtain ⟨host', hok, hstands⟩ := hgives
  refine ⟨(above ++ entry).length, host', hok, hstands _ ?_ (Or.inl le_rfl), rfl, rfl, hentry, hentries⟩
  rw [List.length_append]
  omega

theorem Shows.back (h : s.Shows host cursor above entry below edit i) :
    ∃ cursor' host', s.recallMove host cursor .backward = .ok (cursor', s.withShown (some ⟨i - 1, edit⟩), host')
      ∧ ∃ older, (s.withShown (some ⟨i - 1, edit⟩)).Shows host' cursor' above older below edit (i - 1) := by
  obtain ⟨older, holder, hmove⟩ := History.exists_move_backward h.shown h.entry
  obtain ⟨cursor', host', hok, hshows⟩ := h.toStands.exists_shows h.entries holder hmove
  exact ⟨cursor', host', hok, older, hshows⟩

theorem Shows.walk_back (h : s.Shows host cursor above entry below edit i) (n : Nat) :
    ∃ cursor' host',
      s.recallMoves host cursor (List.replicate n .backward) = .ok (cursor', s.withShown (some ⟨i - n, edit⟩), host')
        ∧ ∃ entry', (s.withShown (some ⟨i - n, edit⟩)).Shows host' cursor' above entry' below edit (i - n) :=
  exists_recallMoves_back (Q := fun s host cursor i => ∃ entry, s.Shows host cursor above entry below edit i)
    (fun ⟨_, h⟩ => h.shown) (fun ⟨_, h⟩ => h.back) ⟨entry, h⟩ n

/-- The walk back from a statement, over at least one entry. -/
theorem Stands.walk_back {lines : List String} (h : s.Stands host cursor above lines below)
    (hentries : s.RecallsStatements) (hshown : s.history.shown = none) (hsize : s.history.size ≠ 0) {n : Nat}
    (hn : 1 ≤ n) :
    ∃ cursor' host' entry i,
      s.recallMoves host cursor (List.replicate n .backward) = .ok (cursor', s.withShown (some ⟨i, lines⟩), host')
        ∧ (s.withShown (some ⟨i, lines⟩)).Shows host' cursor' above entry below lines i
        ∧ i = s.history.size - min n s.history.size := by
  obtain ⟨m, rfl⟩ : ∃ m, n = m + 1 := ⟨n - 1, by omega⟩
  have hnewest : s.history.size - 1 < s.history.size := by omega
  have hmove := History.move_backward_of_edit lines hshown (show s.history.size - 1 + 1 = s.history.size by omega)
  obtain ⟨cursor₁, host₁, hfirst, h₁⟩ := h.exists_shows hentries (History.getElem?_showEntry hnewest lines) hmove
  obtain ⟨cursor', host', hrest, entry, h'⟩ := h₁.walk_back m
  refine ⟨cursor', host', entry, _, ?_, h', by omega⟩
  rw [List.replicate_succ, recallMoves_cons hfirst]
  exact hrest

/-- Submitting an entry that is shown dispatches its lines, and records them once more. -/
theorem Shows.submit_eq [Evaluator α] [Evaluator β] (h : s.Shows host cursor above entry below edit i)
    (hentry : IsRecorded s.marker entry) :
    s.submit host cursor
        = .ok (conclude ({ s with history := s.history.append entry }.dispatch host entry) cursor)
      ∧ (conclude ({ s with history := s.history.append entry }.dispatch host entry) cursor).2.1.history
        = s.history.append entry := by
  obtain ⟨b, hget⟩ := Option.isSome_iff_exists.1 h.alive
  have hblank : ¬ Statement.isBlank s.marker ⟨entry, above.length + 1, (above ++ entry).length⟩ = true := by
    simpa [Statement.isBlank] using hentry.2
  have hrecorded : s.recorded? host cursor = some ⟨entry, above.length + 1, (above ++ entry).length⟩ := by
    rw [recorded?, h.resolved]
    refine Option.filter_eq_some_iff.2 ⟨rfl, ?_⟩
    rwa [Bool.not_eq_true', Bool.eq_false_iff]
  have hend : Statement.blockEnd s.marker b.lines cursor = cursor := by
    have hresolved := h.resolved
    rw [statement?, Host.lines_of_get? hget] at hresolved
    exact (Statement.last_of_resolve? b.lines_ne_nil hresolved).symm.trans h.cursor_eq.symm
  have hsubmit : s.submit host cursor
      = .ok (conclude ({ s with history := s.history.append entry }.dispatch host entry) cursor) := by
    rw [s.submit_eq cursor hget, hend, answer, h.resolved]
    simp only [if_neg hblank]
  refine ⟨hsubmit, ?_⟩
  have hhistory := (submitted_of_submit hsubmit).history
  rwa [hrecorded] at hhistory

/-- **What is recalled is what is submitted.** Every entry of a history is a statement that is not blank. A walk of `n`
moves back that begins in a statement, with no recall in progress, ends on the `n`th entry from the end, or on the
oldest one. Submitting there dispatches the lines of that entry and no others, and appends them to the history. -/
theorem submit_recalled [Evaluator α] [Evaluator β] (hlived : s.Lived) :
    (∀ entry ∈ s.history.entries, IsRecorded s.marker entry)
      ∧ ∀ (host : Host) (cursor : Nat) (statement : Statement) (n : Nat), s.isAlive host = true →
        s.history.isRecalling = false → s.history.size ≠ 0 → s.statement? host cursor = some statement → 1 ≤ n →
          ∃ (cursor' : Nat) (s' : Session α β) (host' : Host) (entry : Lines),
            let submitted := conclude ({ s with history := s.history.append entry }.dispatch host' entry) cursor'
            s.recallMoves host cursor (List.replicate n .backward) = .ok (cursor', s', host')
              ∧ s.history.entries[s.history.size - min n s.history.size]? = some entry
              ∧ s'.submit host' cursor' = .ok submitted
              ∧ submitted.2.1.history.entries = s.history.entries.rtake (s.history.capacity - 1) ++ [entry] := by
  have horderly := hlived.orderly
  refine ⟨horderly.recorded, ?_⟩
  intro host cursor statement n halive hedit hsize hstatement hn
  have hshown := History.isRecalling_eq_false_iff.1 hedit
  obtain ⟨above, below, hstands⟩ := Stands.exists_of_statement? halive hstatement
  obtain ⟨cursor', host', entry, i, hwalk, hshows, rfl⟩ :=
    hstands.walk_back hlived.recallsStatements hshown hsize hn
  have hentry : IsRecorded s.marker entry := horderly.recorded entry (List.mem_of_getElem? hshows.entry)
  obtain ⟨hsubmit, hhistory⟩ := hshows.submit_eq hentry
  refine ⟨cursor', _, host', entry, hwalk, hshows.entry, hsubmit, ?_⟩
  exact (congrArg History.entries hhistory).trans (History.entries_append_of_room horderly.room entry)

/-- A statement of two lines gives way to an entry of one, with a line below it. -/
theorem submit_recalled_in_place_of_two_lines :
    ∃ (cursor' : Nat) (s' : StandardSession) (host' : Host),
      headlessSession.recallMoves (Host.new.setLines 1 0 1 ["x", "\\y", "z"]) 2 [.backward, .backward]
          = .ok (cursor', s', host')
        ∧ s'.submit host' cursor'
          = .ok (conclude
              ({ headlessSession with history := headlessSession.history.append ["/w"] }.dispatch host' ["/w"])
              cursor') := by
  obtain ⟨cursor', s', host', entry, hwalk, hentry, hsubmit, -⟩ :=
    (submit_recalled lived_headlessSession).2 (Host.new.setLines 1 0 1 ["x", "\\y", "z"]) 2 ⟨["x", "\\y"], 1, 2⟩ 2
      (by rfl) (by rfl) (by decide) (by rfl) (by decide)
  obtain rfl : ["/w"] = entry := Option.some.inj hentry
  exact ⟨cursor', s', host', hwalk, hsubmit⟩

end Session

end Transcript
