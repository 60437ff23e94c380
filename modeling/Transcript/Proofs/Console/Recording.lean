import Transcript.Proofs.Console.Actions

/-!
What the lines of a console record. A line that completes a statement records the pieces typed since the last statement
or cancel, the first as it was typed and the others behind the marker, unless they are blank. That holds of pieces whose
first one does not start with the marker. Otherwise all lines of the pieces are continuations, and the statement is
theirs that the lines above end with, an output as well as an earlier statement.
-/
namespace Transcript

namespace Console

variable {c : Console} {b : Buffer} {above typed : List String}

/-- Behind a first piece that starts with the marker every line is a continuation. -/
theorem isContinuation_of_mem_statementLines {marker : Char} {pieces : List String}
    (hfirst : ∃ first, pieces.head? = some first ∧ isContinuation marker first = true) {line : String}
    (hline : line ∈ statementLines marker pieces) : isContinuation marker line = true := by
  obtain ⟨first, hhead, hmarked⟩ := hfirst
  obtain ⟨rest, rfl⟩ := List.head?_eq_some_iff.1 hhead
  rcases List.mem_cons.1 hline with rfl | hline
  · exact hmarked
  · obtain ⟨piece, -, rfl⟩ := List.mem_map.1 hline
    exact isContinuation_cons marker piece.toList

/-- If the first piece starts with the marker, all pieces go on with the statement that ends the lines above them. There
is none if these lines are continuations, too. -/
theorem Holds.statement?_of_continuation {piece : String} (h : c.Holds b above typed piece)
    (hfirst : ∃ first, (typed ++ [piece]).head? = some first ∧ isContinuation c.session.marker first = true) :
    ((∀ line ∈ above, isContinuation c.session.marker line = true) ∧ c.session.statement? c.host c.cursor = none)
      ∨ ∃ reached statement, IsStatement c.session.marker reached ∧ reached <:+ above
          ∧ c.session.statement? c.host c.cursor = some statement
          ∧ statement.lines = reached ++ statementLines c.session.marker (typed ++ [piece]) := by
  have hlines := h.lines_eq
  have hlast : c.cursor = (c.host.lines c.session.buffer).length := by
    rw [Host.lines_of_get? h.get, h.length_lines]
  rw [Session.statement?, hlast, hlines]
  generalize hpieces : statementLines c.session.marker (typed ++ [piece]) = pieces at *
  have hmarked : ∀ line ∈ pieces, isContinuation c.session.marker line = true := by
    intro line hline
    rw [← hpieces] at hline
    exact isContinuation_of_mem_statementLines hfirst hline
  have hne : above ++ pieces ≠ [] := by
    rw [← hlines, Host.lines_of_get? h.get]
    exact b.lines_ne_nil
  rcases Statement.exists_statement_or_headless c.session.marker hne (above ++ pieces).length with
    ⟨higher, upto, behind, below, hsplits, hupto⟩ | hheadless
  · have htake := hsplits.take_eq
    rw [Statement.cursorIndex_length hne, List.take_length] at htake
    have hbehind : behind = [] := by
      have hnothing := hsplits.lines_eq
      rw [htake, List.self_eq_append_right] at hnothing
      exact (List.append_eq_nil_iff.1 hnothing).1
    have hresolved := hsplits.resolve?_eq hupto
    rw [hbehind] at hresolved
    obtain ⟨first, rest, rfl, hplain, hrest⟩ := hupto
    have hnot : first ∉ pieces := by
      intro hmem
      rw [hmarked first hmem] at hplain
      cases hplain
    -- The line that the statement starts with is no piece, so the pieces are the end of the statement.
    have hend : first :: rest <:+ above ++ pieces := ⟨higher, htake.symm⟩
    rcases List.suffix_or_suffix_of_suffix hend (List.suffix_append above pieces) with hwithin | ⟨reached, hreached⟩
    · exact absurd (hwithin.subset List.mem_cons_self) hnot
    · cases reached with
      | nil =>
          rw [List.nil_append] at hreached
          exact absurd (hreached ▸ List.mem_cons_self) hnot
      | cons line reached =>
          rw [List.cons_append] at hreached
          obtain ⟨rfl, rfl⟩ := List.cons.inj hreached
          refine Or.inr ⟨line :: reached, _, ⟨line, reached, rfl, hplain, ?_⟩, ⟨higher, ?_⟩, hresolved, by simp⟩
          · intro other hother
            exact hrest other (List.mem_append_left _ hother)
          · rw [← List.cons_append, ← List.append_assoc] at htake
            exact (List.append_cancel_right htake).symm
  · refine Or.inl ⟨?_, Statement.resolve?_of_headless hne hheadless⟩
    rw [Statement.cursorIndex_length hne, List.take_length] at hheadless
    intro line hline
    exact hheadless line (List.mem_append_left _ hline)

/-- A line that goes on leaves the history alone. -/
theorem Holds.history_line_of_more (h : c.Typing b above typed) {text : String} {body : List Char}
    (hsplit : splitMarker c.session.marker text.toList = (body, true)) :
    (c.act (.line text)).session.history = c.session.history := by
  obtain ⟨c', b', hfeed, -, -, hsession, -⟩ := h.feed_more hsplit
  rw [(act_of_feed hfeed).1, hsession]

/-- A complete statement records what the session resolves under the cursor, unless it is blank. -/
theorem Holds.history_line (h : c.Typing b above typed) {text : String} {body : List Char}
    (hsplit : splitMarker c.session.marker text.toList = (body, false)) :
    (c.act (.line text)).session.history
      = (c.session.recorded? (c.type body).1.host c.cursor).elim c.session.history
          fun statement => c.session.history.append statement.lines := by
  have hanswer : (c.answer body).session.history = _ :=
    c.session.history_answer (c.type body).1.host c.cursor
  rw [← hanswer]
  cases hnext : (c.answer body).next with
  | exit =>
      obtain ⟨c', hfeed, hsession, -⟩ := h.exists_feed_quit hsplit hnext
      rw [(act_of_feed hfeed).1, hsession]
  | hold =>
      obtain ⟨c', b', hfeed, -, -, hsession, -⟩ := h.feed_hold hsplit hnext
      rw [(act_of_feed hfeed).1, hsession]
  | proceed =>
      obtain ⟨c', b', hfeed, -, -, hsession, -⟩ := h.feed_proceed hsplit hnext
      rw [(act_of_feed hfeed).1, hsession]

/-- Lines of a statement that are recorded, unless they are blank. -/
def recording (s : StandardSession) (lines : List String) : History :=
  if lines.all fun line => Text.isBlankText (stripMarker s.marker line) then s.history else s.history.append lines

theorem recorded?_elim {s : StandardSession} {host : Host} {cursor : Nat} {statement : Statement}
    (hstatement : s.statement? host cursor = some statement) :
    ((s.recorded? host cursor).elim s.history fun statement => s.history.append statement.lines)
      = recording s statement.lines := by
  have hblank : statement.isBlank s.marker
      = statement.lines.all fun line => Text.isBlankText (stripMarker s.marker line) := rfl
  rw [Session.recorded?, hstatement, recording, ← hblank]
  by_cases hall : statement.isBlank s.marker = true
  · rw [if_pos hall, Option.filter_some_neg (by simp [hall])]
    rfl
  · rw [if_neg hall, Option.filter_some_pos (by simpa using hall)]
    rfl

/-- Pieces that do not start with the marker are recorded as they are. -/
theorem Holds.history_line_of_plain (h : c.Typing b above typed) {text : String} {body : List Char}
    (hsplit : splitMarker c.session.marker text.toList = (body, false))
    (hplain : ∀ first, (typed ++ [String.ofList body]).head? = some first →
      isContinuation c.session.marker first = false) :
    (c.act (.line text)).session.history
      = recording c.session (statementLines c.session.marker (typed ++ [String.ofList body])) := by
  obtain ⟨b₁, h₁, -, -, -⟩ := h.type body
  obtain ⟨statement, hstatement, hlines, -⟩ := h₁.statement?_eq hplain
  have hresolved : c.session.statement? (c.type body).1.host c.cursor = some statement := hstatement
  rw [h.history_line hsplit, recorded?_elim hresolved, hlines]
  rfl

/-- Pieces that start with the marker are recorded behind the statement above them, if there is one. -/
theorem Holds.history_line_of_continuation (h : c.Typing b above typed) {text : String} {body : List Char}
    (hsplit : splitMarker c.session.marker text.toList = (body, false))
    (hmarked : ∃ first, (typed ++ [String.ofList body]).head? = some first ∧
      isContinuation c.session.marker first = true) :
    ((∀ line ∈ above, isContinuation c.session.marker line = true)
        ∧ (c.act (.line text)).session.history = c.session.history)
      ∨ ∃ reached, IsStatement c.session.marker reached ∧ reached <:+ above
          ∧ (c.act (.line text)).session.history
            = recording c.session (reached ++ statementLines c.session.marker (typed ++ [String.ofList body])) := by
  obtain ⟨b₁, h₁, -, -, -⟩ := h.type body
  rw [h.history_line hsplit]
  rcases h₁.statement?_of_continuation hmarked with
    ⟨habove, hnone⟩ | ⟨reached, statement, hreached, hsuffix, hstatement, hlines⟩
  · have hnothing : c.session.statement? (c.type body).1.host c.cursor = none := hnone
    refine Or.inl ⟨habove, ?_⟩
    rw [Session.recorded?, hnothing]
    rfl
  · have hresolved : c.session.statement? (c.type body).1.host c.cursor = some statement := hstatement
    refine Or.inr ⟨reached, hreached, hsuffix, ?_⟩
    rw [recorded?_elim hresolved, hlines]
    rfl

/-- **What a line records**, whatever was typed and cancelled before it. A line that goes on records nothing, and so
does one that is refused because the session has quit. Any other line records the pieces typed since the last statement
or cancel, unless they are blank, if the first piece does not start with the marker. If it does, they are recorded
behind the statement that ends the lines above them, if there is one. -/
theorem history_after_line (settings : Settings) (actions : List Action) (text : String) :
    let c := (new settings).after actions
    let above := (c.host.lines c.session.buffer).take (c.start - 1)
    let pieces := piecesTyped settings.marker actions ++ [pieceOf settings.marker text]
    let history := (c.act (.line text)).session.history
    (goesOn settings.marker text = true ∨ c.session.isAlive c.host = false → history = c.session.history)
      ∧ (goesOn settings.marker text = false → c.session.isAlive c.host = true →
        ((∀ first, pieces.head? = some first → isContinuation settings.marker first = false) →
          history = recording c.session (statementLines settings.marker pieces))
        ∧ ((∃ first, pieces.head? = some first ∧ isContinuation settings.marker first = true) →
          ((∀ line ∈ above, isContinuation settings.marker line = true) ∧ history = c.session.history)
            ∨ ∃ reached, IsStatement settings.marker reached ∧ reached <:+ above
                ∧ history = recording c.session (reached ++ statementLines settings.marker pieces))) := by
  intro c above pieces history
  have halive : c.session.isAlive c.host = false
      ∨ (c.session.marker = settings.marker ∧ ∃ b above, c.Typing b above (piecesTyped settings.marker actions)) :=
    ((typing_new settings).after actions).imp And.right And.right
  rcases halive with hdead | ⟨hmarker, b, above', h⟩
  · refine ⟨fun _ => congrArg Session.history (act_of_dead hdead _).1, fun _ halive => ?_⟩
    rw [hdead] at halive
    cases halive
  · have habove : above = above' := by
      show (c.host.lines c.session.buffer).take (c.start - 1) = above'
      rw [h.lines_eq, h.start, Nat.add_sub_cancel, List.take_left]
    cases hsplit : splitMarker c.session.marker text.toList with
    | mk body more =>
        have hgoesOn : goesOn settings.marker text = more := by rw [goesOn, ← hmarker, hsplit]
        have hpiece : pieceOf settings.marker text = String.ofList body := by rw [pieceOf, ← hmarker, hsplit]
        simp only [pieces, history, hgoesOn, hpiece, habove]
        cases more with
        | true => exact ⟨fun _ => h.history_line_of_more hsplit, fun hcomplete => by cases hcomplete⟩
        | false =>
            refine ⟨?_, fun _ _ => ?_⟩
            · rintro (hcomplete | hdead)
              · cases hcomplete
              · have halive : c.session.isAlive c.host = true := Host.hasBuffer_of_get? h.get
                rw [halive] at hdead
                cases hdead
            · have hplain := h.history_line_of_plain hsplit
              have hmarked := h.history_line_of_continuation hsplit
              rw [hmarker] at hplain hmarked
              exact ⟨hplain, hmarked⟩

/-- What is recorded is not always what was typed: a line that starts with the marker goes on with the output above
it. -/
theorem not_always_pieces :
    ¬ ∀ settings : Settings, settings.IsValid → ∀ (actions : List Action) (text : String),
      let c := (new settings).after actions
      let history := (c.act (.line text)).session.history
      history = c.session.history
        ∨ history = c.session.history.append (statementLines settings.marker
            (piecesTyped settings.marker actions ++ [pieceOf settings.marker text])) := by
  intro h
  have hpieces := h {} (by decide) [.line "/w"] "\\x"
  revert hpieces
  decide +kernel

end Console

end Transcript
