import Transcript.Proofs.Console.Shown
import Transcript.Proofs.Console.Typing
import Transcript.Proofs.Session.Submission

/-!
What a console does with a complete statement. The session answers it on the last line, so the output goes to
the end of the buffer, above a fresh line. After `clear` nothing but a fresh line is left, after `quit` the
session is over.
-/
namespace Transcript.Console

/-- The answer to the statement that `body` completes. -/
def answer (c : Console) (body : List Char) : Dispatch Script Ex :=
  c.session.answer (c.type body).1.host c.cursor

variable {c : Console} {b : Buffer} {above typed : List String}

/-- The pieces of a statement are the lines that the session resolves and strips of markers. -/
theorem Holds.statement?_eq {piece : String} (h : c.Holds b above typed piece)
    (hfirst : ∀ first, (typed ++ [piece]).head? = some first → isContinuation c.session.marker first = false) :
    ∃ statement, c.session.statement? c.host c.cursor = some statement
      ∧ statement.lines = statementLines c.session.marker (typed ++ [piece])
      ∧ statement.isBlank c.session.marker = (typed ++ [piece]).all Text.isBlankText := by
  have hlines : b.lines = above ++ statementLines c.session.marker (typed ++ [piece]) := by
    rw [statementLines_concat, ← List.append_assoc]
    exact h.lines
  have hlength := h.length_lines
  have hget := Host.lines_of_get? h.get
  cases hpieces : typed ++ [piece] with
  | nil => simp at hpieces
  | cons first rest =>
      rw [hpieces] at hlines hfirst
      have hplain := hfirst first rfl
      have hcontinue : ∀ line ∈ rest.map fun p => String.ofList (c.session.marker :: p.toList),
          isContinuation c.session.marker line = true := by
        intro line hline
        obtain ⟨p, -, rfl⟩ := List.mem_map.1 hline
        exact isContinuation_cons c.session.marker p.toList
      have hresolve : c.session.statement? c.host c.cursor
          = some { lines := statementLines c.session.marker (first :: rest)
                   first := above.length + 1
                   last := (above ++ statementLines c.session.marker (first :: rest)).length } := by
        rw [Session.statement?, hget, ← hlength, hlines]
        exact Statement.resolve?_length hplain hcontinue
      refine ⟨_, hresolve, rfl, ?_⟩
      simp only [Statement.isBlank, statementLines, List.all_cons, List.all_map, Function.comp_def,
        stripMarker_of_not hplain, stripMarker_cons]

/-- What the session answers to pieces that do not start with the marker: nothing if they are blank, else the
dispatch of their lines. -/
theorem Holds.answer_eq (h : c.Typing b above typed) (body : List Char)
    (hfirst : ∀ first, (typed ++ [String.ofList body]).head? = some first →
      isContinuation c.session.marker first = false) :
    ∃ history, c.answer body
      = if (typed ++ [String.ofList body]).all Text.isBlankText then
          { output := .empty, next := .proceed, session := c.session, host := (c.type body).1.host }
        else { c.session with history := history }.dispatch (c.type body).1.host
          (statementLines c.session.marker (typed ++ [String.ofList body])) := by
  obtain ⟨b₁, h₁, -, -, -⟩ := h.type body
  obtain ⟨statement, hstatement, hlines, hblank⟩ := h₁.statement?_eq hfirst
  refine ⟨c.session.history.append statement.lines, ?_⟩
  have hresolved : c.session.statement? (c.type body).1.host c.cursor = some statement := hstatement
  have hisBlank : statement.isBlank c.session.marker = (typed ++ [String.ofList body]).all Text.isBlankText := hblank
  rw [answer, Session.answer, hresolved]
  simp only [hisBlank, hlines]
  rfl

/-- An empty line is answered with nothing. -/
theorem Holds.answer_nil (h : c.Typing b above []) :
    (c.answer []).next = .proceed ∧ (c.answer []).output = .empty := by
  obtain ⟨history, hanswer⟩ := h.answer_eq [] (by
    intro first hfirst
    cases hfirst
    rfl)
  have hblank : ([] ++ [String.ofList []]).all Text.isBlankText = true := by decide
  rw [hanswer, if_pos hblank]
  exact ⟨rfl, rfl⟩

/-- A piece that does not end in the marker submits the statement. -/
theorem Holds.feed_submit (h : c.Typing b above typed) {text : String} {body : List Char}
    (hsplit : splitMarker c.session.marker text.toList = (body, false)) :
    c.feed text
      = let r := Session.conclude (c.answer body) c.cursor
        let after := { c with session := r.2.1, host := r.2.2 }
        if r.1.quit then .ok (.quit, after)
        else (fun shown => (.output (after.freshOutput c.cursor shown), after.toFreshLine r.1.cursor))
          <$> after.session.highlights after.host := by
  obtain ⟨b₁, h₁, -, -, -⟩ := h.type body
  have hend : Statement.blockEnd c.session.marker b₁.lines c.cursor = c.cursor := by
    have hlength : b₁.lines.length = c.cursor := h₁.length_lines
    have hlast := Statement.blockEnd_length c.session.marker b₁.lines_ne_nil
    rwa [hlength] at hlast
  have hsubmit := c.session.submit_eq c.cursor h₁.get
  rw [hend] at hsubmit
  rw [feed, hsplit]
  show (c.session.submit (c.type body).1.host c.cursor >>= _) = _
  rw [hsubmit]
  show (if (Session.conclude (c.answer body) c.cursor).1.quit = true then _ else _) = _
  split
  next hquit => simp only [if_pos hquit]; rfl
  next hquit => simp only [if_neg hquit]; rfl

/-- After `quit` the session is over, and the console still stands inside the statement. -/
theorem Holds.feed_exit (h : c.Typing b above typed) {text : String} {body : List Char}
    (hsplit : splitMarker c.session.marker text.toList = (body, false))
    (hnext : (c.answer body).next = .exit) :
    ∃ c', c.feed text = .ok (.quit, c') ∧ c'.isContinuing = c.isContinuing := by
  rw [h.feed_submit hsplit, Session.conclude, hnext]
  exact ⟨_, rfl, rfl⟩

/-- A console on an empty last line stays there. -/
theorem toFreshLine_of_empty {c : Console} {above : List String}
    (hlines : c.host.lines c.session.buffer = above ++ [""]) :
    c.toFreshLine (above.length + 1) = { c with start := above.length + 1, cursor := above.length + 1 } := by
  have hlength : (above ++ [""]).length = above.length + 1 := by simp
  rw [toFreshLine, hlines]
  simp only [hlength]
  rw [if_pos (by simp)]

/-- A console that ends in a block shows it and goes on below it. -/
theorem EndsIn.shown_eq {c : Console} {pad : String → String} {chunks : List Chunk} {above : List String}
    {old : List Mark} {id : Nat} (h : c.EndsIn pad chunks above old id)
    (hplain : ∀ ch ∈ chunks, ch.highlight ≠ .continuation) :
    (fun shown => (Reply.output (c.freshOutput above.length shown),
        c.toFreshLine (above.length + heightOf chunks + 1))) <$> c.session.highlights c.host
      = .ok (.output (shownLines pad chunks),
          { c with
            start := above.length + heightOf chunks + 1
            cursor := above.length + heightOf chunks + 1 }) := by
  obtain ⟨shown, hshown, hfresh⟩ := h.freshOutput_eq hplain
  have hline := toFreshLine_of_empty h.lines
  have hend : (above ++ blockOf pad chunks).length = above.length + heightOf chunks := by simp
  rw [hend] at hline
  rw [hshown, ← hfresh, ← hline]
  rfl

/-- A console that was cleared shows nothing and goes on at its only line. -/
theorem shown_of_cleared {c : Console} (halive : c.session.isAlive c.host = true)
    (hlines : c.host.lines c.session.buffer = [""]) {submitted : Nat} (hsubmitted : 1 ≤ submitted) :
    (fun shown => (Reply.output (c.freshOutput submitted shown), c.toFreshLine 1)) <$> c.session.highlights c.host
      = .ok (.output [], { c with start := 1, cursor := 1 }) := by
  obtain ⟨shown, hshown, hfresh⟩ := freshOutput_eq_filterMap halive submitted
  have hnothing : c.freshLine? submitted ("", 0) = none := if_neg (by simp only; omega)
  have hempty : c.freshOutput submitted shown = [] := by
    rw [hfresh, hlines]
    exact List.filterMap_cons_none hnothing
  have hline : c.toFreshLine 1 = { c with start := 1, cursor := 1 } :=
    toFreshLine_of_empty (hlines.trans (List.nil_append _).symm)
  rw [hshown, ← hline, ← hempty]
  rfl

/-- Holding the line over a buffer that was cleared. -/
theorem conclude_of_cleared {d : Dispatch Script Ex} (hnext : d.next = .hold) (houtput : d.output = .empty)
    {b : Buffer} (hget : d.host.buffers.get? d.session.buffer = some b) (hlines : b.lines = [""])
    (hmarks : b.marks = []) {last : Nat} (hlast : 1 ≤ last) :
    Session.conclude d last = (d.session.stay 1, d.session, d.host) := by
  have hcount : min last (d.host.lineCount d.session.buffer) = 1 := by
    rw [Host.lineCount_of_get? hget, hlines]
    exact Nat.min_eq_right hlast
  have hplace : Navigation.insertionPoint (d.host.marks d.session.buffer) 1 = 1 := by
    rw [Host.marks_of_get? hget, hmarks]
    exact Navigation.insertionPoint_of_open (by simp)
  rw [Session.conclude, hnext]
  simp only [hcount, hplace, houtput]
  rfl

/-- After `clear` nothing but a fresh line is left. -/
theorem Holds.feed_hold (h : c.Typing b above typed) {text : String} {body : List Char}
    (hsplit : splitMarker c.session.marker text.toList = (body, false))
    (hnext : (c.answer body).next = .hold) :
    ∃ c' b', c.feed text = .ok (.output [], c')
      ∧ c'.Typing b' [] []
      ∧ b'.marks = []
      ∧ c'.session = (c.answer body).session
      ∧ c'.host = (c.answer body).host := by
  obtain ⟨b₁, h₁, -, -, -⟩ := h.type body
  obtain ⟨history, heq⟩ := Session.clears_of_hold Script.neverHolds Ex.neverHolds hnext
  have hcount : (c.type body).1.host.lineCount c.session.buffer = b₁.lines.length := Host.lineCount_of_get? h₁.get
  have houtput : (c.answer body).output = .empty := by
    rw [answer, heq]
  have hget : (c.answer body).host.buffers.get? (c.answer body).session.buffer
      = some (b₁.splice 0 b₁.lines.length [""]).clearMarks := by
    rw [answer, heq, Session.clear, ← hcount]
    exact Host.get?_modifyBuffer (Host.get?_modifyBuffer h₁.get _) _
  have hlines := b₁.lines_cleared
  have hmarks : (b₁.splice 0 b₁.lines.length [""]).clearMarks.marks = [] := rfl
  have hone : 1 ≤ c.cursor := by
    rw [h.cursor]
    omega
  let after : Console := { c with session := (c.answer body).session, host := (c.answer body).host }
  have halive : after.session.isAlive after.host = true := Host.hasBuffer_of_get? hget
  have hafter : after.host.lines after.session.buffer = [""] := (Host.lines_of_get? hget).trans hlines
  refine ⟨{ after with start := 1, cursor := 1 }, _, ?_, ⟨hget, rfl, rfl, hlines, ?_⟩, hmarks, rfl, rfl⟩
  · rw [h.feed_submit hsplit, conclude_of_cleared hnext houtput hget hlines hmarks hone]
    exact shown_of_cleared halive hafter hone
  · rw [hmarks]
    intro m hm
    cases hm

/-- A report at the end of a buffer whose marks end above its last line. -/
theorem report_at_end {b : Buffer} {done : Nat} (hmarks : MarksAbove b.marks done b.lines.length)
    (hdone : done ≤ b.lines.length) {chunks : List Chunk} (hproper : ∀ c ∈ chunks, c.lines ≠ [])
    (pad : String → String) (id : Nat) :
    (b.report pad id b.lines.length chunks).lines = b.lines ++ blockOf pad chunks ++ [""]
      ∧ (b.report pad id b.lines.length chunks).marks = b.marks ++ marksOf id b.lines.length chunks := by
  have hwithin : b.MarksWithin := by
    intro m hm
    obtain ⟨hone, hfirst, hle, hlast⟩ := hmarks m hm
    exact ⟨hone, by omega, by omega, by omega⟩
  have hopen : b.OpenBelow b.lines.length := by
    intro m hm hgoes
    obtain ⟨-, -, -, hlast⟩ := hmarks m hm
    exact Nat.lt_asymm hlast hgoes.2
  have hstays : ∀ m ∈ b.marks, m.shiftBelow b.lines.length (heightOf chunks + 1) = m := by
    intro m hm
    obtain ⟨-, hfirst, -, -⟩ := hmarks m hm
    exact Mark.shiftBelow_of_first_le (by omega) _
  constructor
  · rw [Buffer.lines_report pad id chunks (Nat.le_refl _), List.take_length, List.drop_length, List.append_nil,
      List.append_assoc]
  · rw [Buffer.marks_report pad id hproper (Nat.le_refl _) hwithin hopen, List.map_congr_left hstays, List.map_id']

/-- Going on below the last line of a buffer whose marks end above it. -/
theorem conclude_of_proceed {d : Dispatch Script Ex} (hnext : d.next = .proceed) (hproper : d.output.Proper)
    {b : Buffer} (hget : d.host.buffers.get? d.session.buffer = some b) {done : Nat}
    (hmarks : MarksAbove b.marks done b.lines.length) :
    Session.conclude d b.lines.length
      = (d.session.stay (b.lines.length + heightOf d.output.chunks + 1),
        { d.session with nextMark := d.session.nextMark + d.output.chunks.length },
        d.host.modifyBuffer d.session.buffer fun b' =>
          b'.report d.session.padded d.session.nextMark b.lines.length d.output.chunks) := by
  have hplace : Navigation.insertionPoint (d.host.marks d.session.buffer)
      (min b.lines.length (d.host.lineCount d.session.buffer)) = b.lines.length := by
    rw [Host.marks_of_get? hget, Host.lineCount_of_get? hget, Nat.min_self]
    refine Navigation.insertionPoint_of_open ?_
    intro m hm hgoes
    exact Nat.lt_asymm (hmarks m hm).2.2.2 hgoes.2
  have hreport := d.session.report_eq d.host (min b.lines.length (d.host.lineCount d.session.buffer)) hproper
  rw [hplace] at hreport
  rw [Session.conclude, hnext]
  exact hreport

theorem MarksAbove.append_marksOf {marks : List Mark} {done place : Nat} (h : MarksAbove marks done place)
    (hdone : done ≤ place) {chunks : List Chunk} (hproper : ∀ c ∈ chunks, c.lines ≠ []) (id : Nat) :
    MarksAbove (marks ++ marksOf id place chunks) (place + heightOf chunks) (place + heightOf chunks + 1) := by
  intro m hm
  rcases List.mem_append.1 hm with hm | hm
  · obtain ⟨hone, hfirst, hle, hlast⟩ := h m hm
    exact ⟨hone, by omega, hle, by omega⟩
  · obtain ⟨hfirst, hlast⟩ := mem_marksOf hm
    have hle := first_le_last_of_mem_marksOf hproper hm
    exact ⟨by omega, by omega, hle, by omega⟩

/-- Any other answer goes to the end of the buffer, above a fresh line. -/
theorem Holds.feed_proceed (h : c.Typing b above typed) {text : String} {body : List Char}
    (hsplit : splitMarker c.session.marker text.toList = (body, false))
    (hnext : (c.answer body).next = .proceed) :
    ∃ c' b', c.feed text
        = .ok (.output (shownLines (c.answer body).session.padded (c.answer body).output.chunks), c')
      ∧ c'.Typing b' (above ++ statementLines c.session.marker (typed ++ [String.ofList body])
          ++ blockOf (c.answer body).session.padded (c.answer body).output.chunks) []
      ∧ b'.marks = b.marks.map (·.endingAt (c.cursor - 1))
          ++ marksOf c.session.nextMark c.cursor (c.answer body).output.chunks
      ∧ c'.session = { (c.answer body).session with
          nextMark := c.session.nextMark + (c.answer body).output.chunks.length }
      ∧ (c.answer body).host.Alike c'.host := by
  obtain ⟨b₁, h₁, -, hmarks₁, -⟩ := h.type body
  have hkeeps : (c.answer body).Keeps { c.session with history := (c.answer body).session.history }
      (c.type body).1.host := Session.keeps_of_proceed hnext
  have hfeed := h.feed_submit hsplit
  generalize c.answer body = d at *
  have hget : d.host.buffers.get? d.session.buffer = some b₁ := by
    rw [hkeeps.buffers, hkeeps.session.buffer]
    exact h₁.get
  have hlength : b₁.lines.length = c.cursor := h₁.length_lines
  have hstatement : b₁.lines
      = above ++ statementLines c.session.marker (typed ++ [String.ofList body]) := by
    rw [statementLines_concat, ← List.append_assoc]
    exact h₁.lines
  have habove : MarksAbove b₁.marks above.length b₁.lines.length := by
    rw [hlength]
    exact h₁.marks
  have hdone : above.length ≤ b₁.lines.length := by
    rw [hstatement, List.length_append]
    exact Nat.le_add_right _ _
  obtain ⟨hlines, hmarks⟩ :=
    report_at_end habove hdone hkeeps.output d.session.padded d.session.nextMark
  rw [← hlength, conclude_of_proceed hnext hkeeps.output hget habove] at hfeed
  -- The console with what was submitted in its buffer; only the cursor is not yet on the fresh line.
  let after : Console := { c with
    session := { d.session with nextMark := d.session.nextMark + d.output.chunks.length }
    host := d.host.modifyBuffer d.session.buffer fun b' =>
      b'.report d.session.padded d.session.nextMark b₁.lines.length d.output.chunks }
  have hget' : after.host.buffers.get? after.session.buffer
      = some (b₁.report d.session.padded d.session.nextMark b₁.lines.length d.output.chunks) :=
    Host.get?_modifyBuffer hget _
  have hends : after.EndsIn d.session.padded d.output.chunks b₁.lines b₁.marks d.session.nextMark := {
    alive := Host.hasBuffer_of_get? hget'
    lines := (Host.lines_of_get? hget').trans hlines
    marks := (Host.marks_of_get? hget').trans hmarks
    old_le := fun m hm => Nat.le_of_lt (habove m hm).2.2.2 }
  have hend : (b₁.lines ++ blockOf d.session.padded d.output.chunks).length
      = b₁.lines.length + heightOf d.output.chunks := by simp
  refine ⟨{ after with
      start := b₁.lines.length + heightOf d.output.chunks + 1
      cursor := b₁.lines.length + heightOf d.output.chunks + 1 }, _, ?_, ⟨hget', ?_, ?_, ?_, ?_⟩, ?_, ?_,
    d.host.alike_modifyBuffer _ _⟩
  · rw [hfeed]
    exact hends.shown_eq (hkeeps.plain Script.emitsPlain Ex.emitsPlain)
  · rw [← hstatement, hend]
  · rw [← hstatement, hend]
    rfl
  · rw [hlines, hstatement]
    simp [statementLines, pieceLine]
  · rw [hmarks, ← hstatement, hend]
    exact habove.append_marksOf hdone hkeeps.output d.session.nextMark
  · rw [hmarks, hmarks₁, hkeeps.session.nextMark, hlength]
  · show ({ d.session with nextMark := _ } : StandardSession) = _
    rw [hkeeps.session.nextMark]

end Transcript.Console
