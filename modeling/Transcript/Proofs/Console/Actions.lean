import Transcript.Proofs.Console.Ending

/-!
A console whatever is typed into it and cancelled. While the session goes on, the pieces typed since the last statement
or cancel end the buffer, so every line is taken, and cancelling gives back the lines from before the pieces. What a
line records in the history are these pieces, and nothing else, unless the first piece starts with the marker: then the
statement reaches up into the lines above it, whoever wrote them.
-/
namespace Transcript

namespace Console

/-- What is done with a console. -/
inductive Action where
  | line (text : String)
  | cancel
  deriving DecidableEq, Repr

/-- The console after an action. A line that is refused changes nothing. -/
def act (c : Console) : Action → Console
  | .line text =>
    match c.feed text with
    | .ok (_, c') => c'
    | .error _ => c
  | .cancel => c.cancel

def after (c : Console) (actions : List Action) : Console := actions.foldl act c

/-- Whether an action ends the session. -/
def isEndedBy (c : Console) : Action → Bool
  | .line text =>
    match c.feed text with
    | .ok (.quit, _) => true
    | _ => false
  | .cancel => false

/-- Whether one of the actions ends the session. -/
def quits (c : Console) : List Action → Bool
  | [] => false
  | a :: rest => c.isEndedBy a || (c.act a).quits rest

/-- A line without the marker at its end. -/
def pieceOf (marker : Char) (text : String) : String := String.ofList (splitMarker marker text.toList).1

/-- The pieces of the statement that is typed after an action, for the pieces typed before it. -/
def piecesAfter (marker : Char) (typed : List String) : Action → List String
  | .line text => if goesOn marker text then typed ++ [pieceOf marker text] else []
  | .cancel => []

/-- The pieces typed since the last line that ended a statement or the last cancel. -/
def piecesTyped (marker : Char) (actions : List Action) : List String := actions.foldl (piecesAfter marker) []

variable {c : Console} {b : Buffer} {above typed : List String}

theorem act_of_feed {text : String} {reply : Reply} {c' : Console} (hfeed : c.feed text = .ok (reply, c')) :
    c.act (.line text) = c' ∧ (c.isEndedBy (.line text) = true ↔ reply = .quit) := by
  refine ⟨by rw [act, hfeed], ?_⟩
  rw [isEndedBy, hfeed]
  cases reply <;> simp

/-! ### The end of a session -/

/-- A statement that ends the session leaves what its answer leaves, and the buffer is gone. -/
theorem Holds.exists_feed_quit (h : c.Typing b above typed) {text : String} {body : List Char}
    (hsplit : splitMarker c.session.marker text.toList = (body, false)) (hnext : (c.answer body).next = .exit) :
    ∃ c', c.feed text = .ok (.quit, c')
      ∧ c'.session = (c.answer body).session
      ∧ c'.session.isAlive c'.host = false := by
  refine ⟨{ c with session := (c.answer body).session, host := (c.answer body).host }, ?_, rfl, ?_⟩
  · rw [h.feed_submit hsplit, Session.conclude, hnext]
    rfl
  · rcases c.session.answer_cases (c.type body).1.host c.cursor with
      hkeeps | ⟨statement, -, -, heq⟩ | ⟨statement, -, -, heq⟩
    · exact absurd hnext hkeeps.next
    · change c.answer body = _ at heq
      rw [heq] at hnext
      cases hnext
    · change c.answer body = _ at heq
      simp [heq, Session.isAlive, Host.hasBuffer, Host.deleteBuffer, Table.contains]

/-- Without its session a console refuses every line. -/
theorem feed_of_dead (hdead : c.session.isAlive c.host = false) (text : String) :
    c.feed text = .error (.sessionClosed c.session.buffer) := by
  have htyped : ∀ body, (c.type body).1.session.isAlive (c.type body).1.host = false := by
    intro body
    rw [← hdead]
    exact Host.hasBuffer_modifyBuffer _ _ _ _
  cases hsplit : splitMarker c.session.marker text.toList with
  | mk body more =>
      rw [feed, hsplit]
      cases more with
      | true =>
          simp only [if_true, Session.breakLine, htyped body]
          rfl
      | false =>
          simp only [Session.submit, htyped body]
          rfl

theorem act_of_dead (hdead : c.session.isAlive c.host = false) (a : Action) :
    (c.act a).session = c.session ∧ (c.act a).session.isAlive (c.act a).host = false := by
  cases a with
  | line text =>
      have hrefused : c.act (.line text) = c := by rw [act, feed_of_dead hdead]
      rw [hrefused]
      exact ⟨rfl, hdead⟩
  | cancel =>
      refine ⟨rfl, ?_⟩
      rw [← hdead]
      exact Host.hasBuffer_modifyBuffer _ _ _ _

theorem after_of_dead (hdead : c.session.isAlive c.host = false) (actions : List Action) :
    (c.after actions).session.isAlive (c.after actions).host = false := by
  induction actions generalizing c with
  | nil => exact hdead
  | cons a rest ih => exact ih (act_of_dead hdead a).2

/-! ### What every action keeps -/

/-- A line is taken: its piece is added to the others, or the statement is done with, or the session is over. -/
theorem Holds.line (h : c.Typing b above typed) (text : String) :
    ∃ reply, c.feed text = .ok (reply, c.act (.line text))
      ∧ ((reply = .quit ∧ (c.act (.line text)).session.isAlive (c.act (.line text)).host = false)
        ∨ (reply ≠ .quit ∧ (c.act (.line text)).session.marker = c.session.marker
          ∧ ∃ b' above', (c.act (.line text)).Typing b' above' (piecesAfter c.session.marker typed (.line text)))) := by
  cases hsplit : splitMarker c.session.marker text.toList with
  | mk body more =>
      have hpieces : piecesAfter c.session.marker typed (.line text)
          = if more then typed ++ [String.ofList body] else [] := by
        rw [piecesAfter, goesOn, pieceOf, hsplit]
      rw [hpieces]
      cases more with
      | true =>
          obtain ⟨c', b', hfeed, h', -, hsession, -⟩ := h.feed_more hsplit
          rw [(act_of_feed hfeed).1]
          exact ⟨_, hfeed, Or.inr ⟨by simp, by rw [hsession], b', above, h'⟩⟩
      | false =>
          cases hnext : (c.answer body).next with
          | exit =>
              obtain ⟨c', hfeed, -, hdead⟩ := h.exists_feed_quit hsplit hnext
              rw [(act_of_feed hfeed).1]
              exact ⟨_, hfeed, Or.inl ⟨rfl, hdead⟩⟩
          | _ =>
              rcases h.feed_complete hsplit with ⟨hexit, -⟩ | ⟨-, c', b', above', hfeed, h', -, -, hmarker⟩
              · rw [hexit] at hnext
                cases hnext
              · rw [(act_of_feed hfeed).1]
                exact ⟨_, hfeed, Or.inr ⟨by simp, hmarker, b', above', h'⟩⟩

/-- After an action the console waits for the next piece, or the session is over. -/
theorem Holds.act (h : c.Typing b above typed) (a : Action) :
    (c.isEndedBy a = true ∧ (c.act a).session.isAlive (c.act a).host = false)
      ∨ (c.isEndedBy a = false ∧ (c.act a).session.marker = c.session.marker
        ∧ ∃ b' above', (c.act a).Typing b' above' (piecesAfter c.session.marker typed a)) := by
  cases a with
  | line text =>
      obtain ⟨reply, hfeed, hreply⟩ := h.line text
      have hends := (act_of_feed hfeed).2
      exact hreply.imp (fun hquit => ⟨hends.2 hquit.1, hquit.2⟩)
        fun hgoes => ⟨Bool.eq_false_iff.2 fun hquit => hgoes.1 (hends.1 hquit), hgoes.2⟩
  | cancel =>
      obtain ⟨b', h', -, -⟩ := h.cancel
      exact Or.inr ⟨rfl, rfl, b', above, h'⟩

/-- Induction on the actions: the console waits for the next piece, until the session is over for good. -/
theorem Holds.after (actions : List Action) (h : c.Typing b above typed) :
    (c.quits actions = true ∧ (c.after actions).session.isAlive (c.after actions).host = false)
      ∨ (c.quits actions = false ∧ (c.after actions).session.marker = c.session.marker
        ∧ ∃ b' above', (c.after actions).Typing b' above' (actions.foldl (piecesAfter c.session.marker) typed)) := by
  induction actions generalizing c b above typed with
  | nil => exact Or.inr ⟨rfl, rfl, b, above, h⟩
  | cons a rest ih =>
      rcases h.act a with ⟨hends, hdead⟩ | ⟨hgoes, hmarker, b₁, above₁, h₁⟩
      · refine Or.inl ⟨?_, after_of_dead hdead rest⟩
        rw [quits, hends, Bool.true_or]
      · have hrest := ih h₁
        rw [hmarker] at hrest
        rw [quits, hgoes, Bool.false_or]
        exact hrest

/-- The console of a session that goes on waits for the next piece. -/
theorem typing_after (settings : Settings) {actions : List Action} (hgoes : (new settings).quits actions = false) :
    ((new settings).after actions).session.marker = settings.marker
      ∧ ∃ b above, ((new settings).after actions).Typing b above (piecesTyped settings.marker actions) := by
  rcases (typing_new settings).after actions with ⟨hquits, -⟩ | ⟨-, hmarker, b, above, h⟩
  · rw [hgoes] at hquits
    cases hquits
  · exact ⟨hmarker, b, above, h⟩

/-! ### The lines of a console -/

/-- A console that takes every line. Its cursor is on the last line, below the pieces of the statement that is typed,
and cancelling drops these pieces and changes nothing else of the buffer or the session. -/
structure IsSteady (c : Console) : Prop where
  takes : ∀ text, ∃ reply c', c.feed text = .ok (reply, c')
  cursor : c.cursor = c.host.lineCount c.session.buffer
  start_le : c.start ≤ c.cursor
  continued : ∀ line, c.start < line → line ≤ c.cursor →
    isContinuation c.session.marker (c.host.lineAt c.session.buffer line) = true
  empty : c.isContinuing = false → c.host.lineAt c.session.buffer c.cursor = ""
  cancelled : c.isContinuing = false → ∀ texts, c.replies texts = (texts.map fun _ => .more) →
    (c.after (texts.map .line)).cancel.host.lines c.session.buffer = c.host.lines c.session.buffer
      ∧ (c.after (texts.map .line)).cancel.session = c.session

/-- All lines of a statement but the first are continuations. -/
theorem isContinuation_of_getElem?_statementLines {marker : Char} {pieces : List String} {i : Nat} {line : String}
    (hi : 0 < i) (hline : (statementLines marker pieces)[i]? = some line) : isContinuation marker line = true := by
  obtain ⟨i, rfl⟩ := Nat.exists_eq_succ_of_ne_zero (Nat.ne_of_gt hi)
  cases pieces with
  | nil => simp [statementLines] at hline
  | cons first rest =>
      simp only [statementLines, List.getElem?_cons_succ, List.getElem?_map] at hline
      obtain ⟨piece, -, rfl⟩ := Option.map_eq_some_iff.1 hline
      exact isContinuation_cons marker piece.toList

namespace Holds

theorem lines_eq {piece : String} (h : c.Holds b above typed piece) :
    c.host.lines c.session.buffer = above ++ statementLines c.session.marker (typed ++ [piece]) := by
  rw [Host.lines_of_get? h.get, h.lines, statementLines_concat, List.append_assoc]

/-- A line below the first one of the statement. -/
theorem isContinuation_lineAt {piece : String} (h : c.Holds b above typed piece) {line : Nat} (hstart : c.start < line)
    (hcursor : line ≤ c.cursor) : isContinuation c.session.marker (c.host.lineAt c.session.buffer line) = true := by
  have hbehind : above.length ≤ line - 1 := by
    rw [h.start] at hstart
    omega
  have hat : (statementLines c.session.marker (typed ++ [piece]))[line - 1 - above.length]?
      = some (c.host.lineAt c.session.buffer line) := by
    rw [Host.lineAt, h.lines_eq, List.getElem?_append_right hbehind, List.getElem?_eq_getElem, Option.getD_some]
    rw [length_statementLines, List.length_append, List.length_singleton]
    rw [h.cursor] at hcursor
    omega
  refine isContinuation_of_getElem?_statementLines ?_ hat
  rw [h.start] at hstart
  omega

/-- Pieces that go on, one after the other. -/
theorem after_more (texts : List String) (h : c.Typing b above typed)
    (hmore : c.replies texts = texts.map fun _ => .more) :
    ∃ b' typed', (c.after (texts.map .line)).Typing b' above typed'
      ∧ (c.after (texts.map .line)).session = c.session := by
  induction texts generalizing c b typed with
  | nil => exact ⟨b, typed, h, rfl⟩
  | cons text rest ih =>
      obtain ⟨reply, hfeed, -⟩ := h.line text
      rw [replies, hfeed] at hmore
      cases hsplit : splitMarker c.session.marker text.toList with
      | mk body more =>
          cases more with
          | true =>
              obtain ⟨c₁, b₁, hfeed₁, h₁, -, hsession, -⟩ := h.feed_more hsplit
              obtain ⟨rfl, hact⟩ := Prod.mk.inj (Except.ok.inj (hfeed.symm.trans hfeed₁))
              rw [hact] at hmore
              obtain ⟨b', typed', h', hsession'⟩ := ih h₁ (List.cons.inj hmore).2
              rw [List.map_cons, Console.after, List.foldl_cons, hact]
              exact ⟨b', typed', h', hsession'.trans hsession⟩
          | false =>
              -- A line that ends the statement is replied to with its output, or with the end of the session.
              rcases h.feed_complete hsplit with ⟨-, -, c₁, hfeed₁, -⟩ | ⟨-, c₁, b₁, above₁, hfeed₁, -⟩
              all_goals
                obtain ⟨rfl, -⟩ := Prod.mk.inj (Except.ok.inj (hfeed.symm.trans hfeed₁))
                simp at hmore

theorem isSteady (h : c.Typing b above typed) : c.IsSteady where
  takes text := by
    obtain ⟨reply, hfeed, -⟩ := h.line text
    exact ⟨reply, _, hfeed⟩
  cursor := by rw [Host.lineCount_of_get? h.get, h.length_lines]
  start_le := by
    rw [h.start, h.cursor]
    omega
  continued line hstart hcursor := h.isContinuation_lineAt hstart hcursor
  empty hdone := by
    have hnone : typed = [] := by simpa [hdone] using h.isContinuing_iff
    rw [h.lineAt_cursor, hnone]
    rfl
  cancelled hdone texts hmore := by
    have hnone : typed = [] := by simpa [hdone] using h.isContinuing_iff
    obtain ⟨b₁, typed₁, h₁, hsession⟩ := h.after_more texts hmore
    obtain ⟨b₂, h₂, -, -⟩ := h₁.cancel
    refine ⟨?_, hsession⟩
    have hcancelled := h₂.lines_eq
    have hsame : (c.after (texts.map .line)).cancel.session = c.session := hsession
    rw [hsame] at hcancelled
    rw [hcancelled, h.lines_eq, hnone]

end Holds

/-- **A console stays in step with its buffer** whatever is typed and cancelled, as long as the session has not quit. -/
theorem isSteady_after (settings : Settings) {actions : List Action} (hgoes : (new settings).quits actions = false) :
    ((new settings).after actions).IsSteady := by
  obtain ⟨-, b, above, h⟩ := typing_after settings hgoes
  exact h.isSteady

/-- Inside a statement of two lines, after an output, a statement that is cancelled and a blank one. -/
theorem isSteady_after_pieces :
    (new {}).quits [.line "/w", .line "f(\\", .cancel, .line " ", .line "g(\\", .line "1\\"] = false
      ∧ ((new {}).after [.line "/w", .line "f(\\", .cancel, .line " ", .line "g(\\", .line "1\\"]).IsSteady := by
  have hgoes : (new {}).quits [.line "/w", .line "f(\\", .cancel, .line " ", .line "g(\\", .line "1\\"] = false := by
    decide +kernel
  exact ⟨hgoes, isSteady_after {} hgoes⟩

end Console

end Transcript
