import Transcript.Proofs.Console.Run

/-!
How the run of a source text ends. A run is told by the replies to its lines: a line that ends in the marker is
replied to with "go on", any other line with the output of the statement it completes, up to the line that ends
the session. All output up to there is the result, unless the console is left inside a statement. That it is
when the text ends there, and also when a statement of several lines ends the session: the console moves to a
fresh line after an output, and not after `quit`.
-/
namespace Transcript

/-- Whether a text ends in the marker. -/
def goesOn (marker : Char) (text : String) : Bool := (Console.splitMarker marker text.toList).2

/-- The lines that a reply shows. -/
def Reply.lines : Reply → List OutputLine
  | .output lines => lines
  | .more => []
  | .quit => []

/-- Replies that come from lines: one for each, up to the line that ends the session. -/
inductive Answered (marker : Char) : List String → List Reply → Prop where
  | nil : Answered marker [] []
  | more {line : String} {lines : List String} {replies : List Reply} (hline : goesOn marker line = true)
      (hrest : Answered marker lines replies) : Answered marker (line :: lines) (.more :: replies)
  | output {line : String} {lines : List String} {replies : List Reply} (shown : List OutputLine)
      (hline : goesOn marker line = false) (hrest : Answered marker lines replies) :
      Answered marker (line :: lines) (.output shown :: replies)
  | quit {line : String} (lines : List String) (hline : goesOn marker line = false) :
      Answered marker (line :: lines) [.quit]

/-- The replies end inside a statement, or at a statement of several lines that ends the session. -/
def EndsInside (replies : List Reply) : Prop := [.more] <:+ replies ∨ [.more, .quit] <:+ replies

instance (replies : List Reply) : Decidable (EndsInside replies) := inferInstanceAs (Decidable (_ ∨ _))

/-- A suffix without `x` lies behind it. -/
theorem suffix_append_cons_iff {ι : Type} {x : ι} {xs : List ι} (hx : x ∉ xs) (before after : List ι) :
    xs <:+ before ++ x :: after ↔ xs <:+ after := by
  constructor
  · intro h
    rcases List.suffix_or_suffix_of_suffix h (List.suffix_append before (x :: after)) with hshort | hlong
    · rcases List.suffix_cons_iff.1 hshort with rfl | hafter
      · exact absurd List.mem_cons_self hx
      · exact hafter
    · exact absurd (hlong.subset List.mem_cons_self) hx
  · intro h
    exact h.trans ((List.suffix_cons x after).trans (List.suffix_append _ _))

theorem endsInside_output (before : List Reply) (shown : List OutputLine) (after : List Reply) :
    EndsInside (before ++ .output shown :: after) ↔ EndsInside after := by
  rw [EndsInside, suffix_append_cons_iff (by simp), suffix_append_cons_iff (by simp), EndsInside]

/-- Behind the pieces of a statement the replies end inside. -/
theorem endsInside_pieces (typed : List String) :
    EndsInside (typed.map fun _ => Reply.more) ↔ typed ≠ [] := by
  rcases typed.eq_nil_or_concat with rfl | ⟨pieces, piece, rfl⟩
  · simp [EndsInside]
  · simp [EndsInside]

theorem endsInside_quit (typed : List String) :
    EndsInside ((typed.map fun _ => Reply.more) ++ [.quit]) ↔ typed ≠ [] := by
  rcases typed.eq_nil_or_concat with rfl | ⟨pieces, piece, rfl⟩
  · simp [EndsInside, List.suffix_cons_iff]
  · simp [EndsInside]

/-- The replies end with "go on" exactly if the last line ends in the marker and no line ends the session. -/
theorem Answered.more_suffix_iff {marker : Char} {lines : List String} {replies : List Reply}
    (h : Answered marker lines replies) :
    [.more] <:+ replies ↔ .quit ∉ replies ∧ lines.getLast?.any (goesOn marker) = true := by
  induction h with
  | nil => simp
  | @more line lines replies hline hrest ih =>
      rw [List.suffix_cons_iff, ih]
      cases hrest <;> simp [hline]
  | @output line lines replies shown hline hrest ih =>
      rw [List.suffix_cons_iff, ih]
      cases hrest <;> simp [hline]
  | quit lines hline => simp [List.suffix_cons_iff]

namespace Console

/-- The replies to lines, up to the line that ends the session. -/
def replies (c : Console) : List String → List Reply
  | [] => []
  | line :: rest =>
    match c.feed line with
    | .error _ => []
    | .ok (.quit, _) => [.quit]
    | .ok (reply, c') => reply :: c'.replies rest

variable {c : Console} {b : Buffer} {above typed : List String}

/-- The console goes on as long as there are pieces of a statement. -/
theorem Holds.isContinuing_iff {piece : String} (h : c.Holds b above typed piece) :
    c.isContinuing = true ↔ typed ≠ [] := by
  have hstart := h.start
  have hcursor := h.cursor
  rw [isContinuing, decide_eq_true_iff, ← List.length_pos_iff]
  omega

/-- Lines fed to a console that has pieces `typed` already. Every one is replied to, what the replies show is the
output, and the console is left inside a statement if the replies end so. -/
theorem Holds.feedAll_replies (lines : List String) (h : c.Typing b above typed) :
    Answered c.session.marker lines (c.replies lines)
      ∧ ∃ c', c.feedAll lines = .ok ((c.replies lines).flatMap Reply.lines, c')
        ∧ (c'.isContinuing = true ↔ EndsInside ((typed.map fun _ => Reply.more) ++ c.replies lines)) := by
  -- A piece was replied to with "go on", so the pieces stand for the replies before these lines.
  induction lines generalizing c b above typed with
  | nil =>
      refine ⟨.nil, c, rfl, ?_⟩
      rw [h.isContinuing_iff, replies, List.append_nil, endsInside_pieces]
  | cons line rest ih =>
      cases hsplit : splitMarker c.session.marker line.toList with
      | mk body more =>
          have hline : goesOn c.session.marker line = more := by rw [goesOn, hsplit]
          cases more with
          | true =>
              obtain ⟨c₁, b₁, hfeed, h₁, -, hsession, -⟩ := h.feed_more hsplit
              obtain ⟨hanswered, c', hrest, hinside⟩ := ih h₁
              have hreplies : c.replies (line :: rest) = .more :: c₁.replies rest := by rw [replies, hfeed]
              rw [hreplies]
              rw [hsession] at hanswered
              refine ⟨.more hline hanswered, c', ?_, ?_⟩
              · rw [feedAll, hfeed]
                exact hrest
              · rw [hinside, List.map_append, List.append_assoc]
                rfl
          | false =>
              rcases h.feed_complete hsplit with
                ⟨-, -, c₁, hfeed, hinside⟩ | ⟨-, c₁, b₁, above₁, hfeed, h₁, -, -, hmarker⟩
              · have hreplies : c.replies (line :: rest) = [.quit] := by rw [replies, hfeed]
                rw [hreplies]
                refine ⟨.quit rest hline, c₁, ?_, ?_⟩
                · rw [feedAll, hfeed]
                  rfl
                · rw [hinside, h.isContinuing_iff, endsInside_quit]
              · obtain ⟨hanswered, c', hrest, hinside⟩ := ih h₁
                have hreplies : c.replies (line :: rest)
                    = .output (shownLines (c.answer body).session.padded (c.answer body).output.chunks)
                      :: c₁.replies rest := by rw [replies, hfeed]
                rw [hreplies]
                rw [hmarker] at hanswered
                refine ⟨.output _ hline hanswered, c', ?_, ?_⟩
                · rw [feedAll, hfeed]
                  show (c₁.feedAll rest >>= _) = _
                  rw [hrest]
                  rfl
                · rw [hinside, endsInside_output]
                  rfl

/-- **How a run ends.** Every line of a source text is replied to, up to the line that ends the session. The run
fails if no line does and the last one ends in the marker, and also if the session is ended by a statement of
several lines: then all output is lost. In every other case it gives all output. -/
theorem run_of_replies (settings : Settings) (source : String) :
    let lines := Text.sourceLines source
    let replies := (Console.new settings).replies lines
    Answered settings.marker lines replies
      ∧ Console.run settings source
        = if (.quit ∉ replies ∧ lines.getLast?.any (goesOn settings.marker) = true) ∨ [.more, .quit] <:+ replies
          then .error .unfinished else .ok (replies.flatMap Reply.lines) := by
  intro lines replies
  obtain ⟨hanswered, c', hfeed, hinside⟩ := (typing_new settings).feedAll_replies lines
  refine ⟨hanswered, ?_⟩
  have hends := calc
    c'.isContinuing = true
      ↔ [Reply.more] <:+ replies ∨ [Reply.more, Reply.quit] <:+ replies := hinside
    _ ↔ (.quit ∉ replies ∧ lines.getLast?.any (goesOn settings.marker) = true) ∨ [.more, .quit] <:+ replies :=
        or_congr_left hanswered.more_suffix_iff
  rw [run, hfeed]
  exact ite_cond_congr (propext hends)

/-- The last line ends the session inside a statement of two lines, so what the first one shows is lost. -/
example : (Console.new {}).replies (Text.sourceLines "/w\n/q\\\n\n")
      = [.output [(.info, "window context: none")], .more, .quit]
    ∧ Console.run {} "/w\n/q\\\n\n" = .error .unfinished := by
  decide +kernel

end Console

end Transcript
