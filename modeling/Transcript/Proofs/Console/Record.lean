import Transcript.Proofs.Buffer.Entries
import Transcript.Proofs.Console.Feeding

/-!
Where the lines of a console come from. A record goes along with every feed and cancel: typed lines and chunks of
output, split at the line that was edited last. The texts of the record are the lines of the buffer, and the
marks of the buffer are those of the record, stretched down to the edited line. So the marks tell typed lines
from output exactly while no chunk but one right above the edited line stands over it.
-/
namespace Transcript

/-- The entries above the line that was edited last, and the entries from that line on. -/
structure Record where
  above : List Entry
  below : List Entry
  deriving DecidableEq, Repr

namespace Record

/-- All entries. -/
def entries (r : Record) : List Entry := r.above ++ r.below

/-- The record of one empty line. -/
def fresh : Record where
  above := []
  below := [.typed ""]

/-- The record after a text is fed that does not end the session. Only `clear` holds the line. -/
def feed (r : Record) (c : Console) (text : String) : Record :=
  let (body, more) := Console.splitMarker c.session.marker text.toList
  let line : Entry := .typed (String.ofList (c.type body).2)
  if more then
    { above := r.entries.dropLast
      below := [line, .typed (String.ofList [c.session.marker])] }
  else
    let d := c.answer body
    match d.next with
    | .hold => fresh
    | _ =>
      { above := r.entries.dropLast
        below := line :: outputEntries d.session.padded c.session.nextMark d.output.chunks ++ [.typed ""] }

/-- The record after the statement that is typed is dropped. -/
def cancel (r : Record) (c : Console) : Record where
  above := r.entries.take (r.entries.length - (c.cursor + 1 - c.start))
  below := [.typed ""]

end Record

theorem Record.feed_of_proceed (r : Record) {c : Console} {text : String} {body : List Char}
    (hsplit : Console.splitMarker c.session.marker text.toList = (body, false))
    (hnext : (c.answer body).next = .proceed) :
    r.feed c text
      = { above := r.entries.dropLast
          below := .typed (String.ofList (c.type body).2)
            :: outputEntries (c.answer body).session.padded c.session.nextMark (c.answer body).output.chunks
              ++ [.typed ""] } := by
  rw [feed, hsplit]
  simp [hnext]

/-- The consoles that feeds and cancels lead to while the session goes on, each with its record. -/
inductive Console.Recorded (settings : Settings) : Console → Record → Prop where
  | new : Recorded settings (Console.new settings) .fresh
  | feed {c c' : Console} {r : Record} {reply : Reply} (h : Recorded settings c r) (text : String)
      (hfeed : c.feed text = .ok (reply, c')) (hreply : reply ≠ .quit) : Recorded settings c' (r.feed c text)
  | cancel {c : Console} {r : Record} (h : Recorded settings c r) : Recorded settings c.cancel (r.cancel c)

namespace Console

/-- A console and its record: the statement that is typed ends the record, and the marks are those of the record,
stretched down to the line edited last. -/
structure Tracks (c : Console) (r : Record) (b : Buffer) (done : List Entry) (typed : List String) : Prop where
  typing : c.Typing b ((linesOf done).map Prod.snd) typed
  entries : r.entries = done ++ (statementLines c.session.marker (typed ++ [""])).map .typed
  marks : b.marks = stretchedMarks r.above r.below
  proper : ∀ e ∈ r.entries, e.IsProper

theorem tracks_new (settings : Settings) :
    (Console.new settings).Tracks .fresh (Buffer.ofLines []) [] [] where
  typing := typing_new settings
  entries := rfl
  marks := rfl
  proper := by
    intro e he
    rw [List.mem_singleton.1 he]
    trivial

namespace Tracks

variable {c : Console} {r : Record} {b : Buffer} {done : List Entry} {typed : List String}

theorem lines_eq (h : c.Tracks r b done typed) :
    c.host.lines c.session.buffer = (linesOf r.entries).map Prod.snd := by
  rw [Host.lines_of_get? h.typing.get, h.typing.lines, h.entries, linesOf_append, List.map_append, linesOf_typed,
    statementLines_concat, List.append_assoc]

/-- Without its last line the record ends above the cursor line. -/
theorem dropLast_entries (h : c.Tracks r b done typed) :
    r.entries.dropLast = done ++ (statementLines c.session.marker typed).map .typed
      ∧ (linesOf r.entries.dropLast).length = c.cursor - 1
      ∧ r.entries = r.entries.dropLast ++ [pieceLine c.session.marker typed ""].map .typed := by
  have hsplit : r.entries = (done ++ (statementLines c.session.marker typed).map .typed)
      ++ [pieceLine c.session.marker typed ""].map .typed := by
    rw [h.entries, statementLines_concat, List.map_append, List.append_assoc]
  have hdrop : r.entries.dropLast = done ++ (statementLines c.session.marker typed).map .typed := by
    rw [hsplit, List.map_singleton, List.dropLast_concat]
  refine ⟨hdrop, ?_, ?_⟩
  · have hcursor := h.typing.cursor
    have hlines := congrArg List.length (linesOf_typed (statementLines c.session.marker typed))
    rw [List.length_map, length_statementLines] at hlines
    rw [List.length_map] at hcursor
    rw [hdrop, linesOf_append, List.length_append, hlines]
    omega
  · rw [hdrop]
    exact hsplit

/-- A piece that ends in the marker stretches all marks down to the line above it. -/
theorem feed_more (h : c.Tracks r b done typed) {text : String} {body : List Char}
    (hsplit : splitMarker c.session.marker text.toList = (body, true)) :
    ∃ c' b', c.feed text = .ok (.more, c')
      ∧ c'.Tracks (r.feed c text) b' done (typed ++ [String.ofList body]) := by
  obtain ⟨c', b', hfeed, htyping, hmarks, hsession, -⟩ := h.typing.feed_more hsplit
  obtain ⟨-, -, hline, -, -⟩ := h.typing.type body
  obtain ⟨hdrop, hlength, hentries⟩ := h.dropLast_entries
  have hrecord : r.feed c text
      = { above := r.entries.dropLast
          below := [pieceLine c.session.marker typed (String.ofList body),
            pieceLine c.session.marker (typed ++ [String.ofList body]) ""].map .typed } := by
    rw [Record.feed, hsplit]
    simp [hline, pieceLine]
  refine ⟨c', b', hfeed, htyping, ?_, ?_, ?_⟩
  · rw [hrecord, Record.entries, hsession, hdrop, statementLines_concat, statementLines_concat]
    simp
  · rw [hrecord, hmarks, h.marks, ← hlength]
    have hedit := stretchedMarks_edit hentries ([pieceLine c.session.marker typed (String.ofList body),
      pieceLine c.session.marker (typed ++ [String.ofList body]) ""].map .typed)
    rwa [exactMarks_typed, List.append_nil] at hedit
  · rw [hrecord]
    intro e he
    rcases List.mem_append.1 he with he | he
    · exact h.proper e (List.dropLast_subset _ he)
    · obtain ⟨line, -, rfl⟩ := List.mem_map.1 he
      trivial

/-- After `clear` there is one empty line. -/
theorem feed_hold (h : c.Tracks r b done typed) {text : String} {body : List Char}
    (hsplit : splitMarker c.session.marker text.toList = (body, false)) (hnext : (c.answer body).next = .hold) :
    ∃ c' b', c.feed text = .ok (.output [], c') ∧ c'.Tracks (r.feed c text) b' [] [] := by
  obtain ⟨c', b', hfeed, htyping, hmarks, -, -⟩ := h.typing.feed_hold hsplit hnext
  have hrecord : r.feed c text = .fresh := by
    rw [Record.feed, hsplit]
    simp [hnext]
  rw [hrecord]
  refine ⟨c', b', hfeed, htyping, rfl, hmarks, ?_⟩
  intro e he
  rw [List.mem_singleton.1 he]
  trivial

/-- Any other statement stretches the marks that were there and marks its own output. -/
theorem feed_proceed (h : c.Tracks r b done typed) {text : String} {body : List Char}
    (hsplit : splitMarker c.session.marker text.toList = (body, false))
    (hnext : (c.answer body).next = .proceed) :
    ∃ c' b' shown done', c.feed text = .ok (.output shown, c') ∧ c'.Tracks (r.feed c text) b' done' [] := by
  obtain ⟨c', b', hfeed, htyping, hmarks, hsession, -⟩ := h.typing.feed_proceed hsplit hnext
  obtain ⟨-, -, hline, -, -⟩ := h.typing.type body
  obtain ⟨hdrop, hlength, hentries⟩ := h.dropLast_entries
  have hproper : (c.answer body).output.Proper := (Session.keeps_of_proceed hnext).output
  let line : Entry := .typed (pieceLine c.session.marker typed (String.ofList body))
  let output := outputEntries (c.answer body).session.padded c.session.nextMark (c.answer body).output.chunks
  have hrecord : r.feed c text = { above := r.entries.dropLast, below := line :: output ++ [.typed ""] } := by
    rw [r.feed_of_proceed hsplit hnext, hline, String.ofList_toList]
  have hbelow : exactMarks (linesOf r.entries.dropLast).length (line :: output ++ [.typed ""])
      = marksOf c.session.nextMark c.cursor (c.answer body).output.chunks := by
    have hcursor : c.cursor - 1 + 1 = c.cursor := by
      have := h.typing.cursor
      omega
    rw [hlength, exactMarks_append]
    simp [line, output, exactMarks, exactMarks_outputEntries, hcursor]
  have hdone : (linesOf (r.entries.dropLast ++ line :: output)).map Prod.snd
      = (linesOf done).map Prod.snd ++ statementLines c.session.marker (typed ++ [String.ofList body])
        ++ blockOf (c.answer body).session.padded (c.answer body).output.chunks := by
    rw [hdrop, linesOf_append, linesOf_append, List.map_append, List.map_append, linesOf_typed,
      statementLines_concat, linesOf_cons, List.map_append, linesOf_outputEntries]
    simp [line, Entry.lines]
  refine ⟨c', b', _, r.entries.dropLast ++ line :: output, hfeed, ?_, ?_, ?_, ?_⟩
  · rw [hdone]
    exact htyping
  · rw [hrecord, Record.entries]
    simp [statementLines]
  · rw [hrecord, hmarks, h.marks, ← hbelow, ← hlength]
    exact stretchedMarks_edit hentries _
  · rw [hrecord]
    intro e he
    rcases List.mem_append.1 he with he | he
    · exact h.proper e (List.dropLast_subset _ he)
    · rcases List.mem_append.1 he with he | he
      · rcases List.mem_cons.1 he with rfl | he
        · trivial
        · exact isProper_outputEntries _ _ hproper e he
      · rw [List.mem_singleton.1 he]
        trivial

/-- Dropping a statement stretches all marks down to the line above it. -/
theorem cancel (h : c.Tracks r b done typed) : ∃ b', c.cancel.Tracks (r.cancel c) b' done [] := by
  obtain ⟨b', htyping, hmarks, -⟩ := h.typing.cancel
  have hkept : r.entries.take (r.entries.length - (c.cursor + 1 - c.start)) = done := by
    have hcursor := h.typing.cursor
    have hstart := h.typing.start
    have hlength : r.entries.length - (c.cursor + 1 - c.start) = done.length := by
      rw [h.entries]
      simp
      omega
    rw [hlength, h.entries, List.take_left]
  have hrecord : r.cancel c = { above := done, below := [""].map .typed } := by
    rw [Record.cancel, hkept]
    rfl
  rw [hrecord]
  refine ⟨b', htyping, rfl, ?_, ?_⟩
  · have hedit := stretchedMarks_edit h.entries ([""].map .typed)
    rw [exactMarks_typed, List.append_nil] at hedit
    rw [hmarks, h.marks, ← hedit, List.length_map]
  · intro e he
    rcases List.mem_append.1 he with he | he
    · refine h.proper e ?_
      rw [h.entries]
      exact List.mem_append_left _ he
    · rw [List.mem_singleton.1 he]
      trivial

/-- A console takes every text, and its record goes along unless the session ends. -/
theorem feed (h : c.Tracks r b done typed) (text : String) :
    (∃ c', c.feed text = .ok (.quit, c'))
      ∨ ∃ reply c' b' done' typed', reply ≠ .quit ∧ c.feed text = .ok (reply, c')
          ∧ c'.Tracks (r.feed c text) b' done' typed' := by
  cases hsplit : splitMarker c.session.marker text.toList with
  | mk body more =>
      cases more with
      | true =>
          obtain ⟨c', b', hmore, htracks⟩ := h.feed_more hsplit
          exact Or.inr ⟨_, c', b', _, _, by simp, hmore, htracks⟩
      | false =>
          cases hnext : (c.answer body).next with
          | exit =>
              obtain ⟨c', hquit, -⟩ := h.typing.feed_exit hsplit hnext
              exact Or.inl ⟨c', hquit⟩
          | hold =>
              obtain ⟨c', b', hok, htracks⟩ := h.feed_hold hsplit hnext
              exact Or.inr ⟨_, c', b', _, _, by simp, hok, htracks⟩
          | proceed =>
              obtain ⟨c', b', shown, done', hok, htracks⟩ := h.feed_proceed hsplit hnext
              exact Or.inr ⟨_, c', b', _, _, by simp, hok, htracks⟩

end Tracks

/-- Every recorded console is tracked by its record. -/
theorem Recorded.tracks {settings : Settings} {c : Console} {r : Record} (h : Recorded settings c r) :
    ∃ b done typed, c.Tracks r b done typed := by
  induction h with
  | new => exact ⟨_, _, _, tracks_new settings⟩
  | feed h text hfeed hreply ih =>
      obtain ⟨b, done, typed, htracks⟩ := ih
      rcases htracks.feed text with ⟨c₁, hquit⟩ | ⟨reply₁, c₁, b₁, done₁, typed₁, -, hok, htracks₁⟩
      · obtain ⟨rfl, -⟩ := Prod.mk.inj (Except.ok.inj (hfeed.symm.trans hquit))
        exact absurd rfl hreply
      · obtain ⟨-, rfl⟩ := Prod.mk.inj (Except.ok.inj (hfeed.symm.trans hok))
        exact ⟨b₁, done₁, typed₁, htracks₁⟩
  | cancel h ih =>
      obtain ⟨b, done, typed, htracks⟩ := ih
      obtain ⟨b₁, htracks₁⟩ := htracks.cancel
      exact ⟨b₁, done, [], htracks₁⟩

/-! ### When marks are faithful -/

/-- The marks of a console tell typed lines from output: they are faithful to the record, and the lines can be
highlighted so that no typed line is shown as output. -/
structure IsFaithful (c : Console) (r : Record) : Prop where
  marks : Faithful (c.host.marks c.session.buffer) 0 r.entries
  highlights : ∃ shown, c.session.highlights c.host = .ok shown ∧ ∀ i text h,
    (linesOf r.entries)[i]? = some (.typed, text) → (i + 1, h) ∈ shown → h = .continuation

/-- A line that lies in no mark is not shown as output. -/
theorem eq_continuation_of_mem_highlights {c : Console} {shown : List (Nat × Highlight)}
    (hshown : c.session.highlights c.host = .ok shown) {i : Nat} {h : Highlight} (hmem : (i + 1, h) ∈ shown)
    (hmarks : marksOn (c.host.marks c.session.buffer) (i + 1) = 0) : h = .continuation := by
  rw [Session.highlights] at hshown
  split at hshown
  · cases hshown
  · obtain rfl := Except.ok.inj hshown
    obtain ⟨⟨text, j⟩, -, hx⟩ := List.mem_filterMap.1 hmem
    obtain ⟨h', hhighlight, heq⟩ := Option.map_eq_some_iff.1 hx
    obtain ⟨hj, rfl⟩ := Prod.mk.inj heq
    have hnone : ∀ m ∈ c.host.marks c.session.buffer, ¬ m.covers (j + 1) = true := by
      rw [hj]
      exact List.countP_eq_zero.1 hmarks
    rw [Session.highlightOf_of_not_covers hnone] at hhighlight
    split at hhighlight
    · exact (Option.some.inj hhighlight).symm
    · cases hhighlight

/-- **The marks of a console are faithful exactly if no chunk but one right above the line edited last stands
over that line.** The record is true to the texts of the buffer. -/
theorem Recorded.faithful_iff {settings : Settings} {c : Console} {r : Record} (h : Recorded settings c r) :
    c.host.lines c.session.buffer = (linesOf r.entries).map Prod.snd
      ∧ (c.IsFaithful r ↔ OutputLast r.above) := by
  obtain ⟨b, done, typed, htracks⟩ := h.tracks
  have hmarks : c.host.marks c.session.buffer = stretchedMarks r.above r.below := by
    rw [Host.marks_of_get? htracks.typing.get, htracks.marks]
  have hproper : ∀ e ∈ r.above, e.IsProper := by
    intro e he
    exact htracks.proper e (List.mem_append_left _ he)
  have hiff := faithful_stretchedMarks_iff hproper r.below
  rw [← hmarks] at hiff
  refine ⟨htracks.lines_eq, ?_, ?_⟩
  · intro hfaithful
    exact hiff.1 hfaithful.marks
  · intro houtput
    have hfaithful := hiff.2 houtput
    have halive : c.session.isAlive c.host = true := Host.hasBuffer_of_get? htracks.typing.get
    obtain ⟨shown, hshown, -⟩ := freshOutput_eq_filterMap halive 0
    refine ⟨hfaithful, shown, hshown, ?_⟩
    intro i text highlight htyped hmem
    have hzero := hfaithful.typed i text htyped
    rw [Nat.zero_add] at hzero
    exact eq_continuation_of_mem_highlights hshown hmem hzero

/-- One output and two empty lines below it: the mark of the output is stretched over the first of them. -/
theorem faithful_iff_after_empty_lines :
    ∃ (c : Console) (r : Record), Recorded {} c r
      ∧ c.host.lines c.session.buffer = (linesOf r.entries).map Prod.snd
      ∧ ¬ OutputLast r.above
      ∧ ¬ c.IsFaithful r := by
  have hsplit₁ : splitMarker (Console.new {}).session.marker "/w".toList = (['/', 'w'], false) := by decide
  have hnext₁ : ((Console.new {}).answer ['/', 'w']).next = .proceed := by decide +kernel
  have hrecord₁ : (Record.fresh.feed (Console.new {}) "/w").entries
      = [.typed "/w", .output 1 ⟨.info, ["window context: none"]⟩, .typed ""] := by decide +kernel
  obtain ⟨c₁, b₁, shown₁, done₁, hfeed₁, h₁⟩ := (tracks_new {}).feed_proceed hsplit₁ hnext₁
  have hsplit : ∀ marker, splitMarker marker "".toList = ([], false) := fun _ => rfl
  obtain ⟨hnext₂, hempty₂⟩ := h₁.typing.answer_nil
  obtain ⟨c₂, b₂, shown₂, done₂, hfeed₂, h₂⟩ := h₁.feed_proceed (hsplit _) hnext₂
  obtain ⟨hnext₃, -⟩ := h₂.typing.answer_nil
  obtain ⟨c₃, b₃, shown₃, done₃, hfeed₃, h₃⟩ := h₂.feed_proceed (hsplit _) hnext₃
  have hreached₁ : Recorded {} c₁ (Record.fresh.feed (Console.new {}) "/w") :=
    Recorded.new.feed "/w" hfeed₁ (by simp)
  have hreached₂ := hreached₁.feed "" hfeed₂ (by simp)
  have hreached₃ := hreached₂.feed "" hfeed₃ (by simp)
  have houtput : ¬ OutputLast (((Record.fresh.feed (Console.new {}) "/w").feed c₁ "").feed c₂ "").above := by
    intro h
    rw [Record.feed_of_proceed _ (hsplit _) hnext₃, Record.entries, Record.feed_of_proceed _ (hsplit _) hnext₂,
      hrecord₁, hempty₂] at h
    exact h (.output 1 ⟨.info, ["window context: none"]⟩) (by simp [outputEntries, Sink.empty])
  obtain ⟨hlines, hiff⟩ := hreached₃.faithful_iff
  exact ⟨c₃, _, hreached₃, hlines, houtput, fun hfaithful => houtput (hiff.1 hfaithful)⟩

end Console

end Transcript
