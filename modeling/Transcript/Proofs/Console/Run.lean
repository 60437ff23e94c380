import Transcript.Proofs.Console.Feeding
import Transcript.Proofs.Session.Alike

/-!
Running a source text. The lines of the text are logical statements, and a run gives the output of dispatching
them one after the other, with no buffer in between: what a console writes into its buffer and reads back never
shows.
-/
namespace Transcript

/-! ### Logical statements -/

/-- Puts pieces in front of the first statement, or makes them a statement if there is none. -/
def joinFirst (typed : List String) : List (List String) → List (List String)
  | [] => if typed = [] then [] else [typed]
  | pieces :: rest => (typed ++ pieces) :: rest

/-- The logical statements of a text, each given by its pieces. A line that ends in the marker is a piece
without it, and the next line is the next piece. -/
def logicalStatements (marker : Char) : List String → List (List String)
  | [] => []
  | line :: rest =>
    let (piece, more) := Console.splitMarker marker line.toList
    if more then joinFirst [String.ofList piece] (logicalStatements marker rest)
    else [String.ofList piece] :: logicalStatements marker rest

theorem joinFirst_nil (statements : List (List String)) : joinFirst [] statements = statements := by
  cases statements <;> rfl

theorem joinFirst_joinFirst (typed typed' : List String) (statements : List (List String)) :
    joinFirst typed (joinFirst typed' statements) = joinFirst (typed ++ typed') statements := by
  cases statements with
  | nil =>
      by_cases h : typed' = []
      · simp [joinFirst, h]
      · simp [joinFirst, h]
  | cons pieces rest => simp [joinFirst]

/-! ### Dispatching them in turn -/

/-- The output of logical statements that are dispatched one after the other, up to the end of the session.
Blank statements are passed over, and the lines of an answer stand behind the indent that the session has after
it. -/
def answers (s : StandardSession) (host : Host) : List (List String) → List OutputLine
  | [] => []
  | pieces :: rest =>
    if pieces.all Text.isBlankText then answers s host rest
    else
      let d := s.dispatch host (statementLines s.marker pieces)
      let shown := shownLines d.session.padded d.output.chunks
      if d.next = .exit then shown else shown ++ answers d.session d.host rest

/-- The output of a source text on a fresh session over a host of its own, without a console. -/
def reference (settings : Settings) (source : String) : List OutputLine :=
  answers (StandardSession.new Host.new.current.buffer settings) Host.new
    (logicalStatements settings.marker (Text.sourceLines source))

/-- No statement starts with the marker. -/
def StartPlainly (marker : Char) (statements : List (List String)) : Prop :=
  ∀ pieces ∈ statements, ∀ first, pieces.head? = some first → isContinuation marker first = false

theorem StartPlainly.tail {marker : Char} {pieces : List String} {rest : List (List String)}
    (h : StartPlainly marker (pieces :: rest)) : StartPlainly marker rest := by
  intro ps hps
  exact h ps (List.mem_cons_of_mem _ hps)

namespace Console

variable {c : Console} {b : Buffer} {above typed : List String}

/-- A complete statement ends the session, or its output is shown and the console waits for the next one. -/
theorem Holds.feed_complete (h : c.Typing b above typed) {text : String} {body : List Char}
    (hsplit : splitMarker c.session.marker text.toList = (body, false)) :
    ((c.answer body).next = .exit ∧ (c.answer body).output = .empty
        ∧ ∃ c', c.feed text = .ok (.quit, c') ∧ c'.isContinuing = c.isContinuing)
      ∨ ((c.answer body).next ≠ .exit ∧ ∃ c' b' above',
          c.feed text = .ok (.output (shownLines (c.answer body).session.padded (c.answer body).output.chunks), c')
            ∧ c'.Typing b' above' []
            ∧ (c.answer body).session.Alike c'.session
            ∧ (c.answer body).host.Alike c'.host
            ∧ c'.session.marker = c.session.marker) := by
  cases hnext : (c.answer body).next with
  | exit =>
      refine Or.inl ⟨rfl, ?_, h.feed_exit hsplit hnext⟩
      exact Session.output_of_exit hnext
  | hold =>
      obtain ⟨c', b', hfeed, h', -, hsession, hhost⟩ := h.feed_hold hsplit hnext
      obtain ⟨history, heq⟩ := Session.clears_of_hold Script.neverHolds Ex.neverHolds hnext
      change c.answer body = _ at heq
      refine Or.inr ⟨by simp, c', b', [], ?_, h', ?_, ?_, ?_⟩
      · rw [hfeed, heq]
        rfl
      · rw [hsession]
        exact Session.Alike.refl _
      · rw [hhost]
        exact Host.Alike.refl _
      · rw [hsession, heq]
  | proceed =>
      obtain ⟨c', b', hfeed, h', -, hsession, hhost⟩ := h.feed_proceed hsplit hnext
      have hkeeps : (c.answer body).Keeps { c.session with history := (c.answer body).session.history }
          (c.type body).1.host := Session.keeps_of_proceed hnext
      refine Or.inr ⟨by simp, c', b', _, hfeed, h', ?_, hhost, ?_⟩
      · exact ⟨_, _, hsession⟩
      · rw [hsession]
        exact hkeeps.session.marker

/-! ### The run -/

/-- A console and the reference, one statement further: both end, or both show the same lines and go on in alike
states. -/
theorem Holds.feed_answers (h : c.Typing b above typed) {text : String} {body : List Char}
    (hsplit : splitMarker c.session.marker text.toList = (body, false))
    (hfirst : ∀ first, (typed ++ [String.ofList body]).head? = some first →
      isContinuation c.session.marker first = false)
    {s : StandardSession} (hs : s.Alike c.session) {host : Host} (hh : host.Alike c.host) :
    (∃ c', c.feed text = .ok (.quit, c')
        ∧ ∀ rest, answers s host ((typed ++ [String.ofList body]) :: rest) = [])
      ∨ ∃ shown c' b' above' s' host', c.feed text = .ok (.output shown, c')
          ∧ c'.Typing b' above' []
          ∧ c'.session.marker = c.session.marker
          ∧ Session.Alike s' c'.session
          ∧ Host.Alike host' c'.host
          ∧ ∀ rest, answers s host ((typed ++ [String.ofList body]) :: rest) = shown ++ answers s' host' rest := by
  obtain ⟨history, hanswer⟩ := h.answer_eq body hfirst
  obtain ⟨-, -, -, -, htyped⟩ := h.type body
  have hstep := h.feed_complete hsplit
  by_cases hblank : (typed ++ [String.ofList body]).all Text.isBlankText = true
  · rw [if_pos hblank] at hanswer
    rw [hanswer] at hstep
    rcases hstep with ⟨hexit, -⟩ | ⟨-, c', b', above', hok, h', hs', hh', hmarker⟩
    · cases hexit
    · refine Or.inr ⟨[], c', b', above', s, host, hok, h', hmarker, hs.trans hs', (hh.trans htyped).trans hh', ?_⟩
      intro rest
      rw [answers, if_pos hblank, List.nil_append]
  · rw [if_neg hblank] at hanswer
    have hd : (s.dispatch host (statementLines s.marker (typed ++ [String.ofList body]))).Alike
        (c.answer body) := by
      rw [hanswer, hs.marker]
      exact (hs.trans ⟨history, _, rfl⟩).dispatch (hh.trans htyped) _
    have hanswers : ∀ rest, answers s host ((typed ++ [String.ofList body]) :: rest) =
        let d := s.dispatch host (statementLines s.marker (typed ++ [String.ofList body]))
        let shown := shownLines (c.answer body).session.padded (c.answer body).output.chunks
        if (c.answer body).next = .exit then shown else shown ++ answers d.session d.host rest := by
      intro rest
      rw [answers, if_neg hblank]
      simp only [hd.output, hd.next, hd.session.padded]
    rcases hstep with ⟨hexit, hempty, c', hok, -⟩ | ⟨hgoes, c', b', above', hok, h', hs', hh', hmarker⟩
    · refine Or.inl ⟨c', hok, ?_⟩
      intro rest
      rw [hanswers rest]
      simp only [if_pos hexit, hempty]
      rfl
    · refine Or.inr ⟨_, c', b', above', _, _, hok, h', hmarker, hd.session.trans hs',
        (hd.host (hd.next ▸ hgoes)).trans hh', ?_⟩
      intro rest
      rw [hanswers rest]
      simp only [if_neg hgoes]

private theorem exists_of_bind {ε ι κ : Type} {x : Except ε ι} {f : ι → Except ε κ} {k : κ}
    (h : x >>= f = .ok k) : ∃ i, x = .ok i ∧ f i = .ok k := by
  cases x with
  | error e => cases h
  | ok i => exact ⟨i, rfl, h⟩

/-- Feeding lines to a console that has pieces `typed` already gives the answers to the statements they make
together. -/
theorem Holds.feedAll_eq {marker : Char} (lines : List String) (h : c.Typing b above typed)
    (hmarker : c.session.marker = marker) {s : StandardSession} (hs : s.Alike c.session) {host : Host}
    (hh : host.Alike c.host) (hplain : StartPlainly marker (joinFirst typed (logicalStatements marker lines)))
    {out : List OutputLine} {c' : Console} (hfeed : c.feedAll lines = .ok (out, c'))
    (hdone : c'.isContinuing = false) :
    out = answers s host (joinFirst typed (logicalStatements marker lines)) := by
  -- The console and the reference stay alike from line to line; they need not be equal, for the reference has no
  -- history, no marks and no lines.
  induction lines generalizing c b above typed s host out with
  | nil =>
      obtain ⟨rfl, rfl⟩ := Prod.mk.inj (Except.ok.inj hfeed)
      have hnothing : typed = [] := by
        have hcursor := h.cursor
        have hstart := h.start
        simp only [isContinuing, decide_eq_false_iff_not] at hdone
        exact List.length_eq_zero_iff.1 (by omega)
      subst hnothing
      rfl
  | cons text rest ih =>
      obtain ⟨⟨reply, c₁⟩, hreply, hrest⟩ := exists_of_bind hfeed
      rw [logicalStatements] at hplain ⊢
      cases hsplit : splitMarker marker text.toList with
      | mk body more =>
          rw [hsplit] at hplain
          rw [← hmarker] at hsplit
          cases more with
          | true =>
              obtain ⟨c₂, b₂, hmore, h₂, -, hsession, halike⟩ := h.feed_more hsplit
              obtain ⟨rfl, rfl⟩ := Prod.mk.inj (Except.ok.inj (hreply.symm.trans hmore))
              simp only [if_true, joinFirst_joinFirst] at hplain ⊢
              rw [← hsession] at hmarker hs
              exact ih h₂ hmarker hs (hh.trans halike) hplain hrest
          | false =>
              simp only [Bool.false_eq_true, if_false, joinFirst] at hplain ⊢
              have hfirst : ∀ first, (typed ++ [String.ofList body]).head? = some first →
                  isContinuation c.session.marker first = false := by
                rw [hmarker]
                exact hplain _ List.mem_cons_self
              rcases h.feed_answers hsplit hfirst hs hh with
                ⟨c₂, hquit, hend⟩ | ⟨shown, c₂, b₂, above₂, s₂, host₂, hok, h₂, hmarker₂, hs₂, hh₂, hnext⟩
              · obtain ⟨rfl, rfl⟩ := Prod.mk.inj (Except.ok.inj (hreply.symm.trans hquit))
                rw [hend]
                exact (Prod.mk.inj (Except.ok.inj hrest)).1.symm
              · obtain ⟨rfl, rfl⟩ := Prod.mk.inj (Except.ok.inj (hreply.symm.trans hok))
                obtain ⟨⟨later, c₃⟩, hlater, hout⟩ := exists_of_bind hrest
                obtain ⟨rfl, rfl⟩ := Prod.mk.inj (Except.ok.inj hout)
                have htail := ih h₂ (hmarker₂.trans hmarker) hs₂ hh₂
                  (by rw [joinFirst_nil]; exact hplain.tail) hlater
                rw [joinFirst_nil] at htail
                rw [hnext, htail]

/-- **Running a source text is dispatching its statements.** -/
theorem run_eq_reference {settings : Settings} {source : String}
    (hplain : StartPlainly settings.marker (logicalStatements settings.marker (Text.sourceLines source)))
    {out : List OutputLine} (hrun : Console.run settings source = .ok out) : out = reference settings source := by
  unfold Console.run at hrun
  cases hfeed : (Console.new settings).feedAll (Text.sourceLines source) with
  | error f =>
      rw [hfeed] at hrun
      cases hrun
  | ok r =>
      rw [hfeed] at hrun
      simp only at hrun
      split at hrun
      · cases hrun
      next hdone =>
        obtain rfl := Except.ok.inj hrun
        have hout := (typing_new settings).feedAll_eq (Text.sourceLines source) rfl (Session.Alike.refl _)
          (Host.Alike.refl _) (by rw [joinFirst_nil]; exact hplain) hfeed (Bool.eq_false_iff.2 hdone)
        rw [joinFirst_nil] at hout
        exact hout

/-- A statement of two pieces that sets the indent, a cleared buffer, a blank statement and an output behind the
indent. -/
theorem run_eq_reference_after_clear :
    Console.run {} "/i \\\n2\n/clear\n \n/w"
        = .ok [(.info, "  indent set to 2"), (.info, "  window context: none")]
      ∧ [(.info, "  indent set to 2"), (.info, "  window context: none")]
        = reference {} "/i \\\n2\n/clear\n \n/w" := by
  have hrun : Console.run {} "/i \\\n2\n/clear\n \n/w"
      = .ok [(.info, "  indent set to 2"), (.info, "  window context: none")] := by decide +kernel
  have hstatements : logicalStatements ({} : Settings).marker (Text.sourceLines "/i \\\n2\n/clear\n \n/w")
      = [["/i ", "2"], ["/clear"], [" "], ["/w"]] := by decide +kernel
  refine ⟨hrun, run_eq_reference ?_ hrun⟩
  rw [hstatements]
  intro pieces hpieces first hfirst
  simp only [List.mem_cons, List.not_mem_nil, or_false] at hpieces
  rcases hpieces with rfl | rfl | rfl | rfl <;> cases hfirst <;> decide

end Console

end Transcript
