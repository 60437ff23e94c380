import Transcript.Proofs.Command.Input
import Transcript.Proofs.Session.Dispatch

/-!
Commands that are refused. The word behind the leader may abbreviate no command, a command may be given an argument that
takes none, and an argument may be no number that can be set. Whichever it is, one line says so and nothing else
happens: the host and the session stay as they are. A number that is accepted is stored, and it is one that can be: an
override is 0 or valid, and the indent is not too wide.
-/
namespace Transcript

/-- The command that sets an override. -/
def Command.ofOverride : Override → Command
  | .buffer => .buffer
  | .window => .window

theorem Command.ofOverride_injective : Function.Injective ofOverride := by
  intro o o' h
  cases o <;> cases o'
  case buffer.buffer => rfl
  case window.window => rfl
  all_goals cases h

/-- The lines of an argument: what stands behind the command, and the continuations without their markers. -/
def argumentLines (marker : Char) (head : List Char) (rest : List String) : List String :=
  String.ofList head :: rest.map (stripMarker marker)

/-- There is more than white space. -/
def IsGiven (texts : List String) : Prop := ∃ text ∈ texts, Text.isBlankText text = false

namespace Session

/-- Why a word with an argument behind it is refused on a host. A number that is too big for a handle is one that is not
valid. -/
inductive Rejects (host : Host) (typed : String) (texts : List String) : Failure → Prop where
  | unknown (hunknown : ∀ c : Command, ¬ c.IsCalledBy typed) : Rejects host typed texts .invalidCommand
  | unwanted {c : Command} (hcommand : c = .clear ∨ c = .quit ∨ c = .help) (hcalled : c.IsCalledBy typed)
      (hgiven : IsGiven texts) : Rejects host typed texts .argumentsNotAllowed
  | override {o : Override} (hcalled : (Command.ofOverride o).IsCalledBy typed) (hgiven : IsGiven texts)
      (hbad : ∀ n, ¬ IsHandle host o (Argument.valueOf texts) n) :
      Rejects host typed texts (.invalidArgument o.name (Argument.valueOf texts))
  | indent (hcalled : Command.indent.IsCalledBy typed) (hgiven : IsGiven texts)
      (hbad : ∀ n, ¬ IsIndent (Argument.valueOf texts) n) :
      Rejects host typed texts (.invalidArgument "indent" (Argument.valueOf texts))

variable {α β : Type} {s : Session α β} {host : Host} {typed first : String} {texts rest : List String}
  {word gap head : List Char} {f : Failure}

/-- A number that an override can be set to is not refused. -/
theorem not_rejects_of_isHandle {o : Override} {n : Nat} (hcalled : (Command.ofOverride o).IsCalledBy typed)
    (h : IsHandle host o (Argument.valueOf texts) n) : ¬ Rejects host typed texts f := by
  intro hrejects
  cases hrejects with
  | unknown hunknown => exact hunknown _ hcalled
  | unwanted hcommand hcalled' _ =>
      rw [hcalled'.eq hcalled] at hcommand
      cases o <;> simp [Command.ofOverride] at hcommand
  | override hcalled' _ hbad =>
      obtain rfl := Command.ofOverride_injective (hcalled'.eq hcalled)
      exact hbad n h
  | indent hcalled' _ _ =>
      have hsame := hcalled'.eq hcalled
      cases o <;> cases hsame

/-- Nor is a number that the indent can be set to. -/
theorem not_rejects_of_isIndent {n : Nat} (hcalled : Command.indent.IsCalledBy typed)
    (h : IsIndent (Argument.valueOf texts) n) : ¬ Rejects host typed texts f := by
  intro hrejects
  cases hrejects with
  | unknown hunknown => exact hunknown _ hcalled
  | unwanted hcommand hcalled' _ =>
      rw [hcalled'.eq hcalled] at hcommand
      simp at hcommand
  | @override o hcalled' _ _ =>
      have hsame := hcalled'.eq hcalled
      cases o <;> cases hsame
  | indent _ _ hbad => exact hbad n h

/-! ### What is shown -/

theorem toList_message_invalidArgument (what value : String) :
    (Failure.invalidArgument what value).message.toList
      = "invalid ".toList ++ what.toList ++ ": ".toList ++ value.toList := by
  -- With the written texts in place, each rewrite would look for a concatenation inside of them.
  have happend : ∀ a b c d : String, (a ++ b ++ c ++ d).toList = a.toList ++ b.toList ++ c.toList ++ d.toList := by
    intro a b c d
    rw [String.toList_append, String.toList_append, String.toList_append]
  exact happend "invalid " what ": " value

/-- The reason is one line, for an argument has no line feed inside and no carriage return at its end. -/
theorem Rejects.outputLines_eq (h : Rejects host typed texts f) (hnewline : ∀ t ∈ texts, '\n' ∉ t.toList) :
    outputLines f.message = [f.message] := by
  have hargument : ∀ what : String, '\n' ∉ what.toList → IsGiven texts →
      outputLines (Failure.message (.invalidArgument what (Argument.valueOf texts)))
        = [Failure.message (.invalidArgument what (Argument.valueOf texts))] := by
    intro what hwhat hgiven
    obtain ⟨c, hlast, hc⟩ := Input.getLast?_valueOf hgiven
    have hvalue := Input.newline_notMem_valueOf hnewline
    apply outputLines_of_line
    · rw [toList_message_invalidArgument, List.mem_append, List.mem_append, List.mem_append, not_or, not_or, not_or]
      exact ⟨⟨⟨by decide, hwhat⟩, by decide⟩, hvalue⟩
    · rw [toList_message_invalidArgument, List.getLast?_append, hlast, Option.some_or]
      intro hreturn
      rw [Option.some.inj hreturn] at hc
      revert hc
      decide
  cases h with
  | unknown _ => exact outputLines_of_line (by decide) (by decide)
  | unwanted _ _ _ => exact outputLines_of_line (by decide) (by decide)
  | @override o _ hgiven _ => exact hargument o.name (by cases o <;> decide) hgiven
  | indent _ hgiven _ => exact hargument "indent" (by decide) hgiven

theorem refusing_eq (hline : outputLines f.message = [f.message]) (s : Session α β) (host : Host) :
    s.refusing host f
      = { output := ⟨[⟨.error, [f.message]⟩]⟩, next := .proceed, session := s, host := host } := by
  rw [refusing, showing, Sink.of_line hline]

/-! ### Command lines -/

/-- The argument of a command, given that there is one. -/
theorem exists_argument (hgiven : IsGiven (argumentLines s.marker head rest)) (c : Command) :
    ∃ a, Input.argument? c (String.ofList head) (rest.map (stripMarker s.marker)) = some a
      ∧ a.toValue = Argument.valueOf (argumentLines s.marker head rest) := by
  cases ha : Input.argument? c (String.ofList head) (rest.map (stripMarker s.marker)) with
  | none =>
      obtain ⟨t, ht, hsome⟩ := hgiven
      rw [Input.argument?_eq_none_iff.1 ha t ht] at hsome
      cases hsome
  | some a => exact ⟨a, rfl, Input.toValue_argument? ha⟩

/-- The lines of an argument have no line feed that the statement has not. -/
theorem newline_notMem_argumentLines (hhead : '\n' ∉ head) (hrest : ∀ line ∈ rest, '\n' ∉ line.toList)
    (marker : Char) : ∀ t ∈ argumentLines marker head rest, '\n' ∉ t.toList := by
  refine List.forall_mem_cons.2 ⟨by rwa [String.toList_ofList], ?_⟩
  intro t ht
  obtain ⟨line, hline, rfl⟩ := List.mem_map.1 ht
  have hno := hrest line hline
  unfold stripMarker
  split
  · rw [String.toList_ofList]
    exact fun hmem => hno (List.mem_of_mem_tail hmem)
  · exact hno

variable [Evaluator α] [Evaluator β]

theorem dispatch_of_calls (s : Session α β) (host : Host) (hcalls : Input.Calls s.leader first word gap head)
    (hnewline : '\n' ∉ head) (rest : List String) :
    s.dispatch host (first :: rest)
      = match Command.lookup? (String.ofList word) with
        | none => s.refusing host .invalidCommand
        | some c => s.runCommand host c
            (Input.argument? c (String.ofList head) (rest.map (stripMarker s.marker))) := by
  rw [dispatch, hcalls.classify_eq hnewline]
  cases Command.lookup? (String.ofList word) <;> rfl

/-- A command that is called with an argument is run with it. -/
theorem exists_runCommand (host : Host) (hcalls : Input.Calls s.leader first word gap head) (hnewline : '\n' ∉ head)
    {c : Command} (hcalled : c.IsCalledBy (String.ofList word)) (hgiven : IsGiven (argumentLines s.marker head rest)) :
    ∃ a, a.toValue = Argument.valueOf (argumentLines s.marker head rest)
      ∧ s.dispatch host (first :: rest) = s.runCommand host c (some a) := by
  obtain ⟨a, ha, hvalue⟩ := exists_argument hgiven c
  refine ⟨a, hvalue, ?_⟩
  rw [s.dispatch_of_calls host hcalls hnewline rest, Command.lookup?_eq_some_iff.2 hcalled]
  simp only [ha]

theorem runCommand_ofOverride (s : Session α β) (host : Host) (o : Override) (argument : Option Argument) :
    s.runCommand host (.ofOverride o) argument = s.runOverride host o argument := by
  cases o <;> cases argument <;> rfl

theorem runCommand_indent (s : Session α β) (host : Host) (argument : Option Argument) :
    s.runCommand host .indent argument = s.runIndent host argument := by
  cases argument <;> rfl

theorem dispatch_rejected (hcalls : Input.Calls s.leader first word gap head) (hnewline : '\n' ∉ head)
    (h : Rejects host (String.ofList word) (argumentLines s.marker head rest) f) :
    s.dispatch host (first :: rest) = s.refusing host f := by
  cases h with
  | unknown hunknown =>
      rw [s.dispatch_of_calls host hcalls hnewline rest, Command.lookup?_eq_none_iff.2 hunknown]
  | unwanted hkind hcalled hgiven =>
      obtain ⟨a, -, hdispatch⟩ := exists_runCommand host hcalls hnewline hcalled hgiven
      rw [hdispatch]
      rcases hkind with rfl | rfl | rfl <;> rfl
  | override hcalled hgiven hbad =>
      obtain ⟨a, hvalue, hdispatch⟩ := exists_runCommand host hcalls hnewline hcalled hgiven
      rw [← hvalue] at hbad ⊢
      rw [hdispatch, runCommand_ofOverride, s.runOverride_rejected hbad]
  | indent hcalled hgiven hbad =>
      obtain ⟨a, hvalue, hdispatch⟩ := exists_runCommand host hcalls hnewline hcalled hgiven
      rw [← hvalue] at hbad ⊢
      rw [hdispatch, runCommand_indent, s.runIndent_rejected hbad]

/-- An override that is not refused is set to the number that is written. -/
theorem dispatch_override {o : Override} (hcalls : Input.Calls s.leader first word gap head) (hnewline : '\n' ∉ head)
    (hcalled : (Command.ofOverride o).IsCalledBy (String.ofList word))
    (hgiven : IsGiven (argumentLines s.marker head rest))
    (hnone : ∀ f, ¬ Rejects host (String.ofList word) (argumentLines s.marker head rest) f) :
    ∃ n, IsHandle host o (Argument.valueOf (argumentLines s.marker head rest)) n
      ∧ s.dispatch host (first :: rest) = (s.setOverride o n).showing host .info (overrideSet o n) := by
  obtain ⟨n, hn⟩ : ∃ n, IsHandle host o (Argument.valueOf (argumentLines s.marker head rest)) n := by
    by_contra hbad
    exact hnone _ (.override hcalled hgiven (not_exists.1 hbad))
  obtain ⟨a, hvalue, hdispatch⟩ := exists_runCommand host hcalls hnewline hcalled hgiven
  rw [← hvalue] at hn ⊢
  exact ⟨n, hn, by rw [hdispatch, runCommand_ofOverride, s.runOverride_accepted hn]⟩

/-- The indent that is not refused is set to the number that is written. -/
theorem dispatch_indent (hcalls : Input.Calls s.leader first word gap head) (hnewline : '\n' ∉ head)
    (hcalled : Command.indent.IsCalledBy (String.ofList word)) (hgiven : IsGiven (argumentLines s.marker head rest))
    (hnone : ∀ f, ¬ Rejects host (String.ofList word) (argumentLines s.marker head rest) f) :
    ∃ n, IsIndent (Argument.valueOf (argumentLines s.marker head rest)) n
      ∧ s.dispatch host (first :: rest)
        = { s with indent := n }.showing host .info ("indent set to " ++ toString n) := by
  obtain ⟨n, hn⟩ : ∃ n, IsIndent (Argument.valueOf (argumentLines s.marker head rest)) n := by
    by_contra hbad
    exact hnone _ (.indent hcalled hgiven (not_exists.1 hbad))
  obtain ⟨a, hvalue, hdispatch⟩ := exists_runCommand host hcalls hnewline hcalled hgiven
  rw [← hvalue] at hn ⊢
  exact ⟨n, hn, by rw [hdispatch, runCommand_indent, s.runIndent_accepted host hn]⟩

/-- **Commands that are refused, and numbers that are accepted.** A statement that starts with the leader calls a
command by a word. If it is refused, for any reason, the host and the session stay as they are, one line of error gives
the reason, and the session goes on. If it sets an override and is not refused, the override is the number that is
written from then on, which is 0 or the number of what is there, and everything else stays as it is. If it sets the
indent and is not refused, the same holds of the indent, which is at most 32. -/
theorem dispatch_refused_or_accepted (s : Session α β) (host : Host) {first : String} {rest : List String}
    (hfirst : first.toList.head? = some s.leader) (hnewline : ∀ line ∈ first :: rest, '\n' ∉ line.toList) :
    (∃ word gap head, Input.Calls s.leader first word gap head)
      ∧ ∀ word gap head, Input.Calls s.leader first word gap head →
        (∀ f, Rejects host (String.ofList word) (argumentLines s.marker head rest) f →
            s.dispatch host (first :: rest)
              = { output := ⟨[⟨.error, [f.message]⟩]⟩, next := .proceed, session := s, host := host })
          ∧ (∀ o, (Command.ofOverride o).IsCalledBy (String.ofList word) →
            IsGiven (argumentLines s.marker head rest) →
            (∀ f, ¬ Rejects host (String.ofList word) (argumentLines s.marker head rest) f) →
            ∃ n text, Writes (Argument.valueOf (argumentLines s.marker head rest)) n
              ∧ (n = 0 ∨ o.IsThere host n)
              ∧ (s.dispatch host (first :: rest)).session.override o = n
              ∧ (∀ o', o' ≠ o → (s.dispatch host (first :: rest)).session.override o' = s.override o')
              ∧ s.dispatch host (first :: rest)
                = { output := Sink.of .info text
                    next := .proceed
                    session := { s with context := (s.dispatch host (first :: rest)).session.context }
                    host := host })
          ∧ (Command.indent.IsCalledBy (String.ofList word) → IsGiven (argumentLines s.marker head rest) →
            (∀ f, ¬ Rejects host (String.ofList word) (argumentLines s.marker head rest) f) →
            ∃ n text, Writes (Argument.valueOf (argumentLines s.marker head rest)) n ∧ n ≤ 32
              ∧ s.dispatch host (first :: rest)
                = { output := Sink.of .info text
                    next := .proceed
                    session := { s with indent := n }
                    host := host }) := by
  obtain ⟨hfirstline, hrest⟩ := List.forall_mem_cons.1 hnewline
  constructor
  · obtain ⟨line, hline⟩ := List.head?_eq_some_iff.1 hfirst
    rw [← String.ofList_toList (s := first), hline]
    exact Input.exists_calls s.leader line
  intro word gap head hcalls
  have hhead : '\n' ∉ head := by
    intro hmem
    rw [hcalls.line_eq, String.toList_ofList] at hfirstline
    exact hfirstline (List.mem_cons_of_mem _ (List.mem_append_right _ hmem))
  refine ⟨?_, ?_, ?_⟩
  · intro f hrejects
    have hline := hrejects.outputLines_eq (newline_notMem_argumentLines hhead hrest s.marker)
    rw [dispatch_rejected hcalls hhead hrejects, refusing_eq hline]
  · intro o hcalled hgiven hnone
    obtain ⟨n, ⟨hwritten, hcan⟩, hdispatch⟩ := dispatch_override hcalls hhead hcalled hgiven hnone
    rw [hdispatch]
    refine ⟨n, overrideSet o n, hwritten, hcan, s.override_setOverride o n, ?_, ?_⟩
    · intro o' hother
      exact s.override_setOverride_of_ne hother n
    · rw [showing, ← s.setOverride_eq o n]
  · intro hcalled hgiven hnone
    obtain ⟨n, ⟨hwritten, hle⟩, hdispatch⟩ := dispatch_indent hcalls hhead hcalled hgiven hnone
    exact ⟨n, _, hwritten, hle, hdispatch⟩

/-- A session with the overrides 3 and 5, neither of which is there. -/
def strayed : StandardSession := StandardSession.new 1 { buffer := 3, window := 5 }

/-- Two numbers on two lines are no number, so the override stays; a window that is there is accepted, and so is an
indent that fits. -/
theorem dispatch_refused_or_accepted_over_two_lines :
    strayed.dispatch Host.new ["/b 1", "\\2"]
        = { output := ⟨[⟨.error, ["invalid buffer: 1 2"]⟩]⟩, next := .proceed, session := strayed, host := Host.new }
      ∧ (strayed.dispatch Host.new ["/wi  +1"]).session.context = { buffer := 3, window := 1 }
      ∧ (strayed.dispatch Host.new ["/in 04"]).session.indent = 4
      ∧ (strayed.dispatch Host.new ["/in 04"]).session.context = { buffer := 3, window := 5 } := by
  refine ⟨?_, ?_, ?_⟩
  · obtain ⟨-, hcalls⟩ := @dispatch_refused_or_accepted Script Ex _ _ strayed Host.new "/b 1" ["\\2"]
      (by decide) (by decide)
    obtain ⟨hrefused, -⟩ := hcalls ['b'] [' '] ['1']
      (Input.calls_of_argument (by decide) (by decide) (by decide) (by decide) (by decide))
    have hnumber : readNumber? (Argument.valueOf (argumentLines '\\' ['1'] ["\\2"])) = none := by decide
    refine hrefused _ (.override (o := .buffer) ⟨by decide, by decide⟩ ⟨"2", by decide, by decide⟩ ?_)
    rintro n ⟨hwritten, -⟩
    cases hnumber.symm.trans (readNumber?_eq_some_iff.2 hwritten)
  · obtain ⟨-, hcalls⟩ := @dispatch_refused_or_accepted Script Ex _ _ strayed Host.new "/wi  +1" []
      (by decide) (by decide)
    obtain ⟨-, haccepted, -⟩ := hcalls ['w', 'i'] [' ', ' '] ['+', '1']
      (Input.calls_of_argument (by decide) (by decide) (by decide) (by decide) (by decide))
    have hcalled : (Command.ofOverride .window).IsCalledBy (String.ofList ['w', 'i']) := ⟨by decide, by decide⟩
    have hnumber : readNumber? (Argument.valueOf (argumentLines '\\' ['+', '1'] [])) = some 1 := by decide
    obtain ⟨n, text, hwritten, -, hset, hkept, -⟩ := haccepted .window hcalled ⟨"+1", by decide, by decide⟩
      fun f => not_rejects_of_isHandle hcalled ⟨readNumber?_eq_some_iff.1 hnumber, Or.inr ⟨1, by decide⟩⟩
    obtain rfl := Option.some.inj (hnumber.symm.trans (readNumber?_eq_some_iff.2 hwritten))
    exact congrArg₂ Place.mk (hkept .buffer (by decide)) hset
  · obtain ⟨-, hcalls⟩ := @dispatch_refused_or_accepted Script Ex _ _ strayed Host.new "/in 04" []
      (by decide) (by decide)
    obtain ⟨-, -, haccepted⟩ := hcalls ['i', 'n'] [' '] ['0', '4']
      (Input.calls_of_argument (by decide) (by decide) (by decide) (by decide) (by decide))
    have hcalled : Command.indent.IsCalledBy (String.ofList ['i', 'n']) := ⟨by decide, by decide⟩
    have hnumber : readNumber? (Argument.valueOf (argumentLines '\\' ['0', '4'] [])) = some 4 := by decide
    obtain ⟨n, text, hwritten, -, hdispatch⟩ := haccepted hcalled ⟨"04", by decide, by decide⟩
      fun f => not_rejects_of_isIndent hcalled ⟨readNumber?_eq_some_iff.1 hnumber, by decide⟩
    obtain rfl := Option.some.inj (hnumber.symm.trans (readNumber?_eq_some_iff.2 hwritten))
    rw [hdispatch]
    exact ⟨rfl, rfl⟩

end Session

end Transcript
