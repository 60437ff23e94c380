import Transcript.Console
import Transcript.Proofs.Completion
import Transcript.Proofs.Text

/-!
What a session completes. At a column of a line, the names of commands, the verbs and the words that are offered
replace the end of what stands before the column, and nothing else of it, whether they are completed behind the
leader, behind a command that names a language, or on a line of the active language. A candidate that is typed out is
offered again, for the line is read in the same way: the leader is no letter, and no candidate has white space.
-/
namespace Transcript.Session

variable {α β : Type} [Evaluator α] [Evaluator β] {s : Session α β}

/-! ### Behind a command -/

/-- A word of letters, white space, and an argument that does not start with white space. -/
structure SplitsAt (word gap argument : List Char) : Prop where
  letters : ∀ c ∈ word, c.isAlpha = true
  word_ne_nil : word ≠ []
  blanks : ∀ c ∈ gap, Text.isBlank c = true
  gap_ne_nil : gap ≠ []
  head : ∀ c ∈ argument.head?, Text.isBlank c = false

theorem splitArgument?_of_splitsAt {word gap argument : List Char} (h : SplitsAt word gap argument) :
    splitArgument? (word ++ gap ++ argument) = some (word, gap, argument) := by
  obtain ⟨hletters, hword, hblanks, hgap, hhead⟩ := h
  have hbehind : (gap ++ argument).takeWhile Char.isAlpha = []
      ∧ (gap ++ argument).dropWhile Char.isAlpha = gap ++ argument := by
    obtain ⟨c, cs, rfl⟩ := List.exists_cons_of_ne_nil hgap
    have hc := Text.not_isAlpha_of_blank (hblanks c List.mem_cons_self)
    simp [hc]
  have hargument : argument.takeWhile Text.isBlank = [] ∧ argument.dropWhile Text.isBlank = argument := by
    cases argument with
    | nil => exact ⟨rfl, rfl⟩
    | cons c cs =>
        have hc := hhead c rfl
        simp [hc]
  simp only [splitArgument?, List.append_assoc, List.takeWhile_append_of_pos hletters,
    List.dropWhile_append_of_pos hletters, hbehind, List.append_nil, List.takeWhile_append_of_pos hblanks,
    List.dropWhile_append_of_pos hblanks, hargument, List.isEmpty_iff, hword, hgap, or_self, if_false]

theorem splitsAt_of_splitArgument? {line word gap argument : List Char}
    (h : splitArgument? line = some (word, gap, argument)) :
    line = word ++ gap ++ argument ∧ SplitsAt word gap argument := by
  unfold splitArgument? at h
  dsimp only at h
  split at h
  · cases h
  next hparts =>
    obtain ⟨rfl, hrest⟩ := Prod.mk.inj (Option.some.inj h)
    obtain ⟨rfl, rfl⟩ := Prod.mk.inj hrest
    simp only [List.isEmpty_iff, not_or] at hparts
    refine ⟨?_, ⟨?_, hparts.1, ?_, hparts.2, ?_⟩⟩
    · rw [List.append_assoc, List.takeWhile_append_dropWhile, List.takeWhile_append_dropWhile]
    · exact fun c hc => List.mem_takeWhile_imp hc
    · exact fun c hc => List.mem_takeWhile_imp hc
    · intro c hc
      have hhead := List.head?_dropWhile_not Text.isBlank (line.dropWhile Char.isAlpha)
      rw [Option.mem_def.1 hc] at hhead
      exact hhead

theorem isWord_of_mem_commands : ∀ name ∈ Command.all.map Command.name, Token.IsWord name :=
  Token.isWord_of_all (by rfl)

/-! ### In front of the column -/

theorem completeBefore_leader (s : Session α β) (line : List Char) :
    s.completeBefore (s.leader :: line) = s.completeCommand line := if_pos rfl

theorem completeBefore_of_head {before : List Char} (h : before.head? ≠ some s.leader) :
    s.completeBefore before = s.completeIn s.language (String.ofList before) := by
  cases before with
  | nil => rfl
  | cons c line =>
      have hc : c ≠ s.leader := fun hc => h (congrArg some hc)
      exact if_neg hc

theorem completeCommand_of_word (s : Session α β) {line : List Char} (hblank : line.any Text.isBlank = false) :
    s.completeCommand line
      = ⟨s.leader.utf8Size + 1, startingWith line (Command.all.map Command.name)⟩ := by
  rw [completeCommand, hblank]
  rfl

theorem completeCommand_of_argument (s : Session α β) {word gap argument : List Char} (h : SplitsAt word gap argument)
    {language : Language} (hlanguage : (Command.lookup? (String.ofList word)).bind languageOf? = some language) :
    s.completeCommand (word ++ gap ++ argument)
      = { s.completeIn language (String.ofList argument) with
          offset := (s.completeIn language (String.ofList argument)).offset + s.leader.utf8Size + Text.byteLength word
            + Text.byteLength gap } := by
  have hblank : (word ++ gap ++ argument).any Text.isBlank = true := by
    obtain ⟨c, cs, rfl⟩ := List.exists_cons_of_ne_nil h.gap_ne_nil
    simp [h.blanks c List.mem_cons_self]
  rw [completeCommand, hblank, splitArgument?_of_splitsAt h]
  simp only [Bool.not_true, Bool.false_eq_true, if_false, hlanguage]

/-- Both evaluators complete words. In front of a text they offer none but those that start with a letter. -/
structure CompletesIn (s : Session α β) : Prop where
  words : ∀ language, CompletesWords fun cs => s.completeIn language (String.ofList cs)
  letters : ∀ language, ∀ candidate ∈ (s.completeIn language "").candidates,
    ∃ c cs, candidate.toList = c :: cs ∧ Text.isAlphabetic c = true

/-- The names of commands. -/
theorem replaces_command_name (s : Session α β) {line : List Char} (hblank : line.any Text.isBlank = false) :
    Replaces s.completeBefore (s.leader :: line) [s.leader] line := by
  refine ⟨rfl, ?_, ?_⟩
  · simp [completeBefore_leader, completeCommand_of_word s hblank]
  · intro candidate hcandidate
    rw [completeBefore_leader, completeCommand_of_word s hblank, mem_startingWith] at hcandidate
    obtain ⟨hname, hstarts⟩ := hcandidate
    have hword := isWord_of_mem_commands candidate hname
    have hagain := completeCommand_of_word s hword.not_blank
    refine ⟨hstarts, hword, ?_, ?_⟩
    · simp [completeBefore_leader, hagain]
    · rw [List.singleton_append, completeBefore_leader, hagain, mem_startingWith]
      exact ⟨hname, List.prefix_refl _⟩

/-- The argument of a command that names a language, with what stands before it. -/
theorem replaces_argument (h : s.CompletesIn) {word gap argument : List Char} (hsplits : SplitsAt word gap argument)
    {language : Language} (hlanguage : (Command.lookup? (String.ofList word)).bind languageOf? = some language)
    (hcandidates : (s.completeIn language (String.ofList argument)).candidates ≠ []) :
    ∃ kept replaced, Replaces s.completeBefore (s.leader :: (word ++ gap ++ argument)) kept replaced := by
  obtain ⟨kept, replaced, htext, hoffset, htyped⟩ := h.words language argument hcandidates
  refine ⟨s.leader :: (word ++ gap ++ kept), replaced, by simp [htext], ?_, ?_⟩
  · simp only [completeBefore_leader, completeCommand_of_argument s hsplits hlanguage, hoffset, Text.byteLength_cons,
      Text.byteLength_append]
    omega
  · intro candidate hcandidate
    rw [completeBefore_leader, completeCommand_of_argument s hsplits hlanguage] at hcandidate
    obtain ⟨hstarts, hword, hoffset', hmem⟩ := htyped candidate hcandidate
    have hsplits' : SplitsAt word gap (kept ++ candidate.toList) := by
      refine { hsplits with head := ?_ }
      intro c hc
      cases kept with
      | nil =>
        cases hblank : Text.isBlank c with
        | false => rfl
        | true =>
            have hends := Token.continuesWord_of_blank hblank
            rw [hword c (List.mem_of_mem_head? hc)] at hends
            cases hends
      | cons d kept =>
          apply hsplits.head
          rw [htext]
          exact hc
    have hagain := completeCommand_of_argument s hsplits' hlanguage
    refine ⟨hstarts, hword, ?_, ?_⟩
    · simp only [List.cons_append, List.append_assoc] at hagain ⊢
      simp only [completeBefore_leader, hagain, hoffset', Text.byteLength_cons, Text.byteLength_append]
      omega
    · simp only [List.cons_append, List.append_assoc] at hagain ⊢
      simp only [completeBefore_leader, hagain]
      exact hmem

theorem completesWords_completeBefore (h : s.CompletesIn) (hleader : Settings.isWordly s.leader = false) :
    CompletesWords s.completeBefore := by
  intro before hcandidates
  by_cases hhead : before.head? = some s.leader
  · obtain ⟨line, rfl⟩ := List.head?_eq_some_iff.1 hhead
    cases hblank : line.any Text.isBlank with
    | false => exact ⟨_, _, replaces_command_name s hblank⟩
    | true =>
        rw [completeBefore_leader, completeCommand, hblank] at hcandidates
        simp only [Bool.not_true, Bool.false_eq_true, if_false] at hcandidates
        split at hcandidates
        · exact absurd rfl hcandidates
        next word gap argument hsplit =>
          split at hcandidates
          · exact absurd rfl hcandidates
          next language hlanguage =>
            obtain ⟨rfl, hsplits⟩ := splitsAt_of_splitArgument? hsplit
            exact replaces_argument h hsplits hlanguage hcandidates
  · have hactive := completeBefore_of_head hhead
    rw [hactive] at hcandidates
    obtain ⟨kept, word, hreplaces⟩ := h.words s.language before hcandidates
    refine ⟨kept, word, hreplaces.congr hactive ?_⟩
    intro candidate hcandidate htyped
    apply completeBefore_of_head
    cases before with
    | nil =>
        obtain ⟨rfl, rfl⟩ := List.append_eq_nil_iff.1 hreplaces.text_eq.symm
        obtain ⟨c, cs, hc, hletter⟩ := h.letters s.language candidate hcandidate
        rw [List.nil_append, hc, List.head?_cons]
        rintro heq
        rw [← Option.some.inj heq, Settings.isWordly, hletter] at hleader
        simp at hleader
    | cons c rest =>
        -- The first character is still there.
        have hstarts : c :: rest <+: kept ++ candidate.toList := by
          rw [hreplaces.text_eq]
          exact (List.prefix_append_right_inj kept).2 htyped.starts
        obtain ⟨behind, hbehind⟩ := hstarts
        rw [← hbehind]
        exact hhead

/-! ### At a column -/

theorem completeAt_of_candidates {line : String} {col : Nat}
    (h : (s.completeBefore (Text.cutAt col line.toList).1).candidates ≠ []) :
    s.completeAt line col = s.completeBefore (Text.cutAt col line.toList).1 := by
  have hsome : (s.completeBefore (Text.cutAt col line.toList).1).isEmpty = false := by
    simpa [Completion.isEmpty] using h
  rw [completeAt]
  simp only [hsome, Bool.false_eq_true, if_false]

theorem completeAt_of_none {line : String} {col : Nat}
    (h : (s.completeBefore (Text.cutAt col line.toList).1).candidates = []) : s.completeAt line col = .none := by
  have hnone : (s.completeBefore (Text.cutAt col line.toList).1).isEmpty = true := by
    simpa [Completion.isEmpty] using h
  rw [completeAt]
  simp only [hnone, if_true]

/-- A candidate that is typed out in front of what follows is offered again. -/
theorem completeAt_typedOut {kept word : List Char} {candidate : String}
    (h : TypedOut s.completeBefore kept word candidate) (after : List Char) :
    (s.completeAt (String.ofList (kept ++ candidate.toList ++ after))
        (Text.byteLength (kept ++ candidate.toList))).offset = Text.byteLength kept + 1
      ∧ candidate ∈ (s.completeAt (String.ofList (kept ++ candidate.toList ++ after))
        (Text.byteLength (kept ++ candidate.toList))).candidates := by
  have hcut : (Text.cutAt (Text.byteLength (kept ++ candidate.toList))
      (String.ofList (kept ++ candidate.toList ++ after)).toList).1 = kept ++ candidate.toList := by
    rw [String.toList_ofList, Text.cutAt_byteLength_append]
  have hat := s.completeAt_of_candidates (by rw [hcut]; exact List.ne_nil_of_mem h.mem)
  rw [hat, hcut]
  exact ⟨h.offset, h.mem⟩

end Transcript.Session

namespace Transcript

theorem Ex.letters_of_complete_nil (s : Ex) :
    ∀ candidate ∈ (Evaluator.complete s "").candidates,
      ∃ c cs, candidate.toList = c :: cs ∧ Text.isAlphabetic c = true := by
  intro candidate hcandidate
  obtain ⟨verb, -, rfl⟩ := List.mem_map.1 (mem_startingWith.1 hcandidate).1
  cases verb <;> exact ⟨_, _, rfl, rfl⟩

theorem Settings.IsValid.isWordly_leader {settings : Settings} (hvalid : settings.IsValid) :
    isWordly settings.leader = false := by
  rw [Bool.eq_false_iff]
  intro hwordly
  simp only [IsValid, flaw?, hwordly, if_true] at hvalid
  split at hvalid
  · cases hvalid
  · split at hvalid
    · cases hvalid
    · split at hvalid <;> cases hvalid

namespace StandardSession

theorem completesIn {s : StandardSession} (hlua : Evaluator.Reached {} s.lua) (hvim : Evaluator.Reached {} s.vim) :
    Session.CompletesIn s where
  words language := by
    cases language with
    | lua => exact Script.completesWords (Script.namedByWords_of_reached hlua)
    | vim => exact Ex.completesWords (Ex.namedByWords_of_reached hvim)
  letters language := by
    cases language with
    | lua =>
        intro candidate hcandidate
        cases hcandidate
    | vim => exact s.vim.letters_of_complete_nil

/-- **Completing a line.** There are no candidates exactly if the offset is 0. Otherwise the offset is the column
behind a start `kept` of what stands before the cursor, counted from 1. Every candidate goes on the rest `word` of it.
Where a candidate is typed out in the place of `word`, completing at its end gives the same offset and offers it
again. -/
theorem completeAt_replaces {s : StandardSession} {settings : Settings} (hvalid : settings.IsValid)
    (hleader : s.leader = settings.leader) (hlua : Evaluator.Reached {} s.lua) (hvim : Evaluator.Reached {} s.vim)
    (line : String) (col : Nat) :
    ∃ before after, line.toList = before ++ after ∧ Text.IsBefore col line.toList before
      ∧ ((s.completeAt line col).offset = 0 ↔ (s.completeAt line col).candidates = [])
      ∧ ((s.completeAt line col).candidates ≠ [] →
        1 ≤ (s.completeAt line col).offset ∧ (s.completeAt line col).offset ≤ Text.byteLength before + 1
          ∧ ∃ kept word, before = kept ++ word ∧ (s.completeAt line col).offset = Text.byteLength kept + 1
            ∧ ∀ candidate ∈ (s.completeAt line col).candidates, word <+: candidate.toList
              ∧ (s.completeAt (String.ofList (kept ++ candidate.toList ++ after))
                  (Text.byteLength (kept ++ candidate.toList))).offset = (s.completeAt line col).offset
              ∧ candidate ∈ (s.completeAt (String.ofList (kept ++ candidate.toList ++ after))
                  (Text.byteLength (kept ++ candidate.toList))).candidates) := by
  refine ⟨(Text.cutAt col line.toList).1, (Text.cutAt col line.toList).2, (Text.cutAt_append col line.toList).symm,
    Text.isBefore_cutAt col line.toList, ?_⟩
  have hwordly : Settings.isWordly s.leader = false := by
    rw [hleader]
    exact hvalid.isWordly_leader
  have hcompletes := Session.completesWords_completeBefore (completesIn hlua hvim) hwordly
  by_cases hcandidates : (s.completeBefore (Text.cutAt col line.toList).1).candidates = []
  · rw [Session.completeAt_of_none hcandidates]
    exact ⟨⟨fun _ => rfl, fun _ => rfl⟩, fun hsome => absurd rfl hsome⟩
  · obtain ⟨kept, word, htext, hoffset, htyped⟩ := hcompletes _ hcandidates
    rw [Session.completeAt_of_candidates hcandidates, hoffset]
    have hlength := congrArg Text.byteLength htext
    rw [Text.byteLength_append] at hlength
    refine ⟨⟨fun hzero => absurd hzero (Nat.succ_ne_zero _), fun hnone => absurd hnone hcandidates⟩, fun _ =>
      ⟨by omega, by omega, kept, word, htext, rfl, ?_⟩⟩
    intro candidate hcandidate
    have hcandidate' := htyped candidate hcandidate
    obtain ⟨hagain, hmem⟩ := Session.completeAt_typedOut hcandidate' (Text.cutAt col line.toList).2
    exact ⟨hcandidate'.starts, hagain, hmem⟩

/-- A session that has run an assignment. -/
def assigned : StandardSession :=
  { StandardSession.new 1 {} with lua := (Evaluator.eval ["total = 'all'"] ⟨⟨1, 1⟩, false⟩ ({} : Script)).state }

/-- Behind a letter of two bytes, and in front of another, a verb is completed. -/
theorem completeAt_replaces_verb :
    ∃ kept word after, "/vim let ä = 1 | un ä".toList = kept ++ word ++ after ∧ Text.byteLength kept = 18
      ∧ word <+: "unlet".toList
      ∧ (assigned.completeAt (String.ofList (kept ++ "unlet".toList ++ after))
          (Text.byteLength (kept ++ "unlet".toList))).offset = 19
      ∧ "unlet" ∈ (assigned.completeAt (String.ofList (kept ++ "unlet".toList ++ after))
          (Text.byteLength (kept ++ "unlet".toList))).candidates := by
  have hlua : Evaluator.Reached {} assigned.lua := .eval .start ["total = 'all'"] ⟨⟨1, 1⟩, false⟩
  have hvalid : Settings.IsValid {} := by decide +kernel
  have hverb : assigned.completeAt "/vim let ä = 1 | un ä" 20 = ⟨19, ["unlet"]⟩ := by decide +kernel
  obtain ⟨before, after, hline, -, -, hcandidates⟩ :=
    completeAt_replaces hvalid rfl hlua .start "/vim let ä = 1 | un ä" 20
  rw [hverb] at hcandidates
  obtain ⟨-, -, kept, word, rfl, hoffset, htyped⟩ := hcandidates (List.cons_ne_nil _ _)
  obtain ⟨hstarts, hagain, hmem⟩ := htyped "unlet" List.mem_cons_self
  exact ⟨kept, word, after, hline, by simpa using hoffset.symm, hstarts, hagain, hmem⟩

end StandardSession

end Transcript
