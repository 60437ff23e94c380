import Mathlib.Data.List.DropRight
import Transcript.Proofs.Naming

/-!
What evaluators complete. A completion replaces the end of a text, and its offset is where that end starts. Each
candidate is a word that goes on what it replaces, and where it is typed out in its place, it is offered there again.
-/
namespace Transcript

/-! ### Lists of names -/

private theorem mem_eraseReps_loop {x a : String} {as acc : List String} :
    x ∈ List.eraseRepsBy.loop (· == ·) a as acc ↔ x = a ∨ x ∈ as ∨ x ∈ acc := by
  induction as generalizing a acc with
  | nil => simp [List.eraseRepsBy.loop, or_comm]
  | cons b as ih =>
      rw [List.eraseRepsBy.loop]
      cases hsame : a == b with
      | true =>
          obtain rfl := eq_of_beq hsame
          rw [ih, List.mem_cons]
          grind
      | false =>
          simp only
          rw [ih, List.mem_cons, List.mem_cons]
          grind

theorem mem_inOrder {name : String} {names : List String} : name ∈ inOrder names ↔ name ∈ names := by
  have hreps : ∀ sorted : List String, name ∈ sorted.eraseReps ↔ name ∈ sorted := by
    intro sorted
    cases sorted with
    | nil => rfl
    | cons a as =>
        rw [List.eraseReps, List.eraseRepsBy, mem_eraseReps_loop, List.mem_cons]
        simp
  rw [inOrder, hreps, List.mem_mergeSort]

theorem mem_startingWith {start : List Char} {name : String} {names : List String} :
    name ∈ startingWith start names ↔ name ∈ names ∧ start <+: name.toList := by
  rw [startingWith, List.mem_filter, List.isPrefixOf_iff_prefix]

/-! ### The word that ends a text -/

theorem lastWord_append (cs : List Char) : (lastWord cs).1 ++ (lastWord cs).2 = cs := by
  calc (lastWord cs).1 ++ (lastWord cs).2
      = (cs.reverse.takeWhile Token.continuesWord ++ cs.reverse.dropWhile Token.continuesWord).reverse := by
        rw [List.reverse_append]
        rfl
    _ = cs := by rw [List.takeWhile_append_dropWhile, List.reverse_reverse]

theorem allWordly_lastWord (cs : List Char) : Token.AllWordly (lastWord cs).2 := by
  intro c hc
  exact List.mem_takeWhile_imp (List.mem_reverse.1 hc)

/-- Another word in its place ends the text instead. -/
theorem lastWord_replaced (cs : List Char) {word : List Char} (hword : Token.AllWordly word) :
    lastWord ((lastWord cs).1 ++ word) = ((lastWord cs).1, word) := by
  have hall : ∀ c ∈ word.reverse, Token.continuesWord c = true := fun c hc => hword c (List.mem_reverse.1 hc)
  have hbefore := List.dropWhile_idempotent Token.continuesWord cs.reverse
  have hnone : (cs.reverse.dropWhile Token.continuesWord).takeWhile Token.continuesWord = [] := by
    have hsplit := List.takeWhile_append_dropWhile (p := Token.continuesWord)
      (l := cs.reverse.dropWhile Token.continuesWord)
    rw [hbefore] at hsplit
    exact List.append_left_eq_self.1 hsplit
  simp only [lastWord, List.reverse_append, List.reverse_reverse, List.takeWhile_append_of_pos hall,
    List.dropWhile_append_of_pos hall, hbefore, hnone, List.append_nil]

/-! ### What completing a word gives -/

/-- The candidate is a word that goes on `word`. Typed out behind `kept`, it is offered again at the same place. -/
structure TypedOut (f : List Char → Completion) (kept word : List Char) (candidate : String) : Prop where
  starts : word <+: candidate.toList
  isWord : Token.IsWord candidate
  offset : (f (kept ++ candidate.toList)).offset = Text.byteLength kept + 1
  mem : candidate ∈ (f (kept ++ candidate.toList)).candidates

/-- The candidates replace the end `word` of the text. -/
structure Replaces (f : List Char → Completion) (text kept word : List Char) : Prop where
  text_eq : text = kept ++ word
  offset : (f text).offset = Text.byteLength kept + 1
  typedOut : ∀ candidate ∈ (f text).candidates, TypedOut f kept word candidate

/-- Wherever there are candidates, they replace the end of the text. -/
def CompletesWords (f : List Char → Completion) : Prop :=
  ∀ text, (f text).candidates ≠ [] → ∃ kept word, Replaces f text kept word

/-- It only matters what is completed at the text and where its candidates are typed out. -/
theorem Replaces.congr {f f' : List Char → Completion} {text kept word : List Char} (h : Replaces f text kept word)
    (hsame : f' text = f text)
    (htyped : ∀ candidate ∈ (f text).candidates, TypedOut f kept word candidate →
      f' (kept ++ candidate.toList) = f (kept ++ candidate.toList)) : Replaces f' text kept word := by
  refine ⟨h.text_eq, by rw [hsame, h.offset], ?_⟩
  intro candidate hcandidate
  rw [hsame] at hcandidate
  have hold := h.typedOut candidate hcandidate
  have hsame' := htyped candidate hcandidate hold
  exact ⟨hold.starts, hold.isWord, by rw [hsame', hold.offset], by rw [hsame']; exact hold.mem⟩

section CompleteWord

variable {names : List String}

theorem completeWord_of_word {cs : List Char} (hword : (lastWord cs).2 ≠ []) (names : List String) :
    completeWord (String.ofList cs) names
      = ⟨Text.byteLength (lastWord cs).1 + 1, inOrder (startingWith (lastWord cs).2 names)⟩ := by
  rw [completeWord, String.toList_ofList]
  simp only [List.isEmpty_iff, if_neg hword]

theorem lastWord_ne_nil {cs : List Char} (hcandidates : (completeWord (String.ofList cs) names).candidates ≠ []) :
    (lastWord cs).2 ≠ [] := by
  intro hnone
  apply hcandidates
  rw [completeWord, String.toList_ofList]
  simp only [hnone, List.isEmpty_nil, if_true]
  rfl

/-- Completing a word by words replaces it. -/
theorem replaces_completeWord (hnames : ∀ name ∈ names, Token.IsWord name) {cs : List Char}
    (hcandidates : (completeWord (String.ofList cs) names).candidates ≠ []) :
    Replaces (fun cs => completeWord (String.ofList cs) names) cs (lastWord cs).1 (lastWord cs).2 := by
  have hword := lastWord_ne_nil hcandidates
  have hcompletes := completeWord_of_word hword names
  refine ⟨(lastWord_append cs).symm, by rw [hcompletes], ?_⟩
  intro candidate hcandidate
  simp only [hcompletes, mem_inOrder, mem_startingWith] at hcandidate
  obtain ⟨hname, hstarts⟩ := hcandidate
  have hisWord := hnames candidate hname
  have hreplaced := lastWord_replaced cs hisWord
  have hne : (lastWord ((lastWord cs).1 ++ candidate.toList)).2 ≠ [] := by
    rw [hreplaced]
    intro hnone
    exact hword (List.prefix_nil.1 (hnone ▸ hstarts))
  have hagain := completeWord_of_word hne names
  rw [hreplaced] at hagain
  refine ⟨hstarts, hisWord, by rw [hagain], ?_⟩
  simp only [hagain, mem_inOrder, mem_startingWith]
  exact ⟨hname, List.prefix_refl _⟩

end CompleteWord

/-! ### The evaluators -/

theorem Script.completesWords {s : Script} (h : s.vars.NamedByWords) :
    CompletesWords fun cs => Evaluator.complete s (String.ofList cs) := by
  have hnames : ∀ name ∈ s.completedNames, Token.IsWord name := by
    have hothers : ∀ name ∈ builtinNames ++ (["print"] ++ completedKeywords), Token.IsWord name :=
      Token.isWord_of_all (by rfl)
    intro name hname
    rw [completedNames, List.append_assoc, List.append_assoc] at hname
    exact (List.mem_append.1 hname).elim (h name) (hothers name)
  exact fun cs hcandidates => ⟨_, _, replaces_completeWord hnames hcandidates⟩

namespace Ex

/-! #### The command that a text ends in -/

theorem lastCommand_suffix (cs : List Char) : lastCommand cs <:+ cs := by
  have htaken := List.takeWhile_prefix (fun c => decide (c ≠ '|')) (l := cs.reverse)
  have hbehind : (cs.reverse.takeWhile (· ≠ '|')).reverse <:+ cs := by
    rw [← List.reverse_prefix, List.reverse_reverse]
    exact htaken
  exact (List.dropWhile_suffix _).trans hbehind

theorem not_bar_of_mem_lastCommand (cs : List Char) : '|' ∉ lastCommand cs := by
  intro hbar
  have hmem := (List.dropWhile_suffix isLeading).subset hbar
  simpa using List.mem_takeWhile_imp (List.mem_reverse.1 hmem)

/-- What is put behind a text goes on its last command. -/
theorem lastCommand_append (cs : List Char) {behind : List Char} (hbar : '|' ∉ behind) :
    lastCommand (cs ++ behind) = if lastCommand cs = [] then command behind else lastCommand cs ++ behind := by
  have hall : ∀ c ∈ behind.reverse, (fun c => decide (c ≠ '|')) c = true := by
    intro c hc
    rw [decide_eq_true_eq]
    rintro rfl
    exact hbar (List.mem_reverse.1 hc)
  rw [lastCommand, lastCommand, List.reverse_append, List.takeWhile_append_of_pos hall, List.reverse_append,
    List.reverse_reverse, command, command, command, List.dropWhile_append]
  simp only [List.isEmpty_iff]

/-- Another word behind an argument is part of it. -/
theorem any_isBlank_lastCommand {kept word word' : List Char} (hword : Token.AllWordly word)
    (hword' : Token.AllWordly word') (hblank : (lastCommand (kept ++ word)).any Text.isBlank = true) :
    (lastCommand (kept ++ word')).any Text.isBlank = true := by
  rw [lastCommand_append kept hword.not_bar] at hblank
  rw [lastCommand_append kept hword'.not_bar]
  split at hblank
  · -- A command that is a word has no white space.
    have hnone : Token.AllWordly (command word) := fun c hc => hword c ((List.dropWhile_suffix _).subset hc)
    rw [hnone.not_blank] at hblank
    cases hblank
  next hbefore =>
    rw [List.any_append, hword.not_blank, Bool.or_false] at hblank
    rw [if_neg hbefore, List.any_append, hblank, Bool.true_or]

/-- In front of its last command a text is at the start of a command. -/
theorem exists_lastCommand (cs : List Char) : ∃ kept, cs = kept ++ lastCommand cs ∧ lastCommand kept = [] := by
  obtain ⟨kept, hkept⟩ := lastCommand_suffix cs
  refine ⟨kept, hkept.symm, ?_⟩
  have hlast := lastCommand_append kept (not_bar_of_mem_lastCommand cs)
  rw [hkept] at hlast
  split at hlast
  · assumption
  · exact List.self_eq_append_left.1 hlast

theorem isWord_of_mem_verbs : ∀ name ∈ Verb.all.map Verb.name, Token.IsWord name := Token.isWord_of_all (by rfl)

/-- Nothing of a verb may stand before it. -/
theorem command_verb {name : String} (h : name ∈ Verb.all.map Verb.name) : command name.toList = name.toList := by
  obtain ⟨verb, -, rfl⟩ := List.mem_map.1 h
  cases verb <;> rfl

/-! #### Verbs and arguments -/

theorem complete_verb (s : Ex) {cs : List Char} (hblank : ¬ (lastCommand cs).any Text.isBlank = true) :
    Evaluator.complete s (String.ofList cs)
      = ⟨Text.byteLength cs - Text.byteLength (lastCommand cs) + 1,
          startingWith (lastCommand cs) (Verb.all.map Verb.name)⟩ := by
  show complete s (String.ofList cs) = _
  simp only [complete, String.toList_ofList, if_neg hblank]

theorem complete_argument (s : Ex) {cs : List Char} (hblank : (lastCommand cs).any Text.isBlank = true) :
    Evaluator.complete s (String.ofList cs)
      = completeWord (String.ofList cs) (s.vars.names ++ builtinNames ++ ["string"]) := by
  show complete s (String.ofList cs) = _
  simp only [complete, String.toList_ofList, if_pos hblank]

theorem replaces_verb (s : Ex) {cs : List Char} (hblank : ¬ (lastCommand cs).any Text.isBlank = true) :
    ∃ kept word, Replaces (fun cs => Evaluator.complete s (String.ofList cs)) cs kept word := by
  obtain ⟨kept, hcs, hkept⟩ := exists_lastCommand cs
  have hlength := congrArg Text.byteLength hcs
  rw [Text.byteLength_append] at hlength
  refine ⟨kept, lastCommand cs, hcs, ?_, ?_⟩
  · simp only [complete_verb s hblank]
    omega
  · intro candidate hcandidate
    simp only [complete_verb s hblank, mem_startingWith] at hcandidate
    obtain ⟨hverb, hstarts⟩ := hcandidate
    have hword := isWord_of_mem_verbs candidate hverb
    have hlast : lastCommand (kept ++ candidate.toList) = candidate.toList := by
      rw [lastCommand_append kept hword.not_bar, if_pos hkept, command_verb hverb]
    have hblank' : ¬ (lastCommand (kept ++ candidate.toList)).any Text.isBlank = true := by
      rw [hlast, hword.not_blank]
      simp
    refine ⟨hstarts, hword, ?_, ?_⟩
    · simp only [complete_verb s hblank', hlast, Text.byteLength_append]
      omega
    · simp only [complete_verb s hblank', hlast, mem_startingWith]
      exact ⟨hverb, List.prefix_refl _⟩

theorem completesWords {s : Ex} (h : s.vars.NamedByWords) :
    CompletesWords fun cs => Evaluator.complete s (String.ofList cs) := by
  have hnames : ∀ name ∈ s.vars.names ++ builtinNames ++ ["string"], Token.IsWord name := by
    have hothers : ∀ name ∈ builtinNames ++ ["string"], Token.IsWord name := Token.isWord_of_all (by rfl)
    intro name hname
    rw [List.append_assoc] at hname
    exact (List.mem_append.1 hname).elim (h name) (hothers name)
  intro cs hcandidates
  by_cases hblank : (lastCommand cs).any Text.isBlank = true
  · have hargument := complete_argument s hblank
    simp only [hargument] at hcandidates
    refine ⟨_, _, (replaces_completeWord hnames hcandidates).congr hargument ?_⟩
    intro candidate _ htyped
    rw [← lastWord_append cs] at hblank
    exact complete_argument s (any_isBlank_lastCommand (allWordly_lastWord cs) htyped.isWord hblank)
  · exact replaces_verb s hblank

end Ex

end Transcript
