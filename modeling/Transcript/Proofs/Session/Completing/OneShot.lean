import Transcript.Proofs.Session.Completing
import Transcript.Proofs.Session.OneShot

/-!
Completing behind a command that names a language. The evaluator of that language is handed what stands behind the
command and the white space after it, which is just what it is handed for a line of its own. So the candidates are the
same, and the column where they go is moved by what stands in front.
-/
namespace Transcript

namespace Session

theorem languageOf?_ofLanguage (language : Language) : languageOf? (Command.ofLanguage language) = some language := by
  cases language <;> rfl

variable {α β : Type} [Evaluator α] [Evaluator β]

/-- At the end of a line the whole line is completed. -/
theorem completeAt_end (s : Session α β) (line : List Char) :
    s.completeAt (String.ofList line) (Text.byteLength line)
      = if (s.completeBefore line).candidates = [] then .none else s.completeBefore line := by
  have hcut : (Text.cutAt (Text.byteLength line) (String.ofList line).toList).1 = line := by
    rw [String.toList_ofList, Text.cutAt_byteLength]
  split
  next hnone => exact completeAt_of_none (by rwa [hcut])
  next hsome => rw [completeAt_of_candidates (by rwa [hcut]), hcut]

/-- Behind the command, the evaluator completes; its columns count what stands in front. -/
theorem completeBefore_oneShot (s : Session α β) (language : Language) {typed : String} {gap text : List Char}
    (htyped : (Command.ofLanguage language).IsCalledBy typed) (hgap : gap ≠ [])
    (hblank : ∀ c ∈ gap, Text.isBlank c = true) (hstart : ∀ c ∈ text.head?, Text.isBlank c = false) :
    s.completeBefore (s.leader :: (typed.toList ++ gap) ++ text)
      = { s.completeIn language (String.ofList text) with
          offset := (s.completeIn language (String.ofList text)).offset
            + Text.byteLength (s.leader :: (typed.toList ++ gap)) } := by
  have hsplits : SplitsAt typed.toList gap text :=
    ⟨htyped.letters, mt String.toList_eq_nil_iff.1 htyped.1, hblank, hgap, hstart⟩
  have hlanguage : (Command.lookup? (String.ofList typed.toList)).bind languageOf? = some language := by
    rw [String.ofList_toList, Command.lookup?_eq_some_iff.2 htyped]
    exact languageOf?_ofLanguage language
  rw [List.cons_append, completeBefore_leader, completeCommand_of_argument s hsplits hlanguage]
  simp only [Text.byteLength_cons, Text.byteLength_append, Nat.add_assoc]

/-- **Completing behind a command.** Behind the leader, a word that calls a language and white space, a text has the
candidates that it has by itself with that language active. If there are any, they go as many bytes further to the right
as stand in front of the text. -/
theorem completeAt_oneShot (s : Session α β) (language : Language) {typed : String} {gap text : List Char}
    (htyped : (Command.ofLanguage language).IsCalledBy typed) (hgap : gap ≠ [])
    (hblank : ∀ c ∈ gap, Text.isBlank c = true) (hstart : ∀ c ∈ text.head?, Text.isBlank c = false)
    (hleader : text.head? ≠ some s.leader) :
    let front := s.leader :: (typed.toList ++ gap)
    let behind := s.completeAt (String.ofList (front ++ text)) (Text.byteLength (front ++ text))
    let alone := { s with language := language }.completeAt (String.ofList text) (Text.byteLength text)
    behind.candidates = alone.candidates
      ∧ (alone.candidates ≠ [] → behind.offset = alone.offset + Text.byteLength front) := by
  intro front behind alone
  have hbefore : s.completeBefore (front ++ text) = _ := s.completeBefore_oneShot language htyped hgap hblank hstart
  have halone : { s with language := language }.completeBefore text = s.completeIn language (String.ofList text) :=
    completeBefore_of_head hleader
  have hbehind' : behind = _ := s.completeAt_end (front ++ text)
  have halone' : alone = _ := { s with language := language }.completeAt_end text
  rw [hbefore] at hbehind'
  rw [halone] at halone'
  rw [hbehind', halone']
  split
  next hnone => exact ⟨rfl, fun hsome => absurd rfl hsome⟩
  next hsome => exact ⟨rfl, fun _ => rfl⟩

/-- Behind a leader of two bytes, and behind a bar, a verb is completed. -/
theorem completeAt_oneShot_behind_bar :
    let s := StandardSession.new 1 { leader := '§' }
    Settings.IsValid { leader := '§' } ∧ (Command.ofLanguage .vim).IsCalledBy "vi"
      ∧ { s with language := .vim }.completeAt "echo 'ä'|unl" 13 = ⟨11, ["unlet"]⟩
      ∧ (s.completeAt "§vi  echo 'ä'|unl" 19).candidates = ["unlet"]
      ∧ (s.completeAt "§vi  echo 'ä'|unl" 19).offset = 17 := by
  intro s
  have htyped : (Command.ofLanguage .vim).IsCalledBy "vi" := ⟨by decide, by decide⟩
  have halone : { s with language := .vim }.completeAt "echo 'ä'|unl" 13 = ⟨11, ["unlet"]⟩ := by decide +kernel
  have hline : String.ofList (s.leader :: ("vi".toList ++ [' ', ' ']) ++ "echo 'ä'|unl".toList)
      = "§vi  echo 'ä'|unl" := by decide
  have hfront : Text.byteLength (s.leader :: ("vi".toList ++ [' ', ' '])) = 6 := by decide
  have htext : Text.byteLength "echo 'ä'|unl".toList = 13 := by decide
  have hshot := @completeAt_oneShot Script Ex _ _ s .vim "vi" [' ', ' '] "echo 'ä'|unl".toList htyped (by decide)
    (List.forall_mem_cons.2 ⟨by decide, List.forall_mem_singleton.2 (by decide)⟩) (by rintro c ⟨⟩; decide) (by decide)
  simp only [hline, Text.byteLength_append, hfront, htext, String.ofList_toList, halone] at hshot
  exact ⟨by decide +kernel, htyped, halone, hshot.1, hshot.2 (List.cons_ne_nil _ _)⟩

end Session

end Transcript
