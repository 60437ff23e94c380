import Transcript.Proofs.Command.Input
import Transcript.Proofs.Session.Stale

/-!
Programs behind a command. A program is evaluated in the active language, or in the language whose name is called in
front of it. Both hand the evaluator the same lines and leave the active language as it is, so a command with an argument
does what its argument would do by itself if that language were active.
-/
namespace Transcript

variable {α β : Type}

/-- The language and the program that an input is evaluated as, if it is. -/
def Input.evaluated? (active : Language) : Input → Option (Language × List String)
  | .program lines => some (active, lines)
  | .command .lua (some a) => some (.lua, a.toLines)
  | .command .vim (some a) => some (.vim, a.toLines)
  | .command _ _ => none

/-- The command that calls a language. -/
def Command.ofLanguage : Language → Command
  | .lua => .lua
  | .vim => .vim

theorem Command.isRaw_ofLanguage (language : Language) : (ofLanguage language).isRaw = true := by
  cases language <;> rfl

theorem Input.evaluated?_ofLanguage (active language : Language) (a : Argument) :
    evaluated? active (.command (.ofLanguage language) (some a)) = some (language, a.toLines) := by
  cases language <;> rfl

/-- The dispatch with another language active in the session that it leaves. -/
def Dispatch.withLanguage (d : Dispatch α β) (language : Language) : Dispatch α β :=
  { d with session := { d.session with language := language } }

namespace Session

variable [Evaluator α] [Evaluator β] {s : Session α β} {lines : List String}

/-- What is evaluated is evaluated in the same way, be it a program or the argument of a command. -/
theorem dispatch_eq_evaluate (host : Host) {input : Input} {language : Language} {program : List String}
    (hinput : Input.classify s.leader s.marker lines = .ok input)
    (hevaluated : input.evaluated? s.language = some (language, program)) :
    s.dispatch host lines = s.evaluate host language program := by
  rw [dispatch, hinput]
  cases input with
  | program lines =>
      obtain ⟨rfl, rfl⟩ := Prod.mk.inj (Option.some.inj hevaluated)
      rfl
  | command c argument =>
      cases argument with
      | none => cases c <;> cases hevaluated
      | some a =>
          cases c with
          | lua =>
              obtain ⟨rfl, rfl⟩ := Prod.mk.inj (Option.some.inj hevaluated)
              rfl
          | vim =>
              obtain ⟨rfl, rfl⟩ := Prod.mk.inj (Option.some.inj hevaluated)
              rfl
          | _ => cases hevaluated

/-- An evaluation does not depend on the active language, and leaves it as it is. -/
theorem evaluate_withLanguage (s : Session α β) (host : Host) (active language : Language) (program : List String) :
    { s with language := active }.evaluate host language program
      = (s.evaluate host language program).withLanguage active := by
  by_cases hstale : ∃ o, s.IsStale host o
  · have hstale' : ∃ o, { s with language := active }.IsStale host o := hstale
    rw [evaluate_of_stale hstale, evaluate_of_stale hstale']
    rfl
  · have hnone : ¬ s.staleOverrides host ≠ [] := mt staleOverrides_ne_nil_iff.1 hstale
    have hnone' : ¬ { s with language := active }.staleOverrides host ≠ [] := hnone
    unfold evaluate
    simp only [if_neg hnone, if_neg hnone']
    cases language <;> rfl

/-- **One-shot evaluation.** A statement behind a command that names a language does what the statement does by itself
with that language active: it has the same output, is followed by the same, and leaves the same host, the same
variables and the same overrides. The language that was active stays active. -/
theorem dispatch_oneShot (s : Session α β) (host : Host) (language : Language) {typed head : String}
    {rest : List String} (htyped : (Command.ofLanguage language).IsCalledBy typed)
    (hnewline : '\n' ∉ head.toList) (hstart : ∀ c ∈ head.toList.head?, Text.isBlank c = false)
    (hend : ∀ c ∈ head.toList.getLast?, Text.isBlank c = false) (hleader : head.toList.head? ≠ some s.leader)
    (hblank : ∃ text ∈ head :: rest.map (stripMarker s.marker), Text.isBlankText text = false) :
    s.dispatch host (String.ofList (s.leader :: (typed.toList ++ ' ' :: head.toList)) :: rest)
      = ({ s with language := language }.dispatch host (head :: rest)).withLanguage s.language := by
  have hcalls : Input.Calls s.leader (String.ofList (s.leader :: (typed.toList ++ ' ' :: head.toList)))
      typed.toList [' '] head.toList := {
    line_eq := by simp
    letters := htyped.letters
    blanks := List.forall_mem_singleton.2 (by decide)
    head_not_blank := hstart
    head_not_letter := by simp }
  have hcommand := hcalls.classify_eq hnewline s.marker rest
  rw [String.ofList_toList, String.ofList_toList, Command.lookup?_eq_some_iff.2 htyped] at hcommand
  simp only [Input.argument?_of_raw (Command.isRaw_ofLanguage language) hend hblank] at hcommand
  have hprogram := Input.classify_program hleader s.marker rest
  rw [dispatch_eq_evaluate host hcommand (Input.evaluated?_ofLanguage s.language language _),
    dispatch_eq_evaluate (s := { s with language := language }) host hprogram rfl]
  exact { s with language := language }.evaluate_withLanguage host s.language language _

/-- A sum that goes on on a second line, evaluated in the language that is not active. -/
theorem dispatch_oneShot_over_two_lines :
    (Command.ofLanguage .vim).IsCalledBy "vi"
      ∧ ((StandardSession.new 1 {}).dispatch Host.new ["/vi let n = 5 | echo n", "\\+ 2"]).output = Sink.of .output "7"
      ∧ (StandardSession.new 1 {}).dispatch Host.new ["/vi let n = 5 | echo n", "\\+ 2"]
        = ({ StandardSession.new 1 {} with language := .vim }.dispatch Host.new
            ["let n = 5 | echo n", "\\+ 2"]).withLanguage .lua := by
  have htyped : (Command.ofLanguage .vim).IsCalledBy "vi" := ⟨by decide, by decide⟩
  refine ⟨htyped, by decide +kernel, ?_⟩
  exact @dispatch_oneShot Script Ex _ _ (StandardSession.new 1 {}) Host.new .vim "vi" "let n = 5 | echo n" ["\\+ 2"]
    htyped (by decide) (by rintro c ⟨⟩; decide) (by rintro c ⟨⟩; decide) (by decide)
    ⟨_, List.mem_cons_self, by decide⟩

end Session

end Transcript
