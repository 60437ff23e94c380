import Transcript.Proofs.Ex.Bars

/-!
Lines that start with a comment. The line is cut at its bars before the comment is seen, and the quote that opens the
comment is taken to open a text. So the comment goes up to the first bar that stands outside quotes told apart in this
way, and what is behind that bar is run; a comment whose bars all stand between its quotes is all there is.
-/
namespace Transcript.Ex

open Token

/-- The bar behind `covered` is the first one outside quotes. -/
structure FirstBar (quote : Option Char) (cs covered rest : List Char) : Prop where
  eq : cs = covered ++ '|' :: rest
  covers : CoversBars quote covered
  outside : quoteBehind quote covered = none

/-- The bars of a text stand between its quotes, or one of them is the first that does not. -/
theorem coversBars_or_exists_firstBar (quote : Option Char) (cs : List Char) :
    CoversBars quote cs ∨ ∃ covered rest, FirstBar quote cs covered rest := by
  induction cs generalizing quote with
  | nil => exact Or.inl fun i hi => absurd hi (Nat.not_lt_zero i)
  | cons c cs ih =>
      by_cases hbar : c = '|' → quote ≠ none
      · rcases ih (quoteStep quote c) with hcovers | ⟨covered, rest, rfl, hcovered, houtside⟩
        · exact Or.inl (coversBars_cons.2 ⟨hbar, hcovers⟩)
        · exact Or.inr ⟨c :: covered, rest, rfl, coversBars_cons.2 ⟨hbar, hcovered⟩, houtside⟩
      · obtain ⟨rfl, hquote⟩ := Classical.not_imp.1 hbar
        exact Or.inr ⟨[], cs, rfl, fun i hi => absurd hi (Nat.not_lt_zero i), Classical.not_not.1 hquote⟩

/-- A text whose bars stand between its quotes is not cut. -/
theorem splitBars_of_coversBars {quote : Option Char} {cs : List Char} (h : CoversBars quote cs) :
    splitBars quote cs = [cs] := by
  have hcut := splitBars_append h []
  rw [List.append_nil] at hcut
  rw [hcut, splitBars, List.modifyHead_cons, List.append_nil]

/-- A text is cut at its first bar outside quotes, and what is behind it is cut as a line of its own. -/
theorem FirstBar.splitBars_eq {quote : Option Char} {cs covered rest : List Char}
    (h : FirstBar quote cs covered rest) : splitBars quote cs = covered :: splitBars none rest := by
  have hbar : splitBars none ('|' :: rest) = [] :: splitBars none rest := by
    rw [splitBars]
    rfl
  rw [h.eq, splitBars_append h.covers, h.outside, hbar, List.modifyHead_cons, List.append_nil]

variable {lead text : List Char}

/-- The quote that opens a comment is taken to open a text. -/
theorem splitBars_comment (hlead : ∀ c ∈ lead, isLeading c = true) (text : List Char) :
    splitBars none (lead ++ '"' :: text) = (splitBars (some '"') text).modifyHead (lead ++ '"' :: ·) := by
  obtain ⟨hcovers, hcloses⟩ := closesQuotes_of_leading hlead
  have hquote : isQuote '"' := Or.inl rfl
  rw [splitBars_append hcovers, hcloses, splitBars_cons (fun hbar => absurd hbar (by decide)), quoteStep, if_pos hquote,
    List.modifyHead_modifyHead]
  rfl

/-- A comment does nothing. -/
theorem execute_comment (place : Place) (hlead : ∀ c ∈ lead, isLeading c = true) (text : List Char) :
    execute place (lead ++ '"' :: text) = pure () := by
  have hcommand : command (lead ++ '"' :: text) = '"' :: text := by
    rw [command, List.dropWhile_append_of_pos hlead]
    rfl
  rw [execute, hcommand]
  rfl

/-- A comment in front of other commands leaves these to be executed. -/
theorem executeAll_comment (place : Place) (hlead : ∀ c ∈ lead, isLeading c = true) (text : List Char)
    (commands : List (List Char)) :
    executeAll place ((lead ++ '"' :: text) :: commands) = executeAll place commands := by
  rw [executeAll, execute_comment place hlead]
  rfl

/-- **A comment goes up to the first bar outside its quotes.** What is behind that bar is run as a line of its own; if
there is no such bar, nothing is done. -/
theorem evaluate_comment {program : List String} (hline : (String.join program).toList = lead ++ '"' :: text)
    (hlead : ∀ c ∈ lead, isLeading c = true) (view : View) (s : Ex) :
    CoversBars (some '"') text ∧ evaluate program view s = { outcome := .done, output := .empty, state := s }
      ∨ ∃ covered rest, FirstBar (some '"') text covered rest
          ∧ evaluate program view s = evaluate [String.ofList rest] view s := by
  rcases coversBars_or_exists_firstBar (some '"') text with hcovers | ⟨covered, rest, hbar⟩
  · refine Or.inl ⟨hcovers, ?_⟩
    rw [evaluate, hline, splitBars_comment hlead, splitBars_of_coversBars hcovers, List.modifyHead_cons,
      executeAll_comment view.place hlead]
    rfl
  · refine Or.inr ⟨covered, rest, hbar, ?_⟩
    have hrest : (String.join [String.ofList rest]).toList = rest := by simp
    rw [evaluate, evaluate, hline, hrest, splitBars_comment hlead, hbar.splitBars_eq, List.modifyHead_cons,
      executeAll_comment view.place hlead]

/-- A comment with one quote in it: the bar behind that quote ends it, and the command behind the bar is run. -/
theorem evaluate_comment_up_to_bar :
    (String.join ["\t:\" see \"x", "|echo 1"]).toList = "\t:".toList ++ '"' :: " see \"x|echo 1".toList
      ∧ (∀ c ∈ "\t:".toList, isLeading c = true)
      ∧ (∃ covered rest, FirstBar (some '"') " see \"x|echo 1".toList covered rest
          ∧ evaluate ["\t:\" see \"x", "|echo 1"] ⟨{}, false⟩ {} = evaluate [String.ofList rest] ⟨{}, false⟩ {})
      ∧ (evaluate ["\t:\" see \"x", "|echo 1"] ⟨{}, false⟩ {}).output = .of .output "1" := by
  have hline : (String.join ["\t:\" see \"x", "|echo 1"]).toList = "\t:".toList ++ '"' :: " see \"x|echo 1".toList := by
    decide +kernel
  have hlead : ∀ c ∈ "\t:".toList, isLeading c = true := List.all_eq_true.1 rfl
  have hopen : ¬ CoversBars (some '"') " see \"x|echo 1".toList := fun hcovers => hcovers 7 (by decide) rfl rfl
  refine ⟨hline, hlead, ?_, by decide +kernel⟩
  exact (evaluate_comment hline hlead ⟨{}, false⟩ {}).resolve_left fun h => hopen h.1

end Transcript.Ex
