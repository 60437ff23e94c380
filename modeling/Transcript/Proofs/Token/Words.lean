import Transcript.Token.Scan

/-!
Words of a text. All characters of a word are those a word may go on with, and white space, bars and the other signs
that end a word are none of them. Scanning finds no other words.
-/
namespace Transcript

namespace Text

/-- The white space characters as code points. -/
def blankPoints : List Nat :=
  [9, 10, 11, 12, 13, 32, 133, 160, 5760] ++ List.range' 8192 11 ++ [8232, 8233, 8239, 8287, 12288]

theorem mem_blankPoints {c : Char} (h : isBlank c = true) : c.toNat ∈ blankPoints := by
  unfold isBlank at h
  simp only [blankPoints, List.mem_append, List.mem_cons, List.not_mem_nil, or_false, List.mem_range'_1]
  split at h
  · rcases Bool.or_eq_true_iff.1 h with hspace | hrange
    · obtain rfl := eq_of_beq hspace
      decide
    · simp only [Bool.and_eq_true, decide_eq_true_eq] at hrange
      omega
  · obtain ⟨range, hrange, hle, hge⟩ := CharRanges.exists_of_contains h
    simp only [blankRanges, List.mem_cons, List.not_mem_nil, or_false] at hrange
    rcases hrange with rfl | rfl | rfl | rfl | rfl | rfl | rfl | rfl <;> simp only at hle hge <;> omega

/-- What holds of the white space characters one by one holds of white space. -/
theorem of_isBlank {p : Char → Bool} (hall : blankPoints.all (fun n => p (Char.ofNat n)) = true) {c : Char}
    (h : isBlank c = true) : p c = true := by
  have hpoint := List.all_eq_true.1 hall c.toNat (mem_blankPoints h)
  rwa [Char.ofNat_toNat] at hpoint

theorem not_isAlpha_of_blank {c : Char} (h : isBlank c = true) : c.isAlpha = false := by
  have hno := of_isBlank (p := fun c => !c.isAlpha) (by decide +kernel) h
  simpa using hno

end Text

namespace Token

/-- All characters can be part of a word. -/
def AllWordly (cs : List Char) : Prop := ∀ c ∈ cs, continuesWord c = true

/-- A name that a word may be. -/
def IsWord (name : String) : Prop := AllWordly name.toList

theorem isWord_of_all {names : List String} (h : names.all (fun name => name.toList.all continuesWord) = true) :
    ∀ name ∈ names, IsWord name :=
  fun name hname => List.all_eq_true.1 (List.all_eq_true.1 h name hname)

theorem continuesWord_of_startsWord {c : Char} (h : startsWord c = true) : continuesWord c = true := by
  rcases Bool.or_eq_true_iff.1 h with hletter | hlow
  · simp [continuesWord, hletter]
  · simp [continuesWord, hlow]

theorem continuesWord_of_blank {c : Char} (h : Text.isBlank c = true) : continuesWord c = false := by
  have hends := Text.of_isBlank (p := fun c => !continuesWord c) (by decide +kernel) h
  simpa using hends

theorem AllWordly.not_blank {cs : List Char} (h : AllWordly cs) : cs.any Text.isBlank = false := by
  rw [List.any_eq_false]
  intro c hc hblank
  have hends := continuesWord_of_blank hblank
  rw [h c hc] at hends
  cases hends

theorem AllWordly.not_bar {cs : List Char} (h : AllWordly cs) : '|' ∉ cs := by
  intro hbar
  have hends : continuesWord '|' = false := by decide +kernel
  rw [h '|' hbar] at hends
  cases hends

/-- Every word among the lexemes is one. -/
def WordsAmong (lexemes : List Lexeme) : Prop := ∀ w, .word w ∈ lexemes → IsWord w

theorem isWord_of_takeLexeme {c : Char} {cs rest : List Char} {w : String}
    (h : takeLexeme c cs = .ok (.word w, rest)) : IsWord w := by
  simp only [takeLexeme] at h
  split at h
  · split at h <;> cases h
  · split at h
    · split at h <;> cases h
    · split at h
      next hstarts =>
        cases h
        rw [IsWord, String.toList_ofList]
        intro x hx
        rcases List.mem_cons.1 hx with rfl | hx
        · exact continuesWord_of_startsWord hstarts
        · exact List.all_eq_true.1 List.all_takeWhile x hx
      · split at h <;> cases h

theorem wordsAmong_scanFrom {line : Nat} {cs : List Char} {tokens : List Token} (h : scanFrom line cs = .ok tokens) :
    WordsAmong (tokens.map Token.lexeme) := by
  fun_induction scanFrom line cs generalizing tokens with
  | case1 =>
      cases h
      intro w hw
      cases hw
  | case2 line cs ih => exact ih h
  | case3 line c cs hline hblank ih => exact ih h
  | case4 line c cs hline hblank hcomment ih => exact ih h
  | case5 => cases h
  | case6 => cases h
  | case7 line c cs hline hblank hcomment lexeme rest hlexeme _ tokens' hrest ih =>
      cases h
      intro w hw
      rcases List.mem_cons.1 hw with hfirst | hrest'
      · simp only at hfirst
        rw [← hfirst] at hlexeme
        exact isWord_of_takeLexeme hlexeme
      · exact ih hrest w hrest'

theorem wordsAmong_scan {source : String} {tokens : List Token} (h : scan source = .ok tokens) :
    WordsAmong (tokens.map Token.lexeme) := wordsAmong_scanFrom h

end Token

end Transcript
