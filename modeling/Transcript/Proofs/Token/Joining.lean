import Transcript.Token.Scan

/-!
Scanning joined texts. A line feed ends every lexeme and every comment before it, so a text that can be scanned is
scanned in the same way in front of a line feed, and what is behind the line feed is scanned by itself. Which line
scanning starts on is only kept in the tokens.
-/
namespace Transcript.Token

/-! ### In front of a line feed -/

theorem takeNumeral_append_newline (cs rest : List Char) :
    takeNumeral (cs ++ '\n' :: rest) = ((takeNumeral cs).1, (takeNumeral cs).2 ++ '\n' :: rest) := by
  induction cs with
  | nil => rfl
  | cons c cs ih =>
      have hnext : ((cs ++ '\n' :: rest).head? != some '.') = (cs.head? != some '.') := by
        cases cs <;> rfl
      rw [List.cons_append, takeNumeral, takeNumeral, hnext, ih]
      split <;> rfl

/-- A character that is no backslash stands for itself, ends the text or breaks it. -/
theorem takeText_cons {c : Char} (hc : c ≠ '\\') (quote : Char) (cs : List Char) :
    takeText quote (c :: cs) = if c = '\n' then none
      else if c = quote then some ([], cs)
      else (takeText quote cs).map fun (s, tail) => (c :: s, tail) := by
  rw [takeText]
  · rintro rfl
    exact fun _ => hc rfl
  · rintro e cs' rfl
    exact fun _ => hc rfl

theorem takeText_append {quote : Char} {cs s tail : List Char} (h : takeText quote cs = some (s, tail))
    (rest : List Char) : takeText quote (cs ++ rest) = some (s, tail ++ rest) := by
  have hplain : ∀ (c : Char) (cs : List Char), (c = '\\' → cs = [] → False)
      → (∀ e cs', c = '\\' → cs = e :: cs' → False) → c ≠ '\\' := by
    intro c cs hend hguard hc
    cases cs with
    | nil => exact hend hc rfl
    | cons e cs' => exact hguard e cs' hc rfl
  fun_induction takeText quote cs generalizing s with
  | case1 => cases h
  | case2 => cases h
  | case3 e cs ih =>
      obtain ⟨⟨s', tail'⟩, hs, heq⟩ := Option.map_eq_some_iff.1 h
      obtain ⟨rfl, rfl⟩ := Prod.mk.inj heq
      rw [List.cons_append, List.cons_append, takeText, ih hs]
      rfl
  | case4 => cases h
  | case5 cs hend hguard hline =>
      obtain ⟨rfl, rfl⟩ := Prod.mk.inj (Option.some.inj h)
      rw [List.cons_append, takeText_cons (hplain _ _ hend hguard), if_neg hline, if_pos rfl]
  | case6 c cs hend hguard hline hquote ih =>
      obtain ⟨⟨s', tail'⟩, hs, heq⟩ := Option.map_eq_some_iff.1 h
      obtain ⟨rfl, rfl⟩ := Prod.mk.inj heq
      rw [List.cons_append, takeText_cons (hplain _ _ hend hguard), if_neg hline, if_neg hquote, ih hs]
      rfl

theorem takeWhile_append_newline {p : Char → Bool} (h : p '\n' = false) (cs rest : List Char) :
    (cs ++ '\n' :: rest).takeWhile p = cs.takeWhile p := by
  induction cs with
  | nil => exact List.takeWhile_cons_of_neg (by simp [h])
  | cons c cs ih => rw [List.cons_append, List.takeWhile_cons, List.takeWhile_cons, ih]

theorem dropWhile_append_newline {p : Char → Bool} (h : p '\n' = false) (cs rest : List Char) :
    (cs ++ '\n' :: rest).dropWhile p = cs.dropWhile p ++ '\n' :: rest := by
  induction cs with
  | nil => exact List.dropWhile_cons_of_neg (by simp [h])
  | cons c cs ih =>
      rw [List.cons_append, List.dropWhile_cons, List.dropWhile_cons, ih]
      split <;> rfl

/-- A start that has no line feed is a start of what is in front of it. -/
theorem isPrefixOf_append_newline {start : List Char} (h : '\n' ∉ start) (cs rest : List Char) :
    start.isPrefixOf (cs ++ '\n' :: rest) = start.isPrefixOf cs := by
  induction start generalizing cs with
  | nil => cases cs <;> rfl
  | cons c start ih =>
      obtain ⟨hc, hstart⟩ := not_or.1 (mt List.mem_cons.2 h)
      cases cs with
      | nil => simp [List.isPrefixOf, Ne.symm hc]
      | cons d cs => simp only [List.cons_append, List.isPrefixOf, ih hstart]

theorem takeSymbol_append_newline {cs tail : List Char} {s : Symbol} (h : takeSymbol cs = some (s, tail))
    (rest : List Char) : takeSymbol (cs ++ '\n' :: rest) = some (s, tail ++ '\n' :: rest) := by
  obtain ⟨s', hfind, heq⟩ := Option.map_eq_some_iff.1 h
  obtain ⟨rfl, rfl⟩ := Prod.mk.inj heq
  have hsame : (fun t : Symbol => t.text.toList.isPrefixOf (cs ++ '\n' :: rest))
      = fun t => t.text.toList.isPrefixOf cs := by
    funext t
    exact isPrefixOf_append_newline (by cases t <;> decide) cs rest
  have hstarts := List.find?_some hfind
  have hlength := (List.isPrefixOf_iff_prefix.1 hstarts).length_le
  rw [String.length_toList] at hlength
  rw [takeSymbol, hsame, hfind, Option.map_some, List.drop_append_of_le_length hlength]

theorem takeLexeme_append_newline {c : Char} {cs tail : List Char} {l : Lexeme}
    (h : takeLexeme c cs = .ok (l, tail)) (rest : List Char) :
    takeLexeme c (cs ++ '\n' :: rest) = .ok (l, tail ++ '\n' :: rest) := by
  have hnext : (cs ++ '\n' :: rest).head?.any Char.isDigit = cs.head?.any Char.isDigit := by
    cases cs <;> rfl
  unfold takeLexeme at h ⊢
  rw [hnext]
  split at h
  next hnumber =>
    rw [if_pos hnumber, takeNumeral_append_newline]
    simp only at h ⊢
    split at h
    · obtain ⟨rfl, rfl⟩ := Prod.mk.inj (Except.ok.inj h)
      rfl
    · cases h
  next hnumber =>
    rw [if_neg hnumber]
    split at h
    next hquote =>
      rw [if_pos hquote]
      split at h
      next htext =>
        obtain ⟨rfl, rfl⟩ := Prod.mk.inj (Except.ok.inj h)
        rw [takeText_append htext]
      · cases h
    next hquote =>
      rw [if_neg hquote]
      split at h
      next hword =>
        obtain ⟨rfl, rfl⟩ := Prod.mk.inj (Except.ok.inj h)
        have hends : continuesWord '\n' = false := by decide +kernel
        rw [if_pos hword, takeWhile_append_newline hends, dropWhile_append_newline hends]
      next hword =>
        rw [if_neg hword, ← List.cons_append]
        split at h
        next hsymbol =>
          obtain ⟨rfl, rfl⟩ := Prod.mk.inj (Except.ok.inj h)
          rw [takeSymbol_append_newline hsymbol]
        · cases h

/-! ### Whole texts -/

variable {line : Nat} {c : Char} {cs : List Char}

theorem scanFrom_newline (line : Nat) (cs : List Char) : scanFrom line ('\n' :: cs) = scanFrom (line + 1) cs := by
  rw [scanFrom, if_pos rfl]

theorem scanFrom_blank (hline : c ≠ '\n') (hblank : Text.isBlank c = true) :
    scanFrom line (c :: cs) = scanFrom line cs := by
  rw [scanFrom, if_neg hline, if_pos hblank]

theorem scanFrom_comment (hline : c ≠ '\n') (hblank : ¬ Text.isBlank c = true)
    (hcomment : c = '-' ∧ cs.head? = some '-') :
    scanFrom line (c :: cs) = scanFrom line (cs.dropWhile (· ≠ '\n')) := by
  rw [scanFrom, if_neg hline, if_neg hblank, if_pos hcomment]

theorem scanFrom_lexeme (hline : c ≠ '\n') (hblank : ¬ Text.isBlank c = true)
    (hcomment : ¬ (c = '-' ∧ cs.head? = some '-')) {l : Lexeme} {rest : List Char}
    (h : takeLexeme c cs = .ok (l, rest)) :
    scanFrom line (c :: cs) = (scanFrom line rest).map (⟨l, line⟩ :: ·) := by
  rw [scanFrom, if_neg hline, if_neg hblank, if_neg hcomment]
  split
  next herror =>
    rw [h] at herror
    cases herror
  next l' rest' hok =>
    obtain ⟨rfl, rfl⟩ := Prod.mk.inj (Except.ok.inj (h.symm.trans hok))
    cases scanFrom line rest <;> rfl

/-- Which line a text starts on does not matter to its lexemes. -/
theorem scanFrom_line {tokens : List Token} (h : scanFrom line cs = .ok tokens) (line' : Nat) :
    ∃ tokens', scanFrom line' cs = .ok tokens' ∧ tokens'.map Token.lexeme = tokens.map Token.lexeme := by
  fun_induction scanFrom line cs generalizing line' tokens with
  | case1 =>
      obtain rfl := Except.ok.inj h
      exact ⟨[], by rw [scanFrom], rfl⟩
  | case2 line cs ih =>
      rw [scanFrom_newline]
      exact ih h _
  | case3 line c cs hline hblank ih =>
      rw [scanFrom_blank hline hblank]
      exact ih h _
  | case4 line c cs hline hblank hcomment ih =>
      rw [scanFrom_comment hline hblank hcomment]
      exact ih h _
  | case5 => cases h
  | case6 => cases h
  | case7 line c cs hline hblank hcomment l rest hlexeme _ tokens hrest ih =>
      obtain rfl := Except.ok.inj h
      obtain ⟨tokens', hscan, hlexemes⟩ := ih hrest line'
      refine ⟨⟨l, line'⟩ :: tokens', ?_, congrArg (l :: ·) hlexemes⟩
      rw [scanFrom_lexeme hline hblank hcomment hlexeme, hscan]
      rfl

/-- A text that can be scanned is scanned in the same way in front of a line feed. -/
theorem scanFrom_append_newline {tokens : List Token} (h : scanFrom line cs = .ok tokens) :
    ∃ line', ∀ rest, scanFrom line (cs ++ '\n' :: rest) = (scanFrom line' rest).map (tokens ++ ·) := by
  have hmap : ∀ r : Except Fault (List Token), r.map ([] ++ ·) = r := by
    intro r
    cases r <;> rfl
  fun_induction scanFrom line cs generalizing tokens with
  | case1 line =>
      obtain rfl := Except.ok.inj h
      refine ⟨line + 1, fun rest => ?_⟩
      rw [List.nil_append, scanFrom_newline, hmap]
  | case2 line cs ih =>
      obtain ⟨line', hjoined⟩ := ih h
      refine ⟨line', fun rest => ?_⟩
      rw [List.cons_append, scanFrom_newline, hjoined]
  | case3 line c cs hline hblank ih =>
      obtain ⟨line', hjoined⟩ := ih h
      refine ⟨line', fun rest => ?_⟩
      rw [List.cons_append, scanFrom_blank hline hblank, hjoined]
  | case4 line c cs hline hblank hcomment ih =>
      obtain ⟨line', hjoined⟩ := ih h
      refine ⟨line', fun rest => ?_⟩
      have hcomment' : c = '-' ∧ (cs ++ '\n' :: rest).head? = some '-' := by
        rw [List.head?_append, hcomment.2]
        exact ⟨hcomment.1, rfl⟩
      rw [List.cons_append, scanFrom_comment hline hblank hcomment', dropWhile_append_newline (by decide), hjoined]
  | case5 => cases h
  | case6 => cases h
  | case7 line c cs hline hblank hcomment l tail hlexeme _ tokens htail ih =>
      obtain rfl := Except.ok.inj h
      obtain ⟨line', hjoined⟩ := ih htail
      refine ⟨line', fun rest => ?_⟩
      have hcomment' : ¬ (c = '-' ∧ (cs ++ '\n' :: rest).head? = some '-') := by
        rintro ⟨hc, hnext⟩
        cases cs with
        | nil => cases hnext
        | cons d cs => exact hcomment ⟨hc, hnext⟩
      rw [List.cons_append,
        scanFrom_lexeme hline hblank hcomment' (takeLexeme_append_newline hlexeme rest), hjoined]
      cases scanFrom line' rest <;> rfl

theorem scanFrom_semicolon (line : Nat) (cs : List Char) :
    scanFrom line (';' :: cs) = (scanFrom line cs).map (⟨.symbol .semicolon, line⟩ :: ·) := by
  refine scanFrom_lexeme (by decide) (by decide) (by rintro ⟨hc, -⟩; revert hc; decide) ?_
  rfl

/-- The tokens of two texts with a line feed and a semicolon between them. -/
theorem scan_joined {first second joined : String} {tokens tokens' : List Token}
    (hjoined : joined = first ++ "\n;" ++ second) (hfirst : scan first = .ok tokens)
    (hsecond : scan second = .ok tokens') :
    ∃ behind : List Token, scan joined = .ok (tokens ++ behind)
      ∧ behind.map Token.lexeme = .symbol .semicolon :: tokens'.map Token.lexeme := by
  obtain ⟨line, hscan⟩ := scanFrom_append_newline hfirst
  obtain ⟨tokens'', hbehind, hlexemes⟩ := scanFrom_line hsecond line
  refine ⟨⟨.symbol .semicolon, line⟩ :: tokens'', ?_, congrArg (_ :: ·) hlexemes⟩
  have htext : joined.toList = first.toList ++ '\n' :: ';' :: second.toList := by
    rw [hjoined]
    simp
  rw [scan, htext, hscan, scanFrom_semicolon, hbehind]
  rfl

end Transcript.Token
