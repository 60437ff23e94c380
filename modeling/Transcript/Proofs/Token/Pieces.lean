import Transcript.Proofs.Token.Words

/-!
The pieces of a text. What scanning goes over falls into pieces that stand one behind the other: white space, comments
and lexemes. A text that cannot be scanned to its end ends in one piece that is no lexeme. Quotes enclose texts: a text
starts and ends with a quote of one kind, and no other lexeme has a quote in it.
-/
namespace Transcript.Token

def isQuote (c : Char) : Prop := c = '"' ∨ c = '\x27'

instance (c : Char) : Decidable (isQuote c) := inferInstanceAs (Decidable (c = '"' ∨ c = '\x27'))

/-- A part of a text and the lexeme that it is, if it is one. -/
structure Piece where
  source : List Char
  lexeme? : Option Lexeme

namespace Piece

/-- Whether the piece is a text between quotes. -/
def isText (p : Piece) : Bool :=
  match p.lexeme? with
  | some (.text _) => true
  | _ => false

/-- Whether a quote stands where it encloses nothing: in what only separates, or inside a text of its own kind. -/
def hasStrayQuote (p : Piece) : Bool :=
  match p.lexeme? with
  | none => p.source.any isQuote
  | some (.text _) => p.source.head?.any fun quote => p.source.tail.dropLast.contains quote
  | some _ => false

end Piece

/-- The pieces of a text in order. -/
def pieces (cs : List Char) : List Piece :=
  match cs with
  | [] => []
  | c :: cs =>
    if Text.isBlank c then ⟨[c], none⟩ :: pieces cs
    else if c = '-' ∧ cs.head? = some '-' then
      ⟨c :: cs.takeWhile (· ≠ '\n'), none⟩ :: pieces (cs.dropWhile (· ≠ '\n'))
    else
      match h : takeLexeme c cs with
      | .error _ => [⟨c :: cs, none⟩]
      | .ok (lexeme, rest) =>
        have := length_takeLexeme_le h
        ⟨(c :: cs).take (cs.length + 1 - rest.length), some lexeme⟩ :: pieces rest
termination_by cs.length
decreasing_by
  · simp
  · have := (List.dropWhile_suffix (· ≠ '\n') (l := cs)).length_le
    simp only [List.length_cons]
    omega
  · simp only [List.length_cons]
    omega

/-! ### How lexemes are written -/

theorem takeNumeral_append (cs : List Char) : (takeNumeral cs).1 ++ (takeNumeral cs).2 = cs := by
  induction cs with
  | nil => rfl
  | cons c cs ih =>
      simp only [takeNumeral]
      split
      · simp only [List.cons_append, ih]
      · rfl

theorem numeric_of_mem_takeNumeral {cs : List Char} {x : Char} (h : x ∈ (takeNumeral cs).1) :
    x.isDigit = true ∨ x = '.' := by
  induction cs with
  | nil => cases h
  | cons c cs ih =>
      simp only [takeNumeral] at h
      split at h
      next hc =>
        rcases List.mem_cons.1 h with rfl | h
        · simp only [Bool.or_eq_true, Bool.and_eq_true, beq_iff_eq] at hc
          exact hc.imp_right And.left
        · exact ih h
      · cases h

/-- A text ends at a quote of its own kind. -/
theorem exists_append_of_takeText {quote : Char} {cs s rest : List Char} (h : takeText quote cs = some (s, rest)) :
    ∃ body, cs = body ++ quote :: rest := by
  fun_induction takeText quote cs generalizing s with
  | case1 => cases h
  | case2 => cases h
  | case3 e cs ih =>
      obtain ⟨⟨s', rest'⟩, hs, heq⟩ := Option.map_eq_some_iff.1 h
      obtain ⟨-, rfl⟩ := Prod.mk.inj heq
      obtain ⟨body, rfl⟩ := ih hs
      exact ⟨'\\' :: e :: body, rfl⟩
  | case4 => cases h
  | case5 cs =>
      obtain ⟨-, rfl⟩ := Prod.mk.inj (Option.some.inj h)
      exact ⟨[], rfl⟩
  | case6 c cs _ _ _ _ ih =>
      obtain ⟨⟨s', rest'⟩, hs, heq⟩ := Option.map_eq_some_iff.1 h
      obtain ⟨-, rfl⟩ := Prod.mk.inj heq
      obtain ⟨body, rfl⟩ := ih hs
      exact ⟨c :: body, rfl⟩

theorem takeSymbol_append {cs rest : List Char} {s : Symbol} (h : takeSymbol cs = some (s, rest)) :
    cs = s.text.toList ++ rest := by
  obtain ⟨s', hfind, heq⟩ := Option.map_eq_some_iff.1 h
  obtain ⟨rfl, rfl⟩ := Prod.mk.inj heq
  have hstarts := List.find?_some hfind
  obtain ⟨rest, rfl⟩ := List.isPrefixOf_iff_prefix.1 hstarts
  rw [← String.length_toList, List.drop_left]

/-- The characters that numerals, words and symbols are made of. -/
def isUnquoted (x : Char) : Bool :=
  x.isDigit || continuesWord x || Symbol.all.any fun s => s.text.toList.contains x

theorem isUnquoted_of_numeric {x : Char} (h : x.isDigit = true ∨ x = '.') : isUnquoted x = true := by
  rcases h with hdigit | rfl
  · simp [isUnquoted, hdigit]
  · decide +kernel

theorem isUnquoted_of_continuesWord {x : Char} (h : continuesWord x = true) : isUnquoted x = true := by
  simp [isUnquoted, h]

theorem isUnquoted_of_mem_symbol {s : Symbol} {x : Char} (h : x ∈ s.text.toList) : isUnquoted x = true := by
  have hany : (Symbol.all.any fun s => s.text.toList.contains x) = true :=
    List.any_eq_true.2 ⟨s, s.mem_all, List.contains_iff_mem.2 h⟩
  simp only [isUnquoted, hany, Bool.or_true]

theorem not_isQuote_of_isUnquoted {x : Char} (h : isUnquoted x = true) : ¬ isQuote x := by
  rintro (rfl | rfl) <;> revert h <;> decide +kernel

theorem ne_newline_of_isUnquoted {x : Char} (h : isUnquoted x = true) : x ≠ '\n' := by
  rintro rfl
  revert h
  decide +kernel

/-- How a lexeme is spelled: a text between two quotes of one kind, and all else in unquoted characters. -/
def SpelledBy (source : List Char) : Lexeme → Prop
  | .text _ => ∃ quote body, isQuote quote ∧ source = quote :: (body ++ [quote])
  | _ => ∀ x ∈ source, isUnquoted x = true

/-- How the source of a lexeme has its quotes: around a text, and nowhere else. -/
def QuotesEnclose (source : List Char) : Lexeme → Prop
  | .text _ => ∃ quote body, isQuote quote ∧ source = quote :: (body ++ [quote])
  | _ => ∀ x ∈ source, ¬ isQuote x

theorem SpelledBy.quotesEnclose {source : List Char} {l : Lexeme} (h : SpelledBy source l) :
    QuotesEnclose source l := by
  cases l with
  | text s => exact h
  | _ => exact fun x hx => not_isQuote_of_isUnquoted (h x hx)

/-- A lexeme is read from a front of the text, and leaves the rest. -/
theorem exists_source_of_takeLexeme {c : Char} {cs rest : List Char} {l : Lexeme}
    (h : takeLexeme c cs = .ok (l, rest)) :
    ∃ source, c :: cs = source ++ rest ∧ SpelledBy source l := by
  simp only [takeLexeme] at h
  split at h
  next hnumber =>
    split at h
    · obtain ⟨rfl, rfl⟩ := Prod.mk.inj (Except.ok.inj h)
      refine ⟨c :: (takeNumeral cs).1, ?_, ?_⟩
      · rw [List.cons_append, takeNumeral_append]
      · intro x hx
        rcases List.mem_cons.1 hx with rfl | hx
        · simp only [Bool.or_eq_true, Bool.and_eq_true, beq_iff_eq] at hnumber
          exact isUnquoted_of_numeric (hnumber.imp_right And.left)
        · exact isUnquoted_of_numeric (numeric_of_mem_takeNumeral hx)
    · cases h
  · split at h
    next hquote =>
      split at h
      next htext =>
        obtain ⟨rfl, rfl⟩ := Prod.mk.inj (Except.ok.inj h)
        obtain ⟨body, rfl⟩ := exists_append_of_takeText htext
        refine ⟨c :: (body ++ [c]), by simp, c, body, ?_, rfl⟩
        simpa [isQuote] using hquote
      · cases h
    · split at h
      next hword =>
        obtain ⟨rfl, rfl⟩ := Prod.mk.inj (Except.ok.inj h)
        refine ⟨c :: cs.takeWhile continuesWord, ?_, ?_⟩
        · rw [List.cons_append, List.takeWhile_append_dropWhile]
        · intro x hx
          rcases List.mem_cons.1 hx with rfl | hx
          · exact isUnquoted_of_continuesWord (continuesWord_of_startsWord hword)
          · exact isUnquoted_of_continuesWord (List.all_eq_true.1 List.all_takeWhile x hx)
      · split at h
        next hsymbol =>
          obtain ⟨rfl, rfl⟩ := Prod.mk.inj (Except.ok.inj h)
          exact ⟨_, takeSymbol_append hsymbol, fun x hx => isUnquoted_of_mem_symbol hx⟩
        · cases h

/-- The source of a lexeme is what reading it took. -/
theorem take_of_takeLexeme {c : Char} {cs rest : List Char} {l : Lexeme} (h : takeLexeme c cs = .ok (l, rest)) :
    (c :: cs).take (cs.length + 1 - rest.length) ++ rest = c :: cs
      ∧ SpelledBy ((c :: cs).take (cs.length + 1 - rest.length)) l := by
  obtain ⟨source, heq, hspelled⟩ := exists_source_of_takeLexeme h
  have hlength : cs.length + 1 - rest.length = source.length := by
    have hcount := congrArg List.length heq
    rw [List.length_cons, List.length_append] at hcount
    omega
  rw [hlength, heq, List.take_left]
  exact ⟨rfl, hspelled⟩

/-! ### The whole text -/

theorem pieces_blank {c : Char} (hblank : Text.isBlank c = true) (cs : List Char) :
    pieces (c :: cs) = ⟨[c], none⟩ :: pieces cs := by
  rw [pieces, if_pos hblank]

theorem pieces_comment {c : Char} {cs : List Char} (hblank : ¬ Text.isBlank c = true)
    (hcomment : c = '-' ∧ cs.head? = some '-') :
    pieces (c :: cs) = ⟨c :: cs.takeWhile (· ≠ '\n'), none⟩ :: pieces (cs.dropWhile (· ≠ '\n')) := by
  rw [pieces, if_neg hblank, if_pos hcomment]

theorem pieces_lexeme {c : Char} {cs rest : List Char} {l : Lexeme} (hblank : ¬ Text.isBlank c = true)
    (hcomment : ¬ (c = '-' ∧ cs.head? = some '-')) (h : takeLexeme c cs = .ok (l, rest)) :
    pieces (c :: cs) = ⟨(c :: cs).take (cs.length + 1 - rest.length), some l⟩ :: pieces rest := by
  rw [pieces, if_neg hblank, if_neg hcomment]
  split
  next herror =>
    rw [h] at herror
    cases herror
  next l' rest' hok =>
    obtain ⟨rfl, rfl⟩ := Prod.mk.inj (Except.ok.inj (h.symm.trans hok))
    rfl

/-- Nothing of a text is lost in its pieces. -/
theorem flatMap_source_pieces (cs : List Char) : (pieces cs).flatMap Piece.source = cs := by
  fun_induction pieces cs with
  | case1 => rfl
  | case2 c cs hblank ih => rw [List.flatMap_cons, ih, List.singleton_append]
  | case3 c cs hblank hcomment ih =>
      rw [List.flatMap_cons, ih, List.cons_append, List.takeWhile_append_dropWhile]
  | case4 => simp
  | case5 c cs hblank hcomment lexeme rest h _ ih => rw [List.flatMap_cons, ih, (take_of_takeLexeme h).1]

theorem spelledBy_of_mem_pieces {cs : List Char} {p : Piece} (hp : p ∈ pieces cs) {l : Lexeme}
    (hl : p.lexeme? = some l) : SpelledBy p.source l := by
  fun_induction pieces cs with
  | case1 => cases hp
  | case2 c cs hblank ih =>
      rcases List.mem_cons.1 hp with rfl | hp
      · cases hl
      · exact ih hp
  | case3 c cs hblank hcomment ih =>
      rcases List.mem_cons.1 hp with rfl | hp
      · cases hl
      · exact ih hp
  | case4 =>
      obtain rfl := List.mem_singleton.1 hp
      cases hl
  | case5 c cs hblank hcomment lexeme rest h _ ih =>
      rcases List.mem_cons.1 hp with rfl | hp
      · obtain rfl := Option.some.inj hl
        exact (take_of_takeLexeme h).2
      · exact ih hp

theorem quotesEnclose_of_mem_pieces {cs : List Char} {p : Piece} (hp : p ∈ pieces cs) {l : Lexeme}
    (hl : p.lexeme? = some l) : QuotesEnclose p.source l := (spelledBy_of_mem_pieces hp hl).quotesEnclose

end Transcript.Token
