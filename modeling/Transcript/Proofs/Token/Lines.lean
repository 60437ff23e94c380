import Transcript.Proofs.Token.Pieces

/-!
The lines that tokens stand on. Scanning counts the line feeds that it goes over between the lexemes. Numerals, words
and symbols have none, but a text may go on behind a line feed that a backslash guards, and such a line feed is not
counted. So the line of a token is that of its first character exactly if no text before it goes over a line feed.
-/
namespace Transcript.Token

/-- How many line feeds there are in the pieces. -/
def lineFeeds (ps : List Piece) : Nat := (ps.flatMap Piece.source).count '\n'

theorem lineFeeds_cons (p : Piece) (ps : List Piece) :
    lineFeeds (p :: ps) = p.source.count '\n' + lineFeeds ps := by
  rw [lineFeeds, lineFeeds, List.flatMap_cons, List.count_append]

/-- The line feeds outside texts and those inside. -/
theorem lineFeeds_eq_add (ps : List Piece) :
    lineFeeds ps = lineFeeds (ps.filter fun p => !p.isText) + lineFeeds (ps.filter Piece.isText) := by
  induction ps with
  | nil => rfl
  | cons p ps ih =>
      rw [lineFeeds_cons, ih]
      cases htext : p.isText with
      | true =>
          rw [List.filter_cons_of_neg (by simp [htext]), List.filter_cons_of_pos htext, lineFeeds_cons]
          omega
      | false =>
          rw [List.filter_cons_of_pos (by simp [htext]), List.filter_cons_of_neg (by simp [htext]), lineFeeds_cons]
          omega

theorem lineFeeds_eq_zero_iff (ps : List Piece) : lineFeeds ps = 0 ↔ ∀ p ∈ ps, '\n' ∉ p.source := by
  rw [lineFeeds, List.count_eq_zero, List.mem_flatMap]
  exact ⟨fun h p hp hline => h ⟨p, hp, hline⟩, fun h ⟨p, hp, hline⟩ => h p hp hline⟩

/-- Only a text has line feeds among the lexemes. -/
theorem SpelledBy.newline_notMem {source : List Char} {l : Lexeme} (h : SpelledBy source l)
    (htext : ∀ s, l ≠ .text s) : '\n' ∉ source := by
  intro hline
  cases l with
  | text s => exact htext s rfl
  | _ => exact ne_newline_of_isUnquoted (h _ hline) rfl

/-- Where the token with number `i` stands: the tokens before it are in the pieces above, and the next piece is its
own. -/
structure Stands (source : List Char) (tokens : List Token) (i : Nat) (above : List Piece) (piece : Piece) : Prop where
  pieces : above ++ [piece] <+: pieces source
  before : above.filterMap Piece.lexeme? = (tokens.take i).map Token.lexeme
  lexeme : piece.lexeme? = tokens[i]?.map Token.lexeme

section

variable {source source' : List Char} {tokens : List Token} {i : Nat} {above : List Piece} {p piece : Piece}

/-- The token starts behind the characters of the pieces above. -/
theorem Stands.source_isPrefix (h : Stands source tokens i above piece) :
    above.flatMap Piece.source ++ piece.source <+: source := by
  obtain ⟨below, hbelow⟩ := h.pieces
  refine ⟨below.flatMap Piece.source, ?_⟩
  rw [← flatMap_source_pieces source, ← hbelow, List.flatMap_append, List.flatMap_append, List.flatMap_singleton]

theorem Stands.behind_separator (h : Stands source tokens i above piece)
    (hpieces : Token.pieces source' = p :: Token.pieces source) (hp : p.lexeme? = none) :
    Stands source' tokens i (p :: above) piece where
  pieces := by
    rw [hpieces]
    exact List.prefix_cons_inj p |>.2 h.pieces
  before := by
    rw [List.filterMap_cons_none hp]
    exact h.before
  lexeme := h.lexeme

theorem Stands.behind_lexeme {l : Lexeme} (h : Stands source tokens i above piece)
    (hpieces : Token.pieces source' = p :: Token.pieces source) (hp : p.lexeme? = some l) (line : Nat) :
    Stands source' (⟨l, line⟩ :: tokens) (i + 1) (p :: above) piece where
  pieces := by
    rw [hpieces]
    exact List.prefix_cons_inj p |>.2 h.pieces
  before := by
    rw [List.filterMap_cons_some hp, h.before]
    rfl
  lexeme := h.lexeme

end

/-- Scanning counts the line feeds outside the texts. -/
theorem exists_stands {line : Nat} {cs : List Char} {tokens : List Token} (h : scanFrom line cs = .ok tokens) {i : Nat}
    {token : Token} (htoken : tokens[i]? = some token) :
    ∃ above piece, Stands cs tokens i above piece
      ∧ token.line = line + lineFeeds (above.filter fun p => !p.isText) := by
  fun_induction scanFrom line cs generalizing tokens i with
  | case1 =>
      obtain rfl := Except.ok.inj h
      cases htoken
  | case2 line cs ih =>
      obtain ⟨above, piece, hstands, hline⟩ := ih h htoken
      refine ⟨⟨['\n'], none⟩ :: above, piece, hstands.behind_separator (pieces_blank (by decide) cs) rfl, ?_⟩
      rw [List.filter_cons_of_pos rfl, lineFeeds_cons, hline, List.count_singleton_self]
      omega
  | case3 line c cs hbreak hblank ih =>
      obtain ⟨above, piece, hstands, hline⟩ := ih h htoken
      refine ⟨⟨[c], none⟩ :: above, piece, hstands.behind_separator (pieces_blank hblank cs) rfl, ?_⟩
      have hnone : [c].count '\n' = 0 := List.count_eq_zero.2 (by simpa using Ne.symm hbreak)
      rw [List.filter_cons_of_pos rfl, lineFeeds_cons, hnone, Nat.zero_add, hline]
  | case4 line c cs hbreak hblank hcomment ih =>
      obtain ⟨above, piece, hstands, hline⟩ := ih h htoken
      refine ⟨⟨c :: cs.takeWhile (· ≠ '\n'), none⟩ :: above, piece,
        hstands.behind_separator (pieces_comment hblank hcomment) rfl, ?_⟩
      have hnone : (c :: cs.takeWhile (· ≠ '\n')).count '\n' = 0 := by
        refine List.count_eq_zero.2 fun hmem => ?_
        rcases List.mem_cons.1 hmem with hc | hmem
        · exact hbreak hc.symm
        · exact absurd (List.all_eq_true.1 List.all_takeWhile _ hmem) (by simp)
      rw [List.filter_cons_of_pos rfl, lineFeeds_cons, hnone, Nat.zero_add, hline]
  | case5 => cases h
  | case6 => cases h
  | case7 line c cs hbreak hblank hcomment l rest hlexeme _ tokens hrest ih =>
      obtain rfl := Except.ok.inj h
      have hpieces := pieces_lexeme hblank hcomment hlexeme
      have hspelled := (take_of_takeLexeme hlexeme).2
      cases i with
      | zero =>
          obtain rfl := Option.some.inj htoken
          refine ⟨[], ⟨(c :: cs).take (cs.length + 1 - rest.length), some l⟩, ⟨?_, rfl, rfl⟩, rfl⟩
          rw [hpieces]
          exact List.prefix_append _ _
      | succ i =>
          obtain ⟨above, piece, hstands, hline⟩ := ih hrest htoken
          refine ⟨_ :: above, piece, hstands.behind_lexeme hpieces rfl line, ?_⟩
          rw [hline]
          congr 1
          -- The lexeme is a text, whose line feeds do not count, or has none.
          cases l with
          | text s => rw [List.filter_cons_of_neg (by simp [Piece.isText])]
          | _ =>
              rw [List.filter_cons_of_pos rfl, lineFeeds_cons,
                List.count_eq_zero.2 (hspelled.newline_notMem (by simp)), Nat.zero_add]

/-- **The line of a token.** It falls short of the line of the token's first character by the line feeds in the texts
before it, so it is that line exactly if there are none. -/
theorem line_of_scan {source : String} {tokens : List Token} (h : scan source = .ok tokens) {i : Nat} {token : Token}
    (htoken : tokens[i]? = some token) :
    ∃ above piece, Stands source.toList tokens i above piece
      ∧ above.flatMap Piece.source ++ piece.source <+: source.toList
      ∧ token.line + lineFeeds (above.filter Piece.isText) = 1 + (above.flatMap Piece.source).count '\n'
      ∧ (token.line = 1 + (above.flatMap Piece.source).count '\n'
        ↔ ∀ p ∈ above, p.isText = true → '\n' ∉ p.source) := by
  obtain ⟨above, piece, hstands, hline⟩ := exists_stands h htoken
  have hsum : token.line + lineFeeds (above.filter Piece.isText) = 1 + lineFeeds above := by
    rw [hline, lineFeeds_eq_add above]
    omega
  refine ⟨above, piece, hstands, hstands.source_isPrefix, hsum, ?_⟩
  have hnone : lineFeeds (above.filter Piece.isText) = 0 ↔ ∀ p ∈ above, p.isText = true → '\n' ∉ p.source := by
    rw [lineFeeds_eq_zero_iff]
    simp only [List.mem_filter, and_imp]
  show token.line = 1 + lineFeeds above ↔ _
  rw [← hnone]
  omega

/-- A text that goes over a line feed, and a word behind it. -/
def brokenText : String := "'a\\\nb' c"

/-- Both tokens are taken to be on the first line, and the word is on the second. -/
theorem line_of_scan_behind_broken_text :
    scan brokenText = .ok [⟨.text "a\nb", 1⟩, ⟨.word "c", 1⟩]
      ∧ ∃ above piece, Stands brokenText.toList [⟨.text "a\nb", 1⟩, ⟨.word "c", 1⟩] 1 above piece
        ∧ 1 ≠ 1 + (above.flatMap Piece.source).count '\n' := by
  have hscan : scan brokenText = .ok [⟨.text "a\nb", 1⟩, ⟨.word "c", 1⟩] := by with_unfolding_all rfl
  obtain ⟨above, piece, hstands, -, -, hiff⟩ := line_of_scan (i := 1) hscan rfl
  refine ⟨hscan, above, piece, hstands, fun hline => ?_⟩
  have hbroken : ∀ p ∈ pieces brokenText.toList, p.isText = true → '\n' ∈ p.source := by decide +kernel
  have htext : Lexeme.text "a\nb" ∈ above.filterMap Piece.lexeme? := by
    rw [hstands.before]
    exact List.mem_cons_self
  obtain ⟨p, hp, hl⟩ := List.mem_filterMap.1 htext
  have hmem := hstands.pieces.subset (List.mem_append_left _ hp)
  have his : p.isText = true := by simp [Piece.isText, hl]
  exact hiff.1 hline p hp his (hbroken p hmem his)

end Transcript.Token
