import Transcript.Proofs.Token.Joining
import Transcript.Proofs.Token.Words

/-!
Written tokens are read back. A word and a symbol are written as they are, a number by its digits, and a text between
quotes of either kind, where a backslash guards the quote, itself and the letter that stands for a line feed. Behind a
space, or at the end, no lexeme can go on, so tokens with single spaces between them are read one by one, and all of
them stand on the first line.
-/
namespace Transcript.Token

/-! ### Written forms -/

/-- A word: a character that a word may start with and characters that it may go on with. -/
structure WordForm where
  first : Char
  others : List Char
  startsWord_first : startsWord first = true
  allWordly_others : AllWordly others

def WordForm.chars (w : WordForm) : List Char := w.first :: w.others

/-- One or more digits. -/
structure DigitRun where
  first : Char
  others : List Char
  isDigit : ∀ c ∈ first :: others, c.isDigit = true

def DigitRun.chars (d : DigitRun) : List Char := d.first :: d.others

/-- A number in digits: a run of them, or two with a point in between. -/
inductive NumberForm where
  | whole (digits : DigitRun)
  | decimal (whole fraction : DigitRun)

def NumberForm.chars : NumberForm → List Char
  | .whole d => d.chars
  | .decimal d f => d.chars ++ '.' :: f.chars

/-- The quotes that a text may stand between. -/
inductive QuoteForm where
  | single
  | double
  deriving DecidableEq, Repr

def QuoteForm.char : QuoteForm → Char
  | .single => '\x27'
  | .double => '"'

/-- A character of a text between two quotes. -/
def guarded (quote c : Char) : List Char :=
  if c = '\n' then ['\\', 'n'] else if c = '\\' ∨ c = quote then ['\\', c] else [c]

/-- A lexeme as it is written. -/
inductive Form where
  | word (w : WordForm)
  | symbol (s : Symbol)
  | text (quote : QuoteForm) (s : String)
  | number (n : NumberForm)

def Form.chars : Form → List Char
  | .word w => w.chars
  | .symbol s => s.text.toList
  | .text quote s => quote.char :: (s.toList.flatMap (guarded quote.char) ++ [quote.char])
  | .number n => n.chars

def Form.source (f : Form) : String := String.ofList f.chars

/-! ### Numbers -/

/-- What holds of the ten digits one by one holds of digits. -/
theorem of_isDigit {p : Char → Bool} (hall : (List.range' 48 10).all (fun n => p (Char.ofNat n)) = true) {c : Char}
    (h : c.isDigit = true) : p c = true := by
  have hmem : c.toNat ∈ List.range' 48 10 := by
    simp only [Char.isDigit, Bool.and_eq_true, decide_eq_true_eq, ge_iff_le, UInt32.le_iff_toNat_le] at h
    rw [List.mem_range'_1]
    exact ⟨h.1, Nat.lt_succ_of_le h.2⟩
  have hpoint := List.all_eq_true.1 hall c.toNat hmem
  rwa [Char.ofNat_toNat] at hpoint

/-- A text that begins with a digit is read as digits, with no sign and no word. -/
theorem read?_of_isDigit {c : Char} (hc : c.isDigit = true) (cs : List Char) :
    Decimal.read? (c :: cs) = Decimal.readDigits? (c :: cs) := by
  have hminus : c ≠ '-' := by simpa using of_isDigit (p := (· != '-')) (by decide) hc
  have hplus : c ≠ '+' := by simpa using of_isDigit (p := (· != '+')) (by decide) hc
  have hi : c.toLower ≠ 'i' := by simpa using of_isDigit (p := fun c => c.toLower != 'i') (by decide) hc
  have hn : c.toLower ≠ 'n' := by simpa using of_isDigit (p := fun c => c.toLower != 'n') (by decide) hc
  have hword : ∀ d ds, c.toLower ≠ d → String.ofList ((c :: cs).map Char.toLower) ≠ String.ofList (d :: ds) := by
    intro d ds hd heq
    exact hd (List.cons.inj (String.ofList_injective heq)).1
  rw [Decimal.read?]
  · rw [Decimal.readMagnitude?]
    simp only [if_neg (not_or.2 ⟨hword 'i' _ hi, hword 'i' _ hi⟩), if_neg (hword 'n' _ hn)]
  · exact fun cs' heq => hminus (List.cons.inj heq).1
  · exact fun cs' heq => hplus (List.cons.inj heq).1

/-- What is taken and what is left where a character stops what went on before it. -/
theorem span_append {p : Char → Bool} {cs rest : List Char} (hcs : ∀ c ∈ cs, p c = true)
    (hrest : ∀ c ∈ rest.head?, p c = false) :
    (cs ++ rest).takeWhile p = cs ∧ (cs ++ rest).dropWhile p = rest := by
  rw [List.takeWhile_append_of_pos hcs, List.dropWhile_append_of_pos hcs]
  cases rest with
  | nil => exact ⟨List.append_nil cs, rfl⟩
  | cons c rest =>
      have hc : ¬ p c = true := by simp [hrest c rfl]
      rw [List.takeWhile_cons_of_neg hc, List.dropWhile_cons_of_neg hc]
      exact ⟨List.append_nil cs, rfl⟩

/-- Digits that end, or go up to a point. -/
theorem digits_span {ds : List Char} (hds : ∀ c ∈ ds, c.isDigit = true) (rest : List Char)
    (hrest : ∀ c ∈ rest.head?, c = '.') :
    (ds ++ rest).takeWhile Char.isDigit = ds ∧ (ds ++ rest).dropWhile Char.isDigit = rest := by
  refine span_append hds fun c hc => ?_
  rw [hrest c hc]
  rfl

theorem isSome_readDigits?_whole {ds : List Char} (hds : ∀ c ∈ ds, c.isDigit = true) (hne : ds ≠ []) :
    (Decimal.readDigits? ds).isSome = true := by
  obtain ⟨htake, hdrop⟩ := digits_span hds [] (by simp)
  rw [List.append_nil] at htake hdrop
  rw [Decimal.readDigits?]
  simp only [htake, hdrop]
  rw [if_neg (by simpa using hne)]
  rfl

theorem isSome_readDigits?_decimal {ds fs : List Char} (hds : ∀ c ∈ ds, c.isDigit = true)
    (hfs : ∀ c ∈ fs, c.isDigit = true) (hne : ds ≠ []) :
    (Decimal.readDigits? (ds ++ '.' :: fs)).isSome = true := by
  obtain ⟨htake, hdrop⟩ := digits_span hds ('.' :: fs) (by simp)
  obtain ⟨htake', hdrop'⟩ := digits_span hfs [] (by simp)
  rw [List.append_nil] at htake' hdrop'
  rw [Decimal.readDigits?]
  simp only [htake, hdrop, htake', hdrop']
  rw [if_neg (by simp [hne])]
  rfl

/-- A number in digits has a value. -/
theorem NumberForm.isSome_read? (n : NumberForm) : (Decimal.read? n.chars).isSome = true := by
  cases n with
  | whole d =>
      show (Decimal.read? (d.first :: d.others)).isSome = true
      rw [read?_of_isDigit (d.isDigit _ List.mem_cons_self)]
      exact isSome_readDigits?_whole d.isDigit (List.cons_ne_nil _ _)
  | decimal d f =>
      show (Decimal.read? (d.first :: (d.others ++ '.' :: f.chars))).isSome = true
      rw [read?_of_isDigit (d.isDigit _ List.mem_cons_self)]
      exact isSome_readDigits?_decimal d.isDigit f.isDigit (List.cons_ne_nil _ _)

/-- The number that the digits stand for. -/
def NumberForm.value (n : NumberForm) : Float := (Decimal.read? n.chars).get n.isSome_read?

/-- The lexeme that a form stands for. -/
def Form.lexeme : Form → Lexeme
  | .word w => .word (String.ofList w.chars)
  | .symbol s => .symbol s
  | .text _ s => .text s
  | .number n => .number n.value

/-! ### Reading a form -/

/-- Nothing follows, or a space. -/
def IsApart (rest : List Char) : Prop := rest = [] ∨ ∃ cs, rest = ' ' :: cs

variable {rest : List Char}

theorem takeText_guarded (quote : QuoteForm) (s rest : List Char) :
    takeText quote.char (s.flatMap (guarded quote.char) ++ quote.char :: rest) = some (s, rest) := by
  induction s with
  | nil => cases quote <;> rfl
  | cons c s ih =>
      rw [List.flatMap_cons, List.append_assoc, guarded]
      split
      next hline =>
        subst hline
        rw [List.cons_append, List.cons_append, List.nil_append, takeText, ih]
        rfl
      next hline =>
        split
        next hguard =>
          have hc : unescape c = c := by
            rcases hguard with rfl | rfl
            · rfl
            · cases quote <;> rfl
          rw [List.cons_append, List.cons_append, List.nil_append, takeText, ih, Option.map_some, hc]
        next hguard =>
          obtain ⟨hslash, hquote⟩ := not_or.1 hguard
          rw [List.singleton_append, takeText_cons hslash, if_neg hline, if_neg hquote, ih]
          rfl

theorem takeNumeral_digits {ds : List Char} (hds : ∀ c ∈ ds, c.isDigit = true) (rest : List Char) :
    takeNumeral (ds ++ rest) = (ds ++ (takeNumeral rest).1, (takeNumeral rest).2) := by
  induction ds with
  | nil => rfl
  | cons c ds ih =>
      obtain ⟨hc, hds⟩ := List.forall_mem_cons.1 hds
      rw [List.cons_append, takeNumeral, hc, Bool.true_or, if_pos rfl, ih hds]
      rfl

theorem takeNumeral_of_isApart (hrest : IsApart rest) : takeNumeral rest = ([], rest) := by
  rcases hrest with rfl | ⟨cs, rfl⟩ <;> rfl

/-- A character that a word may start with is no digit, point or quote. -/
theorem startsWord_excludes {c : Char} (h : startsWord c = true) :
    (c.isDigit = false ∧ c ≠ '.') ∧ c ≠ '"' ∧ c ≠ '\x27' := by
  refine ⟨⟨?_, ?_⟩, ?_, ?_⟩
  · refine Bool.eq_false_iff.2 fun hdigit => ?_
    have hends := of_isDigit (p := fun c => !startsWord c) (by decide +kernel) hdigit
    rw [h] at hends
    cases hends
  all_goals
    rintro rfl
    revert h
    decide +kernel

theorem takeLexeme_word (w : WordForm) (hrest : IsApart rest) :
    takeLexeme w.first (w.others ++ rest) = .ok (.word (String.ofList w.chars), rest) := by
  obtain ⟨⟨hdigit, hpoint⟩, hdouble, hsingle⟩ := startsWord_excludes w.startsWord_first
  have hspace : continuesWord ' ' = false := by decide +kernel
  have hends : ∀ c ∈ rest.head?, continuesWord c = false := by
    rcases hrest with rfl | ⟨tail, rfl⟩
    · simp
    · simp [hspace]
  obtain ⟨htake, hdrop⟩ := span_append w.allWordly_others hends
  rw [takeLexeme, if_neg (by simp [hdigit, hpoint]), if_neg (by simp [hdouble, hsingle]), if_pos w.startsWord_first,
    htake, hdrop]
  rfl

theorem takeLexeme_text (quote : QuoteForm) (s : String) (rest : List Char) :
    takeLexeme quote.char (s.toList.flatMap (guarded quote.char) ++ quote.char :: rest) = .ok (.text s, rest) := by
  have hdigit : quote.char.isDigit = false := by cases quote <;> rfl
  have hpoint : quote.char ≠ '.' := by cases quote <;> decide
  have hquote : quote.char = '"' ∨ quote.char = '\x27' := by cases quote <;> decide
  rw [takeLexeme, if_neg (by simp [hdigit, hpoint]), if_pos (by simpa using hquote), takeText_guarded]
  simp only [String.ofList_toList]

/-- A numeral takes all of a number in digits. -/
theorem takeNumeral_number {c : Char} {cs : List Char} (n : NumberForm) (hn : n.chars = c :: cs)
    (hrest : IsApart rest) : c.isDigit = true ∧ takeNumeral (cs ++ rest) = (cs, rest) := by
  cases n with
  | whole d =>
      obtain ⟨rfl, rfl⟩ := List.cons.inj hn
      obtain ⟨hc, hds⟩ := List.forall_mem_cons.1 d.isDigit
      rw [takeNumeral_digits hds, takeNumeral_of_isApart hrest, List.append_nil]
      exact ⟨hc, rfl⟩
  | decimal d f =>
      replace hn : d.first :: (d.others ++ '.' :: f.chars) = c :: cs := hn
      obtain ⟨rfl, rfl⟩ := List.cons.inj hn
      obtain ⟨hc, hds⟩ := List.forall_mem_cons.1 d.isDigit
      have hfraction : takeNumeral (f.chars ++ rest) = (f.chars, rest) := by
        rw [DigitRun.chars, takeNumeral_digits f.isDigit, takeNumeral_of_isApart hrest, List.append_nil]
      have hpoint : f.first ≠ '.' := by
        simpa using of_isDigit (p := (· != '.')) (by decide) (f.isDigit _ List.mem_cons_self)
      have hnext : ((f.chars ++ rest).head? != some '.') = true := by simpa [DigitRun.chars] using hpoint
      refine ⟨hc, ?_⟩
      rw [List.append_assoc, takeNumeral_digits hds, List.cons_append, takeNumeral, hnext, if_pos (by decide),
        hfraction]

theorem takeLexeme_number {c : Char} {cs : List Char} (n : NumberForm) (hn : n.chars = c :: cs)
    (hrest : IsApart rest) : takeLexeme c (cs ++ rest) = .ok (.number n.value, rest) := by
  obtain ⟨hc, htake⟩ := takeNumeral_number n hn hrest
  have hread : Decimal.read? (c :: cs) = some n.value := by
    rw [← hn]
    exact (Option.some_get n.isSome_read?).symm
  rw [takeLexeme, hc, Bool.true_or, if_pos rfl]
  simp only [htake, hread]

theorem takeLexeme_symbol {c : Char} {cs : List Char} (s : Symbol) (hs : s.text.toList = c :: cs)
    (hrest : IsApart rest) : takeLexeme c (cs ++ rest) = .ok (.symbol s, rest) := by
  cases s <;> obtain ⟨rfl, rfl⟩ := List.cons.inj hs <;> rcases hrest with rfl | ⟨tail, rfl⟩ <;> rfl

/-! ### Scanning forms -/

theorem scanFrom_of_takeLexeme {line : Nat} {c : Char} {cs : List Char} {l : Lexeme}
    (hblank : Text.isBlank c = false) (hcomment : ¬ (c = '-' ∧ cs.head? = some '-'))
    (h : takeLexeme c cs = .ok (l, rest)) :
    scanFrom line (c :: cs) = (scanFrom line rest).map (⟨l, line⟩ :: ·) := by
  have hline : c ≠ '\n' := by
    rintro rfl
    revert hblank
    decide
  exact scanFrom_lexeme hline (by simp [hblank]) hcomment h

/-- A form is read up to what stands apart from it. -/
theorem Form.scanFrom_chars (f : Form) (line : Nat) (hrest : IsApart rest) :
    scanFrom line (f.chars ++ rest) = (scanFrom line rest).map (⟨f.lexeme, line⟩ :: ·) := by
  cases f with
  | word w =>
      have hwordly := continuesWord_of_startsWord w.startsWord_first
      have hblank : Text.isBlank w.first = false := by
        refine Bool.eq_false_iff.2 fun hblank => ?_
        rw [continuesWord_of_blank hblank] at hwordly
        cases hwordly
      have hminus : w.first ≠ '-' := by
        intro hminus
        rw [hminus] at hwordly
        revert hwordly
        decide +kernel
      exact scanFrom_of_takeLexeme hblank (fun h => hminus h.1) (takeLexeme_word w hrest)
  | symbol s =>
      obtain ⟨c, cs, hs⟩ : ∃ c cs, s.text.toList = c :: cs := by cases s <;> exact ⟨_, _, rfl⟩
      have hblank : Text.isBlank c = false := by
        cases s <;> obtain ⟨rfl, rfl⟩ := List.cons.inj hs <;> decide
      -- Of the signs that start with a minus there is only the minus itself.
      have hcomment : ¬ (c = '-' ∧ (cs ++ rest).head? = some '-') := by
        rintro ⟨rfl, hnext⟩
        have hcs : cs = [] := by
          cases s <;> first | exact (List.cons.inj hs).2.symm | exact absurd (List.cons.inj hs).1 (by decide)
        subst hcs
        rcases hrest with rfl | ⟨tail, rfl⟩ <;> cases hnext
      rw [Form.chars, hs]
      exact scanFrom_of_takeLexeme hblank hcomment (takeLexeme_symbol s hs hrest)
  | text quote s =>
      have hblank : Text.isBlank quote.char = false := by cases quote <;> decide
      have hminus : quote.char ≠ '-' := by cases quote <;> decide
      rw [Form.chars, List.cons_append, List.append_assoc, List.singleton_append]
      exact scanFrom_of_takeLexeme hblank (fun h => hminus h.1) (takeLexeme_text quote s rest)
  | number n =>
      obtain ⟨c, cs, hn⟩ : ∃ c cs, n.chars = c :: cs := by cases n <;> exact ⟨_, _, rfl⟩
      have hc := (takeNumeral_number n hn hrest).1
      have hblank : Text.isBlank c = false := by
        simpa using of_isDigit (p := fun c => !Text.isBlank c) (by decide) hc
      have hminus : c ≠ '-' := by simpa using of_isDigit (p := (· != '-')) (by decide) hc
      rw [Form.chars, hn]
      exact scanFrom_of_takeLexeme hblank (fun h => hminus h.1) (takeLexeme_number n hn hrest)

/-- Forms with spaces between them are read one by one. -/
theorem scanFrom_intercalate (forms : List Form) (line : Nat) :
    scanFrom line ([' '].intercalate (forms.map Form.chars)) = .ok (forms.map fun f => ⟨f.lexeme, line⟩) := by
  induction forms with
  | nil => rw [List.map_nil, List.intercalate_nil, scanFrom]; rfl
  | cons f forms ih =>
      cases forms with
      | nil =>
          have hread := f.scanFrom_chars line (Or.inl rfl)
          rw [List.append_nil, scanFrom] at hread
          rw [List.map_singleton, List.intercalate_singleton, hread]
          rfl
      | cons g forms =>
          rw [List.map_cons, List.map_cons, List.intercalate_cons_cons, ← List.map_cons, List.append_assoc,
            List.singleton_append, f.scanFrom_chars line (Or.inr ⟨_, rfl⟩),
            scanFrom_blank (by decide) (by decide), ih]
          rfl

/-- **Written tokens are read back.** Forms of any lexemes, with single spaces between them, are scanned into these
lexemes in order, all on the first line. -/
theorem scan_written (forms : List Form) :
    scan (" ".intercalate (forms.map Form.source)) = .ok (forms.map fun f => ⟨f.lexeme, 1⟩) := by
  have hchars : (" ".intercalate (forms.map Form.source)).toList = [' '].intercalate (forms.map Form.chars) := by
    rw [String.toList_intercalate, List.map_map]
    congr 2
    funext f
    exact String.toList_ofList
  rw [scan, hchars]
  exact scanFrom_intercalate forms 1

end Transcript.Token
