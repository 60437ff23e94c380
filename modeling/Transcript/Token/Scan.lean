import Transcript.Text.Class
import Transcript.Token
import Transcript.Value

/-!
Scanning text into tokens. White space and comments, from two minus signs to the end of the line, only
separate. A lexeme is read by its first character; each reader returns what it took and a rest
that is shorter, so scanning ends.
-/
namespace Transcript.Token

/-- Whether a word may start with `c`. -/
def startsWord (c : Char) : Bool := Text.isAlphabetic c || c == '_'

/-- Whether a word may go on with `c`. -/
def continuesWord (c : Char) : Bool :=
  Text.isAlphabetic c || Text.isNumeric c || c == '_' || c == ':'

/-- Takes digits and points, but stops at the first of two points in a row. -/
def takeNumeral : List Char → List Char × List Char
  | [] => ([], [])
  | c :: cs =>
    if c.isDigit || (c == '.' && cs.head? != some '.') then
      let (numeral, rest) := takeNumeral cs
      (c :: numeral, rest)
    else ([], c :: cs)

/-- The character that a backslash and `c` stand for. -/
def unescape (c : Char) : Char :=
  if c = 'n' then '\n' else if c = 't' then '\t' else c

/-- Takes text up to the closing quote. A line feed ends the line before the text is closed, unless
a backslash stands before it. -/
def takeText (quote : Char) : List Char → Option (List Char × List Char)
  | [] => none
  | '\\' :: [] => none
  | '\\' :: e :: cs => (takeText quote cs).map fun (s, rest) => (unescape e :: s, rest)
  | c :: cs =>
    if c = '\n' then none
    else if c = quote then some ([], cs)
    else (takeText quote cs).map fun (s, rest) => (c :: s, rest)

/-- The first symbol of the list that the text starts with. -/
def takeSymbol (cs : List Char) : Option (Symbol × List Char) :=
  (Symbol.all.find? fun s => s.text.toList.isPrefixOf cs).map fun s => (s, cs.drop s.text.length)

/-- Reads the lexeme that starts with `c`. -/
def takeLexeme (c : Char) (cs : List Char) : Except Fault (Lexeme × List Char) :=
  if c.isDigit || (c == '.' && cs.head?.any Char.isDigit) then
    let (numeral, rest) := takeNumeral cs
    match Decimal.read? (c :: numeral) with
    | some x => .ok (.number x, rest)
    | none => .error (.unexpected ("'" ++ String.ofList (c :: numeral) ++ "'"))
  else if c == '"' || c == '\x27' then
    match takeText c cs with
    | some (s, rest) => .ok (.text (String.ofList s), rest)
    | none => .error .unfinishedText
  else if startsWord c then
    .ok (.word (String.ofList (c :: cs.takeWhile continuesWord)), cs.dropWhile continuesWord)
  else
    match takeSymbol (c :: cs) with
    | some (s, rest) => .ok (.symbol s, rest)
    | none => .error (.unexpected ("'" ++ c.toString ++ "'"))

/-! ## The rest is shorter -/

theorem length_takeNumeral_le (cs : List Char) : (takeNumeral cs).2.length ≤ cs.length := by
  induction cs with
  | nil => simp [takeNumeral]
  | cons c cs ih =>
    simp only [takeNumeral]
    split
    · simp only [List.length_cons]
      omega
    · simp

theorem length_takeText_le {quote : Char} {cs s rest : List Char}
    (h : takeText quote cs = some (s, rest)) : rest.length ≤ cs.length := by
  fun_induction takeText quote cs generalizing s rest with
  | case1 => simp at h
  | case2 => simp at h
  | case3 e cs ih =>
    obtain ⟨⟨s', rest'⟩, hs, heq⟩ := Option.map_eq_some_iff.1 h
    obtain ⟨-, rfl⟩ := Prod.mk.inj heq
    have := ih hs
    simp only [List.length_cons]
    omega
  | case4 => simp at h
  | case5 cs =>
    obtain ⟨-, rfl⟩ := Prod.mk.inj (Option.some.inj h)
    simp
  | case6 c cs _ _ _ _ ih =>
    obtain ⟨⟨s', rest'⟩, hs, heq⟩ := Option.map_eq_some_iff.1 h
    obtain ⟨-, rfl⟩ := Prod.mk.inj heq
    have := ih hs
    simp only [List.length_cons]
    omega

theorem length_takeSymbol_le {c : Char} {cs rest : List Char} {s : Symbol}
    (h : takeSymbol (c :: cs) = some (s, rest)) : rest.length ≤ cs.length := by
  obtain ⟨s', _, heq⟩ := Option.map_eq_some_iff.1 h
  obtain ⟨rfl, rfl⟩ := Prod.mk.inj heq
  have hpos : 1 ≤ s'.text.length := by cases s' <;> decide
  simp only [List.length_drop, List.length_cons]
  omega

/-- A lexeme takes at least its first character. -/
theorem length_takeLexeme_le {c : Char} {cs rest : List Char} {l : Lexeme}
    (h : takeLexeme c cs = .ok (l, rest)) : rest.length ≤ cs.length := by
  simp only [takeLexeme] at h
  split at h
  · split at h
    · obtain ⟨-, rfl⟩ := Prod.mk.inj (Except.ok.inj h)
      exact length_takeNumeral_le cs
    · exact absurd h (by simp)
  · split at h
    · split at h
      · rename_i hs
        obtain ⟨-, rfl⟩ := Prod.mk.inj (Except.ok.inj h)
        exact length_takeText_le hs
      · exact absurd h (by simp)
    · split at h
      · obtain ⟨-, rfl⟩ := Prod.mk.inj (Except.ok.inj h)
        exact (List.dropWhile_suffix _).length_le
      · split at h
        · rename_i hs
          obtain ⟨-, rfl⟩ := Prod.mk.inj (Except.ok.inj h)
          exact length_takeSymbol_le hs
        · exact absurd h (by simp)

/-! ## Scanning -/

/-- The tokens of a text whose first character stands on line `line`. -/
def scanFrom (line : Nat) (cs : List Char) : Except Fault (List Token) :=
  match cs with
  | [] => .ok []
  | c :: cs =>
    if c = '\n' then scanFrom (line + 1) cs
    else if Text.isBlank c then scanFrom line cs
    else if c = '-' ∧ cs.head? = some '-' then scanFrom line (cs.dropWhile (· ≠ '\n'))
    else
      match h : takeLexeme c cs with
      | .error e => .error e
      | .ok (lexeme, rest) =>
        have := length_takeLexeme_le h
        match scanFrom line rest with
        | .error e => .error e
        | .ok tokens => .ok (⟨lexeme, line⟩ :: tokens)
termination_by cs.length
decreasing_by
  · simp
  · simp
  · have := (List.dropWhile_suffix (· ≠ '\n') (l := cs)).length_le
    simp only [List.length_cons]
    omega
  · simp only [List.length_cons]
    omega

/-- The tokens of a text, with lines counted from 1. -/
def scan (source : String) : Except Fault (List Token) := scanFrom 1 source.toList

end Transcript.Token
