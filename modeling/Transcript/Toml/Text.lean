import Transcript.Toml

/-!
The characters of a TOML document: what stands between its parts, text between quotes, and keys.
-/
namespace Transcript.Toml

/-!
## Space

What may stand between the parts of a TOML document: spaces, line ends and comments. A line end is a line
feed, which a carriage return may precede.
-/

/-- Whether a character separates parts of a line. -/
def isSpace (c : Char) : Bool := c == ' ' || c == '\t'

def skipSpaces (cs : List Char) : List Char := cs.dropWhile isSpace

/-- Whether a character may stand in a comment, and in text if nothing else forbids it. -/
def isPlain (c : Char) : Bool := c == '\t' || (32 ≤ c.toNat && c.toNat != 127)

def takeLineEnd? : List Char → Option (List Char)
  | '\n' :: cs => some cs
  | '\r' :: '\n' :: cs => some cs
  | _ => none

def skipComment : List Char → List Char
  | '#' :: cs => cs.dropWhile isPlain
  | cs => cs

/-- The rest behind the end of a line, before which only spaces and a comment may stand. The end of the
text ends the line too. -/
def finishLine? (cs : List Char) : Option (List Char) :=
  match skipComment (skipSpaces cs) with
  | [] => some []
  | cs => takeLineEnd? cs

/-- Skips spaces, comments and line ends. Every round takes a character, so there are no more rounds
than characters. -/
def skipLines : (rounds : Nat) → List Char → List Char
  | 0, cs => cs
  | rounds + 1, cs =>
    let cs := skipComment (skipSpaces cs)
    match takeLineEnd? cs with
    | some rest => skipLines rounds rest
    | none => cs

/-- Skips spaces, comments and line ends. -/
def skipBetween (cs : List Char) : List Char := skipLines cs.length cs

/-!
## Text

Between double quotes a backslash escapes, between single quotes nothing does. Three quotes at
either end allow line ends between them; a line end right behind the first three is dropped, and up to
two more quotes may stand before the last three.
-/

/-- The value of a hexadecimal digit. -/
def hexDigit? (c : Char) : Option Nat :=
  if c.isDigit then some (c.toNat - '0'.toNat)
  else if 'a' ≤ c ∧ c ≤ 'f' then some (c.toNat - 'a'.toNat + 10)
  else if 'A' ≤ c ∧ c ≤ 'F' then some (c.toNat - 'A'.toNat + 10)
  else none

/-- The character of a code point. Surrogates and numbers beyond the last code point have none. -/
def charOfPoint? (n : Nat) : Option Char :=
  if n < 0xD800 ∨ (0xDFFF < n ∧ n < 0x110000) then some (Char.ofNat n) else none

/-- Takes a code point of exactly `digits` hexadecimal digits. -/
def takePoint? : (digits : Nat) → (value : Nat) → List Char → Option (Char × List Char)
  | 0, value, cs => (charOfPoint? value).map fun c => (c, cs)
  | _ + 1, _, [] => none
  | digits + 1, value, c :: cs => do
    let d ← hexDigit? c
    takePoint? digits (16 * value + d) cs

/-- Takes the escape behind a backslash. -/
def takeEscape? : List Char → Option (Char × List Char)
  | 'b' :: cs => some ('\x08', cs)
  | 't' :: cs => some ('\t', cs)
  | 'n' :: cs => some ('\n', cs)
  | 'f' :: cs => some ('\x0c', cs)
  | 'r' :: cs => some ('\r', cs)
  | '"' :: cs => some ('"', cs)
  | '\\' :: cs => some ('\\', cs)
  | 'u' :: cs => takePoint? 4 0 cs
  | 'U' :: cs => takePoint? 8 0 cs
  | _ => none

/-- Takes text on one line up to the quote. Every round takes a character, so there are no more rounds
than characters. -/
def takeLineText? (quote : Char) : (rounds : Nat) → List Char → Option (List Char × List Char)
  | 0, _ => none
  | _ + 1, [] => none
  | rounds + 1, c :: cs =>
    if c = quote then some ([], cs)
    else if c = '\\' ∧ quote = '"' then do
      let (e, rest) ← takeEscape? cs
      let (s, rest) ← takeLineText? quote rounds rest
      return (e :: s, rest)
    else if isPlain c then do
      let (s, rest) ← takeLineText? quote rounds cs
      return (c :: s, rest)
    else none

/-- Skips spaces and line ends. -/
def skipBlank : (rounds : Nat) → List Char → List Char
  | 0, cs => cs
  | rounds + 1, cs =>
    let cs := skipSpaces cs
    match takeLineEnd? cs with
    | some rest => skipBlank rounds rest
    | none => cs

/-- The rest behind a backslash that ends a line: the line end and all space behind it is skipped. -/
def skipFolded? (cs : List Char) : Option (List Char) := do
  let rest ← takeLineEnd? (skipSpaces cs)
  return skipBlank rest.length rest

/-- Takes text over lines up to three quotes. A line end becomes a line feed. Every round takes a
character, so there are no more rounds than characters. -/
def takeBlockText? (quote : Char) : (rounds : Nat) → List Char → Option (List Char × List Char)
  | 0, _ => none
  | _ + 1, [] => none
  | rounds + 1, c :: cs =>
    if c = quote then
      let run := (c :: cs).takeWhile (· = quote)
      let rest := (c :: cs).dropWhile (· = quote)
      if run.length < 3 then do
        let (s, rest) ← takeBlockText? quote rounds rest
        return (run ++ s, rest)
      else if run.length ≤ 5 then some (run.drop 3, rest)
      else none
    else if c = '\\' ∧ quote = '"' then
      match skipFolded? cs with
      | some rest => takeBlockText? quote rounds rest
      | none => do
        let (e, rest) ← takeEscape? cs
        let (s, rest) ← takeBlockText? quote rounds rest
        return (e :: s, rest)
    else
      match takeLineEnd? (c :: cs) with
      | some rest => do
        let (s, rest) ← takeBlockText? quote rounds rest
        return ('\n' :: s, rest)
      | none =>
        if isPlain c then do
          let (s, rest) ← takeBlockText? quote rounds cs
          return (c :: s, rest)
        else none

/-- Takes text behind its first quote, which must be on one line. -/
def takeQuoted? (quote : Char) (cs : List Char) : Option (String × List Char) := do
  let (s, rest) ← takeLineText? quote cs.length cs
  return (String.ofList s, rest)

/-- Takes text behind its first quote. -/
def takeText? (quote : Char) (cs : List Char) : Option (String × List Char) :=
  if [quote, quote].isPrefixOf cs then do
    let body := cs.drop 2
    let body := (takeLineEnd? body).getD body
    let (s, rest) ← takeBlockText? quote body.length body
    return (String.ofList s, rest)
  else takeQuoted? quote cs

/-! ## Keys -/

/-- Takes one part of a key. -/
def takeKeyPart? : List Char → Option (String × List Char)
  | '"' :: cs => takeQuoted? '"' cs
  | '\x27' :: cs => takeQuoted? '\x27' cs
  | cs =>
    let part := cs.takeWhile isBare
    if part.isEmpty then none else some (String.ofList part, cs.dropWhile isBare)

/-- Takes the parts of a key, which points separate; spaces may stand around each. Every round takes a
character, so there are no more rounds than characters. -/
def takeKeyParts? : (rounds : Nat) → List Char → Option (List String × List Char)
  | 0, _ => none
  | rounds + 1, cs => do
    let (part, rest) ← takeKeyPart? (skipSpaces cs)
    match skipSpaces rest with
    | '.' :: rest => do
      let (parts, rest) ← takeKeyParts? rounds rest
      return (part :: parts, rest)
    | rest => return ([part], rest)

/-- A key: the tables on the way and the last part. -/
structure Key where
  path : List String
  last : String
  deriving DecidableEq, Repr

def Key.ofParts? (parts : List String) : Option Key := do
  let last ← parts.getLast?
  return { path := parts.dropLast, last := last }

/-- The deepest nesting of arrays and inline tables, and the most parts that a dotted key has, are less
than this. -/
def nestingLimit : Nat := 80

def takeKey? (limit : Nat) (cs : List Char) : Option (Key × List Char) := do
  let (parts, rest) ← takeKeyParts? cs.length cs
  if parts.length < limit then
    let key ← Key.ofParts? parts
    return (key, rest)
  else none

end Transcript.Toml
