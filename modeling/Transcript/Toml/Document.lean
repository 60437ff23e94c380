import Transcript.Toml.Value

/-!
TOML documents. A document is a list of sections, each with a header and pairs; the first section has none.
A header names a table or a new table of a series. Reading puts the sections together in order. Writing makes a
section for each table of scalars.
-/
namespace Transcript.Toml

/-! ## Reading -/

/-- The header of a section. -/
inductive Header where
  | table (key : Key)
  | item (key : Key)
  deriving DecidableEq, Repr

/-- A line of a document. -/
inductive Line where
  | empty
  | header (h : Header)
  | pair (key : Key) (v : Toml)

/-- Takes a header behind its first bracket. Two brackets in a row make an item of a series. -/
def takeHeader? : List Char → Option (Header × List Char)
  | '[' :: cs => do
    let (key, rest) ← takeKey? nestingLimit cs
    let rest ← takeChar? ']' rest
    let rest ← takeChar? ']' rest
    return (.item key, rest)
  | cs => do
    let (key, rest) ← takeKey? nestingLimit cs
    let rest ← takeChar? ']' rest
    return (.table key, rest)

/-- Takes a line with its end. -/
def takeLine? (cs : List Char) : Option (Line × List Char) :=
  match finishLine? cs with
  | some rest => some (.empty, rest)
  | none =>
    match skipSpaces cs with
    | '[' :: cs => do
      let (h, rest) ← takeHeader? cs
      let rest ← finishLine? rest
      return (.header h, rest)
    | cs => do
      let ((key, v), rest) ← takePair? (takeValue? (nestingLimit - 1)) cs
      let rest ← finishLine? rest
      return (.pair key v, rest)

/-- Takes all lines. Every round takes a character, so there are no more rounds than characters. -/
def takeDocument? : (rounds : Nat) → List Char → Option (List Line)
  | _, [] => some []
  | 0, _ :: _ => none
  | rounds + 1, c :: cs => do
    let (line, rest) ← takeLine? (c :: cs)
    let lines ← takeDocument? rounds rest
    return line :: lines

/-- A section: its header and its pairs. -/
structure Section where
  header : Header
  pairs : List (Key × Toml)

/-- The pairs before the first header, and the sections. -/
def sectionsOf : List Line → List (Key × Toml) × List Section
  | [] => ([], [])
  | line :: lines =>
    let (pairs, sections) := sectionsOf lines
    match line with
    | .empty => (pairs, sections)
    | .pair key v => ((key, v) :: pairs, sections)
    | .header h => ([], { header := h, pairs := pairs } :: sections)

/-- Gives a table a header: a new table, or one that was only implied so far. -/
def defineTable? (pairs : List (Key × Toml)) (key : String) (entries : Entries) : Option Entries :=
  match entries.lookup key with
  | none => do
    let body ← assignAll? pairs []
    return entries ++ [(key, .table .header body)]
  | some (.table .implied sub) => do
    let body ← assignAll? pairs sub
    return entries.filter (·.1 ≠ key) ++ [(key, .table .header body)]
  | some _ => none

/-- Adds a table to a series. -/
def extendSeries? (pairs : List (Key × Toml)) (key : String) (entries : Entries) :
    Option Entries :=
  match entries.lookup key with
  | none => do
    let body ← assignAll? pairs []
    return entries ++ [(key, .series [body])]
  | some (.series tables) => do
    let body ← assignAll? pairs []
    return replaceEntry key (.series (tables ++ [body])) entries
  | some _ => none

/-- Adds a section. Headers enter all tables but closed ones. -/
def addSection? (entries : Entries) (s : Section) : Option Entries :=
  match s.header with
  | .table key =>
    changeAt? .implied (· ≠ .closed) (fun _ => defineTable? s.pairs key.last) key.path .header
      entries
  | .item key =>
    changeAt? .implied (· ≠ .closed) (fun _ => extendSeries? s.pairs key.last) key.path .header
      entries

def assemble? (lines : List Line) : Option Entries := do
  let (pairs, sections) := sectionsOf lines
  let root ← assignAll? pairs []
  sections.foldlM addSection? root

/-- The entries of a document. A mark of the byte order at the start is skipped. -/
def parse? (document : String) : Option Entries := do
  let cs := match document.toList with
    | '\ufeff' :: cs => cs
    | cs => cs
  let lines ← takeDocument? cs.length cs
  assemble? lines

/-!
## Writing

A text of one character is written so that it reads back: a backslash or a double quote stands between single quotes, a
line feed between three double quotes on lines of their own, and all else between double quotes, with controls escaped.
-/

/-- A hexadecimal number with at least four capital digits. -/
def fourDigits (n : Nat) : List Char :=
  let digits := (Nat.toDigits 16 n).map Char.toUpper
  List.replicate (4 - digits.length) '0' ++ digits

/-- A character between double quotes. -/
def escapeBasic (c : Char) : List Char :=
  if c = '\x08' then ['\\', 'b']
  else if c = '\t' then ['\\', 't']
  else if c = '\n' then ['\\', 'n']
  else if c = '\x0c' then ['\\', 'f']
  else if c = '\r' then ['\\', 'r']
  else if c = '"' then ['\\', '"']
  else if c = '\\' then ['\\', '\\']
  else if c.toNat < 32 ∨ c.toNat = 127 then '\\' :: 'u' :: fourDigits c.toNat
  else [c]

def writeText (cs : List Char) : List Char := '"' :: (cs.flatMap escapeBasic ++ ['"'])

def writeChar (c : Char) : List Char :=
  if c = '\\' ∨ c = '"' then ['\x27', c, '\x27']
  else if c = '\n' then ['"', '"', '"', '\n', '\n', '"', '"', '"']
  else writeText [c]

def writeBoolean (b : Bool) : List Char := (if b then "true" else "false").toList

def writeNumber (n : Nat) : List Char := Nat.toDigits 10 n

/-- A pair on a line of its own. -/
def writePair (key : String) (v : List Char) : List Char :=
  key.toList ++ ' ' :: '=' :: ' ' :: (v ++ ['\n'])

/-- A section: its header and its pairs. -/
def writeSection (name : String) (pairs : List (String × List Char)) : List Char :=
  '[' :: (name.toList ++ ']' :: '\n' :: pairs.flatMap fun (key, v) => writePair key v)

/-- A scalar. -/
def writeValue? : Toml → Option (List Char)
  | .text s =>
    match s.toList with
    | [c] => some (writeChar c)
    | cs => some (writeText cs)
  | .integer n => if 0 ≤ n ∧ n < Word.bound then some (writeNumber n.toNat) else none
  | .boolean b => some (writeBoolean b)
  | _ => none

/-- An entry with its written value. Its key must need no quotes. -/
def writeItem? (e : String × Toml) : Option (String × List Char) :=
  if IsBareKey e.1 then (writeValue? e.2).map fun v => (e.1, v) else none

/-- A table of scalars, under a header without quotes. -/
def writeTable? : String × Toml → Option (List Char)
  | (name, .table _ entries) =>
    if IsBareKey name then (entries.mapM writeItem?).map (writeSection name) else none
  | _ => none

/-- The document of tables, with an empty line between two of them. -/
def write? (entries : Entries) : Option String :=
  (entries.mapM writeTable?).map fun sections => String.ofList (['\n'].intercalate sections)

/-- The format of this writer and this reader. -/
def format : Format := { write? := write?, read? := parse? }

end Transcript.Toml
