import Transcript.Toml.Number

/-!
Reading TOML values. Arrays may go over lines and end in a comma; inline tables stay on one line and do
not. Both nest to a limited depth.
-/
namespace Transcript.Toml

/-! ## Adding to tables -/

def replaceEntry (key : String) (v : Toml) (entries : Entries) : Entries :=
  entries.map fun e => if e.1 = key then (key, v) else e

/-- Goes down a path and changes the table at its end. Tables missing on the way are made as `fresh`; a
table on the way lets pass if its origin is one that `enter` allows, and of a series the last table is
entered. -/
def changeAt? (fresh : Origin) (enter : Origin → Bool) (change : Origin → Entries → Option Entries) :
    List String → Origin → Entries → Option Entries
  | [], origin, entries => change origin entries
  | key :: path, _, entries =>
    match entries.lookup key with
    | none => do
      let sub ← changeAt? fresh enter change path fresh []
      return entries ++ [(key, .table fresh sub)]
    | some (.table origin sub) =>
      if enter origin then do
        let sub ← changeAt? fresh enter change path origin sub
        return replaceEntry key (.table origin sub) entries
      else none
    | some (.series tables) => do
      let last ← tables.getLast?
      let sub ← changeAt? fresh enter change path .header last
      return replaceEntry key (.series (tables.dropLast ++ [sub])) entries
    | some _ => none

/-- Whether dotted keys may add to a table. -/
def takesDotted : Origin → Bool
  | .header => false
  | .implied => true
  | .dotted => true
  | .closed => false

/-- Adds a value under a key. A dotted key adds to tables that dotted keys made, and no key is given
twice. -/
def assign? (entries : Entries) (key : Key) (v : Toml) : Option Entries :=
  changeAt? .dotted takesDotted
    (fun origin table =>
      if key.path ≠ [] ∧ origin ≠ .dotted then none
      else if (table.lookup key.last).isSome then none
      else some (table ++ [(key.last, v)]))
    key.path .header entries

def assignAll? (pairs : List (Key × Toml)) (entries : Entries) : Option Entries :=
  pairs.foldlM (fun entries (key, v) => assign? entries key v) entries

/-! ## Reading -/

/-- Readers of a value. -/
abbrev ValueReader := List Char → Option (Toml × List Char)

/-- Reads the items of an array up to its end. Every round takes a character, so there are no more
rounds than characters. -/
def takeItems? (item : ValueReader) : (rounds : Nat) → List Char → Option (List Toml × List Char)
  | 0, _ => none
  | rounds + 1, cs =>
    match skipBetween cs with
    | ']' :: rest => some ([], rest)
    | cs => do
      let (v, rest) ← item cs
      match skipBetween rest with
      | ',' :: rest => do
        let (vs, rest) ← takeItems? item rounds rest
        return (v :: vs, rest)
      | ']' :: rest => return ([v], rest)
      | _ => none

/-- Reads a key, the sign and a value. -/
def takePair? (item : ValueReader) (cs : List Char) : Option ((Key × Toml) × List Char) := do
  let (key, rest) ← takeKey? nestingLimit cs
  let rest ← takeChar? '=' rest
  let (v, rest) ← item (skipSpaces rest)
  return ((key, v), rest)

/-- Reads the pairs of an inline table up to its end, at least one. Every round takes a character, so
there are no more rounds than characters. -/
def takePairs? (item : ValueReader) :
    (rounds : Nat) → List Char → Option (List (Key × Toml) × List Char)
  | 0, _ => none
  | rounds + 1, cs => do
    let (pair, rest) ← takePair? item cs
    match skipSpaces rest with
    | ',' :: rest => do
      let (pairs, rest) ← takePairs? item rounds rest
      return (pair :: pairs, rest)
    | '\x7d' :: rest => return ([pair], rest)
    | _ => none

/-- Reads an inline table behind its opening brace. -/
def takeInline? (item : ValueReader) (cs : List Char) : Option (Toml × List Char) :=
  match skipSpaces cs with
  | '\x7d' :: rest => some (.table .closed [], rest)
  | cs => do
    let (pairs, rest) ← takePairs? item cs.length cs
    let entries ← assignAll? pairs []
    return (.table .closed entries, rest)

/-- Reads a number or a moment: a moment if the text starts with one, else a number with a fraction or a
power of ten, else an integer. -/
def takeNumber? (cs : List Char) : Option (Toml × List Char) :=
  (takeMoment? cs).orElse fun _ => (takeFloat? cs).orElse fun _ => takeInteger? cs

/-- Reads a value whose arrays and inline tables nest at most `levels` deep. -/
def takeValue? : (levels : Nat) → ValueReader
  | levels, cs =>
    match cs with
    | '"' :: rest => (takeText? '"' rest).map fun (s, rest) => (.text s, rest)
    | '\x27' :: rest => (takeText? '\x27' rest).map fun (s, rest) => (.text s, rest)
    | '[' :: rest =>
      match levels with
      | 0 => none
      | levels + 1 =>
        (takeItems? (takeValue? levels) rest.length rest).map fun (vs, rest) => (.array vs, rest)
    | '\x7b' :: rest =>
      match levels with
      | 0 => none
      | levels + 1 => takeInline? (takeValue? levels) rest
    | 't' :: 'r' :: 'u' :: 'e' :: rest => some (.boolean true, rest)
    | 'f' :: 'a' :: 'l' :: 's' :: 'e' :: rest => some (.boolean false, rest)
    | _ => takeNumber? cs

end Transcript.Toml
