import Transcript.Decimal
import Transcript.Toml
import Transcript.Toml.Text
import Transcript.Word

/-!
TOML numbers and moments. Digits may be grouped by single underscores. Integers are signed words of 64
bits, and those in other bases have no sign; a number has no zeros in front. A moment is a date, a time,
or a date and a time with or without an offset; it must exist in the calendar.
-/
namespace Transcript.Toml

/-- Takes digits with property `p`; an underscore must stand between two of them. -/
def takeDigits (p : Char → Bool) : List Char → List Char × List Char
  | [] => ([], [])
  | [c] => if p c then ([c], []) else ([], [c])
  | c :: d :: cs =>
    if p c then
      if d = '_' then
        match cs with
        | e :: _ =>
          if p e then
            let (digits, rest) := takeDigits p cs
            (c :: digits, rest)
          else ([c], d :: cs)
        | [] => ([c], d :: cs)
      else
        let (digits, rest) := takeDigits p (d :: cs)
        (c :: digits, rest)
    else ([], c :: d :: cs)

def takeSign : List Char → List Char × List Char
  | '+' :: cs => (['+'], cs)
  | '-' :: cs => (['-'], cs)
  | cs => ([], cs)

/-- Takes the digits of a number without zeros in front: a zero is a number of its own. -/
def takeWhole : List Char → List Char × List Char
  | '0' :: cs => (['0'], cs)
  | cs => takeDigits Char.isDigit cs

/-- The number that digits write in a base. -/
def numberIn (base : Nat) (digits : List Char) : Nat :=
  digits.foldl (fun n c => base * n + (hexDigit? c).getD 0) 0

/-- An integer, if it fits the word. -/
def integer? (n : Int) : Option Toml := (Word.ofInt? n).map .integer

/-- Takes an integer in another base than ten behind the sign of the base. -/
def takeBased? (base : Nat) (cs : List Char) : Option (Toml × List Char) := do
  let (digits, rest) := takeDigits (fun c => (hexDigit? c).any (· < base)) cs
  if digits.isEmpty then none
  else
    let n ← integer? (numberIn base digits)
    return (n, rest)

/-- Takes an integer. -/
def takeInteger? : List Char → Option (Toml × List Char)
  | '0' :: 'x' :: cs => takeBased? 16 cs
  | '0' :: 'o' :: cs => takeBased? 8 cs
  | '0' :: 'b' :: cs => takeBased? 2 cs
  | cs => do
    let (sign, rest) := takeSign cs
    let (digits, rest) := takeWhole rest
    if digits.isEmpty then none
    else
      let n : Int := numberIn 10 digits
      let n ← integer? (if sign = ['-'] then -n else n)
      return (n, rest)

def takeFraction : List Char → List Char × List Char
  | '.' :: cs =>
    let (digits, rest) := takeDigits Char.isDigit cs
    if digits.isEmpty then ([], '.' :: cs) else ('.' :: digits, rest)
  | cs => ([], cs)

def takePower : List Char → List Char × List Char
  | c :: cs =>
    if c = 'e' ∨ c = 'E' then
      let (sign, rest) := takeSign cs
      let (digits, rest) := takeDigits Char.isDigit rest
      if digits.isEmpty then ([], c :: cs) else (c :: (sign ++ digits), rest)
    else ([], c :: cs)
  | [] => ([], [])

/-- Takes a word for infinity or for no number behind a sign. -/
def takeWord? (sign : List Char) : List Char → Option (Toml × List Char)
  | 'i' :: 'n' :: 'f' :: cs =>
    (Decimal.read? (sign ++ "inf".toList)).map fun x => (.float x, cs)
  | 'n' :: 'a' :: 'n' :: cs =>
    (Decimal.read? (sign ++ "nan".toList)).map fun x => (.float x, cs)
  | _ => none

/-- Takes a number with a fraction or a power of ten, or a word. A number too large to be written is
refused. -/
def takeFloat? (cs : List Char) : Option (Toml × List Char) := do
  let (sign, rest) := takeSign cs
  let (whole, rest) := takeWhole rest
  if whole.isEmpty then takeWord? sign rest
  else
    let (fraction, rest) := takeFraction rest
    let (power, rest) := takePower rest
    if fraction.isEmpty ∧ power.isEmpty then none
    else
      let x ← Decimal.read? (sign ++ whole ++ fraction ++ power)
      if x == 1.0 / 0.0 then none else return (.float x, rest)

/-! ## Moments -/

/-- Takes exactly `digits` digits. -/
def takeFixed? (digits : Nat) (cs : List Char) : Option (Nat × List Char) :=
  let taken := cs.take digits
  if taken.length = digits ∧ taken.all Char.isDigit then
    some (Decimal.natOfDigits taken, cs.drop digits)
  else none

def takeChar? (c : Char) : List Char → Option (List Char)
  | d :: cs => if c = d then some cs else none
  | [] => none

def daysIn (year month : Nat) : Nat :=
  if month = 2 then
    if year % 4 = 0 ∧ (year % 100 ≠ 0 ∨ year % 400 = 0) then 29 else 28
  else if month = 4 ∨ month = 6 ∨ month = 9 ∨ month = 11 then 30
  else 31

def skipDate? (cs : List Char) : Option (List Char) := do
  let (year, cs) ← takeFixed? 4 cs
  let cs ← takeChar? '-' cs
  let (month, cs) ← takeFixed? 2 cs
  let cs ← takeChar? '-' cs
  let (day, cs) ← takeFixed? 2 cs
  if 1 ≤ month ∧ month ≤ 12 ∧ 1 ≤ day ∧ day ≤ daysIn year month then return cs else none

def skipClock? (cs : List Char) : Option (List Char) := do
  let (hour, cs) ← takeFixed? 2 cs
  let cs ← takeChar? ':' cs
  let (minute, cs) ← takeFixed? 2 cs
  if hour ≤ 23 ∧ minute ≤ 59 then return cs else none

/-- Skips the parts of a second. -/
def skipParts (cs : List Char) : List Char :=
  match cs with
  | '.' :: c :: rest => if c.isDigit then rest.dropWhile Char.isDigit else cs
  | _ => cs

def skipTime? (cs : List Char) : Option (List Char) := do
  let cs ← skipClock? cs
  let cs ← takeChar? ':' cs
  let (second, cs) ← takeFixed? 2 cs
  if second ≤ 60 then return skipParts cs else none

/-- Skips an offset, if there is one. -/
def skipOffset? : List Char → Option (List Char)
  | 'Z' :: cs => some cs
  | 'z' :: cs => some cs
  | '+' :: cs => skipClock? cs
  | '-' :: cs => skipClock? cs
  | cs => some cs

/-- Skips a time behind a date, if there is one. -/
def skipTimeOfDay? : List Char → Option (List Char)
  | c :: cs =>
    if c = 'T' ∨ c = 't' ∨ c = ' ' then
      match skipTime? cs with
      | some rest => skipOffset? rest
      | none => some (c :: cs)
    else some (c :: cs)
  | [] => some []

def skipMoment? (cs : List Char) : Option (List Char) :=
  match skipDate? cs with
  | some rest => skipTimeOfDay? rest
  | none => skipTime? cs

def takeMoment? (cs : List Char) : Option (Toml × List Char) := do
  let rest ← skipMoment? cs
  return (.moment (String.ofList (cs.take (cs.length - rest.length))), rest)

end Transcript.Toml
