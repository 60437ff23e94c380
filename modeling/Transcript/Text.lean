import Transcript.Text.Class

/-!
Texts: cutting them into lines, trimming, the columns of a line, and quoting.
-/
namespace Transcript.Text

/-!
## Lines

Cutting text into lines. A text is cut at every line feed; a source text is cut into its lines,
where a line ending is a line feed or a carriage return and a line feed.
-/

/-- The line without a carriage return at its end. -/
def chompReturn (cs : List Char) : List Char :=
  if cs.getLast? = some '\r' then cs.dropLast else cs

/-- Lines from pieces: the last piece is a line only if it holds something, and only a piece that a
line feed ended loses a carriage return. -/
def linesOfPieces : List (List Char) → List (List Char)
  | [] => []
  | [last] => if last.isEmpty then [] else [last]
  | p :: ps => chompReturn p :: linesOfPieces ps

def sourceLines (s : String) : List String :=
  (linesOfPieces (s.toList.splitOn '\n')).map String.ofList

/-!
## Trimming

Trimming. White space is the property of `Transcript.Text.Blank`; the functions on strings are the
functions on lists of characters seen through `toList`.
-/

/-- Drops the characters with property `p` from the end. -/
def dropEndWhile (p : Char → Bool) (cs : List Char) : List Char :=
  (cs.reverse.dropWhile p).reverse

def trim (cs : List Char) : List Char :=
  dropEndWhile isBlank (cs.dropWhile isBlank)

def trimmed (s : String) : String := String.ofList (trim s.toList)

def trimmedEnd (s : String) : String := String.ofList (dropEndWhile isBlank s.toList)

/-- Whether the text has nothing but white space. -/
def isBlankText (s : String) : Bool := s.toList.all isBlank

theorem dropEndWhile_nil (p : Char → Bool) : dropEndWhile p [] = [] := rfl

/-- What is dropped has the property. -/
theorem exists_dropEndWhile_append (p : Char → Bool) (cs : List Char) :
    ∃ tail, cs = dropEndWhile p cs ++ tail ∧ tail.all p = true := by
  refine ⟨(cs.reverse.takeWhile p).reverse, ?_, ?_⟩
  · rw [dropEndWhile, ← List.reverse_append, List.takeWhile_append_dropWhile, List.reverse_reverse]
  · simp [List.all_reverse, List.all_takeWhile]

/-!
## Columns

Columns. A column counts the bytes of the UTF-8 form before a place in a line; `cutAt` turns any
number into such a place, going back to the start of the character it falls into and to the end
of a line that is shorter.
-/

/-- The number of bytes of the UTF-8 form. -/
def byteLength : List Char → Nat
  | [] => 0
  | c :: cs => c.utf8Size + byteLength cs

@[simp] theorem byteLength_nil : byteLength [] = 0 := rfl

@[simp] theorem byteLength_cons (c : Char) (cs : List Char) :
    byteLength (c :: cs) = c.utf8Size + byteLength cs := rfl

@[simp] theorem byteLength_append (as bs : List Char) :
    byteLength (as ++ bs) = byteLength as + byteLength bs := by
  induction as with
  | nil => simp
  | cons c cs ih =>
    simp only [List.cons_append, byteLength_cons, ih]
    omega

/-- Cuts a line into what stands before column `col` and the rest. -/
def cutAt : Nat → List Char → List Char × List Char
  | _, [] => ([], [])
  | col, c :: cs =>
    if c.utf8Size ≤ col then
      let (before, after) := cutAt (col - c.utf8Size) cs
      (c :: before, after)
    else ([], c :: cs)

/-- Cutting loses nothing. -/
theorem cutAt_append (col : Nat) (cs : List Char) : (cutAt col cs).1 ++ (cutAt col cs).2 = cs := by
  induction cs generalizing col with
  | nil => rfl
  | cons c cs ih =>
    simp only [cutAt]
    split
    · simpa using ih (col - c.utf8Size)
    · rfl

/-- The part before the column has at most that many bytes. -/
theorem byteLength_cutAt_le (col : Nat) (cs : List Char) : byteLength (cutAt col cs).1 ≤ col := by
  induction cs generalizing col with
  | nil => simp [cutAt]
  | cons c cs ih =>
    simp only [cutAt]
    split
    · have := ih (col - c.utf8Size)
      simp only [byteLength_cons]
      omega
    · simp

/-!
## Quoting

Quoted text. Between quotes a character stands for itself if it is printable and joins no other; the
quote, the backslash and four control characters have short escapes, and all else is written by
its code point in hexadecimal digits.
-/

/-- The code point in hexadecimal digits between braces. -/
def codePointEscape (c : Char) : List Char :=
  '\\' :: 'u' :: '\x7b' :: (Nat.toDigits 16 c.toNat ++ ['\x7d'])

/-- One character between quotes of the kind `quote`. -/
def escapeIn (quote : Char) (c : Char) : List Char :=
  if c = '\x00' then ['\\', '0']
  else if c = '\t' then ['\\', 't']
  else if c = '\r' then ['\\', 'r']
  else if c = '\n' then ['\\', 'n']
  else if c = '\\' ∨ c = quote then ['\\', c]
  else if isExtending c ∨ ¬ isPrintable c then codePointEscape c
  else [c]

def quoted (s : String) : String :=
  String.ofList ('"' :: s.toList.flatMap (escapeIn '"') ++ ['"'])

def quotedChar (c : Char) : String :=
  String.ofList ('\x27' :: escapeIn '\x27' c ++ ['\x27'])

end Transcript.Text
