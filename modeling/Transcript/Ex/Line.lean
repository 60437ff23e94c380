import Transcript.Command

/-!
Lines of the command language. Bars separate commands, but not between quotes; the quotes are told apart by
their kind alone. A command starts with a verb, which may be abbreviated.
-/
namespace Transcript.Ex

/-- Cuts a line at the bars outside quotes; `quote` is the quote that is open. -/
def splitBars : (quote : Option Char) → List Char → List (List Char)
  | _, [] => [[]]
  | quote, c :: cs =>
    let keep := fun quote => match splitBars quote cs with
      | [] => [[c]]
      | p :: ps => (c :: p) :: ps
    match quote with
    | some q => keep (if c = q then none else some q)
    | none =>
      if c = '"' ∨ c = '\x27' then keep (some c)
      else if c = '|' then [] :: splitBars none cs
      else keep none

/-- The verbs. -/
inductive Verb where
  | call
  | echo
  | define
  | undefine
  deriving DecidableEq, Repr

namespace Verb

def all : List Verb := [.call, .echo, .define, .undefine]

def name : Verb → String
  | .call => "call"
  | .echo => "echo"
  | .define => "let"
  | .undefine => "unlet"

/-- The length of the shortest abbreviation. -/
def leastLength : Verb → Nat
  | .call => 3
  | .echo => 2
  | .define => 3
  | .undefine => 3

/-- The verb that a word calls. -/
def lookup? (word : String) : Option Verb :=
  all.find? fun v => abbreviates word v.name v.leastLength

end Verb

/-- Whether a character may stand before a command. -/
def isLeading (c : Char) : Bool := c == ' ' || c == '\t' || c == ':'

/-- A command without what stands before it. -/
def command (cs : List Char) : List Char := cs.dropWhile isLeading

/-- Whether a command does nothing: it is empty or a comment. -/
def isIdle (cs : List Char) : Bool :=
  match cs with
  | [] => true
  | c :: _ => c == '"'

/-- The word that a command starts with, and its argument. -/
def splitVerb (cs : List Char) : List Char × List Char :=
  (cs.takeWhile Char.isAlpha, cs.dropWhile Char.isAlpha)

end Transcript.Ex
