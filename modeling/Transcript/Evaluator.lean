import Transcript.Host
import Transcript.Output
import Transcript.Text
import Transcript.Token.Scan
import Transcript.Value

/-!
Evaluators. An evaluator keeps a state of its own, runs a program given by its lines, completes the end of a
text, and shortens its messages for display. Of the host it sees only the current place.
-/
namespace Transcript

/-!
## Shared functions

The functions that both languages share. Missing arguments are nothing, and arguments beyond the first
are ignored.
-/

/-- The names of the functions that completion offers in both languages. -/
def builtinNames : List String := ["bufnr", "len", "tonumber", "tostring", "type", "winnr"]

/-- Calls a shared function; no result if there is none of that name. -/
def callBuiltin (place : Place) (function : String) (args : List Value) :
    Option (Except Fault Value) :=
  let first := args.head?.getD .nil
  match function with
  | "tostring" => some (.ok (.text first.display))
  | "string" => some (.ok (.text first.display))
  | "tonumber" => some (.ok ((first.asNumber?.map Value.number).getD .nil))
  | "type" => some (.ok (.text first.kind.name))
  | "len" =>
    match first with
    | .text s => some (.ok (.number (Float.ofNat s.length)))
    | v => some (.error (.badArgument function 1 ("string expected, got " ++ v.kind.name)))
  | "bufnr" => some (.ok (.number (Float.ofNat place.buffer)))
  | "winnr" => some (.ok (.number (Float.ofNat place.window)))
  | _ => none

/-!
## Completing words

Completing a word. A completion is a list of candidates for the text from `offset` on, a column counted
from 1; offset 0 says that there is nothing to complete.
-/

/-- Candidates and the column, counted from 1, where the text they replace starts. -/
structure Completion where
  offset : Nat := 0
  candidates : List String := []
  deriving DecidableEq, Repr

namespace Completion

def none : Completion := {}

def isEmpty (c : Completion) : Bool := c.candidates.isEmpty

end Completion

def startingWith (start : List Char) (names : List String) : List String :=
  names.filter fun n => start.isPrefixOf n.toList

/-- The names in ascending order, each once. -/
def inOrder (names : List String) : List String :=
  (names.mergeSort fun a b => !decide (b < a)).eraseReps

/-- The word that ends a text, and what stands before it. -/
def lastWord (cs : List Char) : List Char × List Char :=
  ((cs.reverse.dropWhile Token.continuesWord).reverse,
    (cs.reverse.takeWhile Token.continuesWord).reverse)

/-- Completes the word that ends the text by the names that start with it. -/
def completeWord (text : String) (names : List String) : Completion :=
  let (before, word) := lastWord text.toList
  if word.isEmpty then .none
  else { offset := Text.byteLength before + 1, candidates := inOrder (startingWith word names) }

/-! ## Evaluating -/

/-- What an evaluation sees: the current place, and whether values are shown in full. -/
structure View where
  place : Place
  inspect : Bool
  deriving DecidableEq, Repr

/-- How an evaluation ends. A crash may leave a message. -/
inductive Outcome where
  | done
  | value (text : String)
  | hold
  | failed (message : String)
  | crashed (message : Option String)
  deriving DecidableEq, Repr

/-- An evaluation: its end, its output and the state it leaves. -/
structure Evaluation (σ : Type) where
  outcome : Outcome
  output : Sink
  state : σ

/-- Evaluators with states of type `σ`. -/
class Evaluator (σ : Type) where
  eval : List String → View → σ → Evaluation σ
  complete : σ → String → Completion
  cleanError : σ → String → String := fun _ message => message

/-- A value as an evaluation shows it. -/
def View.render (view : View) (v : Value) : String :=
  if view.inspect then v.inspect else v.display

end Transcript
