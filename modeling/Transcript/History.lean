/-!
The history of submitted statements. It holds the newest ones up to a capacity. Recalling starts with the
newest entry and keeps the edit it started from; going forward past the newest entry gives the edit
back.
-/
namespace Transcript

/-- The lines of a statement. -/
abbrev Lines := List String

/-- A recall: the index of the entry shown, and the edit that it hides. -/
structure Recall where
  index : Nat
  edit : Lines
  deriving DecidableEq, Repr

/-- Submitted statements, the oldest first. -/
structure History where
  entries : List Lines := []
  capacity : Nat
  shown : Option Recall := none
  deriving DecidableEq, Repr

/-- The directions of a recall. -/
inductive Direction where
  | backward
  | forward
  deriving DecidableEq, Repr

namespace History

def defaultCapacity : Nat := 1000

/-- A history without entries; it has room for at least one. -/
def new (capacity : Nat) : History := { capacity := max capacity 1 }

def size (h : History) : Nat := h.entries.length

/-- Whether an entry is shown instead of the edit. -/
def isRecalling (h : History) : Bool := h.shown.isSome

def reset (h : History) : History := { h with shown := none }

/-- Adds a statement, and drops the oldest ones that have no room. -/
def append (h : History) (statement : Lines) : History :=
  let entries := h.entries ++ [statement]
  { h with entries := entries.drop (entries.length - h.capacity), shown := none }

def showEntry (h : History) (index : Nat) (edit : Lines) : Lines × History :=
  (h.entries[index]?.getD [], { h with shown := some ⟨index, edit⟩ })

/-- Moves by one entry from the lines that are shown, and gives the lines to show. -/
def move (h : History) (direction : Direction) (current : Lines) : Lines × History :=
  match direction, h.shown with
  | .backward, none =>
    if h.entries.isEmpty then (current, h) else h.showEntry (h.entries.length - 1) current
  | .backward, some ⟨0, _⟩ => (current, h)
  | .backward, some ⟨i + 1, edit⟩ => h.showEntry i edit
  | .forward, none => (current, h)
  | .forward, some ⟨i, edit⟩ =>
    if i + 1 < h.entries.length then h.showEntry (i + 1) edit
    else (edit, { h with shown := none })

end History

end Transcript
