import Transcript.Buffer
import Transcript.Table

/-!
The host holds buffers and the windows that show them. Numbers are given out in ascending order and never
again, so a number whose buffer is gone stays invalid. They are not bounded here: a host that gave out fewer than two to
the power of 32 buffers and windows has none that is too great for a word of 32 bits. One buffer and one window are
current.
-/
namespace Transcript

/-!
## Places

A place is a buffer and a window, by their numbers. The number 0 stands for none.
-/

/-- A buffer and a window. -/
structure Place where
  buffer : Nat := 0
  window : Nat := 0
  deriving DecidableEq, Repr

/-- Buffers, the buffer that each window shows, and the current place. -/
structure Host where
  buffers : Table Buffer
  windows : Table Nat
  current : Place
  nextBuffer : Nat
  nextWindow : Nat

namespace Host

def hasBuffer (h : Host) (buffer : Nat) : Bool := h.buffers.contains buffer

def hasWindow (h : Host) (window : Nat) : Bool := h.windows.contains window

/-- The lines of a buffer; an invalid buffer has none. -/
def lines (h : Host) (buffer : Nat) : List String :=
  ((h.buffers.get? buffer).map Buffer.lines).getD []

def lineCount (h : Host) (buffer : Nat) : Nat := (h.lines buffer).length

def marks (h : Host) (buffer : Nat) : List Mark :=
  ((h.buffers.get? buffer).map Buffer.marks).getD []

def slice (h : Host) (buffer start stop : Nat) : List String :=
  ((h.buffers.get? buffer).map fun b => b.slice start stop).getD []

/-- The line of a buffer, counted from 1, or the empty line if there is none. -/
def lineAt (h : Host) (buffer line : Nat) : String := (h.lines buffer)[line - 1]?.getD ""

/-- Changes a buffer, if it is valid. -/
def modifyBuffer (h : Host) (buffer : Nat) (f : Buffer → Buffer) : Host :=
  { h with buffers := h.buffers.modify buffer f }

def setLines (h : Host) (buffer start stop : Nat) (lines : List String) : Host :=
  h.modifyBuffer buffer fun b => b.splice start stop lines

def addMark (h : Host) (buffer : Nat) (m : Mark) : Host :=
  h.modifyBuffer buffer fun b => b.addMark m

def clearMarks (h : Host) (buffer : Nat) : Host := h.modifyBuffer buffer Buffer.clearMarks

/-- Makes a buffer, and gives its number. -/
def createBuffer (h : Host) (lines : List String) : Nat × Host :=
  (h.nextBuffer,
    { h with
      buffers := h.buffers.insert h.nextBuffer (Buffer.ofLines lines)
      nextBuffer := h.nextBuffer + 1 })

/-- Makes a window that shows a buffer, and gives its number. -/
def createWindow (h : Host) (buffer : Nat) : Nat × Host :=
  (h.nextWindow,
    { h with
      windows := h.windows.insert h.nextWindow buffer
      nextWindow := h.nextWindow + 1 })

def closeWindow (h : Host) (window : Nat) : Host := { h with windows := h.windows.erase window }

/-- Makes the valid parts of a place current. The window that is current then shows the buffer. -/
def setCurrent (h : Host) (place : Place) : Host :=
  let window :=
    if place.window ≠ 0 ∧ h.hasWindow place.window then place.window else h.current.window
  if place.buffer ≠ 0 ∧ h.hasBuffer place.buffer then
    { h with
      current := { buffer := place.buffer, window := window }
      windows := h.windows.modify window fun _ => place.buffer }
  else { h with current := { h.current with window := window } }

/-- Deletes a buffer and closes the windows that show it. What is current and gone becomes none. -/
def deleteBuffer (h : Host) (buffer : Nat) : Host :=
  let windows := h.windows.filter fun _ shown => shown != buffer
  { h with
    buffers := h.buffers.erase buffer
    windows := windows
    current :=
      { buffer := if h.current.buffer = buffer then 0 else h.current.buffer
        window := if windows.contains h.current.window then h.current.window else 0 } }

/-- A host with one empty buffer in one window, both current. -/
def new : Host :=
  { buffers := Table.empty.insert 1 (Buffer.ofLines [])
    windows := Table.empty.insert 1 1
    current := { buffer := 1, window := 1 }
    nextBuffer := 2
    nextWindow := 2 }

/-! ## Overriding the current place -/

/-- Makes an override current; the override without parts changes nothing. -/
def enter (h : Host) (override : Place) : Host :=
  if override = {} then h else h.setCurrent override

/-- Makes the saved place current again, unless it still is. -/
def leave (h : Host) (saved : Place) : Host :=
  if h.current = saved then h else h.setCurrent saved

end Host

end Transcript
