import Transcript.Command.Input
import Transcript.History
import Transcript.Text
import Transcript.Text.Class

/-!
Settings of a session. Every setting has a default. Valid settings keep the indent small, leave room for
a history entry, and have a marker and a leader that differ and cannot be part of a word.
-/
namespace Transcript

/-! ## Languages -/

/-- The two languages of a session. -/
inductive Language where
  | lua
  | vim
  deriving DecidableEq, Repr

def Language.name : Language → String
  | .lua => "lua"
  | .vim => "vim"

def Language.ofName? (name : String) : Option Language :=
  if name = "lua" then some .lua else if name = "vim" then some .vim else none

theorem Language.ofName?_name (l : Language) : Language.ofName? l.name = some l := by
  cases l <;> rfl

/-!
## Levels of messages

Levels of log messages, from the most to the least verbose.
-/

/-- A level. -/
inductive LogLevel where
  | trace
  | debug
  | info
  | warn
  | error
  deriving DecidableEq, Repr

namespace LogLevel

def all : List LogLevel := [.trace, .debug, .info, .warn, .error]

/-- The place of a level in the order. -/
def rank : LogLevel → Nat
  | .trace => 0
  | .debug => 1
  | .info => 2
  | .warn => 3
  | .error => 4

/-- The level at a place; the last one stands for all places behind it. -/
def ofRank : Nat → LogLevel
  | 0 => .trace
  | 1 => .debug
  | 2 => .info
  | 3 => .warn
  | _ => .error

def name : LogLevel → String
  | .trace => "trace"
  | .debug => "debug"
  | .info => "info"
  | .warn => "warn"
  | .error => "error"

def ofName? (name : String) : Option LogLevel := all.find? (·.name = name)

theorem ofName?_name (l : LogLevel) : ofName? l.name = some l := by
  cases l <;> decide

/-- The level some steps more verbose, or the most verbose one. -/
def moreVerbose (l : LogLevel) (steps : Nat) : LogLevel := ofRank (l.rank - steps)

def isBelow (l m : LogLevel) : Bool := l.rank < m.rank

end LogLevel

/-! ## Settings -/

/-- Settings of a session. -/
structure Settings where
  language : Language := .lua
  buffer : Nat := 0
  window : Nat := 0
  indent : Nat := 0
  redraw : Bool := true
  inspect : Bool := false
  historySize : Nat := History.defaultCapacity
  noDefaults : Bool := false
  marker : Char := defaultMarker
  leader : Char := defaultLeader
  deriving DecidableEq, Repr

def maxIndent : Nat := 32

/-- Why settings are not valid. -/
inductive Settings.Flaw where
  | wideIndent (indent : Nat)
  | noHistory
  | markerInWord (marker : Char)
  | leaderInWord (leader : Char)
  | leaderIsMarker
  deriving DecidableEq, Repr

def Settings.Flaw.message : Settings.Flaw → String
  | .wideIndent n => "invalid indent: " ++ toString n ++ " exceeds " ++ toString maxIndent
  | .noHistory => "invalid history_size: must be at least 1"
  | .markerInWord c => "invalid marker: " ++ Text.quotedChar c ++ " cannot start a line"
  | .leaderInWord c => "invalid prefix: " ++ Text.quotedChar c ++ " cannot start a line"
  | .leaderIsMarker => "invalid prefix: must differ from the continuation marker"

namespace Settings

/-- Whether a character can be part of a word or stand before one. -/
def isWordly (c : Char) : Bool := Text.isBlank c || Text.isAlphabetic c || Text.isNumeric c

/-- The first flaw of settings, if they have one. -/
def flaw? (s : Settings) : Option Flaw :=
  if s.indent > maxIndent then some (.wideIndent s.indent)
  else if s.historySize = 0 then some .noHistory
  else if isWordly s.marker then some (.markerInWord s.marker)
  else if isWordly s.leader then some (.leaderInWord s.leader)
  else if s.marker = s.leader then some .leaderIsMarker
  else none

def IsValid (s : Settings) : Prop := s.flaw? = none

instance (s : Settings) : Decidable s.IsValid := inferInstanceAs (Decidable (_ = _))

end Settings

/-- The settings of a user: those of the session and the level of the log. -/
structure UserSettings where
  repl : Settings := {}
  level : LogLevel := .warn
  deriving DecidableEq, Repr

end Transcript
