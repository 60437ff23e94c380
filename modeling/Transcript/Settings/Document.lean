import Transcript.Settings
import Transcript.Toml.Document

/-!
Settings as a TOML document, whatever the format that writes and reads the tables. Every key may be left out. The table
of the session has no other keys than those of its settings; elsewhere unknown keys are ignored. A table may also be
given as an array of its values in order, and a choice as a table with the chosen name as its only key.
-/
namespace Transcript

namespace Settings

/-- The keys of the settings of a session, in order. -/
def keys : List String :=
  ["lang", "buffer", "window", "indent", "redraw", "inspect", "history_size", "no_defaults",
   "marker", "prefix"]

/-! ## Reading -/

/-- Whether a value holds nothing. -/
def isVoid : Toml → Bool
  | .array items => items.isEmpty
  | .table _ entries => entries.isEmpty
  | .series tables => tables.isEmpty
  | _ => false

/-- The name that a value chooses. -/
def choice? : Toml → Option String
  | .text s => some s
  | .table _ [(key, v)] => if isVoid v then some key else none
  | _ => none

def language? (v : Toml) : Option Language := (choice? v).bind Language.ofName?

def level? (v : Toml) : Option LogLevel := (choice? v).bind LogLevel.ofName?

/-- A number below a bound. -/
def number? (bound : Nat) : Toml → Option Nat
  | .integer n => if 0 ≤ n ∧ n < bound then some n.toNat else none
  | _ => none

def boolean? : Toml → Option Bool
  | .boolean b => some b
  | _ => none

def char? : Toml → Option Char
  | .text s =>
    match s.toList with
    | [c] => some c
    | _ => none
  | _ => none

/-- A setting, or its default if it is left out. -/
def orDefault (read : Toml → Option α) (default : α) : Option Toml → Option α
  | none => some default
  | some v => read v

/-- Numbers of buffers and windows are words of 32 bits. -/
def handleBound : Nat := 4294967296

/-- Sizes are words of 64 bits; in a document they are signed. -/
def sizeBound : Nat := 9223372036854775808

/-- The settings whose values a function gives by key. -/
def ofValues? (get : String → Option Toml) : Option Settings := do
  let d : Settings := {}
  return {
    language := ← orDefault language? d.language (get "lang")
    buffer := ← orDefault (number? handleBound) d.buffer (get "buffer")
    window := ← orDefault (number? handleBound) d.window (get "window")
    indent := ← orDefault (number? sizeBound) d.indent (get "indent")
    redraw := ← orDefault boolean? d.redraw (get "redraw")
    inspect := ← orDefault boolean? d.inspect (get "inspect")
    historySize := ← orDefault (number? sizeBound) d.historySize (get "history_size")
    noDefaults := ← orDefault boolean? d.noDefaults (get "no_defaults")
    marker := ← orDefault char? d.marker (get "marker")
    leader := ← orDefault char? d.leader (get "prefix") }

def ofToml? : Toml → Option Settings
  | .table _ entries =>
    if entries.all fun e => keys.contains e.1 then ofValues? fun key => entries.lookup key else none
  | .array items => ofValues? fun key => (keys.zip items).lookup key
  | .series tables => ofValues? fun key => (keys.zip (tables.map (Toml.table .header))).lookup key
  | _ => none

/-! ## Writing -/

/-- The values of the settings with their keys. -/
def entries (s : Settings) : Toml.Entries :=
  [("lang", .text s.language.name),
   ("buffer", .integer s.buffer),
   ("window", .integer s.window),
   ("indent", .integer s.indent),
   ("redraw", .boolean s.redraw),
   ("inspect", .boolean s.inspect),
   ("history_size", .integer s.historySize),
   ("no_defaults", .boolean s.noDefaults),
   ("marker", .text (String.singleton s.marker)),
   ("prefix", .text (String.singleton s.leader))]

end Settings

/-! ## Settings of a user -/

namespace UserSettings

/-- Why a document does not give valid settings, or settings cannot be written. -/
inductive Error where
  | unreadable
  | flawed (flaw : Settings.Flaw)
  | unwritable
  deriving DecidableEq, Repr

/-- The level of the log in the value of its table. -/
def levelOf? : Toml → Option LogLevel
  | .table _ entries => Settings.orDefault Settings.level? .warn (entries.lookup "level")
  | .array items => Settings.orDefault Settings.level? .warn items.head?
  | .series tables =>
    Settings.orDefault Settings.level? .warn (tables.head?.map (Toml.table .header))
  | .moment _ => some .warn
  | _ => none

/-- The settings that the entries of a document give, valid or not. -/
def ofEntries? (entries : Toml.Entries) : Option UserSettings := do
  return {
    repl := ← Settings.orDefault Settings.ofToml? {} (entries.lookup "repl")
    level := ← Settings.orDefault levelOf? .warn (entries.lookup "log") }

/-- The settings, unless those of the session are not valid. -/
def checked (s : UserSettings) : Except Error UserSettings :=
  match s.repl.flaw? with
  | some flaw => .error (.flawed flaw)
  | none => .ok s

/-- The settings that a document in a format gives. -/
def parseIn (f : Toml.Format) (document : String) : Except Error UserSettings :=
  match (f.read? document).bind ofEntries? with
  | none => .error .unreadable
  | some s => s.checked

def parse (document : String) : Except Error UserSettings := parseIn Toml.format document

/-- The tables of settings: one for the session and one for the log. -/
def tables (s : UserSettings) : List (String × Toml.Entries) :=
  [("repl", s.repl.entries), ("log", [("level", .text s.level.name)])]

/-- The document of settings in a format, unless the format has none for them. -/
def writeIn (f : Toml.Format) (s : UserSettings) : Except Error String :=
  match f.write? (Toml.ofTables s.tables) with
  | some text => .ok text
  | none => .error .unwritable

def write (s : UserSettings) : Except Error String := s.writeIn Toml.format

end UserSettings

/-!
## Where settings are kept

In a directory of the program below the one that the environment names for settings.
-/

namespace Location

/-- A path below a directory. The empty directory is the current one. -/
def join (directory name : String) : String :=
  if directory.isEmpty then name
  else if directory.toList.getLast? = some '/' then directory ++ name
  else directory ++ "/" ++ name

/-- The name of the program, and of its directory. -/
def programName : String := "bufrepl"

/-- The directory of the settings, by the first variable that is set. -/
def directory? (env : String → Option String) : Option String :=
  match env "XDG_CONFIG_HOME" with
  | some base => some (join base programName)
  | none =>
    match env "HOME" with
    | some home => some (join (join home ".config") programName)
    | none => (env "APPDATA").map fun base => join base programName

def file? (env : String → Option String) : Option String :=
  (directory? env).map fun directory => join directory "config.toml"

end Location

end Transcript
