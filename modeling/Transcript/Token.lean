import Transcript.Value

/-!
Tokens of expressions. A lexeme is a number, a text, a word or a symbol; a token is a lexeme with the
line it starts on. Keywords are words: a name is a word that is no keyword.
-/
namespace Transcript

/-- Operators and punctuation. -/
inductive Symbol where
  | concat
  | equal
  | unequal
  | bangUnequal
  | atMost
  | atLeast
  | plus
  | minus
  | times
  | over
  | modulo
  | less
  | greater
  | openParen
  | closeParen
  | comma
  | assign
  | semicolon
  deriving DecidableEq, Repr

/-- How a symbol is written. -/
def Symbol.text : Symbol → String
  | .concat => ".."
  | .equal => "=="
  | .unequal => "~="
  | .bangUnequal => "!="
  | .atMost => "<="
  | .atLeast => ">="
  | .plus => "+"
  | .minus => "-"
  | .times => "*"
  | .over => "/"
  | .modulo => "%"
  | .less => "<"
  | .greater => ">"
  | .openParen => "("
  | .closeParen => ")"
  | .comma => ","
  | .assign => "="
  | .semicolon => ";"

/-- All symbols, those of two characters first. -/
def Symbol.all : List Symbol :=
  [.concat, .equal, .unequal, .bangUnequal, .atMost, .atLeast, .plus, .minus, .times, .over, .modulo,
   .less, .greater, .openParen, .closeParen, .comma, .assign, .semicolon]

theorem Symbol.mem_all (s : Symbol) : s ∈ Symbol.all := by
  cases s <;> decide

/-- The symbol written by a text. -/
def Symbol.ofText? (text : String) : Option Symbol :=
  Symbol.all.find? (·.text = text)

theorem Symbol.ofText?_text (s : Symbol) : ofText? s.text = some s := by
  cases s <;> decide

/-- What a token holds. -/
inductive Lexeme where
  | number (x : Float)
  | text (s : String)
  | word (s : String)
  | symbol (s : Symbol)

/-- A lexeme as messages name it: text as it is quoted, all else between single quotes. -/
def Lexeme.describe : Lexeme → String
  | .number x => "'" ++ Value.displayNumber x ++ "'"
  | .text s => Text.quoted s
  | .word s => "'" ++ s ++ "'"
  | .symbol s => "'" ++ s.text ++ "'"

/-- A lexeme and the line it starts on, counted from 1. -/
structure Token where
  lexeme : Lexeme
  line : Nat

/-- The words that are no names. -/
def keywords : List String :=
  ["and", "or", "not", "nil", "true", "false", "local", "return"]

def isKeyword (word : String) : Bool := keywords.contains word

end Transcript
