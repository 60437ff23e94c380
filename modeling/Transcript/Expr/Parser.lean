import Transcript.Expr
import Transcript.Value

/-!
Reading expressions from tokens. The state is a cursor: the tokens that are left, the line of the last
token of the text and the depth of nesting. A reader that fails leaves the cursor where it stopped,
so the caller may read on from there. No expression nests deeper than `maxDepth`, neither while it
is read nor in its tree.
-/
namespace Transcript

/-- The deepest nesting of an expression. -/
def maxDepth : Nat := 200

/-- A place in a list of tokens. -/
structure Cursor where
  rest : List Token
  lastLine : Nat
  depth : Nat := 0

namespace Cursor

/-- The start of a list of tokens. An empty list ends on line 1. -/
def ofTokens (tokens : List Token) : Cursor :=
  { rest := tokens, lastLine := (tokens.getLast?.map Token.line).getD 1 }

def peek? (c : Cursor) : Option Lexeme := c.rest.head?.map Token.lexeme

def peekSecond? (c : Cursor) : Option Lexeme := c.rest.tail.head?.map Token.lexeme

/-- The line of the next token, or of the last one at the end. -/
def line (c : Cursor) : Nat := (c.rest.head?.map Token.line).getD c.lastLine

def atEnd (c : Cursor) : Bool := c.rest.isEmpty

/-- The fault of a reader that cannot use the next token. -/
def unexpected (c : Cursor) : Fault :=
  .unexpected ((c.peek?.map Lexeme.describe).getD "<eof>")

def advance (c : Cursor) : Cursor := { c with rest := c.rest.tail }

/-- Whether the next token is the symbol `s`. -/
def atSymbol (c : Cursor) (s : Symbol) : Bool :=
  match c.peek? with
  | some (.symbol t) => s == t
  | _ => false

/-- Whether the next token is the word `w`. -/
def atWord (c : Cursor) (w : String) : Bool :=
  match c.peek? with
  | some (.word v) => w == v
  | _ => false

end Cursor

/-- Readers, which move the cursor and may fail. -/
abbrev Reader := EStateM Fault Cursor

namespace Reader

def failHere : Reader α := do throw (← get).unexpected

/-- Takes the symbol `s` if it is next. -/
def eatSymbol (s : Symbol) : Reader Bool := do
  let c ← get
  if c.atSymbol s then
    set c.advance
    return true
  else return false

/-- Takes the word `w` if it is next. -/
def eatWord (w : String) : Reader Bool := do
  let c ← get
  if c.atWord w then
    set c.advance
    return true
  else return false

/-- Takes the symbol `s`, which must be next. -/
def expectSymbol (s : Symbol) : Reader Unit := do
  unless ← eatSymbol s do failHere

def expectEnd : Reader Unit := do
  unless (← get).atEnd do failHere

/-- Takes a name: a word that is no keyword. -/
def name : Reader String := do
  let c ← get
  match c.peek? with
  | some (.word w) =>
    if isKeyword w then failHere
    else
      set c.advance
      return w
  | _ => failHere

/-- An expression with the height of its tree. -/
structure Measured where
  expr : Expr
  height : Nat

def leaf (e : Expr) : Reader Measured := return ⟨e, 1⟩

def bounded (height : Nat) : Reader Nat :=
  if height > maxDepth then throw .tooDeep else return height

/-- Reads one level deeper, and comes back up however the reader ends. -/
def nested (p : Reader α) : Reader α := fun c =>
  match p { c with depth := c.depth + 1 } with
  | .ok a c' => .ok a { c' with depth := c'.depth - 1 }
  | .error e c' => .error e { c' with depth := c'.depth - 1 }

/-- Reads the arguments of a call up to the closing parenthesis, at least one. Every round takes a
token, so there are no more rounds than tokens. -/
def args (operand : Reader Measured) : Nat → Reader (List Expr × Nat)
  | 0 => failHere
  | rounds + 1 => do
    let a ← operand
    if ← eatSymbol .closeParen then return ([a.expr], a.height)
    else
      expectSymbol .comma
      let (es, h) ← args operand rounds
      return (a.expr :: es, max a.height h)

/-- Reads the arguments of a call whose opening parenthesis is taken. -/
def callArgs (operand : Reader Measured) : Reader (List Expr × Nat) := do
  if ← eatSymbol .closeParen then return ([], 0)
  else args operand ((← get).rest.length + 1)

/-- Reads what a word starts: a constant, a call or a variable. -/
def afterWord (operand : Reader Measured) (fault : Fault) (w : String) : Reader Measured := do
  if w = "nil" then leaf (.literal .nil)
  else if w = "true" then leaf (.literal (.bool true))
  else if w = "false" then leaf (.literal (.bool false))
  else if isKeyword w then throw fault
  else if ← eatSymbol .openParen then
    let (es, h) ← callArgs operand
    return ⟨.call w es, ← bounded (h + 1)⟩
  else leaf (.var w)

/-- Reads an operand without operators. The next token is taken even if it starts none. -/
def primary (operand : Reader Measured) : Reader Measured := do
  let c ← get
  set c.advance
  match c.peek? with
  | some (.number x) => leaf (.literal (.number x))
  | some (.text s) => leaf (.literal (.text s))
  | some (.word w) => afterWord operand c.unexpected w
  | some (.symbol .openParen) =>
    let inner ← operand
    expectSymbol .closeParen
    return inner
  | _ => throw c.unexpected

/-- Reads an operand with the unary operators before it. `operand bound` reads an operand with the
binary operators that bind closer than `bound`. -/
def unary (operand : Nat → Reader Measured) : Reader Measured := do
  if ← eatSymbol .minus then
    let e ← operand unaryBound
    return ⟨.unary .neg e.expr, ← bounded (e.height + 1)⟩
  else if ← eatWord "not" then
    let e ← operand unaryBound
    return ⟨.unary .not e.expr, ← bounded (e.height + 1)⟩
  else primary (operand 0)

/-- Reads the operators behind `lhs` that bind closer than `bound`, with their right operands. Every
round takes a token, so there are no more rounds than tokens. -/
def operators (operand : Nat → Reader Measured) (bound : Nat) : Nat → Measured → Reader Measured
  | 0, lhs => return lhs
  | rounds + 1, lhs => do
    let c ← get
    match c.peek?.bind BinaryOp.ofLexeme? with
    | none => return lhs
    | some op =>
      if op.precedence ≤ bound then return lhs
      else
        set c.advance
        let rhs ← operand op.rightBound
        let h ← bounded (max lhs.height rhs.height + 1)
        operators operand bound rounds ⟨.binary op lhs.expr rhs.expr, h⟩

/-- Reads an expression with the binary operators that bind closer than `bound`, nesting at most
`levels` deep. -/
def binary : (levels : Nat) → (bound : Nat) → Reader Measured
  | 0, _ => throw .tooDeep
  | levels + 1, bound => nested do
    let lhs ← unary (binary levels)
    operators (binary levels) bound (← get).rest.length lhs

def expr : Reader Expr := do
  let c ← get
  return (← binary (maxDepth - c.depth) 0).expr

end Reader

end Transcript
