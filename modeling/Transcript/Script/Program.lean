import Transcript.Expr.Parser
import Transcript.Token.Scan

/-!
Programs of the scripting language. A program that is one expression is shown as its value. Any other program
is a list of statements, which semicolons may separate: assignments, calls and a last `return`.
Reading stops at the first fault; the statements before it are still part of the program.
-/
namespace Transcript.Script

/-- A statement. A bare expression keeps the description of its first token for messages. -/
inductive Stmt where
  | giveBack (result : Option Expr)
  | assign (name : String) (e : Expr)
  | bare (e : Expr) (near : String)

/-- A statement and the line it starts on. -/
structure Step where
  line : Nat
  stmt : Stmt

/-- How a list of statements ends: with the program, or at a fault. -/
inductive Ending where
  | finished
  | broken (line : Nat) (fault : Fault)

/-- A program. -/
inductive Program where
  | unreadable (fault : Fault)
  | lone (e : Expr)
  | steps (body : List Step) (ending : Ending)

/-- Reads a statement. -/
def Stmt.read : Reader Stmt := do
  if ← Reader.eatWord "return" then
    let c ← get
    if c.atEnd || c.atSymbol .semicolon then return .giveBack none
    else return .giveBack (some (← Reader.expr))
  else
    let isLocal ← Reader.eatWord "local"
    let c ← get
    let assigns := match c.peekSecond? with
      | some (.symbol .assign) => true
      | _ => false
    if isLocal || assigns then
      let name ← Reader.name
      Reader.expectSymbol .assign
      return .assign name (← Reader.expr)
    else return .bare (← Reader.expr) ((c.peek?.map Lexeme.describe).getD "")

/-- The cursor behind the semicolons that come next. -/
def skipSemicolons (c : Cursor) : Cursor :=
  { c with rest := c.rest.dropWhile fun t => match t.lexeme with
    | .symbol .semicolon => true
    | _ => false }

/-- The end behind a `return`: only semicolons may follow. -/
def endingAfterReturn (c : Cursor) : Ending :=
  let c := skipSemicolons c
  if c.atEnd then .finished else .broken c.line c.unexpected

/-- Reads statements up to the end, to a `return` or to a fault. Every round takes a token, so there are
no more rounds than tokens. -/
def readSteps : (rounds : Nat) → Cursor → List Step × Ending
  | 0, _ => ([], .finished)
  | rounds + 1, c =>
    if c.atEnd then ([], .finished)
    else if c.atSymbol .semicolon then readSteps rounds c.advance
    else
      match Stmt.read.run c with
      | .error e _ => ([], .broken c.line e)
      | .ok (.giveBack result) c' => ([⟨c.line, .giveBack result⟩], endingAfterReturn c')
      | .ok stmt c' =>
        let (steps, ending) := readSteps rounds c'
        (⟨c.line, stmt⟩ :: steps, ending)

/-- The expression that a list of tokens is, if it is one. -/
def loneExpr? (c : Cursor) : Option Expr :=
  match Reader.expr.run c with
  | .ok e c' => if c'.atEnd then some e else none
  | .error .. => none

/-- The program that a list of tokens is. -/
def Program.ofTokens (tokens : List Token) : Program :=
  let c := Cursor.ofTokens tokens
  match loneExpr? c with
  | some e => .lone e
  | none =>
    let (body, ending) := readSteps tokens.length c
    .steps body ending

/-- The program that a text is. -/
def Program.ofSource (source : String) : Program :=
  match Token.scan source with
  | .error e => .unreadable e
  | .ok tokens => .ofTokens tokens

end Transcript.Script
