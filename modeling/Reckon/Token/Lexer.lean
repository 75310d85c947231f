import Reckon.Run
import Reckon.Text.Part

/-!
# Reading tokens

An expression is read from left to right, one character at a time. Digits and points extend a
literal; an operator, a parenthesis or a blank ends it. A minus sign begins a literal where an
operand is expected, which is at the start, after an operator and after a left parenthesis; anywhere
else it is the operator. No character is looked at twice and none ahead of its turn.

A literal is remembered by the byte offset at which it starts, and its text is cut out of the
expression when it ends.
-/

namespace Reckon

/-- Whether a character extends a literal. -/
def isLiteralChar (c : Char) : Bool :=
  c.isDigit || c == '.'

/-- Whether a character is a token by itself. -/
def isSymbolChar (c : Char) : Bool :=
  c == '+' || c == '-' || c == '*' || c == '/' || c == '(' || c == ')'

/-- The state of a reader of tokens. -/
structure Lexer where
  /-- The byte offset of the next character. -/
  position : Nat
  /-- The byte offset at which the pending literal starts, if there is one. -/
  pending : Option Nat
  /-- The tokens that have been read, the latest first. -/
  tokens : List Token
  deriving DecidableEq

namespace Lexer

/-- The state before the first character. -/
def initial : Lexer := ⟨0, none, []⟩

/-- Whether a literal can begin here: none is pending, and the latest token ends no operand. -/
def expectsOperand (lexer : Lexer) : Bool :=
  lexer.pending.isNone &&
    match lexer.tokens with
    | [] => true
    | latest :: _ => latest.isOp || latest.isLParen

/-- Begins a literal at the next character, or goes on with the pending one. -/
def extend (lexer : Lexer) : Lexer :=
  { lexer with pending := some (lexer.pending.getD lexer.position) }

/-- Adds a token. -/
def emit (lexer : Lexer) (token : Token) : Run Lexer := do
  Run.note (.token token)
  return { lexer with tokens := token :: lexer.tokens }

/-- Ends the pending literal, if there is one, in front of the next character. -/
def flush (source : String) (lexer : Lexer) : Run Lexer :=
  match lexer.pending with
  | some start =>
    { lexer with pending := none }.emit (.num (Text.slice source start lexer.position))
  | none => pure lexer

/-- Reads a character without passing it. -/
def read (source : String) (lexer : Lexer) (c : Char) : Run Lexer :=
  if isLiteralChar c || (c == '-' && lexer.expectsOperand) then
    pure lexer.extend
  else if isSymbolChar c then do
    let lexer ← lexer.flush source
    match Token.ofSymbol? (Text.slice source lexer.position (lexer.position + 1)) with
    | some token => lexer.emit token
    | none => Run.fail (.invalidCharacter c)
  else if Text.isBlank c then
    lexer.flush source
  else do
    Run.note (.rejected c lexer.position)
    Run.fail (.invalidCharacter c)

/-- Reads a character and passes it. -/
def step (source : String) (lexer : Lexer) (c : Char) : Run Lexer := do
  let lexer ← lexer.read source c
  return { lexer with position := lexer.position + c.utf8Size }

/-- The tokens of an expression after its last character. -/
def finish (source : String) (lexer : Lexer) : Run (List Token) := do
  let lexer ← lexer.flush source
  Run.note (.tokenized source lexer.tokens.length)
  return lexer.tokens.reverse

end Lexer

/-- The tokens of an expression, or an error that names its first character of no token. -/
def tokenize (source : String) : Run (List Token) := do
  let lexer ← source.toList.foldlM (Lexer.step source) Lexer.initial
  lexer.finish source

end Reckon
