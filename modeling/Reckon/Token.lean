import Reckon.Text.Quoted

/-!
# Tokens

An expression is read as a list of tokens: literals, operators and parentheses. A literal keeps
its text, and the number that it denotes is found only when it is reduced. The type itself does
not restrict the texts; `Reckon.Token.Lexer` says which of them come from an expression.
-/

namespace Reckon

/-- A part of an expression. -/
inductive Token where
  /-- A literal with its text. -/
  | num (text : String)
  /-- An operator with its symbol. -/
  | op (symbol : String)
  /-- A left parenthesis. -/
  | lparen
  /-- A right parenthesis. -/
  | rparen
  deriving DecidableEq

namespace Token

/-- Whether a token is an operator. -/
def isOp : Token → Bool
  | op _ => true
  | _ => false

/-- Whether a token is a literal. -/
def isNum : Token → Bool
  | num _ => true
  | _ => false

/-- Whether a token is a left parenthesis. -/
def isLParen : Token → Bool
  | lparen => true
  | _ => false

/-- The parenthesis that a character stands for. -/
def ofParen? : Char → Option Token
  | '(' => some lparen
  | ')' => some rparen
  | _ => none

/-- The token that a text of one symbol stands for. -/
def ofSymbol? (text : String) : Option Token :=
  if text = "(" then some lparen
  else if text = ")" then some rparen
  else if text = "+" ∨ text = "-" ∨ text = "*" ∨ text = "/" then some (op text)
  else none

/-- The text of a token as it stands in an expression. -/
def text : Token → String
  | num text => text
  | op symbol => symbol
  | lparen => "("
  | rparen => ")"

/-- The text of a token that also names its kind, for a diagnosis. -/
def inspect : Token → String
  | num text => "Num(" ++ Text.quote text ++ ")"
  | op symbol => "Op(" ++ Text.quote symbol ++ ")"
  | lparen => "Delimiter(LParen)"
  | rparen => "Delimiter(RParen)"

/-- The texts of a list of tokens with one space between neighbours. -/
def display (tokens : List Token) : String :=
  " ".intercalate (tokens.map text)

end Token

end Reckon
