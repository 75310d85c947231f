import Reckon.Binary64.Shortest
import Reckon.Error
import Reckon.Token

/-!
# Records

What an evaluation reports about itself while it runs. Each constructor is an event; its level and
its wording are functions of it. Some events report a step, some the result of a stage, and some
the reason of a failure that follows.
-/

namespace Reckon

/-- An event in the course of an evaluation. -/
inductive Record where
  /-- A token has been read. -/
  | token (token : Token)
  /-- A source has been read to its end, as so many tokens. -/
  | tokenized (source : String) (count : Nat)
  /-- A character that belongs to no token stands at a byte offset. -/
  | rejected (c : Char) (position : Nat)
  /-- A waiting operator is put out because of the operator that comes next. -/
  | popping (waiting next : String)
  /-- An operator begins to wait. -/
  | pushing (symbol : String)
  /-- A right parenthesis closes no group. -/
  | unmatchedRight
  /-- A left parenthesis is never closed. -/
  | unclosedLeft
  /-- The tokens have been put into postfix order. -/
  | converted (tokens : List Token)
  /-- The text of a literal is not that of a finite number. -/
  | malformedLiteral (text : String)
  /-- There are fewer than two values for an operator. -/
  | missingOperand (symbol : String)
  /-- There is a parenthesis in a sequence in postfix order. -/
  | strayParenthesis
  /-- After all operators the number of values is not one. -/
  | valuesLeft (count : Nat)
  /-- A text is a single negative literal. -/
  | bareNegative (text : String)
  /-- A source has a value. -/
  | evaluated (source : String) (value : Float)
  deriving DecidableEq

namespace Record

/-- How closely a reader has to look to be shown an event. -/
inductive Level where
  /-- The single steps of a stage. -/
  | trace
  /-- The outcome of a stage. -/
  | debug
  deriving DecidableEq

/-- The level of an event: single tokens and operators are steps. -/
def level : Record → Level
  | token _ | popping _ _ | pushing _ => .trace
  | _ => .debug

/-- Whether an event is the reason of a failure. -/
def isFailure : Record → Bool
  | rejected _ _ | unmatchedRight | unclosedLeft | malformedLiteral _ | missingOperand _
  | strayParenthesis | valuesLeft _ => true
  | _ => false

/-- The text of an event. -/
def message : Record → String
  | token t => "token " ++ t.inspect
  | tokenized source count =>
    "tokenized " ++ Text.quote source ++ " into " ++ toString count ++ " tokens"
  | rejected c position =>
    "rejecting character " ++ Text.quoteChar c ++ " at byte " ++ toString position
  | popping waiting next => "popping " ++ waiting ++ " before " ++ next
  | pushing symbol => "pushing " ++ symbol
  | unmatchedRight => "unmatched right parenthesis"
  | unclosedLeft => "unclosed left parenthesis"
  | converted tokens => "postfix: " ++ Token.display tokens
  | malformedLiteral text => "malformed literal " ++ Text.quote text
  | missingOperand symbol => "operator " ++ symbol ++ " is missing an operand"
  | strayParenthesis => "parenthesis in postfix input"
  | valuesLeft count => toString count ++ " values left after reduction"
  | bareNegative text => Text.quote text ++ " is a bare negative literal"
  | evaluated source value => Text.quote source ++ " = " ++ Binary64.text value

end Record

end Reckon
