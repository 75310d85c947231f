import Reckon.Expr
import Reckon.Text.Part

/-!
# The grammar of expressions

The infix language, stated without reference to how it is read. Tokens form a sentence of one of
three categories: an expression is terms joined by `+` and `-`, a term is factors joined by `*` and
`/`, and a factor is a literal or an expression in parentheses. Operators of one category associate
to the left. `Sentence` gives the tree of a sentence together with its tokens; the tree has no
parentheses.

`Written` says which texts are written forms of a list of tokens: the texts of the tokens in order,
with any blanks before, between and after them.
-/

namespace Reckon

/-- The kinds of sentence, from loose to tight. -/
inductive Category where
  /-- Terms joined by `+` and `-`. -/
  | expression
  /-- Factors joined by `*` and `/`. -/
  | term
  /-- A literal, or an expression in parentheses. -/
  | factor
  deriving DecidableEq

/-- The tokens are a sentence of the given category with the given tree. -/
inductive Sentence : Category → List Token → Expr → Prop where
  /-- A literal is a factor. -/
  | literal (text : String) : Sentence .factor [.num text] (.literal text)
  /-- An expression in parentheses is a factor with the same tree. -/
  | group {tokens : List Token} {tree : Expr} (inner : Sentence .expression tokens tree) :
      Sentence .factor (.lparen :: (tokens ++ [.rparen])) tree
  /-- A factor is a term. -/
  | factor {tokens : List Token} {tree : Expr} (inner : Sentence .factor tokens tree) :
      Sentence .term tokens tree
  /-- A term times or divided by a factor is a term. -/
  | product {op : BinOp} (isProduct : op = .mul ∨ op = .div) {lefts rights : List Token}
      {left right : Expr} (first : Sentence .term lefts left)
      (second : Sentence .factor rights right) :
      Sentence .term (lefts ++ .op op.symbol :: rights) (.binary op left right)
  /-- A term is an expression. -/
  | term {tokens : List Token} {tree : Expr} (inner : Sentence .term tokens tree) :
      Sentence .expression tokens tree
  /-- An expression plus or minus a term is an expression. -/
  | sum {op : BinOp} (isSum : op = .add ∨ op = .sub) {lefts rights : List Token}
      {left right : Expr} (first : Sentence .expression lefts left)
      (second : Sentence .term rights right) :
      Sentence .expression (lefts ++ .op op.symbol :: rights) (.binary op left right)

/-- The characters are a written form of the tokens. -/
inductive Written : List Token → List Char → Prop where
  /-- Blanks alone are a written form of no token. -/
  | blanks {cs : List Char} (blank : ∀ c ∈ cs, Text.isBlank c = true) : Written [] cs
  /-- Blanks and the text of a token come before a written form of the tokens that follow. -/
  | token {token : Token} {tokens : List Token} {gap cs : List Char}
      (blank : ∀ c ∈ gap, Text.isBlank c = true) (rest : Written tokens cs) :
      Written (token :: tokens) (gap ++ token.text.toList ++ cs)

/-- A text of digits with at most one point among them, before them or after them, and with an
optional minus sign in front. -/
def IsLiteralText (text : String) : Prop :=
  ∃ sign whole fraction point : List Char, text.toList = sign ++ whole ++ point ++ fraction ∧
    (sign = [] ∨ sign = ['-']) ∧ (point = ['.'] ∨ point = [] ∧ fraction = []) ∧
    whole ++ fraction ≠ [] ∧ ∀ c ∈ whole ++ fraction, c.isDigit = true

end Reckon
