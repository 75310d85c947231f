import Reckon.Text.Unprinted

/-!
# Quoted text

How a character or a text is shown inside a message: between quotation marks, with an escape for
every character that would not stand for itself there. A character is put between apostrophes, a
text between double quotation marks, and of the two marks only the one in use is escaped.
-/

namespace Reckon.Text

/-- The digits of a number to the base sixteen, in lower case and without leading zeros. -/
def hex (n : Nat) : String :=
  String.ofList (Nat.toDigits 16 n)

/-- The form of a character between quotation marks of the given kind. -/
def escape (mark c : Char) : String :=
  if c = '\x00' then "\\0"
  else if c = '\t' then "\\t"
  else if c = '\n' then "\\n"
  else if c = '\r' then "\\r"
  else if c = '\\' then "\\\\"
  else if c = mark then String.ofList ['\\', c]
  else if isExtender c || isUnprinted c then "\\u\x7b" ++ hex c.toNat ++ "\x7d"
  else c.toString

/-- A character between apostrophes. -/
def quoteChar (c : Char) : String :=
  "'" ++ escape '\'' c ++ "'"

/-- A text between double quotation marks. -/
def quote (s : String) : String :=
  "\"" ++ String.join (s.toList.map (escape '"')) ++ "\""

end Reckon.Text
