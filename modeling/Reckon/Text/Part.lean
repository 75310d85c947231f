/-!
# Parts of a text

The parts of an expression are separated by blank characters: those with the Unicode property
`White_Space`. There are twenty-five of them, in ten ranges, and only the first six are ASCII.
Zero width characters such as U+200B and U+FEFF are not among them.

A part is cut out of a text by the offsets of its start and its end. They are counted in bytes of
the UTF-8 form of the text, and both are meant to be boundaries between characters.
-/

namespace Reckon.Text

/-- Whether a character has the Unicode property `White_Space`. -/
def isBlank (c : Char) : Bool :=
  let n := c.toNat
  (0x09 ≤ n && n ≤ 0x0d) || n == 0x20 || n == 0x85 || n == 0xa0 || n == 0x1680 ||
    (0x2000 ≤ n && n ≤ 0x200a) || n == 0x2028 || n == 0x2029 || n == 0x202f || n == 0x205f ||
    n == 0x3000

/-- A list of characters without the blanks at its start and at its end. -/
def trimList (cs : List Char) : List Char :=
  ((cs.dropWhile isBlank).reverse.dropWhile isBlank).reverse

/-- A text without the blanks at its start and at its end. -/
def trim (s : String) : String :=
  String.ofList (trimList s.toList)

/-- A text that holds nothing but blanks. -/
def IsBlank (s : String) : Prop :=
  ∀ c ∈ s.toList, isBlank c = true

/-- The part of a text between two byte offsets. -/
def slice (s : String) (first last : Nat) : String :=
  String.Pos.Raw.extract s ⟨first⟩ ⟨last⟩

@[simp] theorem toList_trim (s : String) : (trim s).toList = trimList s.toList := by
  simp [trim]

end Reckon.Text
