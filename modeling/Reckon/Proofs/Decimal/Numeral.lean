import Mathlib.Data.List.Induction
import Mathlib.Data.List.TakeWhile
import Mathlib.Data.Nat.Digits.Defs
import Reckon.Decimal

/-!
# Decimal numerals

The texts that denote decimal numbers, and the numbers that they denote, stated without reference to
how they are read. A numeral has an optional sign, digits that may have one point before, among or
behind them, and an optional exponent. Main statement: `Decimal.read?_eq_some_iff`.
-/

namespace Reckon

namespace Decimal

/-! ## Numerals -/

/-- The number that a string of digits denotes. -/
def digitsValue (cs : List Char) : ℕ :=
  Nat.ofDigits 10 (cs.reverse.map fun c => c.toNat - '0'.toNat)

/-- A sign, which may be absent, and whether it is a minus sign. -/
inductive IsSign : List Char → Bool → Prop where
  /-- There is no sign. -/
  | none : IsSign [] false
  /-- The sign is a plus sign. -/
  | plus : IsSign ['+'] false
  /-- The sign is a minus sign. -/
  | minus : IsSign ['-'] true

/-- Digits, of which those behind the point are counted. -/
inductive IsPointed : List Char → List Char → ℕ → Prop where
  /-- There is no point. -/
  | whole {digits : List Char} : IsPointed digits digits 0
  /-- The point stands before, among or behind the digits. -/
  | point {whole fraction : List Char} :
      IsPointed (whole ++ '.' :: fraction) (whole ++ fraction) fraction.length

/-- An exponent, which may be absent. -/
inductive IsExponent : List Char → ℤ → Prop where
  /-- There is no exponent. -/
  | none : IsExponent [] 0
  /-- A letter, an optional sign and digits. -/
  | some {letter : Char} {sign digits : List Char} {negative : Bool}
      (isLetter : letter = 'e' ∨ letter = 'E') (isSign : IsSign sign negative)
      (nonempty : digits ≠ []) (isDigit : ∀ c ∈ digits, c.isDigit = true) :
      IsExponent (letter :: (sign ++ digits))
        (if negative then -digitsValue digits else digitsValue digits)

/-- A numeral without a sign: the number that its digits denote, and the power of ten that this is
multiplied by. -/
inductive IsUnsigned : List Char → ℕ → ℤ → Prop where
  /-- There is at least one digit in front of the exponent. -/
  | intro {number digits exponent : List Char} {decimals : ℕ} {e : ℤ}
      (isPointed : IsPointed number digits decimals) (nonempty : digits ≠ [])
      (isDigit : ∀ c ∈ digits, c.isDigit = true) (isExponent : IsExponent exponent e) :
      IsUnsigned (number ++ exponent) (digitsValue digits) (e - decimals)

/-- The characters are a numeral of the decimal number. -/
inductive Denotes : List Char → Decimal → Prop where
  /-- A sign stands in front of a numeral without a sign. -/
  | intro {sign number : List Char} {negative : Bool} {digits : ℕ} {exponent : ℤ}
      (isSign : IsSign sign negative) (isUnsigned : IsUnsigned number digits exponent) :
      Denotes (sign ++ number) ⟨negative, digits, exponent⟩

variable {cs rest : List Char}

/-! ## The parts of a numeral -/

theorem ofDigits_eq (cs : List Char) : ofDigits cs = digitsValue cs := by
  induction cs using List.reverseRecOn with
  | nil => rfl
  | append_singleton cs c ih =>
    have hsnoc : ofDigits (cs ++ [c]) = 10 * ofDigits cs + (c.toNat - '0'.toNat) :=
      List.foldl_append
    rw [hsnoc, ih, digitsValue, digitsValue, List.reverse_append, List.reverse_singleton,
      List.singleton_append, List.map_cons, Nat.ofDigits_cons, Nat.add_comm]

theorem splitSign_append {sign : List Char} {negative : Bool} (h : IsSign sign negative)
    (hrest : ∀ c ∈ rest.head?, c ≠ '+' ∧ c ≠ '-') :
    splitSign (sign ++ rest) = (negative, rest) := by
  cases h with
  | none =>
    rw [List.nil_append, splitSign.eq_def]
    split
    · exact absurd rfl (hrest _ rfl).2
    · exact absurd rfl (hrest _ rfl).1
    · rfl
  | plus => rfl
  | minus => rfl

theorem exists_isSign (cs : List Char) :
    ∃ sign, IsSign sign (splitSign cs).1 ∧ cs = sign ++ (splitSign cs).2 := by
  rw [splitSign.eq_def]
  split
  · exact ⟨['-'], .minus, rfl⟩
  · exact ⟨['+'], .plus, rfl⟩
  · exact ⟨[], .none, rfl⟩

/-- A digit is neither of the signs, nor the point. -/
theorem not_sign_of_isDigit {c : Char} (h : c.isDigit = true) : (c ≠ '+' ∧ c ≠ '-') ∧ c ≠ '.' := by
  refine ⟨⟨?_, ?_⟩, ?_⟩ <;> rintro rfl <;> exact absurd h (by decide)

theorem splitDigits_append {digits : List Char} (hdigits : ∀ c ∈ digits, c.isDigit = true)
    (hrest : ∀ c ∈ rest.head?, c.isDigit = false) :
    splitDigits (digits ++ rest) = (digits, rest) := by
  rw [splitDigits, List.takeWhile_append_of_pos hdigits, List.dropWhile_append_of_pos hdigits]
  cases rest with
  | nil => simp
  | cons c rest =>
    have hc := hrest c rfl
    rw [List.takeWhile_cons_of_neg (by simp [hc]), List.dropWhile_cons_of_neg (by simp [hc]),
      List.append_nil]

theorem IsExponent.not_isDigit_head {exponent : List Char} {e : ℤ} (h : IsExponent exponent e) :
    ∀ c ∈ exponent.head?, c.isDigit = false ∧ c ≠ '.' := by
  cases h with
  | none => simp
  | some isLetter =>
    rintro c ⟨⟩
    rcases isLetter with rfl | rfl <;> decide

theorem IsPointed.ne_nil {number digits : List Char} {decimals : ℕ}
    (h : IsPointed number digits decimals) (hne : digits ≠ []) : number ≠ [] := by
  cases h with
  | whole => exact hne
  | point => simp

theorem IsPointed.isDigit_or_eq {number digits : List Char} {decimals : ℕ} {c : Char}
    (h : IsPointed number digits decimals) (hdigits : ∀ c ∈ digits, c.isDigit = true)
    (hc : c ∈ number) : c.isDigit = true ∨ c = '.' := by
  cases h with
  | whole => exact .inl (hdigits c hc)
  | point =>
    rw [List.mem_append, List.mem_cons] at hc
    rcases hc with hc | rfl | hc
    · exact .inl (hdigits c (List.mem_append_left _ hc))
    · exact .inr rfl
    · exact .inl (hdigits c (List.mem_append_right _ hc))

/-- A numeral without a sign begins with a digit or a point. -/
theorem IsUnsigned.not_sign_head {n : ℕ} {e : ℤ} (h : IsUnsigned cs n e) :
    ∀ c ∈ cs.head?, c ≠ '+' ∧ c ≠ '-' := by
  obtain @⟨number, digits, exponent, decimals, e, hpointed, hne, hdigits, -⟩ := h
  obtain ⟨first, others, rfl⟩ := List.exists_cons_of_ne_nil (hpointed.ne_nil hne)
  rintro c ⟨⟩
  rcases hpointed.isDigit_or_eq hdigits List.mem_cons_self with hc | rfl
  · exact (not_sign_of_isDigit hc).1
  · decide

theorem Denotes.negative_iff {d : Decimal} (h : Denotes cs d) :
    d.negative = true ↔ cs.head? = some '-' := by
  obtain @⟨sign, number, negative, digits, exponent, hsign, hunsigned⟩ := h
  cases hsign with
  | none =>
    have hhead := fun heq => (hunsigned.not_sign_head '-' heq).2 rfl
    exact iff_of_false Bool.false_ne_true hhead
  | plus =>
    have hplus : '+' ≠ '-' := by decide
    exact iff_of_false Bool.false_ne_true fun heq => hplus (Option.some.inj heq)
  | minus => exact iff_of_true rfl rfl

/-- The sign of a numeral is all that stands in front of its digits and point. -/
theorem denotes_append_iff {sign number : List Char} {negative : Bool} {d : Decimal}
    (hsign : IsSign sign negative) (hhead : ∀ c ∈ number.head?, c ≠ '+' ∧ c ≠ '-') :
    Denotes (sign ++ number) d ↔ ∃ n e, IsUnsigned number n e ∧ d = ⟨negative, n, e⟩ := by
  constructor
  · intro h
    generalize hcs : sign ++ number = cs at h
    obtain @⟨sign', number', negative', digits, exponent, hsign', hunsigned⟩ := h
    have hsplit := congrArg splitSign hcs
    rw [splitSign_append hsign hhead, splitSign_append hsign' hunsigned.not_sign_head,
      Prod.mk.injEq] at hsplit
    obtain ⟨rfl, rfl⟩ := hsplit
    exact ⟨digits, exponent, hunsigned, rfl⟩
  · rintro ⟨n, e, hunsigned, rfl⟩
    exact .intro hsign hunsigned

theorem readExponent?_eq_some_iff {e : ℤ} : readExponent? cs = some e ↔ IsExponent cs e := by
  constructor
  · intro h
    cases cs with
    | nil =>
      cases h
      exact .none
    | cons c rest =>
      obtain ⟨sign, hsign, hrest⟩ := exists_isSign rest
      simp only [readExponent?, ofDigits_eq, Option.ite_none_right_eq_some, Option.some.injEq] at h
      obtain ⟨⟨hletter, hne, hdigits⟩, rfl⟩ := h
      have hexponent := IsExponent.some hletter hsign hne (List.all_eq_true.mp hdigits)
      rwa [← hrest] at hexponent
  · intro h
    cases h with
    | none => rfl
    | @some letter sign digits negative isLetter isSign nonempty isDigit =>
      have hhead : ∀ c ∈ digits.head?, c ≠ '+' ∧ c ≠ '-' := fun c hc =>
        (not_sign_of_isDigit (isDigit c (List.mem_of_mem_head? hc))).1
      rw [readExponent?, splitSign_append isSign hhead]
      dsimp only
      rw [if_pos ⟨isLetter, nonempty, List.all_eq_true.mpr isDigit⟩, ofDigits_eq]

theorem splitFraction_of_ne_point (h : ∀ c ∈ cs.head?, c ≠ '.') : splitFraction cs = ([], cs) := by
  rw [splitFraction.eq_def]
  split
  · exact absurd rfl (h _ rfl)
  · rfl

/-- The leading digits, with a point and the digits behind it if there is a point. -/
theorem exists_isPointed (cs : List Char) :
    ∃ number, cs = number ++ (splitFraction (splitDigits cs).2).2 ∧
      IsPointed number ((splitDigits cs).1 ++ (splitFraction (splitDigits cs).2).1)
        (splitFraction (splitDigits cs).2).1.length := by
  have hsplit : cs = (splitDigits cs).1 ++ (splitDigits cs).2 :=
    List.takeWhile_append_dropWhile.symm
  rw [splitFraction.eq_def]
  split
  · next rest hrest =>
    have hfraction : rest = (splitDigits rest).1 ++ (splitDigits rest).2 :=
      List.takeWhile_append_dropWhile.symm
    refine ⟨(splitDigits cs).1 ++ '.' :: (splitDigits rest).1, ?_, .point⟩
    rw [List.append_assoc, List.cons_append, ← hfraction, ← hrest]
    exact hsplit
  · refine ⟨(splitDigits cs).1, hsplit, ?_⟩
    rw [List.append_nil]
    exact .whole

theorem isDigit_of_splitDigits {c : Char} (h : c ∈ (splitDigits cs).1) : c.isDigit = true :=
  List.mem_takeWhile_imp h

theorem isDigit_of_splitFraction {c : Char} (h : c ∈ (splitFraction cs).1) : c.isDigit = true := by
  rw [splitFraction.eq_def] at h
  split at h
  · exact isDigit_of_splitDigits h
  · cases h

theorem readUnsigned?_eq_some_iff {n : ℕ} {e : ℤ} :
    readUnsigned? cs = some (n, e) ↔ IsUnsigned cs n e := by
  constructor
  · intro h
    obtain ⟨number, hcs, hpointed⟩ := exists_isPointed cs
    simp only [readUnsigned?, ofDigits_eq, Option.ite_none_left_eq_some, Option.map_eq_some_iff,
      Prod.mk.injEq] at h
    obtain ⟨hne, e', hexponent, rfl, rfl⟩ := h
    have hdigits : ∀ c ∈ (splitDigits cs).1 ++ (splitFraction (splitDigits cs).2).1,
        c.isDigit = true := by
      intro c hc
      rcases List.mem_append.mp hc with hc | hc
      · exact isDigit_of_splitDigits hc
      · exact isDigit_of_splitFraction hc
    have hunsigned := IsUnsigned.intro hpointed hne hdigits (readExponent?_eq_some_iff.mp hexponent)
    rwa [← hcs] at hunsigned
  · intro h
    obtain @⟨number, digits, exponent, decimals, e', hpointed, hne, hdigits, hexponent⟩ := h
    have hread := readExponent?_eq_some_iff.mpr hexponent
    have hhead : ∀ c ∈ exponent.head?, c.isDigit = false := fun c hc =>
      (hexponent.not_isDigit_head c hc).1
    cases hpointed with
    | whole =>
      have hfraction : splitFraction exponent = ([], exponent) :=
        splitFraction_of_ne_point fun c hc => (hexponent.not_isDigit_head c hc).2
      simp only [readUnsigned?, splitDigits_append hdigits hhead, hfraction, List.append_nil,
        if_neg hne, hread, Option.map_some, ofDigits_eq, List.length_nil]
    | @point whole fraction =>
      have hwhole : splitDigits (whole ++ '.' :: (fraction ++ exponent))
          = (whole, '.' :: (fraction ++ exponent)) :=
        splitDigits_append (fun c hc => hdigits c (List.mem_append_left _ hc)) (by rintro c ⟨⟩; rfl)
      have hfraction : splitFraction ('.' :: (fraction ++ exponent)) = (fraction, exponent) :=
        splitDigits_append (fun c hc => hdigits c (List.mem_append_right _ hc)) hhead
      simp only [readUnsigned?, List.append_assoc, List.cons_append, hwhole, hfraction, if_neg hne,
        hread, Option.map_some, ofDigits_eq]

theorem read?_eq_some_iff {text : String} {d : Decimal} :
    read? text = some d ↔ Denotes text.toList d := by
  constructor
  · intro h
    obtain ⟨sign, hsign, htext⟩ := exists_isSign text.toList
    rw [read?, Option.map_eq_some_iff] at h
    obtain ⟨⟨n, e⟩, hnumber, rfl⟩ := h
    have hdenotes := Denotes.intro hsign (readUnsigned?_eq_some_iff.mp hnumber)
    rwa [← htext] at hdenotes
  · intro h
    generalize htext : text.toList = cs at h
    obtain @⟨sign, number, negative, digits, exponent, hsign, hunsigned⟩ := h
    have hread := readUnsigned?_eq_some_iff.mpr hunsigned
    simp only [read?, htext, splitSign_append hsign hunsigned.not_sign_head, hread, Option.map_some]

end Decimal

end Reckon
