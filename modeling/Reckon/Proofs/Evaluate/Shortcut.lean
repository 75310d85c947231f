import Mathlib.Data.List.DropRight
import Mathlib.Data.List.TakeWhile
import Reckon.Evaluate
import Reckon.Proofs.Literal
import Reckon.Proofs.Rpn.Postorder
import Reckon.Proofs.Rpn.Reduction
import Reckon.Proofs.Token.Written

/-!
# The shortcut for a negative literal

A single negative literal is taken as a number without the three stages. The stages find the same
number: the blanks around the literal are passed over, and its sign stands where an operand is
expected. Main statement: apart from the check for blanks, an evaluation has the outcome of its
stages, `evaluateFrom_agrees`.
-/

namespace Reckon

namespace Text

theorem trimList_eq_nil_iff {cs : List Char} : trimList cs = [] ↔ ∀ c ∈ cs, isBlank c = true := by
  rw [show trimList cs = (cs.dropWhile isBlank).rdropWhile isBlank from rfl,
    List.rdropWhile_eq_nil_iff]
  constructor
  · intro h c hc
    by_contra hb
    -- a character that is not blank is not dropped at the start
    have hmem : c ∈ cs.dropWhile isBlank := by
      rw [← List.takeWhile_append_dropWhile (p := isBlank) (l := cs), List.mem_append] at hc
      rcases hc with hc | hc
      · exact absurd (List.mem_takeWhile_imp hc) hb
      · exact hc
    exact hb (h c hmem)
  · intro h c hc
    exact h c ((List.dropWhile_sublist _).mem hc)

/-- A list of characters is its trimmed form between blanks. -/
theorem exists_eq_append_trimList (cs : List Char) :
    ∃ front back, cs = front ++ trimList cs ++ back ∧ (∀ c ∈ front, isBlank c = true) ∧
      ∀ c ∈ back, isBlank c = true := by
  set rest := cs.dropWhile isBlank with hrest
  refine ⟨cs.takeWhile isBlank, (rest.reverse.takeWhile isBlank).reverse, ?_, ?_, ?_⟩
  · rw [trimList, ← hrest, List.append_assoc, ← List.reverse_append,
      List.takeWhile_append_dropWhile, List.reverse_reverse, hrest,
      List.takeWhile_append_dropWhile]
  · exact fun c hc => List.mem_takeWhile_imp hc
  · exact fun c hc => List.mem_takeWhile_imp (List.mem_reverse.mp hc)

theorem isEmpty_trim_iff {source : String} : (trim source).isEmpty = true ↔ IsBlank source := by
  rw [String.isEmpty_iff, ← String.toList_eq_nil_iff, toList_trim, trimList_eq_nil_iff]
  rfl

end Text

/-! ## The stages -/

/-- Where the tokens have the postfix order of a tree, the stages evaluate the tree. -/
theorem evaluateStages_of_postorder {tokens : List Token} {tree : Expr} {source : String}
    (hread : Scan.read source.toList = .ok tokens)
    (hconvert : (Rpn.ofInfix tokens).result = .ok tree.postorder) (p : Arithmetic)
    (past : History) :
    (evaluateStages p past source).Agrees (do
      let (value, _) ← tree.evalFrom p past
      return value) := by
  have htokens : (tokenize source).result = .ok tokens := by rw [result_tokenize, hread]
  rw [← Rpn.reduceFrom_postorder]
  exact ((silent_tokenize source).bind_agrees htokens _).trans
    ((Rpn.silent_ofInfix tokens).bind_agrees hconvert _)

theorem evaluateStages_of_sentence {tokens : List Token} {tree : Expr} {source : String}
    (h : Sentence .expression tokens tree) (hread : Scan.read source.toList = .ok tokens)
    (p : Arithmetic) (past : History) :
    (evaluateStages p past source).Agrees (do
      let (value, _) ← tree.evalFrom p past
      return value) :=
  evaluateStages_of_postorder hread (Rpn.result_ofInfix_of_sentence h) p past

/-! ## The shortcut -/

/-- The shortcut applies to nothing but a minus sign and literal characters that denote a number. -/
theorem result_negativeLiteral?_eq_some {text : String} {value : Float}
    (h : (negativeLiteral? text).result = .ok (some value)) :
    (∃ digits, text.toList = '-' :: digits ∧ ∀ c ∈ digits, isLiteralChar c = true) ∧
      (parseNumber text).result = .ok value := by
  unfold negativeLiteral? at h
  split at h
  · next digits ht =>
    split_ifs at h with hd
    · cases h
    · rw [Bool.or_eq_true, not_or, Bool.not_eq_true', Bool.not_eq_false, List.all_eq_true] at hd
      refine ⟨⟨digits, ht, hd.2⟩, ?_⟩
      cases hp : (parseNumber text).result with
      | ok value' =>
        rw [Run.attempt, hp] at h
        cases h
        rfl
      | error e =>
        rw [Run.attempt, hp] at h
        cases h
  · cases h

/-- The shortcut fails at no text; it applies or it does not. -/
theorem exists_result_negativeLiteral? (text : String) :
    ∃ found, (negativeLiteral? text).result = .ok found := by
  unfold negativeLiteral?
  split
  · split_ifs
    · exact ⟨none, rfl⟩
    · exact ⟨_, rfl⟩
  · exact ⟨none, rfl⟩

theorem silent_negativeLiteral? (text : String) : (negativeLiteral? text).Silent := by
  unfold negativeLiteral?
  split
  · split_ifs
    · exact Run.silent_pure _
    · exact silent_parseNumber text
  · exact Run.silent_pure _

/-- A minus sign and literal characters between blanks are a single literal for the stages. -/
theorem evaluateStages_of_minus {source : String} {digits : List Char}
    (ht : (Text.trim source).toList = '-' :: digits) (hd : ∀ c ∈ digits, isLiteralChar c = true)
    (p : Arithmetic) (past : History) :
    (evaluateStages p past source).Agrees (parseNumber (Text.trim source)) := by
  obtain ⟨front, back, hcs, hfront, hback⟩ := Text.exists_eq_append_trimList source.toList
  have hwritten : Written [.num (Text.trim source)] source.toList := by
    rw [hcs, ← Text.toList_trim]
    exact .token hfront (.blanks hback)
  have hlegible : (Token.num (Text.trim source)).Legible true :=
    ⟨['-'], digits, ht, by simp, .inr ⟨rfl, rfl⟩, hd⟩
  have hread := read_of_written hwritten ⟨rfl, rfl⟩ fun token ht => by
    rw [List.mem_singleton.mp ht]
    exact hlegible
  have hsentence : Sentence .expression [.num (Text.trim source)] (.literal (Text.trim source)) :=
    .term (.factor (.literal _))
  refine (evaluateStages_of_sentence hsentence hread p past).trans ?_
  rw [Expr.evalFrom, bind_assoc]
  simp only [pure_bind, bind_pure]
  exact .refl _

/-- Where the shortcut applies, the stages find the same number without a call. -/
theorem evaluateStages_of_negativeLiteral {source : String} {value : Float}
    (h : (negativeLiteral? (Text.trim source)).result = .ok (some value)) (p : Arithmetic)
    (past : History) : (evaluateStages p past source).Agrees (pure value) := by
  obtain ⟨⟨digits, ht, hd⟩, hvalue⟩ := result_negativeLiteral?_eq_some h
  exact (evaluateStages_of_minus ht hd p past).trans ⟨hvalue, silent_parseNumber _⟩

/-- Apart from blanks, an expression has the outcome of its three stages. -/
theorem evaluateFrom_agrees (p : Arithmetic) (past : History) {source : String}
    (h : ¬ Text.IsBlank source) :
    (evaluateFrom p past source).Agrees (evaluateStages p past source) := by
  have hne : ¬ (Text.trim source).isEmpty = true := fun he => h (Text.isEmpty_trim_iff.mp he)
  obtain ⟨found, hfound⟩ := exists_result_negativeLiteral? (Text.trim source)
  unfold evaluateFrom
  rw [if_neg hne]
  refine ((silent_negativeLiteral? _).bind_agrees hfound _).trans ?_
  cases found with
  | some value =>
    refine ((Run.silent_note _).bind_agrees rfl _).trans ?_
    exact (evaluateStages_of_negativeLiteral hfound p past).symm
  | none => exact Run.agrees_note_after _ _

theorem evaluateFrom_of_isBlank (p : Arithmetic) (past : History) {source : String}
    (h : Text.IsBlank source) : evaluateFrom p past source = Run.fail .emptyExpression := by
  unfold evaluateFrom
  rw [if_pos (Text.isEmpty_trim_iff.mpr h)]

/-- The shortcut changes no outcome: blanks are the empty expression, and any other text has the
outcome of its three stages. -/
theorem shortcut_changes_no_outcome (p : Arithmetic) (past : History) (source : String) :
    (Text.IsBlank source → (evaluateFrom p past source).Agrees (Run.fail .emptyExpression)) ∧
      (¬ Text.IsBlank source →
        (evaluateFrom p past source).Agrees (evaluateStages p past source)) := by
  constructor
  · intro h
    rw [evaluateFrom_of_isBlank p past h]
    exact .refl _
  · exact evaluateFrom_agrees p past

theorem blanks_and_negative_zero :
    Text.IsBlank " \t" ∧ ¬ Text.IsBlank " -0 " ∧
      (evaluateFrom .checked [] " \t").Agrees (Run.fail .emptyExpression) ∧
      (evaluateFrom .checked [] " -0 ").Agrees (evaluateStages .checked [] " -0 ") ∧
      (evaluateStages .checked [] " -0 ").result = .ok (-0.0) := by
  have hblank : Text.IsBlank " \t" := List.all_eq_true.mp rfl
  have hzero : ¬ Text.IsBlank " -0 " := fun h => absurd (h '-' (by decide)) (by decide)
  have hempty := (shortcut_changes_no_outcome .checked [] " \t").1 hblank
  have hstages := (shortcut_changes_no_outcome .checked [] " -0 ").2 hzero
  exact ⟨hblank, hzero, hempty, hstages, rfl⟩

end Reckon
