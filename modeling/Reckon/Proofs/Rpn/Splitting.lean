import Mathlib.Data.Prod.Lex
import Mathlib.Order.WellFounded
import Reckon.Proofs.Rpn.Failure
import Reckon.Proofs.Rpn.Postorder
import Reckon.Proofs.Token.Nested

/-!
# Where a conversion splits

A conversion follows a recursive law, whether the tokens are a sentence or not. The operator outside
of groups that binds least tightly, and of several such operators the last one, comes last in
postfix order, behind the tokens to its left and those to its right, each converted by themselves.
Where there is no operator outside of groups, the literals and the groups are converted one after
the other. Main statement: `conversion_splits_at_loosest_operator`.

The run over the tokens to the right of an operator does not disturb what waits below, since none of
their operators outside of groups binds less tightly; it puts out and leaves waiting the same tokens
over any stack, `Conversion.Leaves`.
-/

namespace Reckon.Rpn

open Token (Balanced Known Nested)

/-! ## Operators outside of groups -/

/-- An operator outside of all groups. -/
structure OuterOperator (tokens : List Token) where
  /-- The tokens to its left. -/
  before : List Token
  /-- Its symbol. -/
  symbol : String
  /-- The tokens to its right. -/
  after : List Token
  /-- The operator itself. -/
  operator : Operator
  tokens_eq : tokens = before ++ .op symbol :: after
  /-- No group is open where it stands. -/
  balanced : Balanced before
  lookup_eq : Operator.lookup symbol = .ok operator

namespace OuterOperator

variable {tokens : List Token}

/-- Of the operators outside of groups none binds less tightly, and those behind it bind more
tightly: it is the last one of lowest precedence. -/
def IsLoosest (s : OuterOperator tokens) : Prop :=
  ∀ other : OuterOperator tokens, s.operator.precedence ≤ other.operator.precedence ∧
    (s.before.length < other.before.length → s.operator.precedence < other.operator.precedence)

theorem length_eq (s : OuterOperator tokens) :
    tokens.length = s.before.length + s.after.length + 1 := by
  have h := congrArg List.length s.tokens_eq
  rw [List.length_append, List.length_cons] at h
  omega

/-- The operator is outside of groups whatever follows. -/
def append (s : OuterOperator tokens) (rest : List Token) : OuterOperator (tokens ++ rest) where
  before := s.before
  symbol := s.symbol
  after := s.after ++ rest
  operator := s.operator
  tokens_eq := by
    have h := congrArg (· ++ rest) s.tokens_eq
    simpa using h
  balanced := s.balanced
  lookup_eq := s.lookup_eq

/-- Operators are ordered by precedence, and those of one precedence from right to left. -/
def rank (s : OuterOperator tokens) : Nat ×ₗ Nat :=
  toLex (s.operator.precedence, s.after.length)

/-- Where there is an operator outside of groups, there is a loosest one. -/
theorem exists_isLoosest (s : OuterOperator tokens) : ∃ t : OuterOperator tokens, t.IsLoosest := by
  -- the least rank belongs to the last of the operators of lowest precedence
  obtain ⟨t, -, hmin⟩ := (InvImage.wf rank wellFounded_lt).has_min Set.univ ⟨s, trivial⟩
  refine ⟨t, fun other => ?_⟩
  have hrank : ¬ rank other < rank t := hmin other trivial
  rw [rank, rank, Prod.Lex.toLex_lt_toLex] at hrank
  have ht := t.length_eq
  have hother := other.length_eq
  constructor
  · omega
  · intro hlater
    omega

end OuterOperator

namespace Conversion

/-- Every operator outside of groups binds at least so tightly. -/
def OuterAtLeast (level : Nat) (tokens : List Token) : Prop :=
  ∀ before symbol after, tokens = before ++ .op symbol :: after → Balanced before →
    BindsAtLeast level (.op symbol)

variable {level : Nat} {tokens out waiting : List Token}

theorem OuterAtLeast.of_append {rest : List Token} (h : OuterAtLeast level (tokens ++ rest)) :
    OuterAtLeast level tokens := by
  intro before symbol after hsplit
  exact h before symbol (after ++ rest) (by rw [hsplit]; simp)

/-- Over any stack with no operator of the level on top, the tokens put out `out` and leave
`waiting` on top of that stack, the latest token first in both. -/
structure Leaves (level : Nat) (tokens out waiting : List Token) : Prop where
  /-- What is left waiting are operators of the level. -/
  waits : ∀ token ∈ waiting, BindsAtLeast level token
  run : ∀ output stack, Quiet level stack →
    (tokens.foldlM step ⟨output, stack⟩).result = .ok ⟨out ++ output, waiting ++ stack⟩

theorem leaves_nil (level : Nat) : Leaves level [] [] [] :=
  ⟨by simp, fun _ _ _ => rfl⟩

theorem Leaves.num (h : Leaves level tokens out waiting) (text : String) :
    Leaves level (tokens ++ [.num text]) (.num text :: out) waiting := by
  refine ⟨h.waits, fun output stack hquiet => ?_⟩
  rw [Run.result_foldlM_append (h.run output stack hquiet)]
  rfl

/-- An operator puts out those that wait and bind at least as tightly, and nothing of the stack
below. -/
theorem Leaves.op (h : Leaves level tokens out waiting) {symbol : String}
    (hop : BindsAtLeast level (.op symbol)) :
    ∃ out' waiting', Leaves level (tokens ++ [.op symbol]) out' waiting' := by
  obtain ⟨symbol', operator, hsymbol, hlookup, hlevel⟩ := hop
  obtain rfl := Token.op.inj hsymbol
  obtain ⟨popped, rest, rfl, hpopped, hquiet⟩ := exists_split operator.precedence
    fun token ht => .inr ((h.waits token ht).mono (Nat.zero_le level))
  refine ⟨popped.reverse ++ out, .op symbol :: rest, ?_, fun output stack hstack => ?_⟩
  · intro token ht
    rcases List.mem_cons.mp ht with rfl | ht
    · exact ⟨symbol, operator, rfl, hlookup, hlevel⟩
    · exact h.waits token (List.mem_append_right _ ht)
  · -- if all of `waiting` is put out, the operator still stops at the stack below
    have hstep : (step ⟨out ++ output, popped ++ rest ++ stack⟩ (.op symbol)).result
        = .ok ⟨popped.reverse ++ (out ++ output), .op symbol :: (rest ++ stack)⟩ :=
      step_op_eq_ok.mpr ⟨operator, popped, rest ++ stack, hlookup, List.append_assoc _ _ _, rfl,
        hpopped, hquiet.append (hstack.mono hlevel)⟩
    rw [Run.result_foldlM_append (h.run output stack hstack), List.foldlM_cons, Run.result_bind,
      hstep, List.append_assoc]
    rfl

theorem Leaves.group {inner listing : List Token} (h : Leaves level tokens out waiting)
    (hinner : (ofInfix inner).result = .ok listing) :
    Leaves level (tokens ++ .lparen :: (inner ++ [.rparen])) (listing.reverse ++ out) waiting := by
  refine ⟨h.waits, fun output stack hquiet => ?_⟩
  rw [Run.result_foldlM_append (h.run output stack hquiet), result_foldlM_group hinner,
    List.append_assoc]

theorem Leaves.lists (h : Leaves level tokens out waiting) :
    Lists level tokens (out.reverse ++ waiting) := by
  intro output stack hquiet
  exact ⟨out ++ output, waiting, h.run output stack hquiet, h.waits, by simp⟩

/-- Nested tokens of the level are taken in without a look at the stack below. -/
theorem exists_leaves (h : Nested tokens) (hops : Known tokens)
    (houter : OuterAtLeast level tokens) : ∃ out waiting, Leaves level tokens out waiting := by
  induction h with
  | nil => exact ⟨[], [], leaves_nil level⟩
  | num text before ih =>
    obtain ⟨out, waiting, hleaves⟩ :=
      ih (hops.mono (List.subset_append_left _ _)) houter.of_append
    exact ⟨_, _, hleaves.num text⟩
  | @op tokens symbol before ih =>
    obtain ⟨out, waiting, hleaves⟩ :=
      ih (hops.mono (List.subset_append_left _ _)) houter.of_append
    exact hleaves.op (houter tokens symbol [] rfl before.balanced)
  | @group tokens inner before inside ih _ =>
    obtain ⟨out, waiting, hleaves⟩ :=
      ih (hops.mono (List.subset_append_left _ _)) houter.of_append
    obtain ⟨listing, hinner⟩ :=
      exists_result_ofInfix (hops.mono fun token hm => by simp [hm]) inside.balanced
    exact ⟨_, _, hleaves.group hinner⟩

end Conversion

/-! ## Splitting at an operator -/

namespace OuterOperator

variable {tokens : List Token} {s : OuterOperator tokens}

/-- To the left of the loosest operator none binds less tightly. -/
theorem IsLoosest.outerAtLeast_before (h : s.IsLoosest) (hops : Known tokens) :
    Conversion.OuterAtLeast s.operator.precedence s.before := by
  intro before symbol after hsplit hbalanced
  have htokens : tokens = before ++ .op symbol :: (after ++ .op s.symbol :: s.after) :=
    s.tokens_eq.trans (by rw [hsplit]; simp)
  obtain ⟨kind, rfl⟩ := hops symbol (by rw [htokens]; simp)
  obtain ⟨n, hlookup⟩ := Operator.exists_lookup_symbol kind
  obtain ⟨hprecedence, -⟩ := h ⟨before, kind.symbol, _, _, htokens, hbalanced, hlookup⟩
  exact ⟨kind.symbol, _, rfl, hlookup, hprecedence⟩

/-- To the right of the loosest operator all bind more tightly. -/
theorem IsLoosest.outerAtLeast_after (h : s.IsLoosest) (hops : Known tokens) :
    Conversion.OuterAtLeast (s.operator.precedence + 1) s.after := by
  intro before symbol after hsplit hbalanced
  have htokens : tokens = (s.before ++ .op s.symbol :: before) ++ .op symbol :: after :=
    s.tokens_eq.trans (by rw [hsplit]; simp)
  have houter : Balanced (s.before ++ .op s.symbol :: before) := s.balanced.append_iff.mpr hbalanced
  obtain ⟨kind, rfl⟩ := hops symbol (by rw [htokens]; simp)
  obtain ⟨n, hlookup⟩ := Operator.exists_lookup_symbol kind
  obtain ⟨-, hlater⟩ := h ⟨_, kind.symbol, after, _, htokens, houter, hlookup⟩
  have hlength : s.before.length < (s.before ++ .op s.symbol :: before).length := by
    rw [List.length_append, List.length_cons]
    omega
  exact ⟨kind.symbol, _, rfl, hlookup, hlater hlength⟩

theorem balanced_after (s : OuterOperator tokens) (h : Balanced tokens) : Balanced s.after := by
  rw [s.tokens_eq, s.balanced.append_iff] at h
  exact h

/-- The conversion splits at the loosest operator. -/
theorem IsLoosest.result_ofInfix (h : s.IsLoosest) (hbalanced : Balanced tokens)
    (hops : Known tokens) :
    ∃ ls rs, (ofInfix s.before).result = .ok ls ∧ (ofInfix s.after).result = .ok rs ∧
      (ofInfix tokens).result = .ok (ls ++ rs ++ [.op s.symbol]) := by
  have hopsBefore : Known s.before := hops.mono fun token hm => by rw [s.tokens_eq]; simp [hm]
  have hopsAfter : Known s.after := hops.mono fun token hm => by rw [s.tokens_eq]; simp [hm]
  obtain ⟨_, _, hleft⟩ :=
    Conversion.exists_leaves s.balanced.nested hopsBefore (h.outerAtLeast_before hops)
  obtain ⟨_, _, hright⟩ := Conversion.exists_leaves (s.balanced_after hbalanced).nested hopsAfter
    (h.outerAtLeast_after hops)
  have hsymbol : s.symbol = s.operator.kind.symbol := Operator.eq_symbol_of_lookup s.lookup_eq
  have hlookup := s.lookup_eq
  rw [hsymbol] at hlookup
  have hlists := hleft.lists.binary hlookup hright.lists
  rw [← hsymbol, ← s.tokens_eq] at hlists
  exact ⟨_, _, hleft.lists.result_ofInfix, hright.lists.result_ofInfix, hlists.result_ofInfix⟩

end OuterOperator

/-! ## Pieces -/

/-- Literals and groups in any order, with the tokens of the literals and what the tokens of the
groups are converted into, one after the other. -/
inductive Pieces : List Token → List Token → Prop
  /-- Nothing is converted into nothing. -/
  | nil : Pieces [] []
  /-- A literal follows. -/
  | num {tokens out : List Token} (text : String) (before : Pieces tokens out) :
      Pieces (tokens ++ [.num text]) (out ++ [.num text])
  /-- A group follows, which contributes what its tokens are converted into. -/
  | group {tokens out inner listing : List Token} (before : Pieces tokens out)
      (inside : (ofInfix inner).result = .ok listing) :
      Pieces (tokens ++ .lparen :: (inner ++ [.rparen])) (out ++ listing)

variable {tokens out : List Token}

theorem Pieces.leaves (h : Pieces tokens out) : Conversion.Leaves 0 tokens out.reverse [] := by
  induction h with
  | nil => exact Conversion.leaves_nil 0
  | num text _ ih =>
    rw [List.reverse_append]
    exact ih.num text
  | group _ inside ih =>
    rw [List.reverse_append]
    exact ih.group inside

/-- Nested tokens without an operator outside of groups are literals and groups. -/
theorem exists_pieces (h : Nested tokens) (hops : Known tokens)
    (hnone : IsEmpty (OuterOperator tokens)) : ∃ out, Pieces tokens out := by
  induction h with
  | nil => exact ⟨[], .nil⟩
  | num text before ih =>
    obtain ⟨out, hpieces⟩ :=
      ih (hops.mono (List.subset_append_left _ _)) ⟨fun s => hnone.false (s.append _)⟩
    exact ⟨_, hpieces.num text⟩
  | @op tokens symbol before ih =>
    obtain ⟨kind, rfl⟩ := hops symbol (by simp)
    obtain ⟨n, hlookup⟩ := Operator.exists_lookup_symbol kind
    exact (hnone.false ⟨tokens, kind.symbol, [], _, rfl, before.balanced, hlookup⟩).elim
  | @group tokens inner before inside ih _ =>
    obtain ⟨out, hpieces⟩ :=
      ih (hops.mono (List.subset_append_left _ _)) ⟨fun s => hnone.false (s.append _)⟩
    obtain ⟨listing, hinner⟩ :=
      exists_result_ofInfix (hops.mono fun token hm => by simp [hm]) inside.balanced
    exact ⟨_, hpieces.group hinner⟩

/-- Tokens that can be converted, whether they are a sentence or not, are converted as their loosest
operator outside of groups splits them, and piece by piece if there is none. -/
theorem conversion_splits_at_loosest_operator (h : (ofInfix tokens).result = .ok out) :
    (∀ s : OuterOperator tokens, s.IsLoosest →
        ∃ ls rs, (ofInfix s.before).result = .ok ls ∧ (ofInfix s.after).result = .ok rs ∧
          out = ls ++ rs ++ [.op s.symbol]) ∧
      (Nonempty (OuterOperator tokens) → ∃ s : OuterOperator tokens, s.IsLoosest) ∧
      (IsEmpty (OuterOperator tokens) → Pieces tokens out) := by
  have hbalanced := balanced_of_result_ofInfix h
  have hops := known_of_result_ofInfix h
  refine ⟨?_, ?_, ?_⟩
  · intro s hloosest
    obtain ⟨ls, rs, hleft, hright, hwhole⟩ := hloosest.result_ofInfix hbalanced hops
    exact ⟨ls, rs, hleft, hright, Except.ok.inj (h.symm.trans hwhole)⟩
  · rintro ⟨s⟩
    exact s.exists_isLoosest
  · intro hnone
    obtain ⟨out', hpieces⟩ := exists_pieces hbalanced.nested hops hnone
    have hconvert := hpieces.leaves.lists.result_ofInfix
    rw [List.reverse_reverse, List.append_nil] at hconvert
    obtain rfl : out' = out := Except.ok.inj (hconvert.symm.trans h)
    exact hpieces

/-- In `1 - - ( ) *`, which is no sentence, the second minus is the loosest operator. -/
theorem two_minuses_in_a_row :
    (ofInfix [.num "1", .op "-", .op "-", .lparen, .rparen, .op "*"]).result
        = .ok [.num "1", .op "-", .op "*", .op "-"] ∧
      ∃ ls rs, (ofInfix [.num "1", .op "-"]).result = .ok ls ∧
        (ofInfix [.lparen, .rparen, .op "*"]).result = .ok rs ∧
        [.num "1", .op "-", .op "*", .op "-"] = ls ++ rs ++ [.op "-"] := by
  let tokens : List Token := [.num "1", .op "-", .op "-", .lparen, .rparen, .op "*"]
  let minus : OuterOperator tokens :=
    ⟨[.num "1", .op "-"], "-", [.lparen, .rparen, .op "*"], ⟨1, .sub⟩, rfl, rfl, rfl⟩
  have hconvert : (ofInfix tokens).result = .ok [.num "1", .op "-", .op "*", .op "-"] := by
    decide +kernel
  have hrows : ∀ row ∈ Operator.table, 1 ≤ row.2.precedence := by decide
  have hloosest : minus.IsLoosest := by
    rintro ⟨before, symbol, after, operator, htokens, -, hlookup⟩
    refine ⟨hrows _ (Operator.lookup_eq_ok_iff.mp hlookup), fun hlater => ?_⟩
    have hlength : 6 = before.length + (after.length + 1) := by
      simpa [tokens] using congrArg List.length htokens
    have hget : tokens[before.length]? = some (.op symbol) := by
      rw [htokens]
      simp
    have hplace : before.length = 3 ∨ before.length = 4 ∨ before.length = 5 := by
      have hbehind : 2 < before.length := hlater
      omega
    rcases hplace with hb | hb | hb
    · rw [hb] at hget
      cases hget
    · rw [hb] at hget
      cases hget
    · rw [hb] at hget
      cases hget
      cases hlookup
      exact Nat.lt_succ_self 1
  exact ⟨hconvert, (conversion_splits_at_loosest_operator hconvert).1 minus hloosest⟩

end Reckon.Rpn
