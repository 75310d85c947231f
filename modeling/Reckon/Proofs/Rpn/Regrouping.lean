import Mathlib.Logic.Relation
import Reckon.Proofs.Rpn.Postorder

/-!
# Redundant parentheses

Parentheses around an expression are redundant if the tree is the same without them. Every sentence
can be brought into a form in which each operation has its own pair, by adding and dropping
redundant pairs one at a time; so two sentences have the same tree exactly if they differ by
redundant pairs. Main statement: sentences are converted into the same tokens exactly if they differ
by redundant parentheses, `sentences_convert_faithfully`.
-/

namespace Reckon

open Relation (EqvGen)

/-- The second list of tokens is the first without one pair of redundant parentheses: the pair is
around an expression, and both lists are expressions with the same tree. -/
def DropsPair (tokens tokens' : List Token) : Prop :=
  ∃ (before body after : List Token) (inner tree : Expr),
    tokens = before ++ .lparen :: (body ++ .rparen :: after) ∧ tokens' = before ++ body ++ after ∧
      Sentence .expression body inner ∧ Sentence .expression tokens tree ∧
      Sentence .expression tokens' tree

/-- The tokens of a tree with a pair of parentheses around each operation. -/
def Expr.enclosed : Expr → List Token
  | literal text => [.num text]
  | binary op left right =>
    .lparen :: (left.enclosed ++ .op op.symbol :: right.enclosed ++ [.rparen])

namespace Sentence

variable {category : Category} {tokens ls rs : List Token} {tree left right : Expr}

/-- A factor can stand for a sentence of any category. -/
theorem of_factor (category : Category) (h : Sentence .factor tokens tree) :
    Sentence category tokens tree := by
  cases category with
  | expression => exact .term (.factor h)
  | term => exact .factor h
  | factor => exact h

theorem of_operands (op : BinOp) (hl : Sentence .factor ls left) (hr : Sentence .factor rs right) :
    Sentence .expression (ls ++ .op op.symbol :: rs) (.binary op left right) := by
  cases op with
  | add => exact .sum (.inl rfl) (hl.of_factor _) (hr.of_factor _)
  | sub => exact .sum (.inr rfl) (hl.of_factor _) (hr.of_factor _)
  | mul => exact .term (.product (.inl rfl) (hl.of_factor _) hr)
  | div => exact .term (.product (.inr rfl) (hl.of_factor _) hr)

theorem enclosed (tree : Expr) : Sentence .factor tree.enclosed tree := by
  induction tree with
  | literal text => exact .literal text
  | binary op left right ihl ihr => exact .group (of_operands op ihl ihr)

end Sentence

/-! ## Enclosing every operation -/

/-- In every place where the category allows it, adding and dropping redundant pairs leads from the
tokens to those with each operation enclosed. A place is what stands before and after, given that a
sentence of the category with the tree can be put there without changing the whole tree. -/
def Encloses (category : Category) (tokens : List Token) (tree : Expr) : Prop :=
  ∀ (before after : List Token) (whole : Expr),
    (∀ ts, Sentence category ts tree → Sentence .expression (before ++ ts ++ after) whole) →
    EqvGen DropsPair (before ++ tokens ++ after) (before ++ tree.enclosed ++ after)

variable {category outer first second : Category} {tokens ls rs : List Token}
  {tree left right : Expr}

theorem encloses_literal (text : String) : Encloses category [.num text] (.literal text) :=
  fun _ _ _ _ => .refl _

theorem Encloses.group (h : Encloses .expression tokens tree) :
    Encloses .factor (.lparen :: (tokens ++ [.rparen])) tree := by
  intro before after whole hplace
  have hdrop : DropsPair (before ++ (.lparen :: (tree.enclosed ++ [.rparen])) ++ after)
      (before ++ tree.enclosed ++ after) :=
    ⟨before, tree.enclosed, after, tree, whole, by simp, rfl, (Sentence.enclosed tree).of_factor _,
      hplace _ (.group ((Sentence.enclosed tree).of_factor _)), hplace _ (.enclosed tree)⟩
  have hinner := h (before ++ [.lparen]) (.rparen :: after) whole fun ts hts => by
    simpa using hplace _ (.group hts)
  refine .trans _ _ _ ?_ (.rel _ _ hdrop)
  simpa using hinner

theorem Encloses.mono (hsub : ∀ ts, Sentence category ts tree → Sentence outer ts tree)
    (h : Encloses category tokens tree) : Encloses outer tokens tree :=
  fun before after whole hplace => h before after whole fun ts hts => hplace ts (hsub ts hts)

/-- The operands of an operation are enclosed one after the other, and then the operation itself. -/
theorem Encloses.binary {op : BinOp}
    (join : ∀ ls rs, Sentence first ls left → Sentence second rs right →
      Sentence category (ls ++ .op op.symbol :: rs) (.binary op left right))
    (hr : Sentence second rs right) (ihl : Encloses first ls left)
    (ihr : Encloses second rs right) :
    Encloses category (ls ++ .op op.symbol :: rs) (.binary op left right) := by
  intro before after whole hplace
  have henclosed := (Sentence.enclosed left).of_factor first
  have hleft := ihl before (.op op.symbol :: rs ++ after) whole fun ts hts => by
    simpa using hplace _ (join ts rs hts hr)
  have hright := ihr (before ++ left.enclosed ++ [.op op.symbol]) after whole fun ts hts => by
    simpa using hplace _ (join _ ts henclosed hts)
  have hdrop : DropsPair (before ++ (Expr.binary op left right).enclosed ++ after)
      (before ++ (left.enclosed ++ .op op.symbol :: right.enclosed) ++ after) :=
    ⟨before, left.enclosed ++ .op op.symbol :: right.enclosed, after, _, whole,
      by simp [Expr.enclosed], rfl, .of_operands op (.enclosed left) (.enclosed right),
      hplace _ ((Sentence.enclosed _).of_factor _),
      hplace _ (join _ _ henclosed ((Sentence.enclosed right).of_factor second))⟩
  have hopen : EqvGen DropsPair (before ++ (ls ++ .op op.symbol :: rs) ++ after)
      (before ++ (left.enclosed ++ .op op.symbol :: right.enclosed) ++ after) := by
    refine .trans _ (before ++ (left.enclosed ++ .op op.symbol :: rs) ++ after) _ ?_ ?_
    · simpa using hleft
    · simpa using hright
  exact hopen.trans _ _ _ (.symm _ _ (.rel _ _ hdrop))

theorem Sentence.encloses (h : Sentence category tokens tree) : Encloses category tokens tree := by
  induction h with
  | literal text => exact encloses_literal text
  | group _ ih => exact ih.group
  | factor _ ih => exact ih.mono fun _ => .factor
  | product hop _ second ihl ihr =>
    exact .binary (fun _ _ hl hr => .product hop hl hr) second ihl ihr
  | term _ ih => exact ih.mono fun _ => .term
  | sum hop _ second ihl ihr => exact .binary (fun _ _ hl hr => .sum hop hl hr) second ihl ihr

/-! ## Sentences with one tree -/

/-- Adding or dropping a redundant pair keeps the tree of a sentence. -/
theorem sentence_iff_of_eqvGen {tokens tokens' : List Token}
    (h : EqvGen DropsPair tokens tokens') (tree : Expr) :
    Sentence .expression tokens tree ↔ Sentence .expression tokens' tree := by
  induction h with
  | rel tokens tokens' h =>
    obtain ⟨_, _, _, _, tree', _, _, _, hs, hs'⟩ := h
    constructor
    · intro ht
      rwa [ht.tree_unique hs]
    · intro ht
      rwa [ht.tree_unique hs']
  | refl => exact Iff.rfl
  | symm _ _ _ ih => exact ih.symm
  | trans _ _ _ _ _ ih ih' => exact ih.trans ih'

/-- Two sentences have the same tree exactly if they differ by redundant parentheses. -/
theorem Sentence.tree_eq_iff {tokens tokens' : List Token} {tree tree' : Expr}
    (h : Sentence .expression tokens tree) (h' : Sentence .expression tokens' tree') :
    tree = tree' ↔ EqvGen DropsPair tokens tokens' := by
  constructor
  · rintro rfl
    have henc := h.encloses [] [] tree fun ts hts => by simpa using hts
    have henc' := h'.encloses [] [] tree fun ts hts => by simpa using hts
    simp only [List.nil_append, List.append_nil] at henc henc'
    exact henc.trans _ _ _ (henc'.symm _ _)
  · intro hequiv
    exact ((sentence_iff_of_eqvGen hequiv tree).mp h).tree_unique h'

namespace Rpn

/-- A sentence is converted into its tree in postfix order, and two sentences into the same tokens
exactly if they have the same tree, which is to say that they differ by redundant parentheses. -/
theorem sentences_convert_faithfully {tokens tokens' : List Token} {tree tree' : Expr}
    (h : Sentence .expression tokens tree) (h' : Sentence .expression tokens' tree') :
    (ofInfix tokens).result = .ok tree.postorder ∧
      ((ofInfix tokens).result = (ofInfix tokens').result ↔ tree = tree') ∧
      (tree = tree' ↔ EqvGen DropsPair tokens tokens') := by
  refine ⟨result_ofInfix_of_sentence h, ?_, h.tree_eq_iff h'⟩
  rw [result_ofInfix_of_sentence h, result_ofInfix_of_sentence h', Except.ok.injEq,
    Expr.postorder_injective.eq_iff]

/-- The expressions `8 - 4 - 3` and `(8 - 4) - 3` are converted alike. -/
theorem left_association_is_redundant :
    (ofInfix [.num "8", .op "-", .num "4", .op "-", .num "3"]).result
      = (ofInfix [.lparen, .num "8", .op "-", .num "4", .rparen, .op "-", .num "3"]).result := by
  have hinner : Sentence .expression [.num "8", .op "-", .num "4"]
      (.binary .sub (.literal "8") (.literal "4")) :=
    .of_operands .sub (.literal "8") (.literal "4")
  have h : Sentence .expression [.num "8", .op "-", .num "4", .op "-", .num "3"]
      (.binary .sub (.binary .sub (.literal "8") (.literal "4")) (.literal "3")) :=
    .sum (.inr rfl) hinner (.factor (.literal "3"))
  have h' : Sentence .expression
      [.lparen, .num "8", .op "-", .num "4", .rparen, .op "-", .num "3"]
      (.binary .sub (.binary .sub (.literal "8") (.literal "4")) (.literal "3")) :=
    .of_operands .sub (.group hinner) (.literal "3")
  exact (sentences_convert_faithfully h h').2.1.mpr rfl

end Rpn

end Reckon
