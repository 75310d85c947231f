import Mathlib.Data.List.Perm.Basic
import Mathlib.Data.List.TakeWhile
import Reckon.Proofs.Rpn.Failure
import Reckon.Proofs.Token.Nested

/-!
# Where the tokens go

Equal tokens look alike in postfix order. To tell where each of them went, a conversion is followed
with tokens that carry their places: `Tracking` has the same steps on such tokens, and without the
places its states are those of the conversion, `Tracking.forget_run`. The `arrangement` of the
tokens is what it puts out. Main statement: operators only move to the right, and nothing is lost or
duplicated, `conversion_moves_operators_right`.

What has been put out comes before all tokens that are still to be read, `precedes_of_mem_output`. A
literal is put out at once. A closing group leaves on the stack what was there before its left
parenthesis, so that all of its tokens have been put out.
-/

namespace Reckon.Rpn

open Token (Balanced openAfter)

/-- A token together with its place among the tokens that are converted. -/
abbrev Placed := Token × Nat

/-- The state of a conversion whose tokens carry their places. -/
structure Tracking where
  /-- The tokens that have been put out, the latest first. -/
  output : List Placed
  /-- The operators and left parentheses that wait, the latest first. -/
  stack : List Placed

namespace Tracking

/-- The state before the first token. -/
def initial : Tracking := ⟨[], []⟩

/-- Puts out the run of tokens on top of the stack that have the property. -/
def release (p : Token → Bool) (state : Tracking) : Tracking :=
  ⟨(state.stack.takeWhile (p ·.1)).reverse ++ state.output, state.stack.dropWhile (p ·.1)⟩

/-- Whether a waiting token is an operator that is carried out before that of the symbol. -/
def goesBefore (symbol : String) : Token → Bool
  | .op waiting =>
    match Operator.find? waiting, Operator.find? symbol with
    | some operator, some next => operator.goesBefore next
    | _, _ => false
  | _ => false

/-- Takes a token in. -/
def step (state : Tracking) (item : Placed) : Tracking :=
  match item.1 with
  | .num _ => { state with output := item :: state.output }
  | .op symbol =>
    let released := state.release (goesBefore symbol)
    { released with stack := item :: released.stack }
  | .lparen => { state with stack := item :: state.stack }
  | .rparen =>
    let released := state.release fun token => !token.isLParen
    { released with stack := released.stack.tail }

/-- The state after the tokens, which are counted from zero. -/
def run (tokens : List Token) : Tracking :=
  tokens.zipIdx.foldl step initial

/-- The state of the conversion itself. -/
def forget (state : Tracking) : Conversion :=
  ⟨state.output.map Prod.fst, state.stack.map Prod.fst⟩

end Tracking

/-- The literals and operators in postfix order, with their places before. -/
def arrangement (tokens : List Token) : List Placed :=
  (Tracking.run tokens).output.reverse ++ (Tracking.run tokens).stack

/-- Whether a token has a place in postfix order: it is a literal or an operator. -/
def isArranged (item : Placed) : Bool :=
  item.1.isNum || item.1.isOp

namespace Tracking

variable {state : Tracking} {item : Placed} {p : Token → Bool}

theorem run_append_singleton (tokens : List Token) (token : Token) :
    run (tokens ++ [token]) = (run tokens).step (token, tokens.length) := by
  rw [run, List.zipIdx_append, List.foldl_append]
  simp [run]

/-! ## Forgetting the places -/

/-- A run of elements with a property is taken as a whole if it ends there. -/
theorem takeWhile_dropWhile_append {α : Type} {p : α → Bool} {xs ys : List α}
    (hxs : ∀ x ∈ xs, p x = true) (hys : ∀ y ∈ ys.head?, p y = false) :
    (xs ++ ys).takeWhile p = xs ∧ (xs ++ ys).dropWhile p = ys := by
  rw [List.takeWhile_append_of_pos hxs, List.dropWhile_append_of_pos hxs]
  cases ys with
  | nil => simp
  | cons y ys => simp [hys y rfl]

theorem forget_release {popped rest : List Token} (hs : state.forget.stack = popped ++ rest)
    (hpopped : ∀ token ∈ popped, p token = true)
    (hrest : ∀ token ∈ rest.head?, p token = false) :
    (state.release p).forget = ⟨popped.reverse ++ state.forget.output, rest⟩ := by
  have hstack : state.stack.map Prod.fst = popped ++ rest := hs
  obtain ⟨htake, hdrop⟩ := takeWhile_dropWhile_append hpopped hrest
  rw [← hstack, List.takeWhile_map] at htake
  rw [← hstack, List.dropWhile_map] at hdrop
  rw [release, forget, List.map_append, List.map_reverse]
  exact congrArg₂ Conversion.mk (congrArg (·.reverse ++ _) htake) hdrop

theorem goesBefore_of_bindsAtLeast {symbol : String} {next : Operator} {token : Token}
    (hnext : Operator.lookup symbol = .ok next)
    (h : Conversion.BindsAtLeast next.precedence token) : goesBefore symbol token = true := by
  obtain ⟨waiting, operator, rfl, hoperator, hlevel⟩ := h
  rw [Operator.lookup_eq_ok_iff, ← Operator.find?_eq_some_iff] at hnext hoperator
  simp [goesBefore, hnext, hoperator, Operator.goesBefore, hlevel]

theorem not_goesBefore_of_quiet {symbol : String} {next : Operator} {rest : List Token}
    (hnext : Operator.lookup symbol = .ok next) (h : Conversion.Quiet next.precedence rest) :
    ∀ token ∈ rest.head?, goesBefore symbol token = false := by
  intro token ht
  obtain ⟨rest', rfl⟩ := List.head?_eq_some_iff.mp ht
  cases token with
  | op waiting =>
    obtain ⟨operator, hoperator, hlevel⟩ := h waiting rest' rfl
    rw [Operator.lookup_eq_ok_iff, ← Operator.find?_eq_some_iff] at hnext hoperator
    simp [goesBefore, hnext, hoperator, Operator.goesBefore, hlevel]
  | num text | lparen | rparen => rfl

/-- A step of the conversion is the step with places, without the places. -/
theorem forget_step {next : Conversion}
    (h : (Conversion.step state.forget item.1).result = .ok next) :
    next = (state.step item).forget := by
  obtain ⟨token, place⟩ := item
  cases token with
  | num text => exact Conversion.step_num_eq_ok.mp h
  | op symbol =>
    obtain ⟨operator, popped, rest, hop, hs, rfl, hb, hq⟩ := Conversion.step_op_eq_ok.mp h
    have hpopped : ∀ token ∈ popped, goesBefore symbol token = true :=
      fun token ht => goesBefore_of_bindsAtLeast hop (hb token ht)
    have hreleased := forget_release hs hpopped (not_goesBefore_of_quiet hop hq)
    simp only [forget, Conversion.mk.injEq] at hreleased
    simp [step, forget, hreleased]
  | lparen => exact Conversion.step_lparen_eq_ok.mp h
  | rparen =>
    obtain ⟨popped, rest, hs, hp, rfl⟩ := Conversion.step_rparen_eq_ok.mp h
    have hpopped : ∀ token ∈ popped, (!token.isLParen) = true := by
      intro token ht
      cases token with
      | lparen => exact absurd ht hp
      | num text | op symbol | rparen => rfl
    have hreleased := forget_release (p := fun token => !token.isLParen) hs hpopped
      (by simp [Token.isLParen])
    simp only [forget, Conversion.mk.injEq] at hreleased
    simp [step, forget, hreleased, List.map_tail]

theorem forget_run {tokens : List Token} {last : Conversion}
    (h : (tokens.foldlM Conversion.step Conversion.initial).result = .ok last) :
    last = (run tokens).forget := by
  refine Run.foldlM_induction (I := fun done state => state = (run done).forget) rfl
    (fun done state token next hdone hstep => ?_) h
  subst hdone
  rw [run_append_singleton]
  have hitem : (Conversion.step (run done).forget ((token, done.length) : Placed).1).result
      = .ok next := hstep
  exact forget_step hitem

/-! ## What is put out -/

/-- Nothing waits but operators and left parentheses. -/
def Waiting (state : Tracking) : Prop :=
  ∀ item ∈ state.stack, item.1.isOp = true ∨ item.1 = .lparen

theorem Waiting.step (h : state.Waiting) (item : Placed) : (state.step item).Waiting := by
  have hrest : ∀ p, (state.release p).Waiting :=
    fun p other ho => h other ((List.dropWhile_sublist _).mem ho)
  obtain ⟨token, place⟩ := item
  cases token with
  | num text => exact h
  | op symbol => exact List.forall_mem_cons.mpr ⟨.inl rfl, hrest _⟩
  | lparen => exact List.forall_mem_cons.mpr ⟨.inr rfl, h⟩
  | rparen => exact fun other ho => hrest _ other (List.mem_of_mem_tail ho)

theorem waiting_run (tokens : List Token) : (run tokens).Waiting := by
  induction tokens using List.reverseRecOn with
  | nil => simp [Waiting, run, initial]
  | append_singleton tokens token ih =>
    rw [run_append_singleton]
    exact ih.step _

/-- The literals and operators that have been taken in. -/
def arranged (state : Tracking) : List Placed :=
  state.output ++ state.stack.filter isArranged

theorem perm_arranged_release
    (hputs : ∀ item ∈ state.stack, p item.1 = true → isArranged item = true) :
    (state.release p).arranged.Perm state.arranged := by
  set popped := state.stack.takeWhile (p ·.1) with hpopped
  set rest := state.stack.dropWhile (p ·.1) with hrest
  have hstack : state.stack = popped ++ rest := (List.takeWhile_append_dropWhile).symm
  have hfilter : popped.filter isArranged = popped := by
    refine List.filter_eq_self.mpr fun item hm => hputs item ?_ ?_
    · rw [hstack]
      exact List.mem_append_left _ hm
    · exact List.mem_takeWhile_imp (p := fun item : Placed => p item.1) hm
  calc (state.release p).arranged
      = popped.reverse ++ state.output ++ rest.filter isArranged := rfl
    List.Perm _ (popped ++ state.output ++ rest.filter isArranged) :=
        ((List.reverse_perm popped).append_right _).append_right _
    List.Perm _ (state.output ++ (popped ++ rest.filter isArranged)) := by
        rw [List.append_assoc]
        exact List.perm_append_comm_assoc _ _ _
    _ = state.arranged := by rw [arranged, hstack, List.filter_append, hfilter]

/-- What a closing group drops from the stack is its left parenthesis. -/
theorem filter_isArranged_tail (state : Tracking) :
    (state.release fun token => !token.isLParen).stack.tail.filter isArranged
      = (state.release fun token => !token.isLParen).stack.filter isArranged := by
  have hhead := List.head?_dropWhile_not (fun item : Placed => !item.1.isLParen) state.stack
  rw [release]
  cases hrest : state.stack.dropWhile fun item => !item.1.isLParen with
  | nil => rfl
  | cons item rest =>
    rw [hrest] at hhead
    obtain ⟨token, place⟩ := item
    cases token with
    | lparen => rfl
    | num text | op symbol | rparen => cases hhead

/-- A step arranges the token that it takes in, if it is a literal or an operator. -/
theorem Waiting.perm_arranged_step (h : state.Waiting) (item : Placed) :
    (state.step item).arranged.Perm (state.arranged ++ [item].filter isArranged) := by
  obtain ⟨token, place⟩ := item
  cases token with
  | num text => exact (List.perm_append_singleton _ _).symm
  | op symbol =>
    have hputs : ∀ item ∈ state.stack,
        goesBefore symbol item.1 = true → isArranged item = true := by
      rintro ⟨token, place⟩ - hbefore
      cases token with
      | op waiting => rfl
      | num text | lparen | rparen => cases hbefore
    have hreleased := perm_arranged_release hputs
    exact (List.perm_middle.trans (hreleased.cons _)).trans (List.perm_append_singleton _ _).symm
  | lparen =>
    rw [show [((.lparen, place) : Placed)].filter isArranged = [] from rfl, List.append_nil]
    rfl
  | rparen =>
    have hputs : ∀ item ∈ state.stack, (!item.1.isLParen) = true → isArranged item = true := by
      rintro ⟨token, place⟩ hm hopen
      rcases h _ hm with hop | rfl
      · simp [isArranged, hop]
      · cases hopen
    have hreleased := perm_arranged_release (p := fun token => !token.isLParen) hputs
    rw [show [((.rparen, place) : Placed)].filter isArranged = [] from rfl, List.append_nil]
    rwa [arranged, ← filter_isArranged_tail] at hreleased

theorem perm_arranged_run (tokens : List Token) :
    (run tokens).arranged.Perm (tokens.zipIdx.filter isArranged) := by
  induction tokens using List.reverseRecOn with
  | nil => rfl
  | append_singleton tokens token ih =>
    rw [run_append_singleton, List.zipIdx_append, List.filter_append, Nat.zero_add]
    exact ((waiting_run tokens).perm_arranged_step _).trans (ih.append_right _)

theorem place_lt_of_mem_arranged {tokens : List Token} (h : item ∈ (run tokens).arranged) :
    item.2 < tokens.length := by
  rw [(perm_arranged_run tokens).mem_iff, List.mem_filter] at h
  exact List.snd_lt_of_mem_zipIdx h.1

/-! ## The order of what is put out -/

/-- What has been put out stays in front. -/
theorem output_suffix_step (state : Tracking) (item : Placed) :
    state.output <:+ (state.step item).output := by
  obtain ⟨token, place⟩ := item
  cases token with
  | num text => exact List.suffix_cons _ _
  | op symbol | rparen => exact List.suffix_append _ _
  | lparen => exact List.suffix_refl _

theorem output_suffix_run (before after : List Token) :
    (run before).output <:+ (run (before ++ after)).output := by
  induction after using List.reverseRecOn with
  | nil => simp
  | append_singleton after token ih =>
    rw [← List.append_assoc, run_append_singleton]
    exact ih.trans (output_suffix_step _ _)

/-! ## Groups -/

/-- Tokens that wait above a left parenthesis are put out without a look below it. -/
theorem stack_release_above {above below : List Placed} {place : Nat}
    (hs : state.stack = above ++ (.lparen, place) :: below) (hputs : p .lparen = false) :
    (state.release p).stack
      = above.dropWhile (fun item => p item.1) ++ (.lparen, place) :: below := by
  rw [release, hs, List.dropWhile_append]
  split_ifs with hempty
  · rw [List.isEmpty_iff.mp hempty, List.dropWhile_cons_of_neg (by simp [hputs])]
    rfl
  · rfl

/-- The number of left parentheses. -/
def countOpen (items : List Placed) : Nat :=
  items.countP fun item => item.1.isLParen

theorem countOpen_dropWhile (hputs : p .lparen = false) (items : List Placed) :
    countOpen (items.dropWhile fun item => p item.1) = countOpen items := by
  have hnone : countOpen (items.takeWhile fun item => p item.1) = 0 := by
    rw [countOpen, List.countP_eq_zero]
    rintro ⟨token, place⟩ hm hparen
    have htoken : p token = true :=
      List.mem_takeWhile_imp (p := fun item : Placed => p item.1) hm
    cases token with
    | lparen =>
      rw [hputs] at htoken
      cases htoken
    | num text | op symbol | rparen => cases hparen
  conv_rhs => rw [← List.takeWhile_append_dropWhile (p := fun item => p item.1) (l := items)]
  rw [countOpen, countOpen, List.countP_append]
  rw [countOpen] at hnone
  omega

/-- Above some token on the stack, either no group is open, or there is a latest one. -/
theorem dropWhile_isLParen_cases (items : List Placed) :
    ((items.dropWhile fun item => !item.1.isLParen) = [] ∧ countOpen items = 0) ∨
      ∃ item rest, (items.dropWhile fun item => !item.1.isLParen) = item :: rest ∧
        countOpen items = countOpen rest + 1 := by
  have hcount := countOpen_dropWhile (p := fun token => !token.isLParen) rfl items
  have hhead := List.head?_dropWhile_not (fun item : Placed => !item.1.isLParen) items
  cases hrest : items.dropWhile fun item => !item.1.isLParen with
  | nil =>
    rw [hrest] at hcount
    exact .inl ⟨rfl, hcount.symm⟩
  | cons item rest =>
    rw [hrest] at hcount hhead
    have hparen : item.1.isLParen = true := by simpa using hhead
    refine .inr ⟨item, rest, rfl, ?_⟩
    rw [← hcount, countOpen, countOpen, List.countP_cons_of_pos (by exact hparen)]

/-- Inside of a group, the stack has one left parenthesis for each group that is open there, above
the left parenthesis of the group. -/
def Above (state : Tracking) (depth place : Nat) (below : List Placed) : Prop :=
  ∃ above, state.stack = above ++ (.lparen, place) :: below ∧ countOpen above = depth

variable {depth depth' place : Nat} {below : List Placed}

theorem Above.step (h : state.Above depth place below)
    (hdepth : openAfter depth item.1 = some depth') :
    (state.step item).Above depth' place below := by
  obtain ⟨above, hs, hcount⟩ := h
  obtain ⟨token, index⟩ := item
  cases token with
  | num text =>
    cases hdepth
    exact ⟨above, hs, hcount⟩
  | op symbol =>
    cases hdepth
    refine ⟨(.op symbol, index) :: above.dropWhile fun item => goesBefore symbol item.1,
      congrArg _ (stack_release_above hs rfl), ?_⟩
    rw [countOpen, List.countP_cons_of_neg (by simp [Token.isLParen])]
    exact (countOpen_dropWhile rfl above).trans hcount
  | lparen =>
    cases hdepth
    refine ⟨(.lparen, index) :: above, congrArg _ hs, ?_⟩
    rw [countOpen, List.countP_cons_of_pos (by rfl)]
    exact congrArg (· + 1) hcount
  | rparen =>
    simp only [openAfter] at hdepth
    split_ifs at hdepth with hd
    cases hdepth
    have hstack := stack_release_above (p := fun token => !token.isLParen) hs rfl
    rcases dropWhile_isLParen_cases above with ⟨-, hzero⟩ | ⟨top, rest, hrest, hsucc⟩
    · omega
    · rw [hrest] at hstack
      exact ⟨rest, congrArg List.tail hstack, by omega⟩

/-- The right parenthesis of a group takes its left parenthesis off the stack. -/
theorem Above.close (h : state.Above 0 place below) (index : Nat) :
    (state.step (.rparen, index)).stack = below := by
  obtain ⟨above, hs, hcount⟩ := h
  have hstack := stack_release_above (p := fun token => !token.isLParen) hs rfl
  rcases dropWhile_isLParen_cases above with ⟨hnil, -⟩ | ⟨top, rest, -, hsucc⟩
  · rw [hnil] at hstack
    exact congrArg List.tail hstack
  · omega

theorem above_run {before inner : List Token} (h : inner.foldlM openAfter 0 = some depth) :
    (run (before ++ .lparen :: inner)).Above depth before.length (run before).stack := by
  induction inner using List.reverseRecOn generalizing depth with
  | nil =>
    cases h
    rw [run_append_singleton]
    exact ⟨[], rfl, rfl⟩
  | append_singleton inner token ih =>
    obtain ⟨between, hbetween, hstep⟩ := Token.foldlM_openAfter_append_singleton.mp h
    rw [← List.cons_append, ← List.append_assoc, run_append_singleton]
    exact (ih hbetween).step hstep

/-- Behind a group the stack is as it was before it. -/
theorem stack_run_group {before inner : List Token} (h : Balanced inner) :
    (run (before ++ .lparen :: (inner ++ [.rparen]))).stack = (run before).stack := by
  rw [← List.cons_append, ← List.append_assoc, run_append_singleton]
  exact (above_run h).close _

end Tracking

/-! ## Arrangements -/

open Tracking

/-- In the arrangement of the tokens, one item comes before another. -/
def Precedes (tokens : List Token) (item other : Placed) : Prop :=
  [item, other].Sublist (arrangement tokens)

variable {tokens out before inner rest : List Token} {item other : Placed}

/-- What has been put out comes before all tokens that are read later. -/
theorem precedes_of_mem_output (hitem : item ∈ (run before).output)
    (hother : other ∈ arrangement (before ++ rest)) (hplace : before.length ≤ other.2) :
    Precedes (before ++ rest) item other := by
  obtain ⟨put, hput⟩ := output_suffix_run before rest
  have hlate : other ∉ (run before).output := by
    intro hm
    have hlt := place_lt_of_mem_arranged (List.mem_append_left _ hm)
    omega
  rw [Precedes, arrangement, ← hput, List.reverse_append, List.append_assoc]
  rw [arrangement, ← hput, List.reverse_append, List.append_assoc, List.mem_append,
    List.mem_reverse] at hother
  have hfirst : [item].Sublist (run before).output.reverse :=
    List.singleton_sublist.mpr (List.mem_reverse.mpr hitem)
  exact hfirst.append (List.singleton_sublist.mpr (hother.resolve_left hlate))

/-- A successful conversion arranges its literals and operators, each of them once. -/
theorem perm_arrangement (h : (ofInfix tokens).result = .ok out) :
    (arrangement tokens).Perm (tokens.zipIdx.filter isArranged) ∧
      out = (arrangement tokens).map Prod.fst := by
  rw [ofInfix, Run.result_bind_eq_ok] at h
  obtain ⟨last, hrun, hfinish⟩ := h
  obtain rfl := forget_run hrun
  obtain ⟨hopen, rfl⟩ := Conversion.finish_eq_ok.mp hfinish
  have hstack : (run tokens).stack.filter isArranged = (run tokens).stack := by
    refine List.filter_eq_self.mpr fun item hm => ?_
    rcases waiting_run tokens item hm with hop | hparen
    · simp [isArranged, hop]
    · exact absurd (List.mem_map.mpr ⟨item, hm, hparen⟩) hopen
  constructor
  · have hperm := perm_arranged_run tokens
    rw [arranged, hstack] at hperm
    exact ((List.reverse_perm _).append_right _).trans hperm
  · rw [arrangement, List.map_append, List.map_reverse]
    rfl

/-- A token with its place splits the tokens there. -/
theorem exists_append_of_mem_zipIdx (h : item ∈ tokens.zipIdx) :
    ∃ before rest, tokens = before ++ item.1 :: rest ∧ before.length = item.2 := by
  rw [List.mem_zipIdx_iff_getElem?, List.getElem?_eq_some_iff] at h
  obtain ⟨hlt, hget⟩ := h
  refine ⟨tokens.take item.2, tokens.drop (item.2 + 1), ?_, ?_⟩
  · rw [← hget, List.getElem_cons_drop, List.take_append_drop]
  · rw [List.length_take]
    omega

/-- A literal comes before the literals and operators to its right. -/
theorem precedes_of_num (h : (ofInfix tokens).result = .ok out) {text : String} {place : Nat}
    (hnum : (.num text, place) ∈ arrangement tokens) (hother : other ∈ arrangement tokens)
    (hplace : place < other.2) : Precedes tokens (.num text, place) other := by
  rw [(perm_arrangement h).1.mem_iff, List.mem_filter] at hnum
  obtain ⟨before, rest, rfl, rfl⟩ := exists_append_of_mem_zipIdx hnum.1
  rw [List.append_cons] at hother ⊢
  have hput : (.num text, before.length) ∈ (run (before ++ [.num text])).output := by
    rw [run_append_singleton]
    exact List.mem_cons_self
  refine precedes_of_mem_output hput hother ?_
  rw [List.length_append]
  exact hplace

/-- Behind a group, its literals and operators have been put out. -/
theorem mem_output_of_group (hinner : Balanced inner)
    (hitem : item ∈ (before ++ Token.lparen :: (inner ++ [.rparen])).zipIdx.filter isArranged)
    (hplace : before.length ≤ item.2) :
    item ∈ (run (before ++ .lparen :: (inner ++ [.rparen]))).output := by
  rw [← (perm_arranged_run _).mem_iff, arranged, List.mem_append, stack_run_group hinner] at hitem
  refine hitem.resolve_right fun hwaiting => ?_
  have hlt := place_lt_of_mem_arranged (List.mem_append_right _ hwaiting)
  omega

/-- The literals and operators of a group come before those behind its right parenthesis. -/
theorem precedes_of_group (h : (ofInfix tokens).result = .ok out)
    (htokens : tokens = before ++ .lparen :: (inner ++ .rparen :: rest)) (hinner : Balanced inner)
    (hitem : item ∈ arrangement tokens) (hother : other ∈ arrangement tokens)
    (hinside : before.length < item.2 ∧ item.2 < before.length + 1 + inner.length)
    (hbehind : before.length + 1 + inner.length < other.2) : Precedes tokens item other := by
  have hgroup : tokens = before ++ .lparen :: (inner ++ [.rparen]) ++ rest := by
    rw [htokens]
    simp
  have hlength : (before ++ Token.lparen :: (inner ++ [.rparen])).length
      = before.length + 1 + inner.length + 1 := by
    simp
    omega
  rw [(perm_arrangement h).1.mem_iff, List.mem_filter, List.mem_zipIdx_iff_getElem?, hgroup,
    List.getElem?_append_left (by omega), ← List.mem_zipIdx_iff_getElem?,
    ← List.mem_filter] at hitem
  subst hgroup
  exact precedes_of_mem_output (mem_output_of_group hinner hitem (by omega)) hother (by omega)

/-- A conversion only moves operators to the right. Followed with the places of the tokens, it puts
out each literal and each operator once; a literal stays in front of what stands to its right, and
what stands in a group stays in front of what stands behind the group. -/
theorem conversion_moves_operators_right (h : (ofInfix tokens).result = .ok out) :
    (∀ before after, tokens = before ++ after →
        (before.foldlM Conversion.step Conversion.initial).result
          = .ok (Tracking.run before).forget) ∧
      out = (arrangement tokens).map Prod.fst ∧
      (arrangement tokens).Perm (tokens.zipIdx.filter isArranged) ∧
      (∀ text place other, (.num text, place) ∈ arrangement tokens → other ∈ arrangement tokens →
        place < other.2 → Precedes tokens (.num text, place) other) ∧
      ∀ before inner after item other,
        tokens = before ++ .lparen :: (inner ++ .rparen :: after) → Balanced inner →
        item ∈ arrangement tokens → other ∈ arrangement tokens →
        before.length < item.2 ∧ item.2 < before.length + 1 + inner.length →
        before.length + 1 + inner.length < other.2 → Precedes tokens item other := by
  obtain ⟨hperm, hout⟩ := perm_arrangement h
  refine ⟨?_, hout, hperm, fun text place other => precedes_of_num h,
    fun before inner after item other => precedes_of_group h⟩
  rintro before after rfl
  rw [ofInfix, Run.result_bind_eq_ok] at h
  obtain ⟨last, hrun, -⟩ := h
  rw [List.foldlM_append, Run.result_bind_eq_ok] at hrun
  obtain ⟨state, hstate, -⟩ := hrun
  rw [hstate, forget_run hstate]

/-- In `( 1 - 1 ) - 1` the minus of the group is put out first. -/
theorem two_equal_minuses :
    (ofInfix [.lparen, .num "1", .op "-", .num "1", .rparen, .op "-", .num "1"]).result
        = .ok [.num "1", .num "1", .op "-", .num "1", .op "-"] ∧
      arrangement [.lparen, .num "1", .op "-", .num "1", .rparen, .op "-", .num "1"]
        = [(.num "1", 1), (.num "1", 3), (.op "-", 2), (.num "1", 6), (.op "-", 5)] ∧
      Precedes [.lparen, .num "1", .op "-", .num "1", .rparen, .op "-", .num "1"]
        (.num "1", 3) (.op "-", 5) ∧
      Precedes [.lparen, .num "1", .op "-", .num "1", .rparen, .op "-", .num "1"]
        (.op "-", 2) (.num "1", 6) := by
  set tokens : List Token := [.lparen, .num "1", .op "-", .num "1", .rparen, .op "-", .num "1"]
  have hconvert : (ofInfix tokens).result
      = .ok [.num "1", .num "1", .op "-", .num "1", .op "-"] := by decide +kernel
  have harrangement : arrangement tokens
      = [(.num "1", 1), (.num "1", 3), (.op "-", 2), (.num "1", 6), (.op "-", 5)] := by
    decide +kernel
  obtain ⟨-, -, -, hnum, hgroup⟩ := conversion_moves_operators_right hconvert
  refine ⟨hconvert, harrangement, hnum "1" 3 (.op "-", 5) ?_ ?_ (by decide), ?_⟩
  · simp [harrangement]
  · simp [harrangement]
  · refine hgroup [] [.num "1", .op "-", .num "1"] [.op "-", .num "1"] (.op "-", 2) (.num "1", 6)
      rfl rfl ?_ ?_ (by decide) (by decide)
    · simp [harrangement]
    · simp [harrangement]

end Reckon.Rpn
