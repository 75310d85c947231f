import Mathlib.Data.List.Nodup
import Reckon.Proofs.Rpn.Tracking

/-!
# Records of a conversion

A conversion records each operator that begins to wait, and in front of it those that stop waiting
for it. What it records can be told from the tokens alone, without a stack: each operator stands in
an innermost group, and it pops operators of its own group only, `transcript`. Operators that leave
at a right parenthesis or at the end leave no record. Main statement: `records_of_result_ofInfix`.
-/

namespace Reckon.Rpn

/-! ## Groups -/

/-- The groups that are open behind a token, if these are open in front of it. A group is named by
the place of its left parenthesis, and the innermost one comes first. -/
def groupsAfter (groups : List Nat) (item : Placed) : List Nat :=
  match item.1 with
  | .num _ | .op _ => groups
  | .lparen => item.2 :: groups
  | .rparen => groups.tail

/-- The groups that are open behind the tokens. -/
def openGroups (tokens : List Token) : List Nat :=
  tokens.zipIdx.foldl groupsAfter []

/-- The innermost group that a place stands in; there is none outside of all parentheses. -/
def groupAt (tokens : List Token) (place : Nat) : Option Nat :=
  (openGroups (tokens.take place)).head?

/-! ## What is recorded -/

/-- Whether a token is an operator with at least the precedence of that of the symbol. -/
def bindsAtLeast (symbol : String) : Token → Bool
  | .op waiting =>
    match Operator.precedenceOf waiting, Operator.precedenceOf symbol with
    | .ok level, .ok next => next ≤ level
    | _, _ => false
  | _ => false

/-- The operators of a group that are not among those that are gone, the latest first. -/
def waitingIn (tokens : List Token) (gone : List Placed) (group : Option Nat) : List Placed :=
  tokens.zipIdx.reverse.filter fun item =>
    item.1.isOp ∧ groupAt tokens item.2 = group ∧ item ∉ gone

/-- The operators that an operator behind the tokens pops, the latest first: those that wait in its
group, down to the first that binds less tightly. -/
def poppedBy (tokens : List Token) (gone : List Placed) (symbol : String) : List Placed :=
  (waitingIn tokens gone (openGroups tokens).head?).takeWhile (bindsAtLeast symbol ·.1)

/-- The records of tokens behind others, of which those that are gone have been popped. -/
def transcriptAfter (before : List Token) (gone : List Placed) : List Token → List Record
  | [] => []
  | .op symbol :: rest =>
    let popped := poppedBy before gone symbol
    popped.map (fun item => .popping item.1.text symbol) ++
      .pushing symbol :: transcriptAfter (before ++ [.op symbol]) (popped ++ gone) rest
  | token :: rest => transcriptAfter (before ++ [token]) gone rest

/-- The records of the operators among the tokens: those that each of them pops, and then itself. -/
def transcript (tokens : List Token) : List Record :=
  transcriptAfter [] [] tokens

variable {tokens before rest : List Token} {gone popped : List Placed} {group : Option Nat}
  {token : Token} {symbol : String} {item : Placed}

/-- The operators that bind at least as tightly are those that are carried out before. -/
theorem bindsAtLeast_eq_goesBefore (symbol : String) :
    bindsAtLeast symbol = Tracking.goesBefore symbol := by
  funext token
  cases token with
  | op waiting =>
    rw [bindsAtLeast, Tracking.goesBefore, Operator.precedenceOf, Operator.precedenceOf,
      Operator.lookup, Operator.lookup]
    cases Operator.find? waiting <;> cases Operator.find? symbol <;> rfl
  | num text | lparen | rparen => rfl

theorem openGroups_append_singleton (tokens : List Token) (token : Token) :
    openGroups (tokens ++ [token]) = groupsAfter (openGroups tokens) (token, tokens.length) := by
  rw [openGroups, List.zipIdx_append, List.foldl_append]
  simp [openGroups]

/-- Groups are opened from left to right. -/
theorem sorted_openGroups (tokens : List Token) :
    (tokens.length :: openGroups tokens).Pairwise (· > ·) := by
  induction tokens using List.reverseRecOn with
  | nil => simp [openGroups]
  | append_singleton tokens token ih =>
    have hlonger :
        ((tokens.length + 1) :: tokens.length :: openGroups tokens).Pairwise (· > ·) := by
      refine List.pairwise_cons.mpr ⟨List.forall_mem_cons.mpr ⟨Nat.lt_succ_self _, ?_⟩, ih⟩
      exact fun place hm => Nat.lt_succ_of_lt ((List.pairwise_cons.mp ih).1 place hm)
    rw [openGroups_append_singleton, List.length_append]
    refine hlonger.sublist ?_
    cases token with
    | num text | op symbol => exact (List.sublist_cons_self _ _).cons_cons _
    | lparen => exact .refl _
    | rparen => exact ((List.tail_sublist _).cons _).cons_cons _

theorem groupAt_append {place : Nat} (h : place ≤ tokens.length) (rest : List Token) :
    groupAt (tokens ++ rest) place = groupAt tokens place := by
  rw [groupAt, groupAt, List.take_append_of_le_length h]

theorem groupAt_length (tokens : List Token) :
    groupAt tokens tokens.length = (openGroups tokens).head? := by
  rw [groupAt, List.take_length]

/-- The group that a place stands in has been opened in front of it. -/
theorem lt_of_groupAt {place : Nat} (h : groupAt tokens item.2 = some place) : place < item.2 := by
  have hsorted := sorted_openGroups (tokens.take item.2)
  have hlt := (List.pairwise_cons.mp hsorted).1 place (List.mem_of_mem_head? h)
  exact Nat.lt_of_lt_of_le hlt (List.length_take_le _ _)

/-! ## The operators of a group -/

theorem mem_waitingIn :
    item ∈ waitingIn tokens gone group ↔
      item ∈ tokens.zipIdx ∧ item.1.isOp = true ∧ groupAt tokens item.2 = group ∧ item ∉ gone := by
  rw [waitingIn, List.mem_filter, List.mem_reverse, decide_eq_true_eq]

theorem nodup_waitingIn (tokens : List Token) (gone : List Placed) (group : Option Nat) :
    (waitingIn tokens gone group).Nodup := by
  have hplaces : tokens.zipIdx.Nodup := by
    apply List.Nodup.of_map Prod.snd
    rw [List.zipIdx_map_snd]
    exact List.nodup_range'
  exact (List.nodup_reverse.mpr hplaces).filter _

/-- One more token begins to wait if it is an operator of the group. -/
theorem waitingIn_append_singleton (tokens : List Token) (token : Token) (gone : List Placed)
    (group : Option Nat) :
    waitingIn (tokens ++ [token]) gone group =
      if token.isOp ∧ (openGroups tokens).head? = group ∧ (token, tokens.length) ∉ gone then
        (token, tokens.length) :: waitingIn tokens gone group
      else waitingIn tokens gone group := by
  have hold : ∀ item ∈ tokens.zipIdx.reverse, groupAt (tokens ++ [token]) item.2
      = groupAt tokens item.2 := by
    intro item hm
    have hlt := List.snd_lt_of_mem_zipIdx (List.mem_reverse.mp hm)
    exact groupAt_append (Nat.le_of_lt hlt) _
  have hnew : groupAt (tokens ++ [token]) tokens.length = (openGroups tokens).head? := by
    rw [← groupAt_length]
    exact groupAt_append le_rfl _
  have hlast : (tokens ++ [token]).zipIdx.reverse
      = (token, tokens.length) :: tokens.zipIdx.reverse := by
    simp [List.zipIdx_append]
  have hothers : tokens.zipIdx.reverse.filter (fun item =>
      item.1.isOp ∧ groupAt (tokens ++ [token]) item.2 = group ∧ item ∉ gone)
        = waitingIn tokens gone group :=
    List.filter_congr fun item hm => by rw [hold item hm]
  rw [waitingIn, hlast, List.filter_cons, hothers, hnew]
  simp only [decide_eq_true_eq]

/-- A token that is no operator does not wait in a group. -/
theorem waitingIn_append_of_not_isOp (h : token.isOp = false) (gone : List Placed)
    (group : Option Nat) :
    waitingIn (tokens ++ [token]) gone group = waitingIn tokens gone group := by
  rw [waitingIn_append_singleton, if_neg]
  simp [h]

theorem waitingIn_append_gone (tokens : List Token) (popped gone : List Placed)
    (group : Option Nat) :
    waitingIn tokens (popped ++ gone) group
      = (waitingIn tokens gone group).filter (· ∉ popped) := by
  rw [waitingIn, waitingIn, List.filter_filter]
  refine List.filter_congr fun item _ => ?_
  rw [← Bool.decide_and, decide_eq_decide, List.mem_append]
  tauto

/-- Without the run at its front, a list of different elements is what is left behind the run. -/
theorem filter_notMem_takeWhile {α : Type} [BEq α] [LawfulBEq α] {xs : List α} (h : xs.Nodup)
    (p : α → Bool) :
    xs.filter (· ∉ xs.takeWhile p) = xs.dropWhile p := by
  set front := xs.takeWhile p with hfront
  set back := xs.dropWhile p with hback
  have hxs : xs = front ++ back := (List.takeWhile_append_dropWhile).symm
  rw [hxs, List.nodup_append] at h
  have hnone : front.filter (· ∉ front) = [] := by
    rw [List.filter_eq_nil_iff]
    intro x hx
    simp [hx]
  have hall : back.filter (· ∉ front) = back := by
    rw [List.filter_eq_self]
    exact fun x hx => decide_eq_true fun hm => h.2.2 x hm x hx rfl
  rw [hxs, List.filter_append, hnone, hall, List.nil_append]

/-! ## The stack -/

/-- What stands on a stack below the operators of the innermost group. -/
def standingBelow (tokens : List Token) (gone : List Placed) : List Nat → List Placed
  | [] => []
  | place :: outer =>
    (.lparen, place) :: (waitingIn tokens gone outer.head? ++ standingBelow tokens gone outer)

/-- What stands on a stack: the operators that wait in each open group, above the left parenthesis
of the group. -/
def standing (tokens : List Token) (gone : List Placed) (groups : List Nat) : List Placed :=
  waitingIn tokens gone groups.head? ++ standingBelow tokens gone groups

/-- The stack has the operators of the open groups that are not gone. -/
structure Stands (before : List Token) (gone : List Placed) (state : Conversion) : Prop where
  stack_eq : state.stack = (standing before gone (openGroups before)).map Prod.fst
  place_lt : ∀ item ∈ gone, item.2 < before.length

theorem stands_initial : Stands [] [] Conversion.initial :=
  ⟨rfl, by simp⟩

/-- What stands below depends on the operators of the groups further out only. -/
theorem standingBelow_congr {tokens' : List Token} {gone' : List Placed} {groups : List Nat}
    (h : ∀ place outer, place :: outer <:+ groups →
      waitingIn tokens' gone' outer.head? = waitingIn tokens gone outer.head?) :
    standingBelow tokens' gone' groups = standingBelow tokens gone groups := by
  induction groups with
  | nil => rfl
  | cons place outer ih =>
    rw [standingBelow, standingBelow, h place outer List.suffix_rfl]
    rw [ih fun place' outer' hs => h place' outer' (hs.trans (List.suffix_cons _ _))]

theorem standing_append_of_not_isOp (h : token.isOp = false) (groups : List Nat) :
    standing (tokens ++ [token]) gone groups = standing tokens gone groups := by
  rw [standing, standing, waitingIn_append_of_not_isOp h]
  rw [standingBelow_congr fun _ _ _ => waitingIn_append_of_not_isOp h _ _]

/-- The groups further out are not the innermost one. -/
theorem head?_ne_of_suffix {groups outer : List Nat} {place : Nat}
    (hsorted : groups.Pairwise (· > ·)) (h : place :: outer <:+ groups) :
    groups.head? ≠ outer.head? := by
  obtain ⟨inner, rfl⟩ := h
  have hfirst : ∃ first, (inner ++ place :: outer).head? = some first ∧
      ∀ next ∈ outer, next < first := by
    cases inner with
    | nil => exact ⟨place, rfl, (List.pairwise_cons.mp hsorted).1⟩
    | cons first inner =>
      have hlt := (List.pairwise_cons.mp hsorted).1
      exact ⟨first, rfl, fun next hm => hlt next (by simp [hm])⟩
  obtain ⟨first, hhead, hlt⟩ := hfirst
  intro heq
  rw [hhead] at heq
  exact Nat.lt_irrefl _ (hlt first (List.mem_of_mem_head? heq.symm))

/-- An operator in the innermost group leaves the operators of the others where they are. -/
theorem waitingIn_append_op_of_ne (h : (openGroups tokens).head? ≠ group) :
    waitingIn (tokens ++ [.op symbol]) (poppedBy tokens gone symbol ++ gone) group
      = waitingIn tokens gone group := by
  rw [waitingIn_append_gone, waitingIn_append_singleton, if_neg (fun hnew => h hnew.2.1),
    List.filter_eq_self]
  intro item hm
  rw [decide_eq_true_eq]
  intro hpopped
  have hinnermost := (mem_waitingIn.mp ((List.takeWhile_sublist _).mem hpopped)).2.2.1
  exact h (hinnermost.symm.trans (mem_waitingIn.mp hm).2.2.1)

theorem place_lt_of_mem_poppedBy (h : item ∈ poppedBy tokens gone symbol) :
    item.2 < tokens.length :=
  List.snd_lt_of_mem_zipIdx (mem_waitingIn.mp ((List.takeWhile_sublist _).mem h)).1

/-- An operator begins to wait in the innermost group, where those that it pops do not wait any
more. -/
theorem waitingIn_append_op (hgone : ∀ item ∈ gone, item.2 < tokens.length) :
    waitingIn (tokens ++ [.op symbol]) (poppedBy tokens gone symbol ++ gone)
        (openGroups tokens).head?
      = (.op symbol, tokens.length) ::
          (waitingIn tokens gone (openGroups tokens).head?).dropWhile
            (bindsAtLeast symbol ·.1) := by
  have hfresh : (.op symbol, tokens.length) ∉ gone := fun hm => Nat.lt_irrefl _ (hgone _ hm)
  have hstays : (.op symbol, tokens.length) ∉ poppedBy tokens gone symbol := fun hm =>
    Nat.lt_irrefl _ (place_lt_of_mem_poppedBy hm)
  have hothers := filter_notMem_takeWhile
    (nodup_waitingIn tokens gone (openGroups tokens).head?) (bindsAtLeast symbol ·.1)
  rw [waitingIn_append_gone, waitingIn_append_singleton, if_pos ⟨rfl, rfl, hfresh⟩,
    List.filter_cons, if_pos (decide_eq_true hstays)]
  exact congrArg _ hothers

/-- A run that can only end in the first list is that of the first list. -/
theorem takeWhile_append_of_head? {α : Type} {p : α → Bool} {xs ys : List α}
    (h : ∀ y ∈ ys.head?, p y = false) :
    (xs ++ ys).takeWhile p = xs.takeWhile p ∧
      (xs ++ ys).dropWhile p = xs.dropWhile p ++ ys := by
  have hrun : ∀ x ∈ xs.takeWhile p, p x = true := fun x hx => List.mem_takeWhile_imp hx
  have hend : ∀ y ∈ (xs.dropWhile p ++ ys).head?, p y = false := by
    have hhead := List.head?_dropWhile_not p xs
    cases hrest : xs.dropWhile p with
    | nil => exact h
    | cons x rest =>
      rw [hrest] at hhead
      rintro y ⟨⟩
      exact hhead
  have hsplit := Tracking.takeWhile_dropWhile_append hrun hend
  rwa [← List.append_assoc, List.takeWhile_append_dropWhile] at hsplit

/-- The operators of the innermost group stand above its left parenthesis. -/
theorem eq_lparen_of_standingBelow {groups : List Nat}
    (h : item ∈ (standingBelow tokens gone groups).head?) : item.1 = .lparen := by
  cases groups with
  | nil => cases h
  | cons place outer =>
    cases h
    rfl

/-- A run of operators ends in the innermost group. -/
theorem takeWhile_dropWhile_standing (tokens : List Token) (gone : List Placed)
    (groups : List Nat) (symbol : String) :
    (standing tokens gone groups).takeWhile (bindsAtLeast symbol ·.1)
        = (waitingIn tokens gone groups.head?).takeWhile (bindsAtLeast symbol ·.1) ∧
      (standing tokens gone groups).dropWhile (bindsAtLeast symbol ·.1)
        = (waitingIn tokens gone groups.head?).dropWhile (bindsAtLeast symbol ·.1) ++
          standingBelow tokens gone groups := by
  refine takeWhile_append_of_head? fun item hm => ?_
  rw [eq_lparen_of_standingBelow hm]
  rfl

/-- A group that has just been opened has no operators. -/
theorem standing_cons (tokens : List Token) (gone : List Placed) :
    standing tokens gone (tokens.length :: openGroups tokens)
      = (.lparen, tokens.length) :: standing tokens gone (openGroups tokens) := by
  have hnone : waitingIn tokens gone (some tokens.length) = [] := by
    rw [List.eq_nil_iff_forall_not_mem]
    intro item hm
    obtain ⟨hplace, -, hgroup, -⟩ := mem_waitingIn.mp hm
    exact Nat.lt_asymm (List.snd_lt_of_mem_zipIdx hplace) (lt_of_groupAt hgroup)
  rw [standing, List.head?_cons, hnone]
  rfl

/-- A right parenthesis takes the operators of the innermost group off the stack. -/
theorem dropWhile_standing (tokens : List Token) (gone : List Placed) (groups : List Nat) :
    (standing tokens gone groups).dropWhile (fun item => !item.1.isLParen)
      = standingBelow tokens gone groups := by
  refine (Tracking.takeWhile_dropWhile_append (fun item hm => ?_) fun item hm => ?_).2
  · obtain ⟨token, place⟩ := item
    have hop := (mem_waitingIn.mp hm).2.1
    cases token with
    | op symbol => rfl
    | num text | lparen | rparen => cases hop
  · rw [eq_lparen_of_standingBelow hm]
    rfl

/-- Under the left parenthesis of the innermost group stands what stands without that group. -/
theorem stack_eq_of_standingBelow {groups : List Nat} {stack : List Token}
    (h : (standingBelow tokens gone groups).map Prod.fst = .lparen :: stack) :
    stack = (standing tokens gone groups.tail).map Prod.fst := by
  cases groups with
  | nil => cases h
  | cons place outer => exact (List.cons.inj h).2.symm

/-- An operator takes the place of those that it pops. -/
theorem standing_append_op (hgone : ∀ item ∈ gone, item.2 < tokens.length) :
    standing (tokens ++ [.op symbol]) (poppedBy tokens gone symbol ++ gone) (openGroups tokens)
      = (.op symbol, tokens.length) ::
          (standing tokens gone (openGroups tokens)).dropWhile
            (bindsAtLeast symbol ·.1) := by
  have hbelow : standingBelow (tokens ++ [.op symbol]) (poppedBy tokens gone symbol ++ gone)
      (openGroups tokens) = standingBelow tokens gone (openGroups tokens) := by
    refine standingBelow_congr fun place outer hs => waitingIn_append_op_of_ne ?_
    exact head?_ne_of_suffix (List.pairwise_cons.mp (sorted_openGroups tokens)).2 hs
  rw [(takeWhile_dropWhile_standing _ _ _ _).2, standing, waitingIn_append_op hgone, hbelow,
    List.cons_append]

/-! ## Steps -/

namespace Conversion

variable {state next : Conversion}

/-- An operator that stops waiting leaves a record. -/
theorem exists_records_release {operator : Operator} {output stack : List Token}
    (h : (release symbol operator output stack).result = .ok state) :
    ∃ popped, stack = popped ++ state.stack ∧
      (release symbol operator output stack).records
        = popped.map fun token => .popping token.text symbol := by
  fun_induction release symbol operator output stack with
  | case1 output waiting stack ih =>
    rw [Run.result_bind_eq_ok] at h
    obtain ⟨found, hfound, h⟩ := h
    rw [Run.records_bind_of_ok hfound, Run.records_ofExcept, List.nil_append]
    split_ifs at h ⊢ with hbefore
    · obtain ⟨popped, hs, hrecords⟩ := ih h
      exact ⟨.op waiting :: popped, congrArg _ hs, congrArg _ hrecords⟩
    · cases h
      exact ⟨[], rfl, rfl⟩
  | case2 output stack =>
    cases h
    exact ⟨[], rfl, rfl⟩

theorem records_close_of_ok {output stack : List Token}
    (h : (close output stack).result = .ok state) : (close output stack).records = [] := by
  fun_induction close output stack with
  | case1 => rfl
  | case2 output token stack htoken ih => exact ih h
  | case3 => cases h

theorem records_drain_of_ok {output stack out : List Token}
    (h : (drain output stack).result = .ok out) : (drain output stack).records = [] := by
  fun_induction drain output stack with
  | case1 => cases h
  | case2 output token stack htoken ih => exact ih h
  | case3 => rfl

/-- The run of operators that is put out leaves its records. -/
theorem records_release {operator : Operator} {output stack : List Token}
    (hop : Operator.lookup symbol = .ok operator)
    (h : (release symbol operator output stack).result = .ok state) :
    state.stack = stack.dropWhile (bindsAtLeast symbol) ∧
      (release symbol operator output stack).records
        = (stack.takeWhile (bindsAtLeast symbol)).map fun token => .popping token.text symbol := by
  obtain ⟨popped, hs, hrecords⟩ := exists_records_release h
  obtain ⟨popped', hs', -, hb, hq⟩ := result_release_eq_ok.mp h
  obtain rfl : popped = popped' := List.append_cancel_right (hs.symm.trans hs')
  obtain ⟨htake, hdrop⟩ := Tracking.takeWhile_dropWhile_append
    (fun token ht => Tracking.goesBefore_of_bindsAtLeast hop (hb token ht))
    (Tracking.not_goesBefore_of_quiet hop hq)
  rw [hrecords, hs, bindsAtLeast_eq_goesBefore, htake, hdrop]
  exact ⟨rfl, rfl⟩

/-- A right parenthesis takes the stack down to the latest left one, and that too. -/
theorem dropWhile_of_step_rparen (h : (step state .rparen).result = .ok next) :
    state.stack.dropWhile (fun token => !token.isLParen) = .lparen :: next.stack := by
  obtain ⟨popped, rest, hs, hp, rfl⟩ := step_rparen_eq_ok.mp h
  rw [hs]
  refine (Tracking.takeWhile_dropWhile_append (fun token ht => ?_) ?_).2
  · cases token with
    | lparen => exact absurd ht hp
    | num text | op symbol | rparen => rfl
  · rintro token ⟨⟩
    rfl

/-- An operator records the run that it takes off the stack, and then itself. -/
theorem records_step_op (h : (step state (.op symbol)).result = .ok next) :
    next.stack = .op symbol :: state.stack.dropWhile (bindsAtLeast symbol) ∧
      (step state (.op symbol)).records
        = (state.stack.takeWhile (bindsAtLeast symbol)).map
            (fun token => .popping token.text symbol) ++ [.pushing symbol] := by
  rw [step, Run.result_bind_eq_ok] at h
  obtain ⟨operator, hop, h⟩ := h
  obtain ⟨released, hreleased, h⟩ := Run.result_bind_eq_ok.mp h
  cases h
  obtain ⟨hstack, hrecords⟩ := records_release hop hreleased
  refine ⟨congrArg _ hstack, ?_⟩
  rw [step, Run.records_bind_of_ok hop, Run.records_ofExcept, List.nil_append,
    Run.records_bind_of_ok hreleased, hrecords]
  rfl

end Conversion

/-! ## Runs -/

variable {state next : Conversion}

theorem Stands.place_lt_append (h : Stands before gone state) (token : Token) :
    ∀ item ∈ gone, item.2 < (before ++ [token]).length := by
  intro item hm
  rw [List.length_append]
  exact Nat.lt_succ_of_lt (h.place_lt item hm)

/-- An operator records what it pops, and the stack has the operators that are left. -/
theorem Stands.step_op (h : Stands before gone state)
    (hstep : (Conversion.step state (.op symbol)).result = .ok next) :
    Stands (before ++ [.op symbol]) (poppedBy before gone symbol ++ gone) next ∧
      (Conversion.step state (.op symbol)).records
        = (poppedBy before gone symbol).map (fun item => .popping item.1.text symbol) ++
          [.pushing symbol] := by
  obtain ⟨hstack, hrecords⟩ := Conversion.records_step_op hstep
  refine ⟨⟨?_, ?_⟩, ?_⟩
  · rw [hstack, h.stack_eq, openGroups_append_singleton, List.dropWhile_map]
    exact congrArg (List.map Prod.fst) (standing_append_op h.place_lt).symm
  · refine List.forall_mem_append.mpr ⟨fun item hm => ?_, h.place_lt_append _⟩
    rw [List.length_append]
    exact Nat.lt_succ_of_lt (place_lt_of_mem_poppedBy hm)
  · have hrun : (standing before gone (openGroups before)).takeWhile
        (bindsAtLeast symbol ·.1) = poppedBy before gone symbol :=
      (takeWhile_dropWhile_standing _ _ _ _).1
    rw [hrecords, h.stack_eq, List.takeWhile_map, List.map_map, ← hrun]
    rfl

/-- A token that is no operator records nothing. -/
theorem Stands.step_of_not_isOp (h : Stands before gone state) (htoken : token.isOp = false)
    (hstep : (Conversion.step state token).result = .ok next) :
    Stands (before ++ [token]) gone next ∧ (Conversion.step state token).records = [] := by
  have hsame : ∀ groups, standing (before ++ [token]) gone groups = standing before gone groups :=
    standing_append_of_not_isOp htoken
  cases token with
  | num text =>
    obtain rfl := Conversion.step_num_eq_ok.mp hstep
    refine ⟨⟨?_, h.place_lt_append _⟩, rfl⟩
    rw [hsame, openGroups_append_singleton]
    exact h.stack_eq
  | op symbol => cases htoken
  | lparen =>
    obtain rfl := Conversion.step_lparen_eq_ok.mp hstep
    refine ⟨⟨?_, h.place_lt_append _⟩, rfl⟩
    rw [hsame, openGroups_append_singleton, h.stack_eq]
    exact congrArg (List.map Prod.fst) (standing_cons before gone).symm
  | rparen =>
    refine ⟨⟨?_, h.place_lt_append _⟩, Conversion.records_close_of_ok hstep⟩
    rw [hsame, openGroups_append_singleton]
    have hdrop := Conversion.dropWhile_of_step_rparen hstep
    rw [h.stack_eq, List.dropWhile_map] at hdrop
    exact stack_eq_of_standingBelow ((congrArg _ (dropWhile_standing _ _ _)).symm.trans hdrop)

/-- Tokens record what they pop and push. -/
theorem Stands.records_foldlM {last : Conversion} (h : Stands before gone state)
    (hrun : (rest.foldlM Conversion.step state).result = .ok last) :
    (rest.foldlM Conversion.step state).records = transcriptAfter before gone rest := by
  induction rest generalizing before gone state with
  | nil => rfl
  | cons token rest ih =>
    rw [List.foldlM_cons] at hrun ⊢
    obtain ⟨next, hstep, hrest⟩ := Run.result_bind_eq_ok.mp hrun
    rw [Run.records_bind_of_ok hstep]
    cases token with
    | op symbol =>
      obtain ⟨hnext, hrecords⟩ := h.step_op hstep
      rw [hrecords, ih hnext hrest, transcriptAfter, List.append_assoc, List.singleton_append]
    | num text | lparen | rparen =>
      obtain ⟨hnext, hrecords⟩ := h.step_of_not_isOp rfl hstep
      rw [hrecords, ih hnext hrest, List.nil_append]
      rfl

/-- A conversion records what its operators pop and push, and its outcome. -/
theorem records_of_result_ofInfix {out : List Token} (h : (ofInfix tokens).result = .ok out) :
    (ofInfix tokens).records = transcript tokens ++ [.converted out] := by
  rw [ofInfix, Run.result_bind_eq_ok] at h
  obtain ⟨last, hrun, hfinish⟩ := h
  rw [Conversion.finish, Run.result_bind_eq_ok] at hfinish
  obtain ⟨output, hdrain, hout⟩ := hfinish
  cases hout
  rw [ofInfix, Run.records_bind_of_ok hrun, stands_initial.records_foldlM hrun,
    Conversion.finish, Run.records_bind_of_ok hdrain, Conversion.records_drain_of_ok hdrain]
  rfl

end Reckon.Rpn
