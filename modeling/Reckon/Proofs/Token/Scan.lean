import Mathlib.Data.String.Basic
import Reckon.Proofs.Outcome
import Reckon.Token.Lexer

/-!
# Scanning characters

A reader of tokens remembers a pending literal by the byte offset at which it starts. A scan
remembers the characters themselves. It has no source and no offsets, so its steps depend on nothing
but the characters read so far. Main statement: the result of `tokenize` is the result of a scan of
the characters, `result_tokenize`.
-/

namespace Reckon

/-- Whether an operand is expected after the tokens, the latest first. -/
def expectsOperandAfter : List Token → Bool
  | [] => true
  | latest :: _ => latest.isOp || latest.isLParen

/-- The token of a character that is a token by itself. -/
def symbolToken (c : Char) : Token :=
  (Token.ofParen? c).getD (.op c.toString)

/-- The state of a scan. -/
structure Scan where
  /-- The characters of the pending literal; there are none if no literal is pending. -/
  pending : List Char
  /-- The tokens that have ended, the latest first. -/
  ended : List Token

namespace Scan

/-- The state before the first character. -/
def initial : Scan := ⟨[], []⟩

/-- All tokens, the latest first. The pending literal is one of them. -/
def tokens (scan : Scan) : List Token :=
  if scan.pending = [] then scan.ended else .num (String.ofList scan.pending) :: scan.ended

/-- Takes a character in. -/
def step (scan : Scan) (c : Char) : Except EvalError Scan :=
  if isLiteralChar c || (c == '-' && expectsOperandAfter scan.tokens) then
    .ok { scan with pending := scan.pending ++ [c] }
  else if isSymbolChar c then .ok ⟨[], symbolToken c :: scan.tokens⟩
  else if Text.isBlank c then .ok ⟨[], scan.tokens⟩
  else .error (.invalidCharacter c)

/-- The tokens of a list of characters. -/
def read (cs : List Char) : Except EvalError (List Token) := do
  let scan ← cs.foldlM step initial
  return scan.tokens.reverse

@[simp] theorem tokens_initial : initial.tokens = [] := rfl

@[simp] theorem tokens_of_pending_eq_nil (ended : List Token) : tokens ⟨[], ended⟩ = ended := rfl

theorem tokens_of_pending_ne_nil {scan : Scan} (h : scan.pending ≠ []) :
    scan.tokens = .num (String.ofList scan.pending) :: scan.ended :=
  if_neg h

end Scan

/-! ## Cutting at the offsets of a reader -/

theorem Text.slice_eq {source : String} {before text after : List Char}
    (h : source.toList = before ++ text ++ after) :
    slice source (String.utf8Len before) (String.utf8Len before + String.utf8Len text)
      = String.ofList text := by
  have hs : source = String.ofList (before ++ text ++ after) := by rw [← h, String.ofList_toList]
  rw [slice, hs, String.extract_of_valid]

/-- A character that is a token by itself is one of six. -/
@[elab_as_elim]
theorem isSymbolChar_cases {motive : Char → Prop} {c : Char} (h : isSymbolChar c = true)
    (plus : motive '+') (minus : motive '-') (times : motive '*') (slash : motive '/')
    (lparen : motive '(') (rparen : motive ')') : motive c := by
  simp only [isSymbolChar, Bool.or_eq_true, beq_iff_eq] at h
  rcases h with ((((rfl | rfl) | rfl) | rfl) | rfl) | rfl <;> assumption

theorem utf8Size_of_isSymbolChar {c : Char} (h : isSymbolChar c = true) : c.utf8Size = 1 :=
  isSymbolChar_cases h rfl rfl rfl rfl rfl rfl

theorem ofSymbol?_of_isSymbolChar {c : Char} (h : isSymbolChar c = true) :
    Token.ofSymbol? (String.ofList [c]) = some (symbolToken c) :=
  isSymbolChar_cases h rfl rfl rfl rfl rfl rfl

namespace Lexer

/-- After the characters `read` of the source, the reader has what the scan has: its position is
behind them, its literal is the end of them, and its tokens are those that have ended. -/
structure Follows (lexer : Lexer) (read : List Char) (scan : Scan) : Prop where
  position_eq : lexer.position = String.utf8Len read
  pending_eq : ∃ before, read = before ++ scan.pending ∧
    lexer.pending = if scan.pending = [] then none else some (String.utf8Len before)
  tokens_eq : lexer.tokens = scan.ended

theorem follows_initial : initial.Follows [] Scan.initial :=
  ⟨rfl, ⟨[], rfl, rfl⟩, rfl⟩

variable {source : String} {lexer : Lexer} {done rest : List Char} {scan : Scan} {c : Char}

theorem Follows.expectsOperand_eq (h : lexer.Follows done scan) :
    lexer.expectsOperand = expectsOperandAfter scan.tokens := by
  obtain ⟨before, -, hp⟩ := h.pending_eq
  by_cases hn : scan.pending = []
  · simp only [expectsOperand, Scan.tokens, hp, h.tokens_eq, if_pos hn]
    rfl
  · simp only [expectsOperand, Scan.tokens, hp, h.tokens_eq, if_neg hn]
    rfl

/-- At the end of a literal the reader emits its text, which the scan has. -/
theorem Follows.result_flush (h : lexer.Follows done scan) (hs : source.toList = done ++ rest) :
    (lexer.flush source).result = .ok ⟨lexer.position, none, scan.tokens⟩ := by
  obtain ⟨before, hd, hp⟩ := h.pending_eq
  by_cases hn : scan.pending = []
  · rw [if_pos hn] at hp
    have hl : lexer = ⟨lexer.position, none, scan.tokens⟩ := by
      rw [Scan.tokens, if_pos hn, ← h.tokens_eq, ← hp]
    unfold flush
    rw [hp]
    exact congrArg Except.ok hl
  · rw [if_neg hn] at hp
    have htext : Text.slice source (String.utf8Len before) lexer.position
        = String.ofList scan.pending := by
      rw [h.position_eq, hd, String.utf8Len_append]
      exact Text.slice_eq (by rw [hs, hd])
    unfold flush
    rw [hp]
    simp only [emit, Run.result_bind, Run.result_note, Run.ok_bind, htext, h.tokens_eq,
      Scan.tokens_of_pending_ne_nil hn]
    rfl

/-- The reader takes each character as the scan does. -/
theorem Follows.tracks_step (h : lexer.Follows done scan) (hs : source.toList = done ++ c :: rest) :
    Run.Tracks (fun scan lexer => lexer.Follows (done ++ [c]) scan) (scan.step c)
      (lexer.step source c) := by
  have hpos : lexer.position + c.utf8Size = String.utf8Len (done ++ [c]) := by
    rw [h.position_eq]; simp
  unfold Scan.step
  by_cases hlit : (isLiteralChar c || (c == '-' && expectsOperandAfter scan.tokens)) = true
  · -- the literal goes on, or begins at this character
    obtain ⟨before, hd, hp⟩ := h.pending_eq
    rw [if_pos hlit]
    refine ⟨{ lexer.extend with position := lexer.position + c.utf8Size }, ?_, hpos,
      ⟨before, by rw [hd, List.append_assoc], ?_⟩, h.tokens_eq⟩
    · simp only [step, read, h.expectsOperand_eq, if_pos hlit, pure_bind, Run.result_pure]
      rfl
    · by_cases hn : scan.pending = []
      · rw [if_pos hn] at hp
        rw [hn, List.append_nil] at hd
        simp [extend, hp, h.position_eq, hd]
      · rw [if_neg hn] at hp
        simp [extend, hp]
  rw [if_neg hlit]
  have hflush := h.result_flush hs
  by_cases hsym : isSymbolChar c = true
  · have hslice : Text.slice source lexer.position (lexer.position + 1) = String.ofList [c] := by
      have hlen : String.utf8Len [c] = 1 := by simp [utf8Size_of_isSymbolChar hsym]
      rw [h.position_eq, ← hlen]
      exact Text.slice_eq (by rw [hs, List.append_assoc]; rfl)
    rw [if_pos hsym]
    refine ⟨⟨lexer.position + c.utf8Size, none, symbolToken c :: scan.tokens⟩, ?_, hpos,
      ⟨done ++ [c], by simp, rfl⟩, rfl⟩
    simp only [step, read, h.expectsOperand_eq, if_neg hlit, if_pos hsym, Run.result_bind, hflush,
      Run.ok_bind, hslice, ofSymbol?_of_isSymbolChar hsym, emit, Run.result_note, Run.result_pure]
  rw [if_neg hsym]
  by_cases hblank : Text.isBlank c = true
  · rw [if_pos hblank]
    refine ⟨⟨lexer.position + c.utf8Size, none, scan.tokens⟩, ?_, hpos,
      ⟨done ++ [c], by simp, rfl⟩, rfl⟩
    simp only [step, read, h.expectsOperand_eq, if_neg hlit, if_neg hsym, if_pos hblank,
      Run.result_bind, hflush, Run.ok_bind, Run.result_pure]
  · rw [if_neg hblank]
    show (lexer.step source c).result = .error (.invalidCharacter c)
    simp only [step, read, h.expectsOperand_eq, if_neg hlit, if_neg hsym, if_neg hblank,
      Run.result_bind, Run.result_note, Run.ok_bind, Run.result_fail, Run.error_bind]

/-- The reader has read any part at the start of the source as the scan has. -/
theorem tracks_foldlM (hs : source.toList = done ++ rest) :
    Run.Tracks (fun scan lexer => lexer.Follows done scan) (done.foldlM Scan.step Scan.initial)
      (done.foldlM (step source) initial) := by
  refine Run.tracks_foldlM (I := fun before scan lexer => Follows lexer before scan)
    follows_initial fun before c after scan lexer hd hf => ?_
  have hplace : source.toList = before ++ c :: (after ++ rest) := by rw [hs, hd]; simp
  exact hf.tracks_step hplace

theorem Follows.result_finish (h : lexer.Follows source.toList scan) :
    (lexer.finish source).result = .ok scan.tokens.reverse := by
  have hflush := h.result_flush (List.append_nil source.toList).symm
  simp only [finish, Run.result_bind, hflush, Run.ok_bind, Run.result_note, Run.result_pure]

/-! ## Calls -/

theorem silent_flush (source : String) (lexer : Lexer) : (lexer.flush source).Silent := by
  unfold flush
  split
  · exact (Run.silent_note _).bind fun _ => Run.silent_pure _
  · exact Run.silent_pure _

theorem silent_step (source : String) (lexer : Lexer) (c : Char) :
    (lexer.step source c).Silent := by
  refine Run.Silent.bind ?_ fun _ => Run.silent_pure _
  unfold read
  split_ifs
  · exact Run.silent_pure _
  · refine (silent_flush source lexer).bind fun flushed => ?_
    split
    · exact (Run.silent_note _).bind fun _ => Run.silent_pure _
    · exact Run.silent_fail _
  · exact silent_flush source lexer
  · exact (Run.silent_note _).bind fun _ => Run.silent_fail _

end Lexer

/-- The tokens of a text are those of a scan of its characters. -/
theorem result_tokenize (source : String) : (tokenize source).result = Scan.read source.toList := by
  have hscan := Lexer.tracks_foldlM (List.append_nil source.toList).symm
  have hread : Run.Tracks Eq (Scan.read source.toList) (tokenize source) :=
    hscan.bind fun scan lexer hf => ⟨_, hf.result_finish, rfl⟩
  exact hread.result_eq

/-- Tokens are read without a call of a provider. -/
theorem silent_tokenize (source : String) : (tokenize source).Silent := by
  refine (Run.Silent.foldlM (Lexer.silent_step source) _ _).bind fun lexer => ?_
  refine (Lexer.silent_flush source lexer).bind fun flushed => ?_
  exact (Run.silent_note _).bind fun _ => Run.silent_pure _

end Reckon
