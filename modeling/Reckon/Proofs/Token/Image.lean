import Mathlib.Tactic.TFAE
import Reckon.Proofs.Token.Context

/-!
# The tokens of texts

Not every list of tokens is that of a text. A literal has no characters but digits and points, and a
sign only where an operand is expected; the minus operator stands only where none is. Lists of this
form are lexical. A text may have any lexical list as its tokens, with signs that stand alone,
points in any number and literals side by side. Main statement: the tokens of texts are the lexical
lists, and reading the display of one gives it back, `tokens_of_texts_are_lexical`.
-/

namespace Reckon

namespace Token

/-- The tokens have texts that can be read, and minus signs where they are read as what they are. -/
structure Lexical (tokens : List Token) : Prop where
  /-- A literal is an optional minus sign and then digits and points, and it is not empty. -/
  num_text : ∀ text, .num text ∈ tokens → text ≠ "" ∧ ∃ sign digits : List Char,
    text.toList = sign ++ digits ∧ (sign = [] ∨ sign = ['-']) ∧
      ∀ c ∈ digits, isLiteralChar c = true
  /-- An operator is one of four. -/
  op_symbol : ∀ symbol, .op symbol ∈ tokens → symbol ∈ ["+", "-", "*", "/"]
  /-- A literal with a sign is the first token, or is next to an operator or a left parenthesis. -/
  sign_place : ∀ before text after, tokens = before ++ .num text :: after →
    text.toList.head? = some '-' → ∀ last ∈ before.getLast?, (last.isOp || last.isLParen) = true
  /-- A minus operator is next to a literal or a right parenthesis. -/
  minus_place : ∀ before after, tokens = before ++ .op "-" :: after →
    ∃ last ∈ before.getLast?, last.isNum = true ∨ last = .rparen

/-- Each of the tokens, the latest first, is legible behind those before it. -/
def AllLegible : List Token → Prop
  | [] => True
  | token :: before => token.Legible (expectsOperandAfter before) ∧ AllLegible before

theorem AllLegible.of_append {after before : List Token} (h : AllLegible (after ++ before)) :
    AllLegible before := by
  induction after with
  | nil => exact h
  | cons token after ih => exact ih h.2

theorem AllLegible.legible_of_eq {tokens before after : List Token} {token : Token}
    (h : AllLegible tokens.reverse) (ht : tokens = before ++ token :: after) :
    token.Legible (expectsOperandAfter before.reverse) := by
  rw [ht, List.reverse_append, List.reverse_cons, List.append_assoc] at h
  exact h.of_append.1

/-! ## Tokens of a text are lexical -/

theorem legible_symbolToken {c : Char} {expected : Bool} (h : isSymbolChar c = true)
    (hc : c = '-' → expected = false) : (symbolToken c).Legible expected := by
  revert hc
  refine isSymbolChar_cases h ?plus ?minus ?times ?slash ?lparen ?rparen
  case plus => exact fun _ => ⟨.add, rfl, by simp⟩
  case minus => exact fun hc => ⟨.sub, rfl, fun _ => hc rfl⟩
  case times => exact fun _ => ⟨.mul, rfl, by simp⟩
  case slash => exact fun _ => ⟨.div, rfl, by simp⟩
  case lparen => exact fun _ => trivial
  case rparen => exact fun _ => trivial

/-- A literal can be extended by a digit or a point. -/
theorem Legible.append_literalChar {pending : List Char} {c : Char} {expected : Bool}
    (h : pending ≠ [] → (num (String.ofList pending)).Legible expected)
    (hc : isLiteralChar c = true) : (num (String.ofList (pending ++ [c]))).Legible expected := by
  by_cases hp : pending = []
  · subst hp
    exact ⟨[], [c], by simp, by simp, .inl rfl, by simpa using hc⟩
  · obtain ⟨sign, digits, ht, -, hsign, hdigits⟩ := h hp
    rw [String.toList_ofList] at ht
    refine ⟨sign, digits ++ [c], ?_, by simp, hsign, ?_⟩
    · rw [String.toList_ofList, ht, List.append_assoc]
    · intro d hd
      rcases List.mem_append.mp hd with hd | hd
      · exact hdigits d hd
      · rw [List.mem_singleton.mp hd]
        exact hc

theorem allLegible_of_step {scan scan' : Scan} {c : Char} (h : AllLegible scan.tokens)
    (hs : scan.step c = .ok scan') : AllLegible scan'.tokens := by
  obtain ⟨hc, rfl⟩ | ⟨hsym, hminus, rfl⟩ | ⟨-, rfl⟩ := Scan.step_cases hs
  · have hended : AllLegible scan.ended := by
      by_cases hp : scan.pending = []
      · rwa [Scan.tokens, if_pos hp] at h
      · rw [Scan.tokens_of_pending_ne_nil hp] at h
        exact h.2
    rw [Scan.tokens_of_pending_ne_nil (by simp)]
    refine ⟨?_, hended⟩
    rcases hc with hc | ⟨rfl, he⟩
    · apply Legible.append_literalChar _ hc
      intro hp
      rw [Scan.tokens_of_pending_ne_nil hp] at h
      exact h.1
    · -- the sign begins a literal
      have hp := Scan.pending_eq_nil he
      rw [Scan.tokens, if_pos hp] at he
      show (num (String.ofList (scan.pending ++ ['-']))).Legible (expectsOperandAfter scan.ended)
      rw [hp, he]
      exact ⟨['-'], [], by simp, by simp, .inr ⟨rfl, rfl⟩, by simp⟩
  · exact ⟨legible_symbolToken hsym hminus, h⟩
  · exact h

theorem allLegible_of_foldlM {cs : List Char} {scan : Scan}
    (h : cs.foldlM Scan.step Scan.initial = .ok scan) : AllLegible scan.tokens := by
  have hinitial : AllLegible Scan.initial.tokens := trivial
  exact Run.ok_foldlM_induction (I := fun _ scan => AllLegible scan.tokens) hinitial
    (fun _ _ _ _ hi hs => allLegible_of_step hi hs) h

theorem allLegible_of_read {cs : List Char} {tokens : List Token}
    (h : Scan.read cs = .ok tokens) : AllLegible tokens.reverse := by
  obtain ⟨scan, hscan, ht⟩ := Scan.read_eq_ok_iff.mp h
  rw [Scan.tokens_initial, List.append_nil] at ht
  rw [← ht]
  exact allLegible_of_foldlM hscan

theorem exists_op_of_read {cs : List Char} {tokens : List Token} {symbol : String}
    (h : Scan.read cs = .ok tokens) (hm : op symbol ∈ tokens) :
    ∃ kind : BinOp, symbol = kind.symbol := by
  obtain ⟨before, after, ht⟩ := List.append_of_mem hm
  obtain ⟨kind, hkind, -⟩ := (allLegible_of_read h).legible_of_eq ht
  exact ⟨kind, hkind⟩

/-! ## Lexical tokens are legible -/

theorem expectsOperandAfter_reverse_eq_true {before : List Token} :
    expectsOperandAfter before.reverse = true ↔
      ∀ last ∈ before.getLast?, (last.isOp || last.isLParen) = true := by
  rcases List.eq_nil_or_concat before with rfl | ⟨before, last, rfl⟩
  · simp [expectsOperandAfter]
  · simp [expectsOperandAfter]

theorem expectsOperandAfter_reverse_eq_false {before : List Token} :
    expectsOperandAfter before.reverse = false ↔
      ∃ last ∈ before.getLast?, last.isNum = true ∨ last = .rparen := by
  rcases List.eq_nil_or_concat before with rfl | ⟨before, last, rfl⟩
  · simp [expectsOperandAfter]
  · cases last <;> simp [expectsOperandAfter, isOp, isLParen, isNum]

theorem Legible.lexical_num {text : String} {expected : Bool} (h : (num text).Legible expected) :
    (text ≠ "" ∧ ∃ sign digits : List Char, text.toList = sign ++ digits ∧
      (sign = [] ∨ sign = ['-']) ∧ ∀ c ∈ digits, isLiteralChar c = true) ∧
      (text.toList.head? = some '-' → expected = true) := by
  obtain ⟨sign, digits, ht, hne, hsign, hdigits⟩ := h
  refine ⟨⟨?_, sign, digits, ht, hsign.imp_right And.left, hdigits⟩, ?_⟩
  · rintro rfl
    exact hne ht.symm
  · intro hhead
    rcases hsign with rfl | ⟨-, he⟩
    · rw [ht] at hhead
      have hmem : '-' ∈ digits := List.mem_of_head? hhead
      exact absurd (hdigits _ hmem) (by decide)
    · exact he

theorem lexical_of_allLegible {tokens : List Token} (h : AllLegible tokens.reverse) :
    Lexical tokens where
  num_text := by
    intro text hm
    obtain ⟨before, after, ht⟩ := List.append_of_mem hm
    exact (h.legible_of_eq ht).lexical_num.1
  op_symbol := by
    intro symbol hm
    obtain ⟨before, after, ht⟩ := List.append_of_mem hm
    obtain ⟨kind, rfl, -⟩ := h.legible_of_eq ht
    cases kind <;> simp [BinOp.symbol]
  sign_place := by
    intro before text after ht hhead
    exact expectsOperandAfter_reverse_eq_true.mp ((h.legible_of_eq ht).lexical_num.2 hhead)
  minus_place := by
    intro before after ht
    obtain ⟨kind, hkind, he⟩ := h.legible_of_eq ht
    have hsub : kind = .sub := by
      cases kind <;> simp [BinOp.symbol] at hkind ⊢
    exact expectsOperandAfter_reverse_eq_false.mp (he hsub)

theorem Lexical.legible {tokens before after : List Token} {token : Token} (h : Lexical tokens)
    (ht : tokens = before ++ token :: after) :
    token.Legible (expectsOperandAfter before.reverse) := by
  have hm : token ∈ tokens := by
    rw [ht]
    simp
  cases token with
  | num text =>
    obtain ⟨hne, sign, digits, htext, hsign, hdigits⟩ := h.num_text text hm
    refine ⟨sign, digits, htext, ?_, ?_, hdigits⟩
    · rw [← htext]
      exact fun hnil => hne (String.toList_eq_nil_iff.mp hnil)
    · rcases hsign with rfl | rfl
      · exact .inl rfl
      · have hhead : text.toList.head? = some '-' := by
          rw [htext]
          rfl
        exact .inr ⟨rfl, expectsOperandAfter_reverse_eq_true.mpr (h.sign_place _ _ _ ht hhead)⟩
  | op symbol =>
    have hsymbol := h.op_symbol symbol hm
    simp only [List.mem_cons, List.not_mem_nil, or_false] at hsymbol
    rcases hsymbol with rfl | rfl | rfl | rfl
    · exact ⟨.add, rfl, by simp⟩
    · exact ⟨.sub, rfl, fun _ => expectsOperandAfter_reverse_eq_false.mpr (h.minus_place _ _ ht)⟩
    · exact ⟨.mul, rfl, by simp⟩
    · exact ⟨.div, rfl, by simp⟩
  | lparen => trivial
  | rparen => trivial

theorem Lexical.allLegible {tokens : List Token} (h : Lexical tokens) :
    AllLegible tokens.reverse := by
  have hprefix : ∀ before after, tokens = before ++ after → AllLegible before.reverse := by
    intro before
    induction before using List.reverseRecOn with
    | nil => exact fun _ _ => trivial
    | append_singleton before token ih =>
      intro after ht
      have ht' : tokens = before ++ token :: after := by simpa using ht
      rw [List.reverse_append]
      exact ⟨h.legible ht', ih _ ht'⟩
  exact hprefix tokens [] (List.append_nil _).symm

/-! ## Reading a display -/

theorem toList_display_cons (token : Token) (tokens : List Token) :
    (display (token :: tokens)).toList
      = token.text.toList ++ tokens.flatMap fun t => [' '] ++ t.text.toList := by
  induction tokens generalizing token with
  | nil => simp [display, String.intercalate_singleton]
  | cons next tokens ih =>
    have h := ih next
    simp only [display, List.map_cons] at h ⊢
    rw [String.intercalate_cons_cons, String.toList_append, String.toList_append, h,
      List.flatMap_cons, List.append_assoc, List.append_assoc]
    rfl

end Token

theorem Scan.reads_spaced {tokens : List Token} {scan : Scan}
    (h : Token.AllLegible (tokens.reverse ++ scan.tokens)) :
    scan.Reads (tokens.flatMap fun t => [' '] ++ t.text.toList) tokens := by
  induction tokens generalizing scan with
  | nil => exact reads_blanks (by simp)
  | cons token tokens ih =>
    rw [List.reverse_cons, List.append_assoc] at h
    have hblank : ∀ c ∈ [' '], Text.isBlank c = true := List.all_eq_true.mp rfl
    have hfirst := reads_spaced_token hblank (by simp) h.of_append.1
    rw [List.flatMap_cons]
    refine hfirst.append fun scan' ht => ih ?_
    rw [ht]
    exact h

theorem Token.AllLegible.read_display {tokens : List Token} (h : AllLegible tokens.reverse) :
    Scan.read (display tokens).toList = .ok tokens := by
  cases tokens with
  | nil => rfl
  | cons token tokens =>
    rw [List.reverse_cons] at h
    have hfirst : Scan.initial.Reads token.text.toList [token] :=
      Scan.reads_token h.of_append.1 fun _ => rfl
    rw [toList_display_cons, Scan.read_eq_ok_iff]
    refine hfirst.append fun scan' ht => Scan.reads_spaced ?_
    rw [ht]
    exact h

/-- The tokens of texts are the lexical lists of tokens, and each of them is read from its
display. -/
theorem tokens_of_texts_are_lexical (tokens : List Token) :
    [∃ source, (tokenize source).result = .ok tokens,
      (tokenize (Token.display tokens)).result = .ok tokens,
      Token.Lexical tokens].TFAE := by
  simp only [result_tokenize]
  tfae_have 1 → 3 := by
    rintro ⟨source, h⟩
    exact Token.lexical_of_allLegible (Token.allLegible_of_read h)
  tfae_have 3 → 2 := fun h => h.allLegible.read_display
  tfae_have 2 → 1 := fun h => ⟨_, h⟩
  tfae_finish

/-- A second sign is an operator, and points in any number are a literal. -/
example : (tokenize "--5 ..6").result = .ok [.num "-", .op "-", .num "5", .num "..6"] := rfl

end Reckon
