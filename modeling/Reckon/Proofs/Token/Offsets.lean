import Reckon.Proofs.Token.Characters

/-!
# Offsets of a reader

A reader of tokens cuts literals and symbols out of the text at byte offsets that it has counted
itself. Each of them is a boundary between characters, whatever characters stand around it, so that
all it cuts out is a part of the text. A literal begins before the position of the reader, and its
text is an optional minus sign and then digits and points. A symbol is always the text of a token,
so that a step fails only at a character that cannot stand in an expression. Main statement:
`offsets_are_boundaries`.
-/

namespace Reckon

/-- The offsets are boundaries between characters of a text, in order, and the given text stands
between them. -/
structure Text.IsSlice (source : String) (first last : Nat) (text : String) : Prop where
  first_isValid : String.Pos.Raw.IsValid source ⟨first⟩
  last_isValid : String.Pos.Raw.IsValid source ⟨last⟩
  first_le_last : first ≤ last
  slice_eq : Text.slice source first last = text

variable {source : String} {before text after done rest : List Char} {c : Char}

/-! ## Boundaries -/

theorem Text.isValid_utf8Len (h : source.toList = before ++ after) :
    String.Pos.Raw.IsValid source ⟨String.utf8Len before⟩ := by
  have hsource : source = String.ofList before ++ String.ofList after := by
    rw [← String.ofList_append, ← h, String.ofList_toList]
  rw [hsource, ← String.rawEndPos_ofList]
  exact String.Pos.Raw.isValid_rawEndPos.append_right _

theorem Text.isSlice_of_append (h : source.toList = before ++ text ++ after) :
    IsSlice source (String.utf8Len before) (String.utf8Len before + String.utf8Len text)
      (String.ofList text) where
  first_isValid := isValid_utf8Len (h.trans (List.append_assoc _ _ _))
  last_isValid := by
    rw [← String.utf8Len_append]
    exact isValid_utf8Len h
  first_le_last := Nat.le_add_right _ _
  slice_eq := slice_eq h

namespace Lexer

variable {lexer : Lexer} {scan : Scan} {start : Nat}

/-- The pending literal of a reader is that of the scan, cut out of the text. -/
theorem Follows.isSlice_pending (h : lexer.Follows done scan) (hs : source.toList = done ++ rest)
    (hp : lexer.pending = some start) :
    scan.pending ≠ [] ∧ start < lexer.position ∧
      Text.IsSlice source start lexer.position (String.ofList scan.pending) := by
  obtain ⟨before, hdone, hpending⟩ := h.pending_eq
  rw [hp] at hpending
  split_ifs at hpending with hne
  have hstart : start = String.utf8Len before := Option.some.inj hpending
  have hposition : lexer.position = start + String.utf8Len scan.pending := by
    rw [h.position_eq, hdone, String.utf8Len_append, hstart]
  have hlength : String.utf8Len scan.pending ≠ 0 := fun hz => hne (String.utf8Len_eq_zero.mp hz)
  have hsplit : source.toList = before ++ scan.pending ++ rest := by rw [hs, hdone]
  refine ⟨hne, by omega, ?_⟩
  rw [hposition, hstart]
  exact Text.isSlice_of_append hsplit

/-- A symbol at the position of a reader is one byte long. -/
theorem Follows.isSlice_symbol (h : lexer.Follows done scan)
    (hs : source.toList = done ++ c :: rest) (hsym : isSymbolChar c = true) :
    Text.IsSlice source lexer.position (lexer.position + 1) (String.ofList [c]) := by
  have hlength : String.utf8Len [c] = 1 := by
    rw [String.utf8Len_cons, String.utf8Len_nil, utf8Size_of_isSymbolChar hsym]
  have hsplit : source.toList = done ++ [c] ++ rest := by rw [hs, List.append_assoc]; rfl
  rw [h.position_eq, ← hlength]
  exact Text.isSlice_of_append hsplit

/-- A step fails only at a character that cannot stand in an expression. -/
theorem Follows.result_step_eq_error_iff (h : lexer.Follows done scan)
    (hs : source.toList = done ++ c :: rest) {e : EvalError} :
    (lexer.step source c).result = .error e ↔
      isExpressionChar c = false ∧ e = .invalidCharacter c := by
  rw [(h.tracks_step hs).result_eq_error_iff]
  cases hc : isExpressionChar c with
  | true =>
    obtain ⟨scan', hscan⟩ : ∃ scan', scan.step c = .ok scan' := Scan.exists_step hc
    simp [hscan]
  | false => simp [Scan.step_of_foreign hc, eq_comm]

end Lexer

/-- Wherever a reader stands, its position is a boundary between characters, and so is the offset of
its pending literal, which is before the position. What stands between them is an optional minus
sign with digits and points behind it, and is the text of the literal when it ends. A symbol is cut
out as one character, and is a token. No step fails but at a character that cannot stand in an
expression. -/
theorem offsets_are_boundaries {lexer : Lexer} (hsource : source.toList = done ++ rest)
    (hrun : (done.foldlM (Lexer.step source) Lexer.initial).result = .ok lexer) :
    (lexer.position = String.utf8Len done ∧
        String.Pos.Raw.IsValid source ⟨lexer.position⟩ ∧
        (rest = [] → lexer.position = source.utf8ByteSize)) ∧
      (∀ start, lexer.pending = some start → start < lexer.position ∧
        ∃ text sign digits, Text.IsSlice source start lexer.position text ∧ text ≠ "" ∧
          text.toList = sign ++ digits ∧ (sign = [] ∨ sign = ['-']) ∧
          (∀ c ∈ digits, isLiteralChar c = true) ∧
          (lexer.flush source).result = .ok ⟨lexer.position, none, .num text :: lexer.tokens⟩) ∧
      (∀ c ∈ rest.head?, isSymbolChar c = true →
        ∃ flushed, (lexer.flush source).result = .ok flushed ∧
          flushed.position = lexer.position ∧
          Text.IsSlice source flushed.position (flushed.position + 1) c.toString ∧
          Token.ofSymbol? (Text.slice source flushed.position (flushed.position + 1))
            = some (symbolToken c)) ∧
      ∀ c ∈ rest.head?, ∀ e, (lexer.step source c).result = .error e ↔
        isExpressionChar c = false ∧ e = .invalidCharacter c := by
  obtain ⟨scan, hscan, hfollows⟩ := (Lexer.tracks_foldlM hsource).exists_of_result hrun
  have hflush := hfollows.result_flush hsource
  have hhead : ∀ c ∈ rest.head?, ∃ rest', source.toList = done ++ c :: rest' := by
    intro c hc
    obtain ⟨rest', rfl⟩ := List.head?_eq_some_iff.mp hc
    exact ⟨rest', hsource⟩
  refine ⟨⟨hfollows.position_eq, ?_, ?_⟩, ?_, ?_, ?_⟩
  · rw [hfollows.position_eq]
    exact Text.isValid_utf8Len hsource
  · rintro rfl
    rw [hfollows.position_eq, ← String.utf8Len_toList, hsource, List.append_nil]
  · intro start hp
    obtain ⟨hne, hlt, hslice⟩ := hfollows.isSlice_pending hsource hp
    have hlegible := Token.allLegible_of_foldlM hscan
    rw [Scan.tokens_of_pending_ne_nil hne] at hlegible hflush
    obtain ⟨⟨htext, sign, digits, hsplit, hsign, hdigits⟩, -⟩ := hlegible.1.lexical_num
    rw [← hfollows.tokens_eq] at hflush
    exact ⟨hlt, _, sign, digits, hslice, htext, hsplit, hsign, hdigits, hflush⟩
  · intro c hc hsym
    obtain ⟨rest', hs⟩ := hhead c hc
    have hslice := hfollows.isSlice_symbol hs hsym
    refine ⟨_, hflush, rfl, hslice, ?_⟩
    rw [hslice.slice_eq, ofSymbol?_of_isSymbolChar hsym]
  · intro c hc e
    obtain ⟨rest', hs⟩ := hhead c hc
    exact hfollows.result_step_eq_error_iff hs

/-- Behind blanks of two and three bytes, a literal of three bytes ends at the symbol. -/
theorem literal_behind_wide_blanks :
    (['\u0085', '\u3000', '-', '.', '5'].foldlM (Lexer.step "\u0085\u3000-.5*é")
        Lexer.initial).result = .ok ⟨8, some 5, []⟩ ∧
      Text.IsSlice "\u0085\u3000-.5*é" 5 8 "-.5" ∧ Text.IsSlice "\u0085\u3000-.5*é" 8 9 "*" ∧
      Token.ofSymbol? (Text.slice "\u0085\u3000-.5*é" 8 9) = some (.op "*") := by
  have hsource : "\u0085\u3000-.5*é".toList = ['\u0085', '\u3000', '-', '.', '5'] ++ ['*', 'é'] := rfl
  have hrun : (['\u0085', '\u3000', '-', '.', '5'].foldlM (Lexer.step "\u0085\u3000-.5*é")
      Lexer.initial).result = .ok ⟨8, some 5, []⟩ := by decide +kernel
  obtain ⟨-, hpending, hsymbol, -⟩ := offsets_are_boundaries hsource hrun
  obtain ⟨-, text, -, -, hliteral, -⟩ := hpending 5 rfl
  have htext : Text.slice "\u0085\u3000-.5*é" 5 8 = "-.5" := rfl
  rw [← hliteral.slice_eq, htext] at hliteral
  obtain ⟨flushed, -, hposition, hstar, htoken⟩ := hsymbol '*' rfl rfl
  rw [hposition] at hstar htoken
  exact ⟨hrun, hliteral, hstar, htoken⟩

end Reckon
