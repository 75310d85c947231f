import Mathlib.Data.List.Chain
import Reckon.Proofs.Token.Characters

/-!
# How a text is cut into tokens

The tokens of a text are pieces of it, in order, and only blanks stand outside of them. A literal
reaches as far as there are digits and points, so that blanks keep two literals apart. There is one
way only to cut a text into its tokens. Main statement: `tokens_partition_the_text`.

The scan is followed with the pieces that have ended and the blanks behind them. The latest of them
is a literal only if there are such blanks, and then whatever comes next is apart from it.
-/

namespace Reckon

/-- A token as it stands in a text. -/
structure Piece where
  /-- The blanks in front of the token. -/
  gap : List Char
  /-- The token itself. -/
  token : Token

namespace Piece

/-- The characters of pieces, one after the other. -/
def spell (pieces : List Piece) : List Char :=
  pieces.flatMap fun piece => piece.gap ++ piece.token.text.toList

/-- Two literals that follow each other have blanks between them. -/
def Apart (piece next : Piece) : Prop :=
  piece.token.isNum = true → next.token.isNum = true → next.gap ≠ []

end Piece

open Piece (spell Apart)

/-- The characters are cut into pieces and a rest of blanks. -/
structure Cut (cs : List Char) (pieces : List Piece) (rest : List Char) : Prop where
  spell_eq : cs = spell pieces ++ rest
  gap_blank : ∀ piece ∈ pieces, ∀ c ∈ piece.gap, Text.isBlank c = true
  rest_blank : ∀ c ∈ rest, Text.isBlank c = true

/-- The text of a token begins with a character that is not blank, and has no blank at all. -/
structure Token.Visible (token : Token) : Prop where
  ne_nil : token.text.toList ≠ []
  not_blank : ∀ c ∈ token.text.toList, Text.isBlank c = false

variable {cs rest gap : List Char} {pieces : List Piece} {c : Char}

/-! ## Cutting -/

theorem cut_nil : Cut [] [] [] :=
  ⟨rfl, by simp, by simp⟩

theorem Cut.blank (h : Cut cs pieces rest) (hc : Text.isBlank c = true) :
    Cut (cs ++ [c]) pieces (rest ++ [c]) where
  spell_eq := by rw [h.spell_eq, List.append_assoc]
  gap_blank := h.gap_blank
  rest_blank := by
    intro d hd
    rcases List.mem_append.mp hd with hd | hd
    · exact h.rest_blank d hd
    · rw [List.mem_singleton.mp hd]
      exact hc

/-- The blanks behind the pieces are those in front of the next token. -/
theorem Cut.token (h : Cut cs pieces gap) (token : Token) :
    Cut (cs ++ token.text.toList) (pieces ++ [⟨gap, token⟩]) [] where
  spell_eq := by simp [h.spell_eq, spell]
  gap_blank := by
    intro piece hp
    rcases List.mem_append.mp hp with hp | hp
    · exact h.gap_blank piece hp
    · rw [List.mem_singleton.mp hp]
      exact h.rest_blank
  rest_blank := by simp

/-- What follows a run of blanks and is not blank tells where the run ends. -/
theorem blanks_unique {front front' back back' : List Char} {d d' : Char}
    (hfront : ∀ c ∈ front, Text.isBlank c = true) (hfront' : ∀ c ∈ front', Text.isBlank c = true)
    (hd : Text.isBlank d = false) (hd' : Text.isBlank d' = false)
    (h : front ++ d :: back = front' ++ d' :: back') : front = front' := by
  have htake := congrArg (List.takeWhile Text.isBlank) h
  rw [List.takeWhile_append_of_pos hfront, List.takeWhile_append_of_pos hfront',
    List.takeWhile_cons_of_neg (by simp [hd]), List.takeWhile_cons_of_neg (by simp [hd'])] at htake
  simpa using htake

/-- The tokens leave no choice of the pieces. -/
theorem Cut.unique {pieces' : List Piece} {rest' : List Char} (h : Cut cs pieces rest)
    (h' : Cut cs pieces' rest') (htokens : pieces'.map Piece.token = pieces.map Piece.token)
    (hvisible : ∀ piece ∈ pieces, piece.token.Visible) : pieces' = pieces ∧ rest' = rest := by
  induction pieces generalizing cs pieces' with
  | nil =>
    obtain rfl := List.map_eq_nil_iff.mp htokens
    exact ⟨rfl, h'.spell_eq.symm.trans h.spell_eq⟩
  | cons piece pieces ih =>
    obtain ⟨gap, token⟩ := piece
    rw [List.map_cons, List.map_eq_cons_iff] at htokens
    obtain ⟨⟨gap', token'⟩, pieces', rfl, rfl, htokens⟩ := htokens
    obtain ⟨hne, hnot⟩ := hvisible ⟨gap, token'⟩ List.mem_cons_self
    have hsame : gap ++ (token'.text.toList ++ (spell pieces ++ rest))
        = gap' ++ (token'.text.toList ++ (spell pieces' ++ rest')) := by
      have heq := h.spell_eq.symm.trans h'.spell_eq
      simpa [spell] using heq
    have hgap : gap = gap' := by
      obtain ⟨d, text, ht⟩ := List.exists_cons_of_ne_nil hne
      have hd : Text.isBlank d = false := hnot d (by rw [ht]; exact List.mem_cons_self)
      rw [ht, List.cons_append, List.cons_append] at hsame
      exact blanks_unique (h.gap_blank _ List.mem_cons_self) (h'.gap_blank _ List.mem_cons_self)
        hd hd hsame
    subst hgap
    have hrest := List.append_cancel_left (List.append_cancel_left hsame)
    have hcut : Cut (spell pieces ++ rest) pieces rest :=
      ⟨rfl, fun piece hp => h.gap_blank piece (List.mem_cons_of_mem _ hp), h.rest_blank⟩
    have hcut' : Cut (spell pieces ++ rest) pieces' rest' :=
      ⟨hrest, fun piece hp => h'.gap_blank piece (List.mem_cons_of_mem _ hp), h'.rest_blank⟩
    obtain ⟨rfl, rfl⟩ := ih hcut hcut' htokens fun piece hp =>
      hvisible piece (List.mem_cons_of_mem _ hp)
    exact ⟨rfl, rfl⟩

/-- Without its blanks, a text is the texts of its tokens. -/
theorem Cut.filter_eq (h : Cut cs pieces rest) (hvisible : ∀ piece ∈ pieces, piece.token.Visible) :
    cs.filter (fun c => !Text.isBlank c) = pieces.flatMap fun piece => piece.token.text.toList := by
  have hnone : ∀ gap : List Char, (∀ c ∈ gap, Text.isBlank c = true) →
      gap.filter (fun c => !Text.isBlank c) = [] := by
    intro gap hgap
    rw [List.filter_eq_nil_iff]
    intro c hc
    simp [hgap c hc]
  rw [h.spell_eq, List.filter_append, hnone rest h.rest_blank, List.append_nil, spell,
    List.filter_flatMap]
  refine List.flatMap_congr fun piece hp => ?_
  rw [List.filter_append, hnone _ (h.gap_blank piece hp), List.nil_append, List.filter_eq_self]
  intro c hc
  simp [(hvisible piece hp).not_blank c hc]

/-- The offsets of a piece name its text. -/
theorem Cut.slice_eq {source : String} {before after : List Piece} {piece : Piece}
    (h : Cut source.toList pieces rest) (hp : pieces = before ++ piece :: after) :
    Text.slice source (String.utf8Len (spell before ++ piece.gap))
        (String.utf8Len (spell before ++ piece.gap) + String.utf8Len piece.token.text.toList)
      = piece.token.text := by
  have hsource : source.toList
      = (spell before ++ piece.gap) ++ piece.token.text.toList ++ (spell after ++ rest) := by
    rw [h.spell_eq, hp]
    simp [spell]
  rw [Text.slice_eq hsource, String.ofList_toList]

/-! ## Literals -/

/-- A token that is no literal is written as a single symbol. -/
theorem Token.Legible.exists_symbolChar {token : Token} {expected : Bool}
    (h : token.Legible expected) (hnum : token.isNum = false) :
    ∃ c, isSymbolChar c = true ∧ token.text.toList = [c] := by
  cases token with
  | num text => cases hnum
  | op symbol =>
    obtain ⟨kind, rfl, -⟩ := h
    cases kind with
    | add => exact ⟨'+', rfl, rfl⟩
    | sub => exact ⟨'-', rfl, rfl⟩
    | mul => exact ⟨'*', rfl, rfl⟩
    | div => exact ⟨'/', rfl, rfl⟩
  | lparen => exact ⟨'(', rfl, rfl⟩
  | rparen => exact ⟨')', rfl, rfl⟩

theorem Token.visible_of_symbolChar {token : Token} {c : Char} (hc : isSymbolChar c = true)
    (ht : token.text.toList = [c]) : token.Visible := by
  refine ⟨by simp [ht], fun d hd => ?_⟩
  rw [ht, List.mem_singleton] at hd
  rw [hd]
  exact not_isBlank_of_isSymbolChar hc

theorem Token.Legible.visible {token : Token} {expected : Bool} (h : token.Legible expected) :
    token.Visible := by
  cases token with
  | num text =>
    obtain ⟨sign, digits, ht, hne, hsign, hdigits⟩ := h
    refine ⟨?_, ?_⟩
    · rw [Token.text, ht]
      exact hne
    · intro c hc
      rw [Token.text, ht, List.mem_append] at hc
      rcases hc with hc | hc
      · rcases hsign with rfl | ⟨rfl, -⟩
        · cases hc
        · rw [List.mem_singleton.mp hc]
          rfl
      · by_contra hblank
        rw [Bool.not_eq_false] at hblank
        have hliteral := hdigits c hc
        rw [not_isLiteralChar_of_isBlank hblank] at hliteral
        cases hliteral
  | op symbol | lparen | rparen =>
    obtain ⟨c, hc, ht⟩ := h.exists_symbolChar rfl
    exact visible_of_symbolChar hc ht

theorem Token.AllLegible.visible {tokens : List Token} (h : AllLegible tokens.reverse)
    {token : Token} (hm : token ∈ tokens) : token.Visible := by
  obtain ⟨before, after, ht⟩ := List.append_of_mem hm
  exact (h.legible_of_eq ht).visible

/-- A symbol does not go on with a literal. -/
theorem Token.Legible.not_isLiteralChar_head {token : Token} {expected : Bool}
    (h : token.Legible expected) (hnum : token.isNum = false) :
    ∀ c ∈ token.text.toList.head?, isLiteralChar c = false := by
  obtain ⟨d, hd, ht⟩ := h.exists_symbolChar hnum
  intro c hc
  rw [ht, List.head?_cons, Option.mem_some_iff] at hc
  rw [← hc]
  exact not_isLiteralChar_of_isSymbolChar hd

theorem not_isLiteralChar_head_of_blanks (hgap : ∀ c ∈ gap, Text.isBlank c = true)
    (hne : gap ≠ []) (cs : List Char) : ∀ c ∈ (gap ++ cs).head?, isLiteralChar c = false := by
  obtain ⟨d, gap, rfl⟩ := List.exists_cons_of_ne_nil hne
  intro c hc
  obtain rfl : d = c := by simpa using hc
  exact not_isLiteralChar_of_isBlank (hgap d List.mem_cons_self)

/-- Where literals are apart from each other, no digit or point stands directly behind one. -/
theorem Cut.not_isLiteralChar_behind {before after : List Piece} {piece : Piece}
    (h : Cut cs pieces rest) (hapart : pieces.IsChain Apart)
    (hlegible : Token.AllLegible (pieces.map Piece.token).reverse)
    (hp : pieces = before ++ piece :: after) (hnum : piece.token.isNum = true) :
    ∀ c ∈ (spell after ++ rest).head?, isLiteralChar c = false := by
  cases after with
  | nil =>
    intro c hc
    exact not_isLiteralChar_of_isBlank (h.rest_blank c (List.mem_of_head? hc))
  | cons next after =>
    have hmem : next ∈ pieces := by
      rw [hp]
      simp
    have happart : Apart piece next := List.isChain_iff_forall_rel_of_append_cons_cons.mp hapart hp
    have hspell : spell (next :: after) ++ rest
        = next.gap ++ (next.token.text.toList ++ (spell after ++ rest)) := by
      simp [spell]
    rw [hspell]
    by_cases hgap : next.gap = []
    · have hnext : next.token.isNum = false := by
        by_contra hnext
        exact happart hnum (by simpa using hnext) hgap
      obtain ⟨front, back, ht⟩ := List.append_of_mem (List.mem_map_of_mem (f := Piece.token) hmem)
      have hnextLegible := hlegible.legible_of_eq ht
      obtain ⟨d, text, htext⟩ := List.exists_cons_of_ne_nil hnextLegible.visible.ne_nil
      have hhead := hnextLegible.not_isLiteralChar_head hnext
      rw [htext] at hhead ⊢
      rw [hgap]
      exact hhead
    · exact not_isLiteralChar_head_of_blanks (h.gap_blank next hmem) hgap _

/-! ## Following the scan -/

theorem text_symbolToken (h : isSymbolChar c = true) : (symbolToken c).text.toList = [c] :=
  isSymbolChar_cases h rfl rfl rfl rfl rfl rfl

theorem isNum_symbolToken (h : isSymbolChar c = true) : (symbolToken c).isNum = false :=
  isSymbolChar_cases h rfl rfl rfl rfl rfl rfl

namespace Scan

variable {scan scan' : Scan} {before done : List Char}

/-- The tokens that have ended are cut out of the characters before the pending literal, and the
next token, whatever it is, will be apart from them. -/
structure Cutting (scan : Scan) (before : List Char) (pieces : List Piece) (gap : List Char) :
    Prop where
  cut : Cut before pieces gap
  tokens_eq : pieces.map Piece.token = scan.ended.reverse
  apart : pieces.IsChain Apart
  ready : ∀ last ∈ pieces.getLast?, last.token.isNum = true → gap ≠ []

theorem cutting_initial : initial.Cutting [] [] [] :=
  ⟨cut_nil, rfl, .nil, by simp⟩

/-- A piece that is apart from the latest one is apart from all. -/
theorem isChain_apart_append {next : Piece} (h : pieces.IsChain Apart)
    (hnext : ∀ last ∈ pieces.getLast?, Apart last next) : (pieces ++ [next]).IsChain Apart := by
  refine h.append (.singleton next) fun last hlast other hother => ?_
  obtain rfl : next = other := by simpa using hother
  exact hnext last hlast

/-- All tokens can be cut out, the pending literal among them. -/
theorem Cutting.flush (h : scan.Cutting before pieces gap) :
    ∃ pieces' rest, Cut (before ++ scan.pending) pieces' rest ∧
      pieces'.map Piece.token = scan.tokens.reverse ∧ pieces'.IsChain Apart := by
  by_cases hp : scan.pending = []
  · refine ⟨pieces, gap, ?_, ?_, h.apart⟩
    · rw [hp, List.append_nil]
      exact h.cut
    · rw [tokens, if_pos hp]
      exact h.tokens_eq
  · set literal : Token := .num (String.ofList scan.pending) with hliteral
    have htext : literal.text.toList = scan.pending := by simp [hliteral, Token.text]
    refine ⟨pieces ++ [⟨gap, literal⟩], [], ?_, ?_, ?_⟩
    · rw [← htext]
      exact h.cut.token literal
    · rw [tokens_of_pending_ne_nil hp, List.map_append, h.tokens_eq, List.reverse_cons]
      rfl
    · exact isChain_apart_append h.apart fun last hlast hnum _ => h.ready last hlast hnum

/-- A step goes on with the literal, or adds its character to the blanks or to the tokens. -/
theorem Cutting.step (h : scan.Cutting before pieces gap) (hdone : done = before ++ scan.pending)
    (hs : scan.step c = .ok scan') :
    ∃ before' pieces' gap', scan'.Cutting before' pieces' gap' ∧
      done ++ [c] = before' ++ scan'.pending := by
  obtain ⟨pieces', rest, hcut, htokens, hapart⟩ := h.flush
  rw [← hdone] at hcut
  obtain ⟨-, rfl⟩ | ⟨hsym, -, rfl⟩ | ⟨hblank, rfl⟩ := step_cases hs
  · exact ⟨before, pieces, gap, ⟨h.cut, h.tokens_eq, h.apart, h.ready⟩, by simp [hdone]⟩
  · -- a symbol is a token, and no literal
    have hother := isNum_symbolToken hsym
    refine ⟨done ++ [c], pieces' ++ [⟨rest, symbolToken c⟩], [], ⟨?_, ?_, ?_, ?_⟩, by simp⟩
    · rw [← text_symbolToken hsym]
      exact hcut.token (symbolToken c)
    · rw [List.map_append, htokens, List.reverse_cons]
      rfl
    · refine isChain_apart_append hapart fun last _ _ hnum => ?_
      rw [hother] at hnum
      cases hnum
    · intro last hlast hnum
      rw [List.getLast?_concat, Option.mem_some_iff] at hlast
      rw [← hlast, hother] at hnum
      cases hnum
  · exact ⟨done ++ [c], pieces', rest ++ [c],
      ⟨hcut.blank hblank, htokens, hapart, fun _ _ _ => by simp⟩, by simp⟩

/-- The tokens that are read are cut out of the characters. -/
theorem exists_cut_of_read {tokens : List Token} (h : read cs = .ok tokens) :
    ∃ pieces rest, Cut cs pieces rest ∧ pieces.map Piece.token = tokens ∧
      pieces.IsChain Apart := by
  obtain ⟨scan, hscan, ht⟩ := read_eq_ok_iff.mp h
  have hcutting := Run.ok_foldlM_induction
    (I := fun done scan => ∃ before pieces gap, scan.Cutting before pieces gap ∧
      done = before ++ scan.pending) ⟨[], [], [], cutting_initial, rfl⟩
    (fun _ _ _ _ ⟨_, _, _, hi, hdone⟩ hs => hi.step hdone hs) hscan
  obtain ⟨before, pieces, gap, hi, rfl⟩ := hcutting
  rw [tokens_initial, List.append_nil] at ht
  obtain ⟨pieces', rest, hcut, htokens, hapart⟩ := hi.flush
  rw [ht, List.reverse_reverse] at htokens
  exact ⟨pieces', rest, hcut, htokens, hapart⟩

end Scan

/-- The tokens of a text are cut out of it in one way, and only blanks are left. Two literals have
blanks between them, and no digit or point stands directly behind one. A text without tokens has a
character that cannot stand in an expression, and the first of these is reported. -/
theorem tokens_partition_the_text (source : String) :
    (∀ tokens, (tokenize source).result = .ok tokens →
      (String.join (tokens.map Token.text)).toList
          = source.toList.filter (fun c => !Text.isBlank c) ∧
        ∃ pieces rest, Cut source.toList pieces rest ∧ pieces.map Piece.token = tokens ∧
          (∀ pieces' rest', Cut source.toList pieces' rest' → pieces'.map Piece.token = tokens →
            pieces' = pieces ∧ rest' = rest) ∧
          (∀ before piece after, pieces = before ++ piece :: after →
            Text.slice source (String.utf8Len (spell before ++ piece.gap))
                (String.utf8Len (spell before ++ piece.gap)
                  + String.utf8Len piece.token.text.toList)
              = piece.token.text) ∧
          (∀ before first second after, pieces = before ++ first :: second :: after →
            first.token.isNum = true → second.token.isNum = true → second.gap ≠ []) ∧
          ∀ before piece after, pieces = before ++ piece :: after → piece.token.isNum = true →
            ∀ c ∈ (spell after ++ rest).head?, isLiteralChar c = false) ∧
      ∀ e, (tokenize source).result = .error e ↔
        ∃ c, e = .invalidCharacter c ∧ firstForeign? source.toList = some c := by
  rw [result_tokenize]
  constructor
  · intro tokens h
    obtain ⟨pieces, rest, hcut, rfl, hapart⟩ := Scan.exists_cut_of_read h
    have hlegible := Token.allLegible_of_read h
    have hvisible : ∀ piece ∈ pieces, piece.token.Visible := fun piece hp =>
      hlegible.visible (List.mem_map_of_mem hp)
    refine ⟨?_, pieces, rest, hcut, rfl, ?_, ?_, ?_, ?_⟩
    · rw [hcut.filter_eq hvisible, String.toList_join, List.flatMap_map, List.flatMap_map]
    · exact fun pieces' rest' h' ht => hcut.unique h' ht hvisible
    · exact fun before piece after hp => hcut.slice_eq hp
    · intro before first second after hp
      exact List.isChain_iff_forall_rel_of_append_cons_cons.mp hapart hp
    · exact fun before piece after hp => hcut.not_isLiteralChar_behind hapart hlegible hp
  · intro e
    cases hforeign : firstForeign? source.toList with
    | none =>
      obtain ⟨tokens, hread⟩ := Scan.exists_read hforeign
      simp [hread]
    | some c =>
      rw [Scan.read_of_foreign hforeign]
      simp [eq_comm]

theorem literals_behind_a_wide_blank :
    (tokenize "\u30001 -.5 2").result = .ok [.num "1", .op "-", .num ".5", .num "2"] ∧
      (String.join ([Token.num "1", .op "-", .num ".5", .num "2"].map Token.text)).toList
        = "\u30001 -.5 2".toList.filter (fun c => !Text.isBlank c) ∧
      Text.slice "\u30001 -.5 2" 6 8 = ".5" ∧ [' '] ≠ [] ∧ isLiteralChar ' ' = false ∧
      (tokenize "1 é %").result = .error (.invalidCharacter 'é') := by
  have hread : (tokenize "\u30001 -.5 2").result
      = .ok [.num "1", .op "-", .num ".5", .num "2"] := by decide +kernel
  set front : List Piece := [⟨['\u3000'], .num "1"⟩, ⟨[' '], .op "-"⟩] with hfront
  have hcut : Cut "\u30001 -.5 2".toList (front ++ [⟨[], .num ".5"⟩, ⟨[' '], .num "2"⟩]) [] :=
    ⟨by decide +kernel, by simp [hfront]; decide, by simp⟩
  obtain ⟨hjoin, pieces, rest, -, -, hunique, hslice, hapart, hbehind⟩ :=
    (tokens_partition_the_text _).1 _ hread
  obtain ⟨rfl, rfl⟩ := hunique _ _ hcut rfl
  refine ⟨hread, hjoin, hslice front ⟨[], .num ".5"⟩ _ rfl, hapart front _ _ [] rfl rfl rfl,
    hbehind front _ _ rfl rfl ' ' rfl, ?_⟩
  exact ((tokens_partition_the_text "1 é %").2 _).mpr ⟨'é', rfl, by decide +kernel⟩

end Reckon
