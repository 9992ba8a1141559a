import ForgeKit.Lib.JsonSorted

/-!
# JSON text with line breaks

`json.dumps(v, ensure_ascii=False, indent=width)` writes every element and every member on a line of
its own. The text is a list of pieces, tokens and white space, and the reader does not see the white
space.

* `lex_pieces` — the tokens between the white space are read
* `loads_dumpsLines` — what is written is read back
-/

namespace JsonText

open Py (Text CodePoint)

/-! ## The writer -/

inductive Piece where
  | tok (t : Token)
  | space (t : Text)

/-- A token without the blank that may come after it. -/
def Token.mark : Token → Text
  | .colon => Py.lit ":"
  | .comma => Py.lit ","
  | tok => tok.text

def Piece.text : Piece → Text
  | .tok t => t.mark
  | .space t => t

/-- The tokens of some pieces. -/
def tokensOf : List Piece → List Token
  | [] => []
  | .tok t :: ps => t :: tokensOf ps
  | .space _ :: ps => tokensOf ps

/-- The line break before a line of this level. -/
def lineBreak (width level : Nat) : Text :=
  Py.newline :: List.replicate (width * level) (Py.ofChar ' ')

section

variable (width : Nat)

mutual

/-- The pieces of a value on a line of this level. -/
def Value.pieces (level : Nat) : Value → List Piece
  | .arr [] => [.tok .openArr, .tok .closeArr]
  | .arr (v :: vs) =>
    .tok .openArr :: .space (lineBreak width (level + 1))
      :: (elemPieces (level + 1) (v :: vs) ++ [.space (lineBreak width level), .tok .closeArr])
  | .obj [] => [.tok .openObj, .tok .closeObj]
  | .obj (m :: d) =>
    .tok .openObj :: .space (lineBreak width (level + 1))
      :: (memberPieces (level + 1) (m :: d) ++ [.space (lineBreak width level), .tok .closeObj])
  | .null => [.tok (.word (Py.lit "null"))]
  | .bool true => [.tok (.word (Py.lit "true"))]
  | .bool false => [.tok (.word (Py.lit "false"))]
  | .num n => [.tok (.word n.word)]
  | .str t => [.tok (.str t)]

def elemPieces (level : Nat) : List Value → List Piece
  | [] => []
  | [v] => v.pieces level
  | v :: vs =>
    v.pieces level ++ .tok .comma :: .space (lineBreak width level) :: elemPieces level vs

def memberPieces (level : Nat) : List (Text × Value) → List Piece
  | [] => []
  | [(k, v)] => .tok (.str k) :: .tok .colon :: .space (Py.lit " ") :: v.pieces level
  | (k, v) :: d =>
    .tok (.str k) :: .tok .colon :: .space (Py.lit " ")
      :: (v.pieces level ++ .tok .comma :: .space (lineBreak width level) :: memberPieces level d)

end

/-- `json.dumps(v, ensure_ascii=False, indent=width)`. -/
def dumpsIndent (v : Value) : Text := (v.pieces width 0).flatMap Piece.text

end

/-! ## Its tokens and its white space -/

theorem tokensOf_append (ps qs : List Piece) : tokensOf (ps ++ qs) = tokensOf ps ++ tokensOf qs := by
  induction ps with
  | nil => rfl
  | cons p ps ih =>
    cases p with
    | tok t => exact congrArg (t :: ·) ih
    | space t => exact ih

mutual

theorem tokens_pieces (width level : Nat) :
    ∀ v : Value, tokensOf (v.pieces width level) = v.tokens
  | .null | .bool true | .bool false | .num _ | .str _ => rfl
  | .arr [] | .obj [] => rfl
  | .arr (v :: vs) => by
    have h := tokens_elemPieces width (level + 1) (v :: vs)
    simp only [Value.pieces, Value.tokens, tokensOf, tokensOf_append, h]
  | .obj (m :: d) => by
    have h := tokens_memberPieces width (level + 1) (m :: d)
    simp only [Value.pieces, Value.tokens, tokensOf, tokensOf_append, h]

theorem tokens_elemPieces (width level : Nat) :
    ∀ vs : List Value, tokensOf (elemPieces width level vs) = elemTokens vs
  | [] => rfl
  | [v] => tokens_pieces width level v
  | v :: w :: vs => by
    have hv := tokens_pieces width level v
    have hvs := tokens_elemPieces width level (w :: vs)
    simp only [elemPieces, elemTokens, tokensOf, tokensOf_append, hv, hvs]

theorem tokens_memberPieces (width level : Nat) :
    ∀ d : List (Text × Value), tokensOf (memberPieces width level d) = memberTokens d
  | [] => rfl
  | [(k, v)] => by
    have hv := tokens_pieces width level v
    simp only [memberPieces, memberTokens, tokensOf, hv]
  | (k, v) :: m :: d => by
    have hv := tokens_pieces width level v
    have hd := tokens_memberPieces width level (m :: d)
    simp only [memberPieces, memberTokens, tokensOf, tokensOf_append, hv, hd]

end

/-- A blank or a line break. -/
def IsBlank (c : CodePoint) : Prop := c = Py.ofChar ' ' ∨ c = Py.newline

/-- The white space of these pieces is blanks and line breaks. -/
def Blank (ps : List Piece) : Prop := ∀ t, Piece.space t ∈ ps → ∀ c ∈ t, IsBlank c

theorem isBlank_of_mem_lineBreak {width level : Nat} {c : CodePoint}
    (h : c ∈ lineBreak width level) : IsBlank c := by
  rcases List.mem_cons.mp h with rfl | h
  · exact .inr rfl
  · exact .inl (List.eq_of_mem_replicate h)

theorem Blank.append {ps qs : List Piece} (hp : Blank ps) (hq : Blank qs) : Blank (ps ++ qs) := by
  intro t ht
  rcases List.mem_append.mp ht with ht | ht
  · exact hp t ht
  · exact hq t ht

theorem Blank.tok {tok : Token} {ps : List Piece} (h : Blank ps) : Blank (.tok tok :: ps) :=
  fun t ht => h t ((List.mem_cons.mp ht).resolve_left nofun)

theorem Blank.space {t : Text} {ps : List Piece} (ht : ∀ c ∈ t, IsBlank c) (h : Blank ps) :
    Blank (.space t :: ps) := by
  intro u hu
  rcases List.mem_cons.mp hu with hu | hu
  · cases hu
    exact ht
  · exact h u hu

theorem blank_nil : Blank [] := fun _ h => absurd h List.not_mem_nil

theorem blank_lineBreak {width level : Nat} {ps : List Piece} (h : Blank ps) :
    Blank (.space (lineBreak width level) :: ps) := h.space fun _ => isBlank_of_mem_lineBreak

theorem blank_space {ps : List Piece} (h : Blank ps) : Blank (.space (Py.lit " ") :: ps) :=
  h.space fun _ hc => .inl (List.mem_singleton.mp hc)

mutual

theorem blank_pieces (width level : Nat) : ∀ v : Value, Blank (v.pieces width level)
  | .null | .bool true | .bool false | .num _ | .str _ => blank_nil.tok
  | .arr [] | .obj [] => blank_nil.tok.tok
  | .arr (v :: vs) =>
    (blank_lineBreak ((blank_elemPieces width (level + 1) (v :: vs)).append
      (blank_lineBreak blank_nil.tok))).tok
  | .obj (m :: d) =>
    (blank_lineBreak ((blank_memberPieces width (level + 1) (m :: d)).append
      (blank_lineBreak blank_nil.tok))).tok

theorem blank_elemPieces (width level : Nat) : ∀ vs : List Value, Blank (elemPieces width level vs)
  | [] => blank_nil
  | [v] => blank_pieces width level v
  | v :: w :: vs =>
    (blank_pieces width level v).append
      (blank_lineBreak (blank_elemPieces width level (w :: vs))).tok

theorem blank_memberPieces (width level : Nat) :
    ∀ d : List (Text × Value), Blank (memberPieces width level d)
  | [] => blank_nil
  | [(_, v)] => (blank_space (blank_pieces width level v)).tok.tok
  | (_, v) :: m :: d =>
    (blank_space ((blank_pieces width level v).append
      (blank_lineBreak (blank_memberPieces width level (m :: d))).tok)).tok.tok

end

/-! ## What the lexer reads -/

/-- White space ends a word, and nothing else. -/
theorem scan_blank {s : Lexer} (hs : s.outer = true) {t : Text} (ht : ∀ c ∈ t, IsBlank c) :
    ∃ a s', s.scan t = some (a, s') ∧ s'.outer = true ∧ (s' = s ∨ s' = .out)
      ∧ a ++ s'.pending = s.pending := by
  induction t generalizing s with
  | nil => exact ⟨[], s, rfl, hs, .inl rfl, List.nil_append _⟩
  | cons c t ih =>
    have hc : isWordChar c = false ∧ stepOut c = some ([], .out) := by
      rcases ht c List.mem_cons_self with rfl | rfl <;> decide
    obtain ⟨a, s', hscan, hs', hout, hpending⟩ :=
      ih (s := .out) rfl fun c hc => ht c (List.mem_cons_of_mem _ hc)
    refine ⟨s.pending ++ a, s', ?_, hs', .inr (hout.elim id id), ?_⟩
    · rw [Lexer.scan, Lexer.step_of_outer hs hc.1, hc.2]
      simp [hscan]
    · rw [List.append_assoc, hpending]
      exact List.append_nil _

theorem scan_mark {tok : Token} {ts : List Token} {s : Lexer} (hs : s.outer = true)
    (h : Readable (s != .out) (tok :: ts)) :
    ∃ a s', s.scan tok.mark = some (a, s') ∧ s'.outer = true ∧ Readable (s' != .out) ts
      ∧ a ++ s'.pending = s.pending ++ [tok] := by
  have hone : ∀ c : CodePoint, tok.mark = [c] → tok.isWord = false → isWordChar c = false →
      stepOut c = some ([tok], .out) → ∃ a s', s.scan tok.mark = some (a, s') ∧ s'.outer = true
        ∧ Readable (s' != .out) ts ∧ a ++ s'.pending = s.pending ++ [tok] := by
    intro c hmark hword hc hout
    refine ⟨s.pending ++ [tok], .out, ?_, rfl, (readable_cons hword _ ts).mp h, by simp [Lexer.pending]⟩
    rw [hmark]
    simp [Lexer.scan, Lexer.step_of_outer hs hc, hout]
  cases tok with
  | colon => exact hone (Py.ofChar ':') rfl rfl (by decide) (by decide)
  | comma => exact hone (Py.ofChar ',') rfl rfl (by decide) (by decide)
  | _ => exact scan_token hs h

theorem Readable.of_afterWord (ts : List Token) {b : Bool} (h : Readable b ts) :
    Readable false ts := by
  cases ts with
  | nil => trivial
  | cons tok ts =>
    cases tok with
    | word w => exact ⟨rfl, h.2⟩
    | _ => exact h

/-- **The tokens between the white space are read.** -/
theorem scan_pieces {ps : List Piece} {s : Lexer} (hs : s.outer = true) (hblank : Blank ps)
    (h : Readable (s != .out) (tokensOf ps)) :
    ∃ a s', s.scan (ps.flatMap Piece.text) = some (a, s') ∧ s'.outer = true
      ∧ a ++ s'.pending = s.pending ++ tokensOf ps := by
  induction ps generalizing s with
  | nil => exact ⟨[], s, rfl, hs, by simp [tokensOf]⟩
  | cons p ps ih =>
    have hrest : Blank ps := fun t ht => hblank t (List.mem_cons_of_mem _ ht)
    rw [List.flatMap_cons]
    cases p with
    | tok tok =>
      obtain ⟨a, s', hscan, hs', hts, hpending⟩ := scan_mark hs h
      obtain ⟨b, s'', hscan', hs'', hrest⟩ := ih hs' hrest hts
      refine ⟨a ++ b, s'', Lexer.scan_append_of hscan hscan', hs'', ?_⟩
      calc a ++ b ++ s''.pending = a ++ (s'.pending ++ tokensOf ps) := by
            rw [List.append_assoc, hrest]
        _ = s.pending ++ [tok] ++ tokensOf ps := by rw [← List.append_assoc, hpending]
        _ = s.pending ++ tok :: tokensOf ps := by rw [List.append_assoc, List.singleton_append]
    | space t =>
      obtain ⟨a, s', hscan, hs', hsame, hpending⟩ :=
        scan_blank hs (hblank t List.mem_cons_self)
      have hts : Readable (s' != .out) (tokensOf ps) := by
        rcases hsame with rfl | rfl
        · exact h
        · exact Readable.of_afterWord (tokensOf ps) h
      obtain ⟨b, s'', hscan', hs'', hrest⟩ := ih hs' hrest hts
      refine ⟨a ++ b, s'', Lexer.scan_append_of hscan hscan', hs'', ?_⟩
      rw [List.append_assoc, hrest, ← List.append_assoc, hpending]
      rfl

theorem lex_pieces {ps : List Piece} (hblank : Blank ps) (h : Readable false (tokensOf ps)) :
    lex (ps.flatMap Piece.text) = some (tokensOf ps) := by
  obtain ⟨a, s, hscan, hs, heq⟩ := scan_pieces (s := .out) rfl hblank h
  rw [lex, hscan, Option.bind_some, Lexer.finish_of_outer hs, Option.map_some, heq]
  rfl

/-- The text of a document that ends its last line, as a file holds it. -/
def dumpsLines (width : Nat) (v : Value) : Text := dumpsIndent width v ++ [Py.newline]

/-- The pieces of a document that ends its last line. -/
def Value.linePieces (width : Nat) (v : Value) : List Piece :=
  v.pieces width 0 ++ [.space [Py.newline]]

theorem dumpsLines_eq (width : Nat) (v : Value) :
    dumpsLines width v = (v.linePieces width).flatMap Piece.text := by
  rw [Value.linePieces, List.flatMap_append]
  rfl

theorem blank_linePieces (width : Nat) (v : Value) : Blank (v.linePieces width) :=
  (blank_pieces width 0 v).append (blank_nil.space fun _ hc => .inr (List.mem_singleton.mp hc))

theorem tokens_linePieces (width : Nat) (v : Value) : tokensOf (v.linePieces width) = v.tokens := by
  rw [Value.linePieces, tokensOf_append, tokens_pieces]
  exact List.append_nil _

/-- **What is written is read back.** -/
theorem loads_dumpsLines {v : Value} (width : Nat) (hv : v.Valid) :
    loads (dumpsLines width v) = some v := by
  have htokens := tokens_linePieces width v
  have hlex := lex_pieces (blank_linePieces width v) (htokens ▸ readable_value v)
  have hrun := run_tokens v hv [] []
  rw [List.append_nil] at hrun
  rw [loads, dumpsLines_eq, hlex, htokens, Option.bind_some, hrun]
  rfl

/-! ## The characters -/

/-- What is written is the text of a token, or white space. -/
theorem mem_pieces {ps : List Piece} (hblank : Blank ps) {c : CodePoint}
    (h : c ∈ ps.flatMap Piece.text) : c ∈ textOf (tokensOf ps) ∨ IsBlank c := by
  induction ps with
  | nil => cases h
  | cons p ps ih =>
    have hrest : Blank ps := fun t ht => hblank t (List.mem_cons_of_mem _ ht)
    rw [List.flatMap_cons] at h
    rcases List.mem_append.mp h with h | h
    · cases p with
      | space t => exact .inr (hblank t List.mem_cons_self c h)
      | tok tok =>
        refine .inl (List.mem_append_left _ ?_)
        cases tok with
        | colon => exact List.mem_append_left [Py.ofChar ' '] h
        | comma => exact List.mem_append_left [Py.ofChar ' '] h
        | _ => exact h
    · refine (ih hrest h).imp_left fun hc => ?_
      cases p with
      | space t => exact hc
      | tok tok => exact List.mem_append_right _ hc

theorem mem_dumpsLines {width : Nat} {v : Value} {c : CodePoint} (h : c ∈ dumpsLines width v) :
    c ∈ dumps v ∨ IsBlank c := by
  rw [dumpsLines_eq] at h
  have hc := mem_pieces (blank_linePieces width v) h
  rwa [tokens_linePieces] at hc

/-- The text has no carriage return. -/
theorem carriageReturn_notMem_dumpsLines (width : Nat) (v : Value) :
    Py.carriageReturn ∉ dumpsLines width v := by
  intro h
  rcases mem_dumpsLines h with h | h
  · exact absurd (val_of_mem_dumps h) (by decide)
  · rcases h with h | h <;> exact absurd h (by decide)

/-- The text has an encoding when the strings and the keys have one. -/
theorem encodable_dumpsLines {width : Nat} {v : Value} (h : ∀ t ∈ v.texts, Encodable t) :
    Encodable (dumpsLines width v) := by
  intro c hc
  rcases mem_dumpsLines hc with hc | rfl | rfl
  · exact encodable_textOf (readable_value v)
      (fun t ht => h t (v.mem_texts_of_mem_tokens ht)) c hc
  · decide
  · decide

end JsonText
