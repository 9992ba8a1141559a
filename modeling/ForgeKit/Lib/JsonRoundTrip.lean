import ForgeKit.Lib.JsonText
import Mathlib.Data.Nat.Digits.Lemmas

/-!
# The round trip of JSON text

* `lex_dumps` — the text of a value is read as the tokens it was made of
* `loads_dumps` — what was written is read back
* `valid_of_loads` — no object that was read has a key twice
* `val_of_mem_dumps` — no control character is written
-/

namespace JsonText

open Py (Text CodePoint)

/-! ## What the lexer reads of a text that was written -/

theorem Lexer.scan_append (s : Lexer) (t u : Text) :
    s.scan (t ++ u) = (s.scan t).bind fun r => (r.2.scan u).map fun q => (r.1 ++ q.1, q.2) := by
  induction t generalizing s with
  | nil => simp [Lexer.scan]
  | cons c t ih =>
    simp only [List.cons_append, Lexer.scan, ih]
    cases s.step c with
    | none => rfl
    | some r =>
      cases hr : r.2.scan t with
      | none => simp [hr]
      | some q => cases hq : q.2.scan u <;> simp [hr, hq]

/-- Two texts that lead on from one another. -/
theorem Lexer.scan_append_of {s s' s'' : Lexer} {t u : Text} {a b : List Token}
    (ht : s.scan t = some (a, s')) (hu : s'.scan u = some (b, s'')) :
    s.scan (t ++ u) = some (a ++ b, s'') := by
  rw [scan_append, ht, Option.bind_some, hu, Option.map_some]

theorem hexValue_hexDigit : ∀ n, n < 16 → hexValue (hexDigit n) = some n := by decide

/-- A short escape is read back. -/
theorem scan_short {e c : CodePoint} (hu : e ≠ Py.ofChar 'u') (h : unescape e = some c)
    (acc : Text) : (Lexer.str acc false).scan [backslash, e] = some ([], .str (c :: acc) false) := by
  have hq : backslash ≠ quote := by decide
  simp [Lexer.scan, Lexer.step, hq, hu, h]

/-- The long escape of a control character is read back. -/
theorem scan_long {c : CodePoint} (hc : c.val < 0x20) (acc : Text) :
    (Lexer.str acc false).scan (Py.lit "\\u00" ++ [hexDigit (c.val / 16), hexDigit (c.val % 16)])
      = some ([], .str (c :: acc) false) := by
  have hstart : (Lexer.str acc false).scan (Py.lit "\\u00") = some ([], .hex acc false 2 0) := by
    have hlit : Py.lit "\\u00" = [backslash, Py.ofChar 'u', hexDigit 0, hexDigit 0] := by decide
    have hq : backslash ≠ quote := by decide
    simp [hlit, Lexer.scan, Lexer.step, hq, hexValue_hexDigit]
  have hcode : Fin.ofNat 1114112 (16 * (c.val / 16) + c.val % 16) = c := by
    rw [Nat.div_add_mod]
    exact Fin.ext (Nat.mod_eq_of_lt c.isLt)
  have hunit : addUnit acc false (16 * (c.val / 16) + c.val % 16) = .str (c :: acc) false := by
    have hlow : ¬ 0xD800 ≤ 16 * (c.val / 16) + c.val % 16 := by omega
    cases acc with
    | nil => simp only [addUnit, hcode, hlow, decide_false, Bool.false_and]
    | cons h rest =>
      simp only [addUnit, hcode, hlow, decide_false, Bool.false_and, Bool.false_eq_true,
        false_and, if_false]
  refine Lexer.scan_append_of hstart ?_
  have hhi : c.val / 16 < 16 := by omega
  have hlo : c.val % 16 < 16 := by omega
  simp only [Lexer.scan, Lexer.step, hexValue_hexDigit _ hhi, hexValue_hexDigit _ hlo,
    Option.map_some, Option.bind_some, List.nil_append, Nat.reduceEqDiff, if_false, if_true,
    Nat.mul_zero, Nat.zero_add, hunit]

/-- **What a character is escaped to is read back as that character.** -/
theorem scan_escapeChar (c : CodePoint) (acc : Text) :
    (Lexer.str acc false).scan (escapeChar c) = some ([], .str (c :: acc) false) := by
  have hval : ∀ n : CodePoint, c.val = n.val → c = n := fun n h => Fin.ext h
  unfold escapeChar
  split
  · next h =>
    rcases h with rfl | rfl
    · exact scan_short (by decide) (by decide) acc
    · exact scan_short (by decide) (by decide) acc
  · next hplain =>
    rw [not_or] at hplain
    split_ifs with h8 h9 h10 h12 h13 h32
    · obtain rfl := hval ⟨0x08, by decide⟩ h8
      exact scan_short (by decide) (by decide) acc
    · obtain rfl := hval ⟨0x09, by decide⟩ h9
      exact scan_short (by decide) (by decide) acc
    · obtain rfl := hval ⟨0x0A, by decide⟩ h10
      exact scan_short (by decide) (by decide) acc
    · obtain rfl := hval ⟨0x0C, by decide⟩ h12
      exact scan_short (by decide) (by decide) acc
    · obtain rfl := hval ⟨0x0D, by decide⟩ h13
      exact scan_short (by decide) (by decide) acc
    · exact scan_long h32 acc
    · simp [Lexer.scan, Lexer.step, hplain.1, hplain.2, h32]

theorem scan_escape (t acc : Text) :
    (Lexer.str acc false).scan (t.flatMap escapeChar) = some ([], .str (t.reverse ++ acc) false) := by
  induction t generalizing acc with
  | nil => rfl
  | cons c t ih =>
    rw [List.flatMap_cons, Lexer.scan_append_of (scan_escapeChar c acc) (ih (c :: acc))]
    simp


theorem isWordChar_of_isDigit {c : CodePoint} (h : isDigit c = true) : isWordChar c = true := by
  rw [isWordChar, h, Bool.true_or]

theorem all_isWordChar_of_digits {t : Text} (h : t.all isDigit = true) :
    t.all isWordChar = true := by
  rw [List.all_eq_true] at h ⊢
  exact fun c hc => isWordChar_of_isDigit (h c hc)

theorem all_isWordChar_of_dropWhile {t : Text} (h : (t.dropWhile isDigit).all isWordChar = true) :
    t.all isWordChar = true := by
  rw [← List.takeWhile_append_dropWhile (p := isDigit) (l := t), List.all_append, h, Bool.and_true,
    List.all_eq_true]
  exact fun c hc => isWordChar_of_isDigit (List.mem_takeWhile_imp hc)

theorem all_isWordChar_of_isExponent {t : Text} (h : isExponent t = true) :
    t.all isWordChar = true := by
  cases t with
  | nil => rfl
  | cons e t =>
    simp only [isExponent, Bool.and_eq_true, Bool.or_eq_true, beq_iff_eq] at h
    obtain ⟨he, ht⟩ := h
    have hword : isWordChar e = true := by rcases he with rfl | rfl <;> decide
    rw [List.all_cons, hword, Bool.true_and]
    cases t with
    | nil => rfl
    | cons c ds =>
      simp only at ht
      split at ht
      · next hsign =>
        rw [Bool.and_eq_true] at ht
        have hc : isWordChar c = true := by rcases hsign with rfl | rfl <;> decide
        rw [List.all_cons, hc, Bool.true_and]
        exact all_isWordChar_of_digits ht.2
      · exact all_isWordChar_of_digits ht

theorem all_isWordChar_of_isFraction {t : Text} (h : isFraction t = true) :
    t.all isWordChar = true := by
  unfold isFraction at h
  split at h
  · next p c t =>
    split at h
    · next hp =>
      rw [Bool.and_eq_true] at h
      have hdot : isWordChar p = true := by rw [hp]; decide
      rw [List.all_cons, hdot, Bool.true_and, List.all_cons, isWordChar_of_isDigit h.1,
        Bool.true_and]
      exact all_isWordChar_of_dropWhile (all_isWordChar_of_isExponent h.2)
    · exact all_isWordChar_of_isExponent h
  · exact all_isWordChar_of_isExponent h

theorem all_isWordChar_of_isUnsigned {t : Text} (h : isUnsigned t = true) :
    t ≠ [] ∧ t.all isWordChar = true := by
  cases t with
  | nil => cases h
  | cons c t =>
    refine ⟨List.cons_ne_nil c t, ?_⟩
    rw [isUnsigned] at h
    split at h
    · next hc =>
      have hzero : isWordChar c = true := by rw [hc]; decide
      rw [List.all_cons, hzero, Bool.true_and]
      exact all_isWordChar_of_isFraction h
    · rw [Bool.and_eq_true] at h
      rw [List.all_cons, isWordChar_of_isDigit h.1, Bool.true_and]
      exact all_isWordChar_of_dropWhile (all_isWordChar_of_isFraction h.2)

/-- A word the lexer reads as one. -/
def IsWord (w : Text) : Prop := w ≠ [] ∧ w.all isWordChar = true

theorem isWord_of_isNumber {w : Text} (h : isNumber w = true) : IsWord w := by
  simp only [isNumber, Bool.or_eq_true, beq_iff_eq] at h
  rcases h with ((rfl | rfl) | rfl) | h
  · exact ⟨by decide, by decide⟩
  · exact ⟨by decide, by decide⟩
  · exact ⟨by decide, by decide⟩
  · cases w with
    | nil => cases h
    | cons c w =>
      refine ⟨List.cons_ne_nil c w, ?_⟩
      split at h
      · next hminus =>
        obtain rfl : c = Py.ofChar '-' := Option.some.inj hminus
        have hc : isWordChar (Py.ofChar '-') = true := by decide
        rw [List.all_cons, hc, Bool.true_and]
        exact (all_isWordChar_of_isUnsigned h).2
      · exact (all_isWordChar_of_isUnsigned h).2

/-! ### Tokens -/

def Token.isWord : Token → Bool
  | .word _ => true
  | _ => false

/-- Not inside of a text. -/
def Lexer.outer : Lexer → Bool
  | .out => true
  | .word _ => true
  | _ => false

/-- The word that the next code point may end. -/
def Lexer.pending : Lexer → List Token
  | .word acc => [.word acc.reverse]
  | _ => []

theorem Lexer.finish_of_outer {s : Lexer} (h : s.outer = true) : s.finish = some s.pending := by
  cases s <;> first | rfl | cases h

theorem Lexer.step_of_outer {s : Lexer} {c : CodePoint} (h : s.outer = true)
    (hc : isWordChar c = false) :
    s.step c = (stepOut c).map fun r => (s.pending ++ r.1, r.2) := by
  cases s with
  | out =>
    have hid : (fun r : List Token × Lexer => (Lexer.out.pending ++ r.1, r.2)) = id := rfl
    rw [hid, Option.map_id]; rfl
  | word acc => simp [Lexer.step, hc, Lexer.pending]
  | _ => cases h

/-- Punctuation is read as the token it is written for. -/
theorem scan_punctuation {s : Lexer} (hs : s.outer = true) {tok : Token} (hw : tok.isWord = false)
    (ht : ∀ t, tok ≠ .str t) : s.scan tok.text = some (s.pending ++ [tok], .out) := by
  have hone : ∀ c : CodePoint, isWordChar c = false → stepOut c = some ([tok], .out) →
      s.scan [c] = some (s.pending ++ [tok], .out) := by
    intro c hc hout
    simp [Lexer.scan, Lexer.step_of_outer hs hc, hout]
  have htwo : ∀ c : CodePoint, isWordChar c = false → stepOut c = some ([tok], .out) →
      s.scan ([c] ++ [Py.ofChar ' ']) = some (s.pending ++ [tok], .out) := by
    intro c hc hout
    have hspace : Lexer.out.scan [Py.ofChar ' '] = some ([], .out) := by decide
    rw [Lexer.scan_append_of (hone c hc hout) hspace, List.append_nil]
  cases tok with
  | openObj => exact hone (Py.ofChar '\x7b') (by decide) (by decide)
  | closeObj => exact hone (Py.ofChar '\x7d') (by decide) (by decide)
  | openArr => exact hone (Py.ofChar '[') (by decide) (by decide)
  | closeArr => exact hone (Py.ofChar ']') (by decide) (by decide)
  | colon => exact htwo (Py.ofChar ':') (by decide) (by decide)
  | comma => exact htwo (Py.ofChar ',') (by decide) (by decide)
  | word w => cases hw
  | str t => exact absurd rfl (ht t)

/-- A text is read as the text it was. -/
theorem scan_str {s : Lexer} (hs : s.outer = true) (t : Text) :
    s.scan (Token.str t).text = some (s.pending ++ [.str t], .out) := by
  have hopen : s.step quote = some (s.pending, .str [] false) := by
    have hout : stepOut quote = some ([], .str [] false) := by decide
    rw [Lexer.step_of_outer hs (by decide), hout, Option.map_some, List.append_nil]
  have hclose : ∀ acc, (Lexer.str acc false).scan [quote] = some ([.str acc.reverse], .out) := by
    intro acc
    simp [Lexer.scan, Lexer.step]
  have hrest := Lexer.scan_append_of (scan_escape t []) (hclose (t.reverse ++ []))
  rw [Token.text, Lexer.scan, hopen, Option.bind_some, hrest, Option.map_some]
  simp

theorem scan_word {w : Text} (acc : Text) (h : w.all isWordChar = true) :
    (Lexer.word acc).scan w = some ([], .word (w.reverse ++ acc)) := by
  induction w generalizing acc with
  | nil => rfl
  | cons c w ih =>
    rw [List.all_cons, Bool.and_eq_true] at h
    simp [Lexer.scan, Lexer.step, h.1, ih (c :: acc) h.2]

/-- A word from between tokens. -/
theorem scan_out_word {w : Text} (h : IsWord w) :
    Lexer.out.scan w = some ([], .word w.reverse) := by
  obtain ⟨hne, hall⟩ := h
  cases w with
  | nil => exact absurd rfl hne
  | cons c w =>
    rw [List.all_cons, Bool.and_eq_true] at hall
    have hstep : Lexer.out.step c = some ([], .word [c]) := by
      have hspace : isJsonSpace c = false := by
        rw [Bool.eq_false_iff]
        intro hspace
        have hc : c ∈ Py.lit " \t\n\r" := of_decide_eq_true hspace
        have hdisjoint : (Py.lit " \t\n\r").all (fun d => !isWordChar d) = true := by decide
        have := List.all_eq_true.mp hdisjoint c hc
        simp [hall.1] at this
      have hquote : c ≠ quote := by
        rintro rfl
        exact absurd hall.1 (by decide)
      simp [Lexer.step, stepOut, hspace, hquote, hall.1]
    rw [Lexer.scan, hstep, Option.bind_some, scan_word [c] hall.2]
    simp


/-- A list of tokens whose text keeps them apart: no word comes right after another. -/
def Readable : Bool → List Token → Prop
  | _, [] => True
  | afterWord, .word w :: ts => afterWord = false ∧ IsWord w ∧ Readable true ts
  | _, _ :: ts => Readable false ts

theorem readable_cons {tok : Token} (h : tok.isWord = false) (afterWord : Bool) (ts : List Token) :
    Readable afterWord (tok :: ts) ↔ Readable false ts := by
  cases tok with
  | word w => cases h
  | _ => exact Iff.rfl

/-- One token leads to a state from which the rest is readable. -/
theorem scan_token {tok : Token} {ts : List Token} {s : Lexer} (hs : s.outer = true)
    (h : Readable (s != .out) (tok :: ts)) :
    ∃ a s', s.scan tok.text = some (a, s') ∧ s'.outer = true ∧ Readable (s' != .out) ts ∧
      a ++ s'.pending = s.pending ++ [tok] := by
  by_cases hword : tok.isWord = false
  · have hts : Readable (Lexer.out != .out) ts := (readable_cons hword _ ts).mp h
    by_cases hstr : ∀ t, tok ≠ .str t
    · exact ⟨_, _, scan_punctuation hs hword hstr, rfl, hts, by simp [Lexer.pending]⟩
    · simp only [not_forall, not_not] at hstr
      obtain ⟨t, rfl⟩ := hstr
      exact ⟨_, _, scan_str hs t, rfl, hts, by simp [Lexer.pending]⟩
  · cases tok with
    | word w =>
      obtain ⟨hout, hw, hts⟩ := h
      obtain rfl : s = .out := by simpa using hout
      exact ⟨_, _, scan_out_word hw, rfl, hts, by simp [Lexer.pending, Token.text]⟩
    | _ => exact absurd rfl hword

/-- **The text of readable tokens is read as those tokens.** -/
theorem scan_textOf {ts : List Token} {s : Lexer} (hs : s.outer = true)
    (h : Readable (s != .out) ts) :
    ∃ a s', s.scan (textOf ts) = some (a, s') ∧ s'.outer = true ∧
      a ++ s'.pending = s.pending ++ ts := by
  induction ts generalizing s with
  | nil => exact ⟨[], s, rfl, hs, by simp⟩
  | cons tok ts ih =>
    obtain ⟨a, s', hscan, hs', hts, hpending⟩ := scan_token hs h
    obtain ⟨b, s'', hscan', hs'', hrest⟩ := ih hs' hts
    refine ⟨a ++ b, s'', Lexer.scan_append_of hscan hscan', hs'', ?_⟩
    calc a ++ b ++ s''.pending = a ++ (s'.pending ++ ts) := by rw [List.append_assoc, hrest]
      _ = s.pending ++ [tok] ++ ts := by rw [← List.append_assoc, hpending]
      _ = s.pending ++ tok :: ts := by rw [List.append_assoc, List.singleton_append]

mutual

theorem readable_tokens (v : Value) {p : Token} {rest : List Token} (hp : p.isWord = false)
    (h : Readable false rest) : Readable false (v.tokens ++ p :: rest) := by
  have hword : ∀ w, IsWord w → Readable false (.word w :: p :: rest) := fun w hw =>
    ⟨rfl, hw, (readable_cons hp true rest).mpr h⟩
  have hnext : ∀ b, Readable b (p :: rest) := fun b => (readable_cons hp b rest).mpr h
  match v with
  | .null => exact hword _ ⟨by decide, by decide⟩
  | .bool true => exact hword _ ⟨by decide, by decide⟩
  | .bool false => exact hword _ ⟨by decide, by decide⟩
  | .num n => exact hword _ (isWord_of_isNumber n.isNumber)
  | .str t => exact hnext false
  | .arr vs =>
    show Readable false (elemTokens vs ++ [.closeArr] ++ p :: rest)
    rw [List.append_assoc]
    exact readable_elemTokens vs rfl (hnext false)
  | .obj d =>
    show Readable false (memberTokens d ++ [.closeObj] ++ p :: rest)
    rw [List.append_assoc]
    exact readable_memberTokens d rfl (hnext false)

theorem readable_elemTokens (vs : List Value) {p : Token} {rest : List Token}
    (hp : p.isWord = false) (h : Readable false rest) :
    Readable false (elemTokens vs ++ p :: rest) := by
  match vs with
  | [] => exact (readable_cons hp false rest).mpr h
  | [v] => exact readable_tokens v hp h
  | v :: v' :: vs =>
    show Readable false (v.tokens ++ .comma :: elemTokens (v' :: vs) ++ p :: rest)
    rw [List.append_assoc]
    exact readable_tokens v rfl (readable_elemTokens (v' :: vs) hp h)

theorem readable_memberTokens (d : List (Text × Value)) {p : Token} {rest : List Token}
    (hp : p.isWord = false) (h : Readable false rest) :
    Readable false (memberTokens d ++ p :: rest) := by
  match d with
  | [] => exact (readable_cons hp false rest).mpr h
  | [(k, v)] => exact readable_tokens v hp h
  | (k, v) :: m :: d =>
    show Readable false (v.tokens ++ .comma :: memberTokens (m :: d) ++ p :: rest)
    rw [List.append_assoc]
    exact readable_tokens v rfl (readable_memberTokens (m :: d) hp h)

end

theorem Readable.of_append {ts us : List Token} {b : Bool} (h : Readable b (ts ++ us)) :
    Readable b ts := by
  induction ts generalizing b with
  | nil => trivial
  | cons tok ts ih =>
    cases tok with
    | word w => exact ⟨h.1, h.2.1, ih h.2.2⟩
    | _ => exact ih (b := false) h

theorem readable_value (v : Value) : Readable false v.tokens := by
  have h : Readable false (v.tokens ++ [.comma]) := readable_tokens v rfl trivial
  exact h.of_append

/-- **The text of a value is read as its tokens.** -/
theorem lex_dumps (v : Value) : lex (dumps v) = some v.tokens := by
  obtain ⟨a, s, hscan, hs, heq⟩ := scan_textOf (s := .out) rfl (readable_value v)
  rw [lex, dumps, hscan, Option.bind_some, Lexer.finish_of_outer hs, Option.map_some, heq]
  rfl

/-! ## The round trip -/

theorem readWord_null : readWord (Py.lit "null") = some .null := rfl

theorem readWord_bool (b : Bool) :
    readWord (if b then Py.lit "true" else Py.lit "false") = some (.bool b) := by
  cases b <;> rfl

theorem readWord_num (n : Number) : readWord n.word = some (.num n) := by
  have hne : ∀ w, isNumber w = false → n.word ≠ w := by
    rintro w hw rfl
    exact absurd n.isNumber (by simp [hw])
  rw [readWord, if_neg (hne _ (by decide)), if_neg (hne _ (by decide)), if_neg (hne _ (by decide)),
    dif_pos n.isNumber]

theorem setKey_of_notMem {d : List (Text × Value)} {k : Text} (h : k ∉ d.map Prod.fst)
    (v : Value) : setKey d k v = d ++ [(k, v)] := by
  induction d with
  | nil => rfl
  | cons m d ih =>
    rw [List.map_cons, List.mem_cons, not_or] at h
    rw [setKey, if_neg (Ne.symm h.1), ih h.2, List.cons_append]

/-- A value does not start as a list ends. -/
theorem exists_tokens_eq (v : Value) : ∃ tok ts, v.tokens = tok :: ts ∧ tok ≠ .closeArr := by
  cases v with
  | bool b => cases b <;> exact ⟨_, _, rfl, nofun⟩
  | _ => exact ⟨_, _, rfl, nofun⟩

theorem exists_elemTokens_eq (v : Value) (vs : List Value) :
    ∃ tok ts, elemTokens (v :: vs) = tok :: ts ∧ tok ≠ .closeArr := by
  obtain ⟨tok, ts, htokens, hne⟩ := exists_tokens_eq v
  cases vs with
  | nil => exact ⟨tok, ts, htokens, hne⟩
  | cons v' vs => exact ⟨tok, _, by rw [elemTokens, htokens, List.cons_append]; simp, hne⟩

theorem run_firstElem (v : Value) (vs : List Value) (stack : List Frame) (rest : List Token) :
    Parser.run ⟨.firstElem, stack⟩ (elemTokens (v :: vs) ++ rest)
      = Parser.run ⟨.value, .elem [] :: stack⟩ (elemTokens (v :: vs) ++ rest) := by
  obtain ⟨tok, ts, htokens, hne⟩ := exists_elemTokens_eq v vs
  have hstep : Parser.step ⟨.firstElem, stack⟩ tok = startValue (.elem [] :: stack) tok := by
    cases tok <;> first | rfl | exact absurd rfl hne
  rw [htokens, List.cons_append, Parser.run, Parser.run, hstep]
  rfl

mutual

/-- A value is read where one is due. -/
theorem run_tokens (v : Value) (hv : v.Valid) (stack : List Frame) (rest : List Token) :
    Parser.run ⟨.value, stack⟩ (v.tokens ++ rest) = Parser.run ⟨.closing v, stack⟩ rest := by
  match v with
  | .null => rfl
  | .bool true => rfl
  | .bool false => rfl
  | .num n =>
    show (Parser.step ⟨.value, stack⟩ (.word n.word)).bind (fun p => p.run rest) = _
    simp [Parser.step, startValue, readWord_num]
  | .str t => rfl
  | .arr [] => rfl
  | .arr (v :: vs) =>
    show Parser.run ⟨.firstElem, stack⟩ (elemTokens (v :: vs) ++ [.closeArr] ++ rest) = _
    rw [List.append_assoc, run_firstElem]
    exact run_elemTokens (v :: vs) (List.cons_ne_nil v vs) hv [] stack rest
  | .obj [] => rfl
  | .obj (m :: d) =>
    show Parser.run ⟨.key [] true, stack⟩ (memberTokens (m :: d) ++ [.closeObj] ++ rest) = _
    rw [List.append_assoc]
    exact run_memberTokens (m :: d) (List.cons_ne_nil m d) hv.2 [] true hv.1 stack rest

theorem run_elemTokens (vs : List Value) (hne : vs ≠ []) (hvs : validElems vs)
    (before : List Value) (stack : List Frame) (rest : List Token) :
    Parser.run ⟨.value, .elem before :: stack⟩ (elemTokens vs ++ .closeArr :: rest)
      = Parser.run ⟨.closing (.arr (before ++ vs)), stack⟩ rest := by
  match vs with
  | [] => exact absurd rfl hne
  | [v] =>
    show Parser.run ⟨.value, .elem before :: stack⟩ (v.tokens ++ .closeArr :: rest) = _
    rw [run_tokens v hvs.1]
    rfl
  | v :: v' :: vs =>
    show Parser.run ⟨.value, .elem before :: stack⟩
      (v.tokens ++ .comma :: elemTokens (v' :: vs) ++ .closeArr :: rest) = _
    rw [List.append_assoc, run_tokens v hvs.1]
    show Parser.run ⟨.value, .elem (before ++ [v]) :: stack⟩
      (elemTokens (v' :: vs) ++ .closeArr :: rest) = _
    rw [run_elemTokens (v' :: vs) (List.cons_ne_nil v' vs) hvs.2, List.append_assoc]
    rfl

theorem run_memberTokens (d : List (Text × Value)) (hne : d ≠ []) (hd : validMembers d)
    (before : List (Text × Value)) (first : Bool) (hkeys : ((before ++ d).map Prod.fst).Nodup)
    (stack : List Frame) (rest : List Token) :
    Parser.run ⟨.key before first, stack⟩ (memberTokens d ++ .closeObj :: rest)
      = Parser.run ⟨.closing (.obj (before ++ d)), stack⟩ rest := by
  have hfresh : ∀ k v d', d = (k, v) :: d' → k ∉ before.map Prod.fst := by
    rintro k v d' rfl hmem
    rw [List.map_append, List.nodup_append] at hkeys
    exact hkeys.2.2 k hmem k (by simp) rfl
  match d with
  | [] => exact absurd rfl hne
  | [(k, v)] =>
    show Parser.run ⟨.value, .member before k :: stack⟩ (v.tokens ++ .closeObj :: rest) = _
    rw [run_tokens v hd.1]
    show Parser.run ⟨.closing (.obj (setKey before k v)), stack⟩ rest = _
    rw [setKey_of_notMem (hfresh k v _ rfl)]
  | (k, v) :: m :: d =>
    show Parser.run ⟨.value, .member before k :: stack⟩
      (v.tokens ++ .comma :: memberTokens (m :: d) ++ .closeObj :: rest) = _
    rw [List.append_assoc, run_tokens v hd.1]
    show Parser.run ⟨.key (setKey before k v) false, stack⟩
      (memberTokens (m :: d) ++ .closeObj :: rest) = _
    rw [setKey_of_notMem (hfresh k v _ rfl),
      run_memberTokens (m :: d) (List.cons_ne_nil m d) hd.2 _ false (by simpa using hkeys),
      List.append_assoc]
    rfl

end

/-- **What was written is read back.** -/
theorem loads_dumps {v : Value} (hv : v.Valid) : loads (dumps v) = some v := by
  have hrun := run_tokens v hv [] []
  rw [List.append_nil] at hrun
  rw [loads, lex_dumps, Option.bind_some, hrun]
  rfl


/-! ## What is read is well formed -/

theorem validElems_append {vs ws : List Value} :
    validElems (vs ++ ws) ↔ validElems vs ∧ validElems ws := by
  induction vs with
  | nil => simp [validElems]
  | cons v vs ih => simp only [List.cons_append, validElems, ih, and_assoc]

theorem mem_keys_setKey {d : List (Text × Value)} {k k' : Text} {v : Value}
    (h : k' ∈ (setKey d k v).map Prod.fst) : k' = k ∨ k' ∈ d.map Prod.fst := by
  induction d with
  | nil => simpa [setKey] using h
  | cons m d ih =>
    rw [setKey] at h
    split at h
    · simp only [List.map_cons, List.mem_cons] at h ⊢
      exact h.imp_right .inr
    · simp only [List.map_cons, List.mem_cons] at h ⊢
      rcases h with h | h
      · exact .inr (.inl h)
      · exact (ih h).imp_right .inr

/-- Setting a key keeps an object well formed. -/
theorem valid_setKey {d : List (Text × Value)} {k : Text} {v : Value} (hd : (Value.obj d).Valid)
    (hv : v.Valid) : (Value.obj (setKey d k v)).Valid := by
  induction d with
  | nil => exact ⟨by simp [setKey], hv, trivial⟩
  | cons m d ih =>
    obtain ⟨k', v'⟩ := m
    obtain ⟨hkeys, hv', hd⟩ := hd
    rw [List.map_cons, List.nodup_cons] at hkeys
    rw [setKey]
    split
    · next hk =>
      subst hk
      exact ⟨by rw [List.map_cons, List.nodup_cons]; exact hkeys, hv, hd⟩
    · next hk =>
      obtain ⟨hkeys', hd'⟩ := ih ⟨hkeys.2, hd⟩
      refine ⟨?_, hv', hd'⟩
      rw [List.map_cons, List.nodup_cons]
      exact ⟨fun hmem => (mem_keys_setKey hmem).elim hk hkeys.1, hkeys'⟩

section Good

variable (P : Text → Prop)

/-- The members of a well formed object whose keys all satisfy `P`. -/
def GoodMembers (d : List (Text × Value)) : Prop :=
  (Value.obj d).Valid ∧ ∀ k ∈ d.map Prod.fst, P k

def Value.Good (v : Value) : Prop := v.Valid ∧ ∀ d, v = .obj d → ∀ k ∈ d.map Prod.fst, P k

def Frame.Good : Frame → Prop
  | .elem before => validElems before
  | .member before k => GoodMembers P before ∧ P k

def Due.Good : Due → Prop
  | .key before _ => GoodMembers P before
  | .colon before k => GoodMembers P before ∧ P k
  | .closing v => v.Good P
  | _ => True

def Parser.Good (p : Parser) : Prop := p.due.Good P ∧ ∀ f ∈ p.stack, f.Good P

variable {P}

theorem goodMembers_nil : GoodMembers P [] := ⟨⟨List.nodup_nil, trivial⟩, nofun⟩

theorem GoodMembers.setKey {d : List (Text × Value)} {k : Text} {v : Value} (hd : GoodMembers P d)
    (hk : P k) (hv : v.Good P) : GoodMembers P (setKey d k v) :=
  ⟨valid_setKey hd.1 hv.1, fun k' hk' => (mem_keys_setKey hk').elim (fun h => h ▸ hk) (hd.2 k')⟩

theorem GoodMembers.obj {d : List (Text × Value)} (hd : GoodMembers P d) :
    (Value.obj d).Good P := by
  refine ⟨hd.1, fun d' h => ?_⟩
  cases h
  exact hd.2

theorem good_arr {vs : List Value} (h : validElems vs) : (Value.arr vs).Good P := ⟨h, nofun⟩

theorem good_readWord {w : Text} {v : Value} (h : readWord w = some v) : v.Good P := by
  unfold readWord at h
  split_ifs at h <;> cases h <;> exact ⟨trivial, nofun⟩

theorem good_startValue {stack : List Frame} {tok : Token} {q : Parser}
    (hstack : ∀ f ∈ stack, f.Good P) (h : startValue stack tok = some q) : q.Good P := by
  cases tok with
  | openObj => cases h; exact ⟨goodMembers_nil, hstack⟩
  | openArr => cases h; exact ⟨trivial, hstack⟩
  | word w =>
    obtain ⟨v, hv, rfl⟩ := Option.map_eq_some_iff.mp h
    exact ⟨good_readWord hv, hstack⟩
  | str t => cases h; exact ⟨⟨trivial, nofun⟩, hstack⟩
  | _ => cases h

/-- **One token keeps the parser good**, when it is no text or a text with `P`. -/
theorem Parser.good_step {p q : Parser} {tok : Token} (htok : ∀ t, tok = .str t → P t)
    (hp : p.Good P) (h : p.step tok = some q) : q.Good P := by
  obtain ⟨due, stack⟩ := p
  obtain ⟨hdue, hstack⟩ := hp
  cases due with
  | value => exact good_startValue hstack h
  | firstElem =>
    by_cases hclose : tok = .closeArr
    · subst hclose
      cases h
      exact ⟨good_arr trivial, hstack⟩
    · have hstart : startValue (.elem [] :: stack) tok = some q := by
        cases tok <;> first | exact h | exact absurd rfl hclose
      have hnil : (Frame.elem []).Good P := trivial
      exact good_startValue (List.forall_mem_cons.mpr ⟨hnil, hstack⟩) hstart
  | key before first =>
    cases tok with
    | str k => cases h; exact ⟨⟨hdue, htok k rfl⟩, hstack⟩
    | closeObj =>
      cases first with
      | true => cases h; exact ⟨goodMembers_nil.obj, hstack⟩
      | false => cases h
    | _ => cases first <;> cases h
  | colon before k =>
    cases tok with
    | colon => cases h; exact ⟨trivial, List.forall_mem_cons.mpr ⟨hdue, hstack⟩⟩
    | _ => cases h
  | closing v =>
    cases stack with
    | nil => cases h
    | cons f stack =>
      obtain ⟨hf, htail⟩ := List.forall_mem_cons.mp hstack
      cases f with
      | elem before =>
        have hvs : validElems (before ++ [v]) := validElems_append.mpr ⟨hf, hdue.1, trivial⟩
        cases tok with
        | comma => cases h; exact ⟨trivial, List.forall_mem_cons.mpr ⟨hvs, htail⟩⟩
        | closeArr => cases h; exact ⟨good_arr hvs, htail⟩
        | _ => cases h
      | member before k =>
        have hd : GoodMembers P (JsonText.setKey before k v) := hf.1.setKey hf.2 hdue
        cases tok with
        | comma => cases h; exact ⟨hd, htail⟩
        | closeObj => cases h; exact ⟨hd.obj, htail⟩
        | _ => cases h

theorem Parser.good_run {p q : Parser} {ts : List Token} (hts : ∀ t, .str t ∈ ts → P t)
    (hp : p.Good P) (h : p.run ts = some q) : q.Good P := by
  induction ts generalizing p with
  | nil =>
    cases h
    exact hp
  | cons tok ts ih =>
    obtain ⟨r, hr, h⟩ := Option.bind_eq_some_iff.mp h
    have htok : ∀ t, tok = .str t → P t := fun t ht => hts t (by simp [ht])
    exact ih (fun t ht => hts t (List.mem_cons_of_mem _ ht)) (Parser.good_step htok hp hr) h

/-- A value that is read from tokens whose texts all satisfy `P`. -/
theorem good_of_loads {t : Text} {ts : List Token} {v : Value} (hlex : lex t = some ts)
    (hts : ∀ u, .str u ∈ ts → P u) (h : loads t = some v) : v.Good P := by
  rw [loads, hlex, Option.bind_some] at h
  obtain ⟨q, hq, hfinish⟩ := Option.bind_eq_some_iff.mp h
  obtain ⟨hdue, -⟩ := Parser.good_run hts (p := ⟨.value, []⟩) ⟨trivial, nofun⟩ hq
  unfold Parser.finish at hfinish
  split at hfinish
  · next hclosing _ =>
    cases hfinish
    rwa [hclosing] at hdue
  · cases hfinish

end Good

/-- **What is read is well formed.** -/
theorem valid_of_loads {t : Text} {v : Value} (h : loads t = some v) : v.Valid := by
  obtain ⟨ts, hts, -⟩ := Option.bind_eq_some_iff.mp h
  exact (good_of_loads (P := fun _ => True) hts (fun _ _ => trivial) h).1

/-! ## Integers -/

def digitChar (d : Nat) : CodePoint := Fin.ofNat _ (0x30 + d % 10)

/-- `str(n)`. -/
def decimal (n : Nat) : Text := if n = 0 then Py.lit "0" else (Nat.digits 10 n).reverse.map digitChar

theorem val_digitChar (d : Nat) : (digitChar d).val = 0x30 + d % 10 :=
  Nat.mod_eq_of_lt (by omega)

theorem isDigit_digitChar (d : Nat) : isDigit (digitChar d) = true := by
  simp only [isDigit, val_digitChar, Bool.and_eq_true, decide_eq_true_eq]
  omega

theorem isUnsigned_decimal (n : Nat) : isUnsigned (decimal n) = true := by
  unfold decimal
  split
  · decide
  · next hn =>
    have hne : Nat.digits 10 n ≠ [] := Nat.digits_ne_nil_iff_ne_zero.mpr hn
    -- the leading digit is the last one that `Nat.digits` gives, and no zero
    obtain ⟨ds, d, hds⟩ := List.eq_nil_or_concat (Nat.digits 10 n) |>.resolve_left hne
    have hd : d ≠ 0 := by
      have := Nat.getLast_digit_ne_zero 10 hn
      simpa [hds] using this
    have hlt : d < 10 := Nat.digits_lt_base (by omega) (m := n) (by simp [hds])
    have hzero : digitChar d ≠ Py.ofChar '0' := by
      intro h
      have hval : 0x30 + d % 10 = 0x30 := (val_digitChar d).symm.trans (congrArg Fin.val h)
      omega
    have hall : (ds.reverse.map digitChar).dropWhile isDigit = [] := by
      rw [List.dropWhile_eq_nil_iff]
      intro c hc
      obtain ⟨e, -, rfl⟩ := List.mem_map.mp hc
      exact isDigit_digitChar e
    rw [hds, List.concat_eq_append, List.reverse_append, List.reverse_singleton,
      List.singleton_append, List.map_cons, isUnsigned, if_neg hzero, isDigit_digitChar, hall]
    rfl

theorem isNumber_int (n : Int) :
    isNumber (if n < 0 then Py.ofChar '-' :: decimal n.natAbs else decimal n.natAbs) = true := by
  have hunsigned := isUnsigned_decimal n.natAbs
  split
  · simp [isNumber, hunsigned]
  · have hhead : (decimal n.natAbs).head? ≠ some (Py.ofChar '-') := by
      intro hhead
      cases hdec : decimal n.natAbs with
      | nil => simp [hdec] at hhead
      | cons c t =>
        rw [hdec, List.head?_cons, Option.some.injEq] at hhead
        subst hhead
        have hdigit : isDigit (Py.ofChar '-') = false := by decide
        rw [hdec, isUnsigned, if_neg (by decide), hdigit] at hunsigned
        cases hunsigned
    simp [isNumber, hhead, hunsigned]

/-- An `int`. -/
def Number.ofInt (n : Int) : Number := ⟨_, isNumber_int n⟩

/-! ## No control characters -/

theorem val_of_mem_escapeChar {c d : CodePoint} (h : d ∈ escapeChar c) : 0x20 ≤ d.val := by
  have hlit : ∀ l : Text, l.all (fun d => decide (0x20 ≤ d.val)) = true → d ∈ l → 0x20 ≤ d.val :=
    fun l hl hd => of_decide_eq_true (List.all_eq_true.mp hl d hd)
  have hhex : ∀ n, n < 16 → 0x20 ≤ (hexDigit n).val := by decide
  unfold escapeChar at h
  split at h
  · next hq =>
    rcases List.mem_cons.mp h with rfl | h
    · decide
    · obtain rfl := List.mem_singleton.mp h
      rcases hq with rfl | rfl <;> decide
  · split_ifs at h with h8 h9 h10 h12 h13 h32
    · exact hlit _ (by decide) h
    · exact hlit _ (by decide) h
    · exact hlit _ (by decide) h
    · exact hlit _ (by decide) h
    · exact hlit _ (by decide) h
    · rcases List.mem_append.mp h with h | h
      · exact hlit _ (by decide) h
      · simp only [List.mem_cons, List.not_mem_nil, or_false] at h
        rcases h with rfl | rfl
        · exact hhex _ (by omega)
        · exact hhex _ (by omega)
    · obtain rfl := List.mem_singleton.mp h
      omega

theorem val_of_isWordChar {c : CodePoint} (h : isWordChar c = true) : 0x20 ≤ c.val := by
  rw [isWordChar, Bool.or_eq_true] at h
  rcases h with h | h
  · simp only [isDigit, Bool.and_eq_true, decide_eq_true_eq] at h
    omega
  · have hall : (Py.lit "+-.EINaefilnrstuy").all (fun d => decide (0x20 ≤ d.val)) = true := by decide
    exact of_decide_eq_true (List.all_eq_true.mp hall c (of_decide_eq_true h))

theorem val_of_mem_textOf {ts : List Token} {b : Bool} (h : Readable b ts) {c : CodePoint}
    (hc : c ∈ textOf ts) : 0x20 ≤ c.val := by
  have hlit : ∀ l : Text, l.all (fun d => decide (0x20 ≤ d.val)) = true → c ∈ l → 0x20 ≤ c.val :=
    fun l hl hd => of_decide_eq_true (List.all_eq_true.mp hl c hd)
  induction ts generalizing b with
  | nil => cases hc
  | cons tok ts ih =>
    rw [textOf, List.flatMap_cons] at hc
    rcases List.mem_append.mp hc with hhere | hlater
    · cases tok with
      | word w => exact val_of_isWordChar (List.all_eq_true.mp h.2.1.2 c hhere)
      | str t =>
        rcases List.mem_cons.mp hhere with rfl | hin
        · decide
        · rcases List.mem_append.mp hin with hin | hin
          · obtain ⟨d, -, hd⟩ := List.mem_flatMap.mp hin
            exact val_of_mem_escapeChar hd
          · obtain rfl := List.mem_singleton.mp hin
            decide
      | _ => exact hlit _ (by decide) hhere
    · cases tok with
      | word w => exact ih h.2.2 hlater
      | _ => exact ih (b := false) h hlater

/-- **JSON text holds no control character.** -/
theorem val_of_mem_dumps {v : Value} {c : CodePoint} (h : c ∈ dumps v) : 0x20 ≤ c.val :=
  val_of_mem_textOf (readable_value v) h


/-! ## Documents -/

/-- What `json.loads` can answer with. -/
abbrev Document := {v : Value // v.Valid}

/-- A Python `dict` of JSON values. -/
structure JsonDict where
  members : List (Text × Value)
  valid : (Value.obj members).Valid

def JsonDict.empty : JsonDict := ⟨[], List.nodup_nil, trivial⟩

/-- The document as a `dict`, when `isinstance(v, dict)`. -/
def Document.dict? : Document → Option JsonDict
  | ⟨.obj d, h⟩ => some ⟨d, h⟩
  | _ => none

theorem valid_of_lookup {d : List (Text × Value)} (hd : validMembers d) {k : Text} {v : Value}
    (h : d.lookup k = some v) : v.Valid := by
  induction d with
  | nil => cases h
  | cons m d ih =>
    rw [List.lookup_cons] at h
    split at h
    · cases h
      exact hd.1
    · exact ih hd.2 h

/-- `d.get(k)`. -/
def JsonDict.get? (d : JsonDict) (k : Text) : Option Document :=
  (d.members.lookup k).pmap Subtype.mk fun _ h => valid_of_lookup d.valid.2 h

theorem JsonDict.get?_eq_some_iff {d : JsonDict} {k : Text} {v : Document} :
    d.get? k = some v ↔ d.members.lookup k = some v.1 := by
  rw [JsonDict.get?, Option.pmap_eq_some_iff]
  constructor
  · rintro ⟨w, -, hw, rfl⟩
    exact hw
  · exact fun h => ⟨v.1, v.2, h, rfl⟩

theorem JsonDict.get?_eq_none_iff {d : JsonDict} {k : Text} :
    d.get? k = none ↔ d.members.lookup k = none := by
  rw [JsonDict.get?, Option.pmap_eq_none_iff]

/-- `json.loads(t)`, as a document. -/
def loadsDocument (t : Text) : Option Document :=
  (loads t).pmap Subtype.mk fun _ h => valid_of_loads h

theorem loadsDocument_eq_some_iff {t : Text} {v : Document} :
    loadsDocument t = some v ↔ loads t = some v.1 := by
  rw [loadsDocument, Option.pmap_eq_some_iff]
  constructor
  · rintro ⟨w, -, hw, rfl⟩
    exact hw
  · exact fun h => ⟨v.1, v.2, h, rfl⟩

theorem loadsDocument_eq_none_iff {t : Text} : loadsDocument t = none ↔ loads t = none := by
  rw [loadsDocument, Option.pmap_eq_none_iff]

end JsonText
