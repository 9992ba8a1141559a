import Mathlib.Data.List.Infix
import Mathlib.Data.List.DropRight
import Mathlib.Data.Fin.Basic

/-!
# Python strings and text files

A Python string is a list of code points, lone surrogates among them, so not every string has a
UTF-8 encoding. A text file is read with universal newlines: `\r\n` and `\r` come back as `\n`.

* `strip`, `rstrip`, `splitLines`, `joinLines`, `nonspace` — the string methods
* `encode`, `decode` — strict UTF-8
* `decode_encode`, `encode_of_decode` — the two are inverse to each other
* `readText_encode` — what is read back of a text that was written
-/

namespace Py

/-- A code point; the surrogates are code points too. -/
abbrev CodePoint := Fin 1114112

abbrev Text := List CodePoint

instance neZeroCodePoints : @NeZero Nat Zero.ofOfNat0 1114112 := ⟨by decide⟩

instance (c : CodePoint) (t : Text) : Decidable (c ∈ t) := inferInstance

instance (t : Text) (ts : List Text) : Decidable (t ∈ ts) := inferInstance

/-- The code point of a character. -/
def ofChar (c : Char) : CodePoint :=
  ⟨c.toNat, by rcases c.valid with h | h <;> simp only [Char.toNat, UInt32.toNat] at * <;> omega⟩

/-- A text that is written in the source. -/
def lit (s : String) : Text := s.toList.map ofChar

def newline : CodePoint := ofChar '\n'

def carriageReturn : CodePoint := ofChar '\r'

/-- `c.isspace()`. -/
def isSpace (c : CodePoint) : Bool :=
  let n := c.val
  (0x09 ≤ n && n ≤ 0x0D) || (0x1C ≤ n && n ≤ 0x20) || n == 0x85 || n == 0xA0 || n == 0x1680
    || (0x2000 ≤ n && n ≤ 0x200A) || n == 0x2028 || n == 0x2029 || n == 0x202F || n == 0x205F
    || n == 0x3000

/-- `s.lstrip()`. -/
def lstrip (t : Text) : Text := t.dropWhile isSpace

/-- `s.rstrip()`. -/
def rstrip (t : Text) : Text := t.rdropWhile isSpace

/-- `s.strip()`. -/
def strip (t : Text) : Text := rstrip (lstrip t)

/-- `s.split("\n")`. -/
def splitLines (t : Text) : List Text := t.splitOn newline

/-- `"\n".join(lines)`. -/
def joinLines (lines : List Text) : Text := [newline].intercalate lines

/-- `"".join(s.split())`. -/
def nonspace (t : Text) : Text := ((t.splitOnP isSpace).filter (· ≠ [])).flatten

/-- `s.startswith(p)`. -/
def startsWith (t p : Text) : Bool := p.isPrefixOf t

/-- `s.endswith(p)`. -/
def endsWith (t p : Text) : Bool := p.isSuffixOf t

/-- `p in s`. -/
def contains (t p : Text) : Bool := t.tails.any fun u => p.isPrefixOf u

/-- The lower case of one code point, exact where an ASCII one is in it. -/
def lowerCode (c : CodePoint) : Text :=
  if c.val = 0x130 then [ofChar 'i', Fin.ofNat _ 0x307]
  else if c.val = 0x212A then [ofChar 'k']
  else if 0x41 ≤ c.val ∧ c.val ≤ 0x5A then [Fin.ofNat _ (c.val + 0x20)]
  else [c]

/-- `s.lower()`, as far as ASCII text or text without case is looked for in it. -/
def lower (t : Text) : Text := t.flatMap lowerCode

/-- `s.replace(a, b)` for two characters. -/
def replaceChar (a b : CodePoint) (t : Text) : Text := t.map fun c => if c = a then b else c

theorem contains_iff {t p : Text} : contains t p = true ↔ p <:+: t := by
  simp only [contains, List.any_eq_true, List.mem_tails, List.isPrefixOf_iff_prefix,
    List.infix_iff_prefix_suffix, and_comm]

theorem lower_append (t u : Text) : lower (t ++ u) = lower t ++ lower u := List.flatMap_append

/-! ### White space -/

/-- Stripping on the left stops at what does not start with white space. -/
theorem lstrip_append {a t : Text} (h : ∀ c, t.head? = some c → isSpace c = false) :
    lstrip (a ++ t) = lstrip a ++ t := by
  have ht : t.dropWhile isSpace = t := by
    cases t with
    | nil => rfl
    | cons c t => rw [List.dropWhile_cons_of_neg (by simp [h c rfl])]
  unfold lstrip
  rw [List.dropWhile_append]
  split
  · next he => rw [ht, List.isEmpty_iff.mp he, List.nil_append]
  · rfl

/-- Stripping on the right stops at what does not end with white space. -/
theorem rstrip_append {a t : Text} (h : ∀ c, t.getLast? = some c → isSpace c = false) :
    rstrip (t ++ a) = t ++ rstrip a := by
  have hrev := lstrip_append (a := a.reverse) (t := t.reverse) (by rwa [List.head?_reverse])
  have hleft : rstrip (t ++ a) = (lstrip (a.reverse ++ t.reverse)).reverse := by
    rw [rstrip, List.rdropWhile, List.reverse_append]; rfl
  rw [hleft, hrev, List.reverse_append, List.reverse_reverse]
  rfl

/-- A text is its `strip` with white space around it. -/
theorem exists_strip (t : Text) :
    ∃ l r, t = l ++ strip t ++ r ∧ (∀ c ∈ l, isSpace c = true) ∧ ∀ c ∈ r, isSpace c = true := by
  refine ⟨t.takeWhile isSpace, (lstrip t).rtakeWhile isSpace, ?_, ?_, ?_⟩
  · unfold strip rstrip
    rw [List.append_assoc, List.rdropWhile_append_rtakeWhile]
    exact (List.takeWhile_append_dropWhile).symm
  · exact fun c hc => List.mem_takeWhile_imp hc
  · exact fun c hc => List.mem_rtakeWhile_imp hc

/-- A text is blank when all of it is white space. -/
theorem strip_eq_nil_iff {t : Text} : strip t = [] ↔ ∀ c ∈ t, isSpace c = true := by
  constructor
  · intro h c hc
    obtain ⟨l, r, ht, hl, hr⟩ := exists_strip t
    rw [ht, h, List.append_nil, List.mem_append] at hc
    exact hc.elim (hl c) (hr c)
  · intro h
    have hleft : lstrip t = [] := List.dropWhile_eq_nil_iff.mpr h
    rw [strip, hleft]
    rfl

theorem flatten_splitOnP (p : CodePoint → Bool) (t : Text) :
    (t.splitOnP p).flatten = t.filter (fun c => !p c) := by
  induction t with
  | nil => rfl
  | cons c t ih =>
    rw [List.splitOnP_cons_eq_if_modifyHead]
    by_cases hc : p c = true
    · rw [if_pos hc, List.flatten_cons, List.nil_append, ih, List.filter_cons_of_neg (by simp [hc])]
    · rw [if_neg hc, List.filter_cons_of_pos (by simp [hc]), ← ih]
      cases h : t.splitOnP p with
      | nil => exact absurd h (List.splitOnP_ne_nil p t)
      | cons w ws => rfl

theorem nonspace_eq_filter (t : Text) : nonspace t = t.filter fun c => !isSpace c := by
  rw [← flatten_splitOnP]
  unfold nonspace
  induction t.splitOnP isSpace with
  | nil => rfl
  | cons w ws ih =>
    by_cases hw : w = []
    · simpa [hw] using ih
    · simpa [hw] using ih

theorem nonspace_append (t u : Text) : nonspace (t ++ u) = nonspace t ++ nonspace u := by
  simp only [nonspace_eq_filter, List.filter_append]

theorem nonspace_of_space {t : Text} (h : ∀ c ∈ t, isSpace c = true) : nonspace t = [] := by
  rw [nonspace_eq_filter, List.filter_eq_nil_iff]
  simpa using h

/-- Dropping white space at the end of a text leaves the rest of it. -/
theorem nonspace_rdropWhile {p : CodePoint → Bool} (hp : ∀ c, p c = true → isSpace c = true)
    (t : Text) : nonspace (t.rdropWhile p) = nonspace t := by
  conv_rhs => rw [← List.rdropWhile_append_rtakeWhile (p := p) (l := t), nonspace_append]
  rw [nonspace_of_space fun c hc => hp c (List.mem_rtakeWhile_imp hc), List.append_nil]

theorem nonspace_joinLines (lines : List Text) :
    nonspace (joinLines lines) = (lines.map nonspace).flatten := by
  unfold joinLines
  induction lines with
  | nil => rfl
  | cons l ls ih =>
    cases ls with
    | nil => simp [List.intercalate]
    | cons l' ls =>
      have hnl : nonspace [newline] = [] := by decide
      rw [List.intercalate_cons_cons, nonspace_append, nonspace_append, hnl, List.append_nil, ih]
      rfl

theorem joinLines_splitLines (t : Text) : joinLines (splitLines t) = t :=
  List.intercalate_splitOn newline

/-- Every line but the last ends in a newline. -/
theorem joinLines_concat (lines : List Text) (last : Text) :
    joinLines (lines ++ [last]) = lines.flatMap (· ++ [newline]) ++ last := by
  induction lines with
  | nil => simp [joinLines, List.intercalate_singleton]
  | cons line lines ih =>
    cases lines with
    | nil => simp [joinLines, List.intercalate_cons_cons, List.intercalate_singleton]
    | cons next rest =>
      rw [List.flatMap_cons, List.append_assoc, List.append_assoc, ← ih, List.cons_append,
        List.cons_append, joinLines, joinLines, List.intercalate_cons_cons]
      simp

/-! ## Encoding -/

/-- A code point that is not a surrogate. -/
def toChar? (c : CodePoint) : Option Char :=
  if c.val.isValidChar then some (Char.ofNat c.val) else none

def isSurrogate (c : CodePoint) : Bool := (toChar? c).isNone

/-- `s.encode("utf-8")`; `none` is the `UnicodeEncodeError`. -/
def encode (t : Text) : Option ByteArray :=
  (t.mapM toChar?).map fun cs => (cs.flatMap String.utf8EncodeChar).toByteArray

/-- `b.decode("utf-8")`; `none` is the `UnicodeDecodeError`. -/
def decode (b : ByteArray) : Option Text := b.utf8Decode?.map fun cs => cs.toList.map ofChar

theorem toChar?_ofChar (c : Char) : toChar? (ofChar c) = some c := by
  have h : (ofChar c).val.isValidChar := c.valid
  rw [toChar?, if_pos h]
  exact congrArg some (Char.ofNat_toNat c)

theorem ofChar_of_toChar? {p : CodePoint} {c : Char} (h : toChar? p = some c) : ofChar c = p := by
  unfold toChar? at h
  split at h
  · next hvalid =>
    cases h
    refine Fin.ext ?_
    show (Char.ofNat p.val).toNat = p.val
    rw [Char.ofNat, dif_pos hvalid]
    rfl
  · cases h

theorem mapM_toChar?_ofChar (cs : List Char) : (cs.map ofChar).mapM toChar? = some cs := by
  induction cs with
  | nil => rfl
  | cons c cs ih => simp [List.mapM_cons, toChar?_ofChar, ih]

theorem ofChar_of_mapM {t : Text} {cs : List Char} (h : t.mapM toChar? = some cs) :
    cs.map ofChar = t := by
  induction t generalizing cs with
  | nil => cases h; rfl
  | cons p t ih =>
    simp only [List.mapM_cons, Option.bind_eq_bind, Option.bind_eq_some_iff] at h
    obtain ⟨c, hc, cs', hcs, h⟩ := h
    cases h
    rw [List.map_cons, ofChar_of_toChar? hc, ih hcs]

/-- **What was encoded decodes to itself.** -/
theorem decode_encode {t : Text} {b : ByteArray} (h : encode t = some b) : decode b = some t := by
  unfold encode at h
  obtain ⟨cs, hcs, rfl⟩ := Option.map_eq_some_iff.mp h
  have hdec : ((cs.flatMap String.utf8EncodeChar).toByteArray).utf8Decode? = some cs.toArray :=
    List.utf8Decode?_utf8Encode
  rw [decode, hdec, Option.map_some, ofChar_of_mapM hcs]

/-- **What was decoded encodes to the same bytes.** -/
theorem encode_of_decode {t : Text} {b : ByteArray} (h : decode b = some t) : encode t = some b := by
  unfold decode at h
  obtain ⟨cs, hcs, rfl⟩ := Option.map_eq_some_iff.mp h
  rw [encode, mapM_toChar?_ofChar, Option.map_some, Option.some.injEq]
  have hsome : b.utf8Decode?.isSome = true := by rw [hcs]; rfl
  have hget := ByteArray.utf8Encode_get_utf8Decode? (h := hsome)
  simp only [hcs, Option.get_some] at hget
  exact hget

/-- A text has an encoding when no code point of it is a surrogate. -/
theorem encode_isSome_iff {t : Text} :
    (encode t).isSome = true ↔ ∀ c ∈ t, isSurrogate c = false := by
  rw [encode, Option.isSome_map]
  induction t with
  | nil => simp
  | cons c t ih =>
    cases hc : toChar? c with
    | none => simp [List.mapM_cons, hc, isSurrogate]
    | some d =>
      cases ht : t.mapM toChar? with
      | none =>
        rw [ht] at ih
        simp only [List.mapM_cons, hc, ht, Option.bind_eq_bind, Option.bind_some, Option.bind_none,
          Option.isSome_none, Bool.false_eq_true, false_iff] at ih ⊢
        exact fun h => ih fun c' hc' => h c' (List.mem_cons_of_mem _ hc')
      | some cs =>
        rw [ht] at ih
        simp only [List.mapM_cons, hc, ht, Option.bind_eq_bind, Option.bind_some,
          Option.isSome_some, true_iff, pure] at ih ⊢
        intro c' hc'
        rcases List.mem_cons.mp hc' with rfl | hc'
        · simp [isSurrogate, hc]
        · exact ih c' hc'

/-- Two texts are encoded one after the other. -/
theorem encode_append {t u : Text} {a b : ByteArray} (ht : encode t = some a)
    (hu : encode u = some b) : encode (t ++ u) = some (a ++ b) := by
  obtain ⟨cs, hcs, rfl⟩ := Option.map_eq_some_iff.mp ht
  obtain ⟨ds, hds, rfl⟩ := Option.map_eq_some_iff.mp hu
  rw [encode, List.mapM_append, hcs, hds]
  simp

theorem encode_inj {t u : Text} {b : ByteArray} (h : encode t = some b) (h' : encode u = some b) :
    t = u := Option.some.inj ((decode_encode h).symm.trans (decode_encode h'))

/-! ## Newlines -/

/-- Universal newlines; `afterReturn` says that the character before was a `\r`. -/
def universalNewlines (afterReturn : Bool) : Text → Text
  | [] => []
  | c :: t =>
    if c = newline ∧ afterReturn = true then universalNewlines false t
    else if c = carriageReturn then newline :: universalNewlines true t
    else c :: universalNewlines false t

theorem carriageReturn_notMem_universalNewlines (afterReturn : Bool) (t : Text) :
    carriageReturn ∉ universalNewlines afterReturn t := by
  induction t generalizing afterReturn with
  | nil => simp [universalNewlines]
  | cons c t ih =>
    simp only [universalNewlines]
    split
    · exact ih false
    · split
      · simp [ih, show carriageReturn ≠ newline by decide]
      · next hne => simp [ih, Ne.symm hne]

theorem mem_of_mem_universalNewlines {afterReturn : Bool} {t : Text} {c : CodePoint}
    (h : c ∈ universalNewlines afterReturn t) : c ∈ t ∨ c = newline := by
  induction t generalizing afterReturn with
  | nil => simp [universalNewlines] at h
  | cons d t ih =>
    simp only [universalNewlines] at h
    split at h
    · exact (ih h).imp_left (List.mem_cons_of_mem _)
    · split at h
      · rcases List.mem_cons.mp h with rfl | h
        · exact .inr rfl
        · exact (ih h).imp_left (List.mem_cons_of_mem _)
      · rcases List.mem_cons.mp h with rfl | h
        · exact .inl List.mem_cons_self
        · exact (ih h).imp_left (List.mem_cons_of_mem _)

theorem universalNewlines_append {t : Text} (h : carriageReturn ∉ t) (u : Text) :
    universalNewlines false (t ++ u) = t ++ universalNewlines false u := by
  induction t with
  | nil => rfl
  | cons c t ih =>
    rw [List.mem_cons, not_or] at h
    simp only [List.cons_append, universalNewlines, Bool.false_eq_true, and_false, if_false,
      Ne.symm h.1, ih h.2]

/-- Universal newlines leave a text alone exactly when it has no `\r`. -/
theorem universalNewlines_eq_self_iff {t : Text} :
    universalNewlines false t = t ↔ carriageReturn ∉ t := by
  constructor
  · intro h
    rw [← h]
    exact carriageReturn_notMem_universalNewlines false t
  · intro h
    have happend := universalNewlines_append h []
    rwa [List.append_nil, universalNewlines, List.append_nil] at happend

/-- The text of a file that is read with `read_text`. -/
def readText (b : ByteArray) : Option Text := (decode b).map (universalNewlines false)

/-- A text that was written is read back as it is exactly when it has no `\r`. -/
theorem readText_encode {t : Text} {b : ByteArray} (h : encode t = some b) :
    readText b = some (universalNewlines false t) := by
  rw [readText, decode_encode h, Option.map_some]

theorem readText_some {b : ByteArray} {t : Text} (h : readText b = some t) :
    ∃ u, encode u = some b ∧ t = universalNewlines false u := by
  obtain ⟨u, hu, rfl⟩ := Option.map_eq_some_iff.mp h
  exact ⟨u, encode_of_decode hu, rfl⟩

/-- What is read has no `\r` in it. -/
theorem carriageReturn_notMem_of_readText {b : ByteArray} {t : Text} (h : readText b = some t) :
    carriageReturn ∉ t := by
  obtain ⟨u, -, rfl⟩ := readText_some h
  exact carriageReturn_notMem_universalNewlines false u

/-- What is read can be written. -/
theorem encode_isSome_of_readText {b : ByteArray} {t : Text} (h : readText b = some t) :
    (encode t).isSome = true := by
  obtain ⟨u, hu, rfl⟩ := readText_some h
  have hu' := encode_isSome_iff.mp (Option.isSome_of_eq_some hu)
  refine encode_isSome_iff.mpr fun c hc => ?_
  rcases mem_of_mem_universalNewlines hc with hc | rfl
  · exact hu' c hc
  · decide

end Py
