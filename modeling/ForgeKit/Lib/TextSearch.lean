import ForgeKit.Lib.Json

/-!
# Searching a text as `re.search` does

A pattern is a test at a position: it sees the character before and the text from there on. The
tables of Unicode that go beyond ASCII are not carried over: which characters outside ASCII belong
to a word is a parameter, and `foldCase` is exact for a comparison with ASCII letters.

* `search_iff` — a search finds the positions where the test holds
* `search_append` — text that no match starts in can be left out
-/

namespace TextSearch

/-- `re.IGNORECASE`: the characters that match an ASCII letter, to that letter in lower case. -/
def foldCase (c : Char) : Char :=
  let n := c.toNat
  if 'A'.toNat ≤ n ∧ n ≤ 'Z'.toNat then Char.ofNat (n + 32)
  else if n = 0x130 ∨ n = 0x131 then 'i'
  else if n = 0x17F then 's'
  else if n = 0x212A then 'k'
  else c

/-- `\w`; `other` is the table beyond ASCII. -/
def isWord (other : Char → Bool) (c : Char) : Bool :=
  let n := c.toNat
  if n < 128 then
    ('a'.toNat ≤ n && n ≤ 'z'.toNat) || ('A'.toNat ≤ n && n ≤ 'Z'.toNat)
      || ('0'.toNat ≤ n && n ≤ '9'.toNat) || c == '_'
  else other c

/-- A test at a position. -/
abbrev Test := Option Char → List Char → Bool

/-- `re.search`: the test holds at some position of the text. -/
def search (test : Test) : Test
  | before, [] => test before []
  | before, c :: cs => test before (c :: cs) || search test (some c) cs

/-- `\b`. -/
def boundary (other : Char → Bool) : Test := fun before cs =>
  before.any (isWord other) != cs.head?.any (isWord other)

/-- A literal, case aside. -/
def literalFold (word : String) : Test := fun _ cs => word.toList.isPrefixOf (cs.map foldCase)

/-- A whole word, case aside: `\bword\b`. -/
def wordFold (other : Char → Bool) (word : String) : Test := fun before cs =>
  let n := word.toList.length
  boundary other before cs && literalFold word before cs
    && boundary other ((cs.take n).getLast?.or before) (cs.drop n)

/-! ## Text before a match -/

variable {test : Test}

@[simp] theorem search_nil (before : Option Char) : search test before [] = test before [] := rfl

@[simp] theorem search_cons (before : Option Char) (c : Char) (cs : List Char) :
    search test before (c :: cs) = (test before (c :: cs) || search test (some c) cs) := rfl

/-- **Text that no match starts in can be left out.** -/
theorem search_append {front : List Char} (hfront : ∀ c ∈ front, ∀ before cs, test before (c :: cs) = false)
    (before : Option Char) (cs : List Char) :
    search test before (front ++ cs) = search test (front.getLast?.or before) cs := by
  induction front generalizing before with
  | nil => rfl
  | cons c front ih =>
    rw [List.cons_append, search_cons, hfront c List.mem_cons_self, Bool.false_or,
      ih (fun d hd => hfront d (List.mem_cons_of_mem c hd))]
    congr 1
    cases front with
    | nil => rfl
    | cons d front => rfl

/-- Two characters before the text that the test does not tell apart. -/
theorem search_congr {before before' : Option Char} (h : ∀ cs, test before cs = test before' cs)
    (cs : List Char) : search test before cs = search test before' cs := by
  cases cs with
  | nil => exact h []
  | cons c cs => rw [search_cons, search_cons, h]

theorem literalFold_eq_false {word : String} {w c : Char} (hw : word.toList.head? = some w)
    (hc : foldCase c ≠ w) (before : Option Char) (cs : List Char) :
    literalFold word before (c :: cs) = false := by
  unfold literalFold
  cases hword : word.toList with
  | nil => rw [hword] at hw; cases hw
  | cons v vs =>
    rw [hword] at hw
    obtain rfl := Option.some.inj hw
    rw [List.map_cons, List.isPrefixOf_cons_cons, Bool.and_eq_false_iff]
    exact .inl (beq_false_of_ne (Ne.symm hc))

theorem boundary_congr {other : Char → Bool} {before before' : Option Char}
    (h : before.any (isWord other) = before'.any (isWord other)) (cs : List Char) :
    boundary other before cs = boundary other before' cs := by
  unfold boundary
  rw [h]

/-- A whole word looks at the character before it only as far as it belongs to a word. -/
theorem wordFold_congr {other : Char → Bool} {word : String} (hword : word.toList ≠ [])
    {before before' : Option Char} (h : before.any (isWord other) = before'.any (isWord other))
    (cs : List Char) : wordFold other word before cs = wordFold other word before' cs := by
  unfold wordFold
  rw [boundary_congr h]
  cases cs with
  | nil =>
    have hfalse : ∀ b, literalFold word b [] = false := by
      intro b
      unfold literalFold
      cases hlist : word.toList with
      | nil => exact absurd hlist hword
      | cons v vs => rfl
    simp only [hfalse, Bool.and_false, Bool.false_and]
  | cons c cs =>
    obtain ⟨n, hn⟩ : ∃ n, word.toList.length = n + 1 :=
      Nat.exists_eq_succ_of_ne_zero fun hzero => hword (List.length_eq_zero_iff.mp hzero)
    have hlast : ∀ b : Option Char, (((c :: cs).take (n + 1)).getLast?).or b
        = ((c :: cs).take (n + 1)).getLast? := by
      intro b
      rw [List.take_succ_cons, List.getLast?_cons]
      rfl
    simp only [hn, hlast]
    rfl

/-! ## What a match holds -/

theorem exists_of_search {before : Option Char} {cs : List Char} (h : search test before cs = true) :
    ∃ before' tail, tail <:+ cs ∧ test before' tail = true := by
  induction cs generalizing before with
  | nil => exact ⟨before, [], List.suffix_refl _, h⟩
  | cons c cs ih =>
    rw [search_cons, Bool.or_eq_true] at h
    rcases h with h | h
    · exact ⟨before, c :: cs, List.suffix_refl _, h⟩
    · obtain ⟨before', tail, htail, htest⟩ := ih h
      exact ⟨before', tail, htail.trans (List.suffix_cons _ _), htest⟩

/-- **A search finds the positions where the test holds.** -/
theorem search_iff {before : Option Char} {cs : List Char} :
    search test before cs = true
      ↔ ∃ front back, cs = front ++ back ∧ test (front.getLast?.or before) back = true := by
  induction cs generalizing before with
  | nil =>
    constructor
    · exact fun h => ⟨[], [], rfl, h⟩
    · rintro ⟨front, back, happ, htest⟩
      obtain ⟨rfl, rfl⟩ := List.nil_eq_append_iff.mp happ
      exact htest
  | cons c cs ih =>
    have hlast : ∀ front : List Char, ((c :: front).getLast?).or before
        = front.getLast?.or (some c) := by
      intro front
      cases front with
      | nil => rfl
      | cons d front => rw [List.getLast?_cons_cons, List.getLast?_cons]; rfl
    rw [search_cons, Bool.or_eq_true, ih]
    constructor
    · rintro (h | ⟨front, back, rfl, htest⟩)
      · exact ⟨[], c :: cs, rfl, h⟩
      · exact ⟨c :: front, back, rfl, by rwa [hlast]⟩
    · rintro ⟨front, back, happ, htest⟩
      cases front with
      | nil =>
        obtain rfl : c :: cs = back := happ
        exact .inl htest
      | cons d front =>
        obtain ⟨rfl, rfl⟩ := List.cons.inj happ
        exact .inr ⟨front, back, rfl, by rwa [hlast] at htest⟩

theorem mem_of_literalFold {word : String} {before : Option Char} {cs : List Char}
    (h : literalFold word before cs = true) {w : Char} (hw : w ∈ word.toList) :
    w ∈ cs.map foldCase :=
  (List.isPrefixOf_iff_prefix.mp h).subset hw

/-- The letters of a literal are letters of every text that it is found in. -/
theorem mem_of_search {word : String} (hword : ∀ before cs, test before cs = true →
      literalFold word before cs = true) {before : Option Char} {cs : List Char}
    (h : search test before cs = true) {w : Char} (hw : w ∈ word.toList) : w ∈ cs.map foldCase := by
  obtain ⟨before', tail, htail, htest⟩ := exists_of_search h
  exact (htail.map foldCase).subset (mem_of_literalFold (hword before' tail htest) hw)

end TextSearch
