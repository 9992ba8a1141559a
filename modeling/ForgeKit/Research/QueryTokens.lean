import ForgeKit.Lib.PyCase
import ForgeKit.Lib.Trim
import Mathlib.Data.List.Dedup
import Mathlib.Algebra.Order.Ring.Rat

/-!
# The tokens of research queries (`research/query_canonicalizer.py`)

The core of a token is looked up, cut into its acronyms, or compared with the lexicon up to one edit. A
compound of several acronyms keeps the separators right behind them, with each acronym in its
canonical spelling; a spelling in mixed case is not read back as the acronym that it stands for.

* `segments_cons`, `flatten_segments` — how a token is cut
* `canonicalOf_of_two` — a token with two acronyms becomes a compound
* `rewrite_rewrite_iff` — which tokens are left as they are the second time
-/

namespace ForgeKit.Canonicalizer

open Py (Text CodePoint lit lower)

/-! ## Tables -/

/-- `_ACRONYM_CANONICAL`. -/
def acronymCanonical : List (Text × Text) :=
  [("RAG", "RAG"), ("CAG", "CAG"), ("LLM", "LLM"), ("VLM", "VLM"), ("JWT", "JWT"), ("OSI", "OSI"),
    ("TCP", "TCP"), ("UDP", "UDP"), ("IP", "IP"), ("HTTP", "HTTP"), ("HTTPS", "HTTPS"),
    ("OAUTH", "OAuth"), ("REST", "REST"), ("GRPC", "gRPC"), ("SQL", "SQL"), ("NOSQL", "NoSQL"),
    ("MQTT", "MQTT"), ("ETL", "ETL"), ("ML", "ML"), ("AI", "AI"), ("API", "API"), ("ADR", "ADR"),
    ("SSE", "SSE"), ("WS", "WS"), ("JSON", "JSON"), ("YAML", "YAML"), ("DNS", "DNS"),
    ("CDN", "CDN"), ("S3", "S3"), ("K8S", "K8s"), ("MCP", "MCP")].map fun e => (lit e.1, lit e.2)

/-- `Replacement.source`. -/
inductive Source
  | exact
  | fuzzy
  | korean
  | multitoken
  | mixedCase
  deriving DecidableEq

/-- `_CONFIDENCE_EXACT` and the others. -/
def Source.confidence : Source → ℚ
  | exact | multitoken => 1
  | mixedCase => 4 / 5
  | korean => 7 / 10
  | fuzzy => 3 / 5

/-- `Replacement`. -/
structure Replacement where
  raw : Text
  canonical : Text
  source : Source
  confidence : ℚ := source.confidence

/-! ## Unicode -/

def isAsciiUpper (c : CodePoint) : Bool := 0x41 ≤ c.val && c.val ≤ 0x5A

def isAsciiLower (c : CodePoint) : Bool := 0x61 ≤ c.val && c.val ≤ 0x7A

/-- `_is_hangul`. -/
def isHangul (c : CodePoint) : Bool := 0xAC00 ≤ c.val && c.val ≤ 0xD7A3

/-- The tables that `isupper`, `isalpha`, `isalnum` and `upper` look into, with what they say of ASCII
and of the Hangul syllables. -/
structure Unicode where
  isUpper : CodePoint → Bool
  isAlpha : CodePoint → Bool
  isNumeric : CodePoint → Bool
  upperCode : CodePoint → Text
  isUpper_ascii : ∀ c, c.val < 0x80 → isUpper c = isAsciiUpper c
  isAlpha_ascii : ∀ c, c.val < 0x80 → isAlpha c = (isAsciiUpper c || isAsciiLower c)
  isNumeric_ascii : ∀ c, c.val < 0x80 → isNumeric c = (0x30 ≤ c.val && c.val ≤ 0x39)
  upperCode_ascii : ∀ c, c.val < 0x80 → upperCode c = Py.upperCode c
  isAlpha_hangul : ∀ c, isHangul c = true → isAlpha c = true

namespace Unicode

variable (u : Unicode)

def isAlnum (c : CodePoint) : Bool := u.isAlpha c || u.isNumeric c

def upper (t : Text) : Text := t.flatMap u.upperCode

end Unicode

/-! ## Tokens -/

namespace Unicode

variable (u : Unicode)

def isCore (c : CodePoint) : Bool := u.isAlnum c || isHangul c

/-- `_split_punctuation`. -/
def splitPunctuation (token : Text) : Text × Text × Text :=
  let rest := token.dropWhile fun c => !u.isCore c
  (token.takeWhile fun c => !u.isCore c, rest.rdropWhile fun c => !u.isCore c,
    rest.rtakeWhile fun c => !u.isCore c)

end Unicode

/-- What the three inner loops of `_mixed_case_correct` go over. -/
inductive Kind
  | upper
  | lower
  | other
  deriving DecidableEq

namespace Unicode

variable (u : Unicode)

/-- Which loop starts with a character. -/
def kind (c : CodePoint) : Kind :=
  if u.isUpper c then .upper else if u.isAlpha c then .lower else .other

/-- The loop goes over the character. -/
def goesOn : Kind → CodePoint → Bool
  | .upper, c => u.isUpper c
  | .lower, c => u.isAlpha c && !u.isUpper c
  | .other, c => !u.isAlpha c

/-- What a loop takes, and the segments after it. -/
def scan : Kind → Text → Text × List (Kind × Text)
  | _, [] => ([], [])
  | k, c :: t =>
    if u.goesOn k c then (c :: (scan k t).1, (scan k t).2)
    else ([], (u.kind c, c :: (scan (u.kind c) t).1) :: (scan (u.kind c) t).2)

/-- `segments`; `is_upper_alpha_run` is the kind `upper`. -/
def segments : Text → List (Kind × Text)
  | [] => []
  | c :: t => (u.kind c, c :: (u.scan (u.kind c) t).1) :: (u.scan (u.kind c) t).2

end Unicode

/-- A run of two letters or more that the lexicon has, with its canonical spelling. -/
def acronymOf (segment : Kind × Text) : Option Text :=
  if segment.1 = .upper ∧ 2 ≤ segment.2.length then acronymCanonical.lookup segment.2 else none

namespace Unicode

variable (u : Unicode)

/-- The loop that fills `rebuilt`, from `last_emitted_canonical` on. -/
def rebuild : Bool → List (Kind × Text) → Text
  | _, [] => []
  | last, segment :: segments =>
    match acronymOf segment with
    | some canonical => canonical ++ rebuild true segments
    | none =>
      if segment.1 ≠ .upper ∧ segment.2.all u.isAlpha = false ∧ last = true then
        segment.2 ++ rebuild last segments
      else rebuild false segments

/-- `_mixed_case_correct`. -/
def mixedCaseCorrect (token : Text) : Option Text :=
  if token.length < 3 then none
  else
    match (u.segments token).filterMap acronymOf with
    | [] => none
    | [canonical] => some canonical
    | _ =>
      let result := (u.rebuild false (u.segments token)).rdropWhile (lit "/-_.").contains
      if result = [] then none else some result

end Unicode

/-- The loop of `_edit_distance_at_most_1`, from `skipped` on. -/
def insertsOne : Bool → Text → Text → Bool
  | skipped, a :: short, b :: long =>
    if a ≠ b then !skipped && insertsOne true (a :: short) long
    else insertsOne skipped short long
  | _, _, _ => true

/-- `_edit_distance_at_most_1`. -/
def editDistanceAtMost1 (a b : Text) : Bool :=
  if a = b then true
  else if a.length + 1 < b.length ∨ b.length + 1 < a.length then false
  else if a.length = b.length then (a.zip b).countP (fun e => e.1 ≠ e.2) = 1
  else if a.length < b.length then insertsOne false a b
  else insertsOne false b a

namespace Unicode

variable (u : Unicode)

/-- `_fuzzy_correct`. -/
def fuzzyCorrect (token : Text) : Option Text :=
  match token with
  | [] => none
  | first :: _ =>
    if token.length < 3 then none
    else if (Py.lowerCode first).all u.isAlpha = false then none
    else
      let upper := u.upper token
      let found := acronymCanonical.filter fun e =>
        !decide (e.1.length + 1 < upper.length ∨ upper.length + 1 < e.1.length)
          && e.1.head? == upper.head? && editDistanceAtMost1 e.1 upper
      match (found.map (·.2)).dedup with
      | [canonical] => some canonical
      | _ => none

/-- What the loop over the tokens has for a core, and where it comes from. -/
def canonicalOf (core : Text) : Option (Text × Source) :=
  match acronymCanonical.lookup (u.upper core) with
  | some canonical => some (canonical, .exact)
  | none =>
    match u.mixedCaseCorrect core with
    | some canonical => some (canonical, .mixedCase)
    | none => (u.fuzzyCorrect core).map fun canonical => (canonical, .fuzzy)

/-- The body of the loop over the tokens. -/
def rewriteToken (token : Text) : Text × List Replacement :=
  let (head, core, tail) := u.splitPunctuation token
  if core = [] then (token, [])
  else
    match u.canonicalOf core with
    | some (canonical, source) =>
      (head ++ canonical ++ tail,
        if core ≠ canonical ∨ source = .fuzzy then [{ raw := core, canonical := canonical, source := source }]
        else [])
    | none => (token, [])

/-! ## Segments -/

theorem scan_eq (k : Kind) (t : Text) :
    u.scan k t = (t.takeWhile (u.goesOn k), u.segments (t.dropWhile (u.goesOn k))) := by
  induction t with
  | nil => rfl
  | cons c t ih =>
    rw [scan]
    split
    · next h => rw [ih, List.takeWhile_cons_of_pos h, List.dropWhile_cons_of_pos h]
    · next h =>
      rw [List.takeWhile_cons_of_neg h, List.dropWhile_cons_of_neg h]
      rfl

/-- A segment goes on as far as its loop does. -/
theorem segments_cons (c : CodePoint) (t : Text) :
    u.segments (c :: t) = (u.kind c, c :: t.takeWhile (u.goesOn (u.kind c)))
      :: u.segments (t.dropWhile (u.goesOn (u.kind c))) := by
  rw [segments, scan_eq]

theorem goesOn_kind (c : CodePoint) : u.goesOn (u.kind c) c = true := by
  rw [kind]
  cases hupper : u.isUpper c with
  | true => exact hupper
  | false =>
    cases halpha : u.isAlpha c with
    | true => simp [goesOn, hupper, halpha]
    | false => simp [goesOn, halpha]

/-- The segments, one after the other. -/
theorem segments_induction {P : Text → Prop} (nil : P [])
    (cons : ∀ c t, P (t.dropWhile (u.goesOn (u.kind c))) → P (c :: t)) (t : Text) : P t := by
  induction h : t.length using Nat.strong_induction_on generalizing t with
  | _ n ih =>
    subst h
    cases t with
    | nil => exact nil
    | cons c t =>
      refine cons c t (ih _ ?_ _ rfl)
      exact Nat.lt_succ_of_le (List.dropWhile_suffix _).length_le

theorem flatten_segments (t : Text) : ((u.segments t).map (·.2)).flatten = t := by
  induction t using u.segments_induction with
  | nil => rfl
  | cons c t ih =>
    rw [segments_cons, List.map_cons, List.flatten_cons, ih, List.cons_append,
      List.takeWhile_append_dropWhile]

theorem mem_segments {t : Text} {segment : Kind × Text} (h : segment ∈ u.segments t) :
    segment.2 ≠ [] ∧ ∀ c ∈ segment.2, u.goesOn segment.1 c = true := by
  induction t using u.segments_induction with
  | nil => cases h
  | cons c t ih =>
    rw [segments_cons] at h
    rcases List.mem_cons.mp h with rfl | h
    · refine ⟨List.cons_ne_nil _ _, fun d hd => ?_⟩
      rcases List.mem_cons.mp hd with rfl | hd
      · exact u.goesOn_kind d
      · exact List.mem_takeWhile_imp hd
    · exact ih h

/-- A text that starts with a segment. -/
theorem segments_append {k : Kind} {c : CodePoint} {s rest : Text} (hc : u.kind c = k)
    (hs : ∀ d ∈ s, u.goesOn k d = true) (hrest : ∀ d, rest.head? = some d → u.goesOn k d = false) :
    u.segments (c :: s ++ rest) = (k, c :: s) :: u.segments rest := by
  have htake : (s ++ rest).takeWhile (u.goesOn k) = s := by
    rw [List.takeWhile_append_of_pos hs]
    cases rest with
    | nil => simp
    | cons d rest => rw [List.takeWhile_cons_of_neg (by simp [hrest d rfl]), List.append_nil]
  have hdrop : (s ++ rest).dropWhile (u.goesOn k) = rest := by
    rw [List.dropWhile_append_of_pos hs]
    cases rest with
    | nil => rfl
    | cons d rest => rw [List.dropWhile_cons_of_neg (by simp [hrest d rfl])]
  rw [List.cons_append, segments_cons, hc, htake, hdrop]

theorem kind_eq_of_goesOn {c : CodePoint} (h : u.isAlpha c = true) (h' : u.isUpper c = true)
    {k : Kind} (hk : u.goesOn k c = true) : k = .upper := by
  cases k with
  | upper => rfl
  | lower => simp [goesOn, h'] at hk
  | other => simp [goesOn, h] at hk

/-- Upper-case letters that stand together are in one segment. -/
theorem exists_segment_of_infix {a r b : Text} (hr : r ≠ [])
    (hletters : ∀ c ∈ r, u.isAlpha c = true ∧ u.isUpper c = true) :
    ∃ s, (Kind.upper, s) ∈ u.segments (a ++ r ++ b) ∧ r <:+: s := by
  generalize ht : a ++ r ++ b = t
  induction t using u.segments_induction generalizing a with
  | nil => exact absurd ht (by simp [hr])
  | cons c t ih =>
    rw [segments_cons]
    have hsplit : c :: t.takeWhile (u.goesOn (u.kind c)) ++ t.dropWhile (u.goesOn (u.kind c))
        = a ++ (r ++ b) := by
      rw [List.cons_append, List.takeWhile_append_dropWhile, ← ht, List.append_assoc]
    rcases List.append_eq_append_iff.mp hsplit with ⟨z, ha, hz⟩ | ⟨z, hfirst, hz⟩
    · -- the letters are behind the first segment
      obtain ⟨s, hs, hin⟩ := ih (a := z) (by rw [hz, List.append_assoc])
      exact ⟨s, List.mem_cons_of_mem _ hs, hin⟩
    · cases z with
      | nil =>
        obtain ⟨s, hs, hin⟩ := ih (a := []) (by rw [List.nil_append]; exact hz)
        exact ⟨s, List.mem_cons_of_mem _ hs, hin⟩
      | cons d z =>
        -- the first letter is in the first segment, and so are the others
        have hd : d ∈ c :: t.takeWhile (u.goesOn (u.kind c)) := by
          rw [hfirst]
          exact List.mem_append_right _ List.mem_cons_self
        have hall : ∀ e ∈ c :: t.takeWhile (u.goesOn (u.kind c)), u.goesOn (u.kind c) e = true := by
          intro e he
          rcases List.mem_cons.mp he with rfl | he
          · exact u.goesOn_kind e
          · exact List.mem_takeWhile_imp he
        have hdr : d ∈ r := by
          obtain ⟨e, r, rfl⟩ := List.exists_cons_of_ne_nil hr
          rw [(List.cons.inj hz).1]
          exact List.mem_cons_self
        have hk := u.kind_eq_of_goesOn (hletters d hdr).1 (hletters d hdr).2 (hall d hd)
        rw [hk] at hall hfirst hsplit ⊢
        refine ⟨_, List.mem_cons_self, ?_⟩
        have hc : u.isUpper c = true := hall c List.mem_cons_self
        have hrun : c :: t.takeWhile (u.goesOn .upper) = (c :: t).takeWhile u.isUpper :=
          (List.takeWhile_cons_of_pos hc).symm
        have htext : c :: t = a ++ r ++ b := ht.symm
        have hall' : ∀ e ∈ a ++ r, u.isUpper e = true := by
          intro e he
          rcases List.mem_append.mp he with he | he
          · exact hall e (by rw [hfirst]; exact List.mem_append_left _ he)
          · exact (hletters e he).2
        rw [hrun, htext, List.takeWhile_append_of_pos hall']
        exact (List.suffix_append a r).isInfix.trans (List.prefix_append _ _).isInfix

end Unicode

/-! ## The lexicon -/

/-- The keys that a run of upper-case letters can be. -/
def runs : List Text := (acronymCanonical.map (·.1)).filter fun key => key.all isAsciiUpper

/-- The canonical spelling of a key. -/
def spelled (key : Text) : Text := (acronymCanonical.lookup key).getD key

def isLetter (c : CodePoint) : Bool := isAsciiUpper c || isAsciiLower c

theorem lookup_runs : ∀ key ∈ runs, acronymCanonical.lookup key = some (spelled key)
    ∧ 2 ≤ key.length ∧ key.all isAsciiUpper = true := by decide +kernel

theorem spelled_runs : ∀ key ∈ runs, (spelled key).length = key.length ∧ Py.upper (spelled key) = key
    ∧ (spelled key).all isLetter = true
    ∧ (spelled key = key ∨ (spelled key).any isAsciiLower = true) := by decide +kernel

/-- Behind an acronym in a key there is at most one character. -/
theorem length_of_prefix_tail : ∀ key ∈ acronymCanonical.map (·.1), ∀ run ∈ runs, ∀ s ∈ key.tails,
    run <+: s → s.length < run.length + 2 := by decide +kernel

theorem entries : ∀ e ∈ acronymCanonical, acronymCanonical.lookup e.1 = some e.2
    ∧ Py.upper e.2 = e.1 ∧ e.2 ≠ []
    ∧ e.2.all (fun c => isLetter c || (0x30 ≤ c.val && c.val ≤ 0x39)) = true
    ∧ e.1.all (fun c => c.val < 0x80) = true := by decide +kernel

theorem mem_of_lookup {key canonical : Text} (h : acronymCanonical.lookup key = some canonical) :
    (key, canonical) ∈ acronymCanonical := by
  obtain ⟨l₁, l₂, heq, -⟩ := List.lookup_eq_some_iff.mp h
  rw [heq]
  exact List.mem_append_right _ List.mem_cons_self

theorem letter_lt {c : CodePoint} (h : isLetter c = true) : c.val < 0x80 := by
  simp [isLetter, isAsciiUpper, isAsciiLower] at h
  omega

namespace Unicode

variable (u : Unicode)

theorem isAlpha_of_letter {c : CodePoint} (h : isLetter c = true) : u.isAlpha c = true := by
  rw [u.isAlpha_ascii c (letter_lt h)]
  exact h

theorem isUpper_of_asciiUpper {c : CodePoint} (h : isAsciiUpper c = true) : u.isUpper c = true := by
  rw [u.isUpper_ascii c (letter_lt (by simp [isLetter, h]))]
  exact h

theorem isCore_of_alpha {c : CodePoint} (h : u.isAlpha c = true) : u.isCore c = true := by
  simp [isCore, isAlnum, h]

theorem upper_append (a b : Text) : u.upper (a ++ b) = u.upper a ++ u.upper b := List.flatMap_append

theorem upper_ascii {t : Text} (h : ∀ c ∈ t, c.val < 0x80) : u.upper t = Py.upper t := by
  induction t with
  | nil => rfl
  | cons c t ih =>
    rw [upper, List.flatMap_cons, u.upperCode_ascii c (h c List.mem_cons_self)]
    exact congrArg (Py.upperCode c ++ ·) (ih fun d hd => h d (List.mem_cons_of_mem _ hd))

theorem upper_spelled {key : Text} (h : key ∈ runs) : u.upper (spelled key) = key := by
  obtain ⟨-, hupper, hletters, -⟩ := spelled_runs key h
  rw [u.upper_ascii fun c hc => letter_lt (List.all_eq_true.mp hletters c hc), hupper]

/-! ## Acronyms with their separators -/

/-- The separators at the front. -/
def separator : List (Kind × Text) → Text
  | [] => []
  | segment :: segments =>
    if segment.1 ≠ .upper ∧ segment.2.all u.isAlpha = false then segment.2 ++ separator segments else []

/-- The acronyms of a token, each with the separators right behind it. -/
def parts : List (Kind × Text) → List (Text × Text)
  | [] => []
  | segment :: segments =>
    if (acronymOf segment).isSome then (segment.2, u.separator segments) :: parts segments
    else parts segments

end Unicode

/-- The acronyms in their canonical spelling, with their separators. -/
def compound (parts : List (Text × Text)) : Text := parts.flatMap fun part => spelled part.1 ++ part.2

theorem acronymOf_eq {segment : Kind × Text} {canonical : Text}
    (h : acronymOf segment = some canonical) : segment.1 = .upper ∧ 2 ≤ segment.2.length
      ∧ acronymCanonical.lookup segment.2 = some canonical ∧ canonical = spelled segment.2 := by
  unfold acronymOf at h
  split at h
  · next hrun => exact ⟨hrun.1, hrun.2, h, by rw [spelled, h]; rfl⟩
  · cases h

namespace Unicode

variable (u : Unicode)

theorem rebuild_eq (segments : List (Kind × Text)) :
    u.rebuild false segments = compound (u.parts segments) ∧
      u.rebuild true segments = u.separator segments ++ compound (u.parts segments) := by
  induction segments with
  | nil => exact ⟨rfl, rfl⟩
  | cons segment segments ih =>
    obtain ⟨hfalse, htrue⟩ := ih
    cases h : acronymOf segment with
    | some canonical =>
      obtain ⟨hupper, -, -, rfl⟩ := acronymOf_eq h
      have hcompound : compound (u.parts (segment :: segments))
          = spelled segment.2 ++ (u.separator segments ++ compound (u.parts segments)) := by
        rw [parts, h, Option.isSome_some, if_pos rfl, compound, List.flatMap_cons, List.append_assoc]
        rfl
      have hseparator : u.separator (segment :: segments) = [] := by
        rw [separator, if_neg fun hs => hs.1 hupper]
      rw [rebuild, rebuild, h, htrue, hcompound, hseparator]
      exact ⟨rfl, rfl⟩
    | none =>
      have hparts : u.parts (segment :: segments) = u.parts segments := by
        rw [parts, h]
        rfl
      rw [rebuild, rebuild, h, hparts, separator]
      dsimp only
      refine ⟨by rw [if_neg (by simp), hfalse], ?_⟩
      by_cases hs : segment.1 ≠ .upper ∧ segment.2.all u.isAlpha = false
      · rw [if_pos ⟨hs.1, hs.2, rfl⟩, if_pos hs, htrue, List.append_assoc]
      · rw [if_neg fun h => hs ⟨h.1, h.2.1⟩, if_neg hs, hfalse, List.nil_append]

theorem filterMap_acronymOf (segments : List (Kind × Text)) :
    segments.filterMap acronymOf = (u.parts segments).map fun part => spelled part.1 := by
  induction segments with
  | nil => rfl
  | cons segment segments ih =>
    rw [List.filterMap_cons, parts, ih]
    cases h : acronymOf segment with
    | some canonical =>
      obtain ⟨-, -, -, rfl⟩ := acronymOf_eq h
      rfl
    | none => rfl

theorem mem_segments_kind {t : Text} {segment : Kind × Text} (h : segment ∈ u.segments t) :
    ∃ c s, segment.2 = c :: s ∧ u.kind c = segment.1 := by
  induction t using u.segments_induction with
  | nil => cases h
  | cons c t ih =>
    rw [segments_cons] at h
    rcases List.mem_cons.mp h with rfl | h
    · exact ⟨c, _, rfl, rfl⟩
    · exact ih h

/-- The run of an acronym is one of the lexicon's that are made of letters. -/
theorem mem_runs {t : Text} {segment : Kind × Text} (h : segment ∈ u.segments t)
    (hacronym : (acronymOf segment).isSome = true) : segment.2 ∈ runs := by
  obtain ⟨canonical, hcanonical⟩ := Option.isSome_iff_exists.mp hacronym
  obtain ⟨hupper, -, hlookup, -⟩ := acronymOf_eq hcanonical
  have hentry := mem_of_lookup hlookup
  refine List.mem_filter.mpr ⟨List.mem_map_of_mem hentry, List.all_eq_true.mpr fun c hc => ?_⟩
  have hascii := List.all_eq_true.mp (entries _ hentry).2.2.2.2 c hc
  have hrun := (u.mem_segments h).2 c hc
  rw [hupper] at hrun
  rw [← u.isUpper_ascii c (of_decide_eq_true hascii)]
  exact hrun

/-- A separator: no letters, and no capital at its front. -/
structure IsSeparator (s : Text) : Prop where
  nonalpha : ∀ c ∈ s, u.isAlpha c = false
  head : ∀ c, s.head? = some c → u.kind c = .other

/-- A text that a segment with a character that is no letter can only be. -/
theorem kind_other {t : Text} {segment : Kind × Text} (h : segment ∈ u.segments t)
    (hupper : segment.1 ≠ .upper) (halpha : segment.2.all u.isAlpha = false) :
    segment.1 = .other := by
  cases hk : segment.1 with
  | upper => exact absurd hk hupper
  | other => rfl
  | lower =>
    have hgoes := (u.mem_segments h).2
    rw [hk] at hgoes
    have : segment.2.all u.isAlpha = true := List.all_eq_true.mpr fun c hc => by
      have hc := hgoes c hc
      simp only [goesOn, Bool.and_eq_true] at hc
      exact hc.1
    rw [this] at halpha
    cases halpha

theorem isSeparator_separator {t : Text} {segments : List (Kind × Text)}
    (h : segments ⊆ u.segments t) : u.IsSeparator (u.separator segments) := by
  induction segments with
  | nil =>
    refine ⟨?_, ?_⟩
    · intro c hc
      cases hc
    · intro c hc
      cases hc
  | cons segment segments ih =>
    rw [separator]
    split
    · next hs =>
      have hmem := h List.mem_cons_self
      have hother := u.kind_other hmem hs.1 hs.2
      have hgoes := (u.mem_segments hmem).2
      rw [hother] at hgoes
      refine ⟨fun c hc => ?_, fun c hc => ?_⟩
      · rcases List.mem_append.mp hc with hc | hc
        · simpa [goesOn] using hgoes c hc
        · exact (ih fun x hx => h (List.mem_cons_of_mem _ hx)).nonalpha c hc
      · obtain ⟨d, s, heq, hkind⟩ := u.mem_segments_kind hmem
        rw [heq] at hc
        obtain rfl := Option.some.inj hc
        rw [hkind, hother]
    · refine ⟨?_, ?_⟩
      · intro c hc
        cases hc
      · intro c hc
        cases hc

/-- The parts of a token. -/
structure IsPart (part : Text × Text) : Prop where
  run : part.1 ∈ runs
  separator : u.IsSeparator part.2

theorem isPart_parts {t : Text} {segments : List (Kind × Text)} (h : segments ⊆ u.segments t)
    {part : Text × Text} (hpart : part ∈ u.parts segments) : u.IsPart part := by
  induction segments with
  | nil => cases hpart
  | cons segment segments ih =>
    have hrest := ih fun x hx => h (List.mem_cons_of_mem _ hx)
    rw [parts] at hpart
    split at hpart
    · next hacronym =>
      rcases List.mem_cons.mp hpart with rfl | hpart
      · exact ⟨u.mem_runs (h List.mem_cons_self) hacronym,
          u.isSeparator_separator fun x hx => h (List.mem_cons_of_mem _ hx)⟩
      · exact hrest hpart
    · exact hrest hpart

end Unicode

theorem spelled_ne_nil {key : Text} (h : key ∈ runs) : spelled key ≠ [] := by
  intro hnil
  have hlen := (spelled_runs key h).1
  have htwo := (lookup_runs key h).2.1
  rw [hnil, List.length_nil] at hlen
  omega

theorem isLetter_of_mem_spelled {key : Text} (h : key ∈ runs) {c : CodePoint} (hc : c ∈ spelled key) :
    isLetter c = true := List.all_eq_true.mp (spelled_runs key h).2.2.1 c hc

theorem compound_cons (part : Text × Text) (parts : List (Text × Text)) :
    compound (part :: parts) = spelled part.1 ++ (part.2 ++ compound parts) := by
  rw [compound, List.flatMap_cons, List.append_assoc]
  rfl

theorem compound_append (parts more : List (Text × Text)) :
    compound (parts ++ more) = compound parts ++ compound more := List.flatMap_append

/-- What is taken off the end of a compound. -/
def isTrailing (c : CodePoint) : Bool := (lit "/-_.").contains c

/-- A compound without what is taken off its end. -/
def trimmed (t : Text) : Text := t.rdropWhile isTrailing

namespace Unicode

variable (u : Unicode)

theorem isCore_of_letter {c : CodePoint} (h : isLetter c = true) : u.isCore c = true :=
  u.isCore_of_alpha (u.isAlpha_of_letter h)

theorem not_isCore_of_trailing {c : CodePoint} (h : isTrailing c = true) : u.isCore c = false := by
  have hmem : c ∈ lit "/-_." := List.contains_iff_mem.mp h
  have hfacts : (lit "/-_.").all (fun d => d.val < 0x80 && !isLetter d
      && !(0x30 ≤ d.val && d.val ≤ 0x39)) = true := by decide
  have hc := List.all_eq_true.mp hfacts c hmem
  simp only [Bool.and_eq_true, decide_eq_true_eq, Bool.not_eq_true'] at hc
  obtain ⟨⟨hascii, hletter⟩, hdigit⟩ := hc
  have hhangul : isHangul c = false := by
    simp [isHangul]
    omega
  rw [isCore, isAlnum, u.isAlpha_ascii c hascii, u.isNumeric_ascii c hascii, hdigit, hhangul]
  simpa [isLetter] using hletter

/-! ## Punctuation -/

theorem splitPunctuation_append {head core tail : Text} (hhead : ∀ c ∈ head, u.isCore c = false)
    (htail : ∀ c ∈ tail, u.isCore c = false) (hfirst : ∃ c, core.head? = some c ∧ u.isCore c = true)
    (hlast : ∃ c, core.getLast? = some c ∧ u.isCore c = true) :
    u.splitPunctuation (head ++ core ++ tail) = (head, core, tail) := by
  obtain ⟨c, hc, hcore⟩ := hfirst
  obtain ⟨d, hd, hcore'⟩ := hlast
  obtain ⟨rest, rfl⟩ := List.head?_eq_some_iff.mp hc
  let p : CodePoint → Bool := fun c => !u.isCore c
  have hhead' : ∀ e ∈ head, p e = true := fun e he => by simp [p, hhead e he]
  have htail' : ∀ e ∈ tail.reverse, p e = true := fun e he => by
    simp [p, htail e (List.mem_reverse.mp he)]
  have hneg : ¬p c = true := by simp [p, hcore]
  have hneg' : ¬p d = true := by simp [p, hcore']
  obtain ⟨front, hfront⟩ := List.getLast?_eq_some_iff.mp hd
  have hdrop : (head ++ (c :: rest) ++ tail).dropWhile p = (c :: rest) ++ tail := by
    rw [List.append_assoc, List.dropWhile_append_of_pos hhead', List.cons_append,
      List.dropWhile_cons_of_neg hneg]
  have htake : (head ++ (c :: rest) ++ tail).takeWhile p = head := by
    rw [List.append_assoc, List.takeWhile_append_of_pos hhead', List.cons_append,
      List.takeWhile_cons_of_neg hneg, List.append_nil]
  have hreverse : ((c :: rest) ++ tail).reverse = tail.reverse ++ d :: front.reverse := by
    rw [List.reverse_append, hfront, List.reverse_append, List.reverse_singleton,
      List.singleton_append]
  show ((head ++ (c :: rest) ++ tail).takeWhile p,
    ((head ++ (c :: rest) ++ tail).dropWhile p).rdropWhile p,
    ((head ++ (c :: rest) ++ tail).dropWhile p).rtakeWhile p) = _
  rw [hdrop, htake, List.rdropWhile, List.rtakeWhile, hreverse,
    List.dropWhile_append_of_pos htail', List.takeWhile_append_of_pos htail',
    List.dropWhile_cons_of_neg hneg', List.takeWhile_cons_of_neg hneg', List.append_nil,
    List.reverse_cons, List.reverse_reverse, List.reverse_reverse, hfront]

theorem splitPunctuation_spec (token : Text) :
    ∃ head core tail, u.splitPunctuation token = (head, core, tail) ∧ token = head ++ core ++ tail ∧
      (∀ c ∈ head, u.isCore c = false) ∧ (∀ c ∈ tail, u.isCore c = false) ∧
      ∀ c, core.getLast? = some c → u.isCore c = true := by
  refine ⟨_, _, _, rfl, ?_, fun c hc => ?_, fun c hc => ?_, fun c hc => ?_⟩
  · rw [List.append_assoc, List.rdropWhile_append_rtakeWhile, List.takeWhile_append_dropWhile]
  · simpa using List.mem_takeWhile_imp hc
  · simpa using List.mem_rtakeWhile_imp hc
  · have hne : (token.dropWhile fun c => !u.isCore c).rdropWhile (fun c => !u.isCore c) ≠ [] :=
      fun hnil => by rw [hnil] at hc; cases hc
    have hnot := List.rdropWhile_last_not _ _ hne
    rw [List.getLast?_eq_some_getLast hne] at hc
    rw [← Option.some.inj hc]
    simpa using hnot

/-- What the loop puts in the place of a token. -/
def rewrite (token : Text) : Text := (u.rewriteToken token).1

theorem rewrite_append {head core tail : Text} (hhead : ∀ c ∈ head, u.isCore c = false)
    (htail : ∀ c ∈ tail, u.isCore c = false) (hfirst : ∃ c, core.head? = some c ∧ u.isCore c = true)
    (hlast : ∃ c, core.getLast? = some c ∧ u.isCore c = true) :
    u.rewrite (head ++ core ++ tail)
      = head ++ ((u.canonicalOf core).map (·.1)).getD core ++ tail := by
  have hne : core ≠ [] := by
    rintro rfl
    obtain ⟨c, hc, -⟩ := hfirst
    cases hc
  rw [rewrite, rewriteToken, u.splitPunctuation_append hhead htail hfirst hlast]
  dsimp only
  rw [if_neg hne]
  cases u.canonicalOf core with
  | none => rfl
  | some r => rfl

theorem rewrite_of_core_nil {token : Text} (h : (u.splitPunctuation token).2.1 = []) :
    u.rewrite token = token := by
  rw [rewrite, rewriteToken]
  dsimp only
  rw [if_pos h]

/-- A token is its punctuation around its core. -/
theorem exists_core (token : Text) : (u.splitPunctuation token).2.1 = [] ∨
    ∃ head core tail, token = head ++ core ++ tail ∧ (u.splitPunctuation token).2.1 = core ∧
      (∀ c ∈ head, u.isCore c = false) ∧ (∀ c ∈ tail, u.isCore c = false) ∧
      (∃ c, core.head? = some c ∧ u.isCore c = true) ∧
      ∃ c, core.getLast? = some c ∧ u.isCore c = true := by
  obtain ⟨head, core, tail, hsplit, htoken, hhead, htail, hlast⟩ := u.splitPunctuation_spec token
  cases hcore : core with
  | nil => exact .inl (by rw [hsplit, hcore])
  | cons c rest =>
    refine .inr ⟨head, core, tail, htoken, by rw [hsplit, hcore], hhead, htail, ?_, ?_⟩
    · -- the front of the core is where the head stopped
      have hrest : token.dropWhile (fun c => !u.isCore c) = core ++ tail := by
        have heq : token.takeWhile (fun c => !u.isCore c) = head := congrArg (·.1) hsplit
        have happend := List.takeWhile_append_dropWhile (p := fun c => !u.isCore c) (l := token)
        rw [heq] at happend
        exact List.append_cancel_left (happend.trans (htoken.trans (List.append_assoc _ _ _)))
      have hnot := List.head?_dropWhile_not (fun c => !u.isCore c) token
      rw [hrest, hcore] at hnot
      refine ⟨c, by rw [hcore]; rfl, ?_⟩
      simpa using hnot
    · rw [hcore]
      rw [hcore] at hlast
      exact ⟨_, List.getLast?_eq_some_getLast (List.cons_ne_nil c rest),
        hlast _ (List.getLast?_eq_some_getLast (List.cons_ne_nil c rest))⟩

/-! ## Entries of the lexicon -/

/-- An entry is found again by its canonical spelling. -/
theorem canonicalOf_entry {e : Text × Text} (h : e ∈ acronymCanonical) :
    u.canonicalOf e.2 = some (e.2, .exact) := by
  obtain ⟨hlookup, hupper, -, hchars, -⟩ := entries e h
  have hascii : ∀ c ∈ e.2, c.val < 0x80 := by
    intro c hc
    have hchar := List.all_eq_true.mp hchars c hc
    rw [Bool.or_eq_true] at hchar
    rcases hchar with hletter | hdigit
    · exact letter_lt hletter
    · simp at hdigit
      omega
  rw [canonicalOf, u.upper_ascii hascii, hupper, hlookup]

theorem isCore_of_mem_entry {e : Text × Text} (h : e ∈ acronymCanonical) {c : CodePoint}
    (hc : c ∈ e.2) : u.isCore c = true := by
  have hchar := List.all_eq_true.mp (entries e h).2.2.2.1 c hc
  rw [Bool.or_eq_true] at hchar
  rcases hchar with hletter | hdigit
  · exact u.isCore_of_letter hletter
  · have hascii : c.val < 0x80 := by
      simp at hdigit
      omega
    rw [isCore, isAlnum, u.isNumeric_ascii c hascii, hdigit]
    simp

/-- With an acronym and more behind it a text is no key. -/
theorem lookup_upper_eq_none {key run : Text} (hkey : key ∈ runs) (hrun : u.upper run = key)
    (front : Text) {rest : Text} (hrest : 2 ≤ (u.upper rest).length) :
    acronymCanonical.lookup (u.upper (front ++ (run ++ rest))) = none := by
  cases h : acronymCanonical.lookup (u.upper (front ++ (run ++ rest))) with
  | none => rfl
  | some canonical =>
    have hentry := List.mem_map_of_mem (f := (·.1)) (mem_of_lookup h)
    rw [u.upper_append, u.upper_append, hrun] at hentry
    have hlt := length_of_prefix_tail _ hentry key hkey (key ++ u.upper rest)
      ((List.mem_tails _ _).mpr (List.suffix_append _ _)) (List.prefix_append _ _)
    rw [List.length_append] at hlt
    omega

theorem upper_run {key : Text} (h : key ∈ runs) : u.upper key = key := by
  have hascii : ∀ c ∈ key, c.val < 0x80 := by
    intro c hc
    have hupper := List.all_eq_true.mp (lookup_runs key h).2.2 c hc
    exact letter_lt (by rw [isLetter, hupper]; rfl)
  have hself : ∀ key ∈ runs, Py.upper key = key := by decide +kernel
  rw [u.upper_ascii hascii, hself key h]

end Unicode

/-! ## Compounds -/

/-- Each acronym is spelled as its key, and something is between two of them. -/
def Spaced (parts : List (Text × Text)) : Prop :=
  (∀ part ∈ parts, spelled part.1 = part.1) ∧ ∀ part ∈ parts.dropLast, part.2 ≠ []

theorem Spaced.of_cons {part : Text × Text} {parts : List (Text × Text)} (h : Spaced (part :: parts)) :
    Spaced parts := by
  refine ⟨fun p hp => h.1 p (List.mem_cons_of_mem _ hp), fun p hp => h.2 p ?_⟩
  cases parts with
  | nil => cases hp
  | cons q parts => exact List.mem_cons_of_mem _ hp

namespace Unicode

variable (u : Unicode)

/-- The core of a compound. -/
def coreOf (parts : List (Text × Text)) : Text :=
  (u.splitPunctuation (trimmed (compound parts))).2.1

/-- A part of a compound, as a text. -/
theorem exists_first_letter {parts : List (Text × Text)} (hne : parts ≠ [])
    (hparts : ∀ part ∈ parts, u.IsPart part) (rest : Text) :
    ∃ c, (compound parts ++ rest).head? = some c ∧ isLetter c = true := by
  obtain ⟨part, parts, rfl⟩ := List.exists_cons_of_ne_nil hne
  have hrun := (hparts part List.mem_cons_self).run
  obtain ⟨c, s, hs⟩ := List.exists_cons_of_ne_nil (spelled_ne_nil hrun)
  refine ⟨c, ?_, isLetter_of_mem_spelled hrun (by rw [hs]; exact List.mem_cons_self)⟩
  rw [compound_cons, hs]
  rfl

/-- **The core of a compound** is the compound without the end of its last separator. -/
theorem coreOf_spec {parts : List (Text × Text)} (hne : parts ≠ [])
    (hparts : ∀ part ∈ parts, u.IsPart part) :
    ∃ parts' rest, trimmed (compound parts) = compound parts' ++ rest ∧ u.coreOf parts = compound parts' ∧
      (∀ c ∈ rest, u.isCore c = false) ∧ (∀ part ∈ parts', u.IsPart part) ∧
      parts'.map (·.1) = parts.map (·.1) ∧ parts'.dropLast = parts.dropLast ∧
      (∃ c, (compound parts').head? = some c ∧ u.isCore c = true) ∧
      ∃ c, (compound parts').getLast? = some c ∧ u.isCore c = true := by
  let p : CodePoint → Bool := fun c => !u.isCore c
  obtain ⟨front, last, rfl⟩ := (List.eq_nil_or_concat parts).resolve_left hne
  rw [List.concat_eq_append] at *
  have hlast := hparts last (by simp)
  obtain ⟨d, hd⟩ : ∃ d, (spelled last.1).getLast? = some d :=
    ⟨_, List.getLast?_eq_some_getLast (spelled_ne_nil hlast.run)⟩
  -- the separator of the last part, without its end
  let sep := last.2.rdropWhile p
  have hsep : u.IsSeparator sep := by
    have hfront : sep <+: last.2 := List.rdropWhile_prefix _ _
    refine ⟨fun c hc => hlast.separator.nonalpha c (hfront.subset hc), fun c hc => ?_⟩
    obtain ⟨s, hs⟩ := List.head?_eq_some_iff.mp hc
    obtain ⟨more, hmore⟩ := hfront
    exact hlast.separator.head c (by rw [← hmore, hs]; rfl)
  have hd' : (compound front ++ spelled last.1).getLast? = some d := by
    rw [List.getLast?_append, hd]
    rfl
  have hcore : u.isCore d = true := by
    obtain ⟨s, hs⟩ := List.getLast?_eq_some_iff.mp hd
    exact u.isCore_of_letter (isLetter_of_mem_spelled hlast.run (by rw [hs]; simp))
  have hcompound : ∀ s, compound (front ++ [(last.1, s)]) = compound front ++ spelled last.1 ++ s := by
    intro s
    rw [compound_append, compound_cons]
    show compound front ++ (spelled last.1 ++ (s ++ [])) = _
    rw [List.append_nil, List.append_assoc]
  have hdrop : (compound (front ++ [last])).rdropWhile p = compound (front ++ [(last.1, sep)]) := by
    have hlast' : compound (front ++ [last]) = compound front ++ spelled last.1 ++ last.2 :=
      hcompound last.2
    have hnot : p d = false := by simp [p, hcore]
    rw [hlast', hcompound, Trim.rdropWhile_append hd' hnot]
  have htrimmed : (trimmed (compound (front ++ [last]))).rdropWhile p
      = compound (front ++ [(last.1, sep)]) := by
    rw [trimmed, Trim.rdropWhile_rdropWhile (fun c hc => by simp [p, u.not_isCore_of_trailing hc]), hdrop]
  have hparts' : ∀ part ∈ front ++ [(last.1, sep)], u.IsPart part := by
    intro part hpart
    rcases List.mem_append.mp hpart with hpart | hpart
    · exact hparts part (List.mem_append_left _ hpart)
    · rw [List.mem_singleton.mp hpart]
      exact ⟨hlast.run, hsep⟩
  have hfirst : ∃ c, (compound (front ++ [(last.1, sep)])).head? = some c ∧ u.isCore c = true := by
    obtain ⟨c, hc, hletter⟩ := u.exists_first_letter (List.concat_ne_nil _ _) hparts' []
    rw [List.append_nil] at hc
    exact ⟨c, hc, u.isCore_of_letter hletter⟩
  have hend : ∃ c, (compound (front ++ [(last.1, sep)])).getLast? = some c ∧ u.isCore c = true := by
    have hne' : (compound (front ++ [last])).rdropWhile p ≠ [] := by
      rw [hdrop]
      rintro hnil
      obtain ⟨c, hc, -⟩ := hfirst
      rw [hnil] at hc
      cases hc
    have hnot := List.rdropWhile_last_not _ _ hne'
    refine ⟨_, by rw [← hdrop]; exact List.getLast?_eq_some_getLast hne', by simpa [p] using hnot⟩
  let rest := (trimmed (compound (front ++ [last]))).rtakeWhile p
  have hsplit : trimmed (compound (front ++ [last])) = compound (front ++ [(last.1, sep)]) ++ rest := by
    rw [← htrimmed]
    exact List.rdropWhile_append_rtakeWhile.symm
  have hrest : ∀ c ∈ rest, u.isCore c = false := fun c hc => by
    simpa [p] using List.mem_rtakeWhile_imp hc
  refine ⟨front ++ [(last.1, sep)], rest, hsplit, ?_, hrest, hparts', by simp, by simp, hfirst, hend⟩
  have hnone : ∀ c ∈ ([] : Text), u.isCore c = false := by simp
  have happend := u.splitPunctuation_append hnone hrest hfirst hend
  rw [List.nil_append, ← hsplit] at happend
  rw [coreOf, happend]

/-! ### Spaced compounds -/

/-- The segments of a spaced compound are its acronyms and its separators. -/
theorem segments_compound {parts : List (Text × Text)} (hparts : ∀ part ∈ parts, u.IsPart part)
    (hspaced : Spaced parts) : u.segments (compound parts) = parts.flatMap fun part =>
      (Kind.upper, part.1) :: if part.2 = [] then [] else [(Kind.other, part.2)] := by
  induction parts with
  | nil => rfl
  | cons part parts ih =>
    have hpart := hparts part List.mem_cons_self
    have hrest := fun p hp => hparts p (List.mem_cons_of_mem _ hp)
    obtain ⟨-, htwo, hupper⟩ := lookup_runs part.1 hpart.run
    obtain ⟨c, run, hrun⟩ : ∃ c run, part.1 = c :: run :=
      List.exists_cons_of_ne_nil fun hnil => by rw [hnil] at htwo; cases htwo
    have hcapital : ∀ d ∈ part.1, u.isUpper d = true := fun d hd =>
      u.isUpper_of_asciiUpper (List.all_eq_true.mp hupper d hd)
    rw [compound_cons, hspaced.1 part List.mem_cons_self, List.flatMap_cons, ← ih hrest hspaced.of_cons]
    have hkind : u.kind c = .upper := by
      rw [kind, hcapital c (by rw [hrun]; exact List.mem_cons_self)]
      rfl
    -- the run ends where a separator or the end of the text is
    have hend : ∀ d, (part.2 ++ compound parts).head? = some d → u.goesOn .upper d = false := by
      intro d hd
      cases hsep : part.2 with
      | nil =>
        cases parts with
        | nil =>
          rw [hsep] at hd
          cases hd
        | cons q parts => exact absurd hsep (hspaced.2 part List.mem_cons_self)
      | cons e sep =>
        rw [hsep] at hd
        obtain rfl := Option.some.inj hd
        have hother := hpart.separator.head e (by rw [hsep]; rfl)
        cases hup : u.isUpper e with
        | false => exact hup
        | true =>
          rw [kind, hup] at hother
          cases hother
    have hfirst := u.segments_append (s := run) hkind
      (fun d hd => hcapital d (by rw [hrun]; exact List.mem_cons_of_mem _ hd)) hend
    rw [← hrun] at hfirst
    rw [hfirst]
    cases hsep : part.2 with
    | nil => simp
    | cons e sep =>
      have hother := hpart.separator.head e (by rw [hsep]; rfl)
      have hnonalpha : ∀ d ∈ sep, u.goesOn .other d = true := fun d hd => by
        simp [goesOn, hpart.separator.nonalpha d (by rw [hsep]; exact List.mem_cons_of_mem _ hd)]
      have hletter : ∀ d, (compound parts).head? = some d → u.goesOn .other d = false := by
        intro d hd
        cases parts with
        | nil => cases hd
        | cons q parts =>
          obtain ⟨d', hd', hl⟩ := u.exists_first_letter (List.cons_ne_nil q parts) hrest []
          rw [List.append_nil, hd] at hd'
          rw [Option.some.inj hd']
          simp [goesOn, u.isAlpha_of_letter hl]
      rw [u.segments_append hother hnonalpha hletter]
      simp

/-- The parts of a spaced compound are read back. -/
theorem parts_segments_compound {parts : List (Text × Text)} (hparts : ∀ part ∈ parts, u.IsPart part)
    (hspaced : Spaced parts) : u.parts (u.segments (compound parts)) = parts := by
  rw [u.segments_compound hparts hspaced]
  clear hspaced
  induction parts with
  | nil => rfl
  | cons part parts ih =>
    have hpart := hparts part List.mem_cons_self
    have hrest := ih fun p hp => hparts p (List.mem_cons_of_mem _ hp)
    obtain ⟨hlookup, htwo, -⟩ := lookup_runs part.1 hpart.run
    have hacronym : acronymOf (Kind.upper, part.1) = some (spelled part.1) := by
      rw [acronymOf, if_pos ⟨rfl, htwo⟩, hlookup]
    -- behind the separator there is an acronym or nothing
    have hnext : u.separator (parts.flatMap fun part =>
        (Kind.upper, part.1) :: if part.2 = [] then [] else [(Kind.other, part.2)]) = [] := by
      cases parts with
      | nil => rfl
      | cons q parts =>
        rw [List.flatMap_cons, List.cons_append, separator, if_neg (by simp)]
    rw [List.flatMap_cons, List.cons_append, Unicode.parts, hacronym, Option.isSome_some, if_pos rfl]
    cases hsep : part.2 with
    | nil =>
      rw [if_pos rfl, List.nil_append, hnext, hrest]
      rw [← hsep]
    | cons e sep =>
      have halpha : part.2.all u.isAlpha = false := by
        rw [List.all_eq_false]
        exact ⟨e, by rw [hsep]; exact List.mem_cons_self, by
          simp [hpart.separator.nonalpha e (by rw [hsep]; exact List.mem_cons_self)]⟩
      rw [if_neg (List.cons_ne_nil _ _), ← hsep, List.singleton_append, separator,
        if_pos ⟨by simp, halpha⟩, hnext, List.append_nil, Unicode.parts]
      have hnone : acronymOf (Kind.other, part.2) = none := if_neg fun h => by cases h.1
      rw [hnone, Option.isSome_none, if_neg (by simp), hrest]

/-! ### What a compound is rewritten to -/

/-- A first acronym and what is behind it. -/
theorem exists_of_parts_ne_nil {segments : List (Kind × Text)} (h : u.parts segments ≠ []) :
    ∃ l segment r, segments = l ++ segment :: r ∧ (acronymOf segment).isSome = true ∧
      u.parts segments = (segment.2, u.separator r) :: u.parts r := by
  induction segments with
  | nil => exact absurd rfl h
  | cons segment segments ih =>
    cases hacronym : (acronymOf segment).isSome with
    | true =>
      refine ⟨[], segment, segments, rfl, hacronym, ?_⟩
      rw [parts, if_pos hacronym]
    | false =>
      have hparts : u.parts (segment :: segments) = u.parts segments := by
        rw [parts, if_neg (by rw [hacronym]; decide)]
      rw [hparts] at h ⊢
      obtain ⟨l, s, r, rfl, hs, heq⟩ := ih h
      exact ⟨segment :: l, s, r, rfl, hs, heq⟩

/-- Two acronyms among the segments. -/
theorem exists_two_acronyms {segments : List (Kind × Text)} (h : 2 ≤ (u.parts segments).length) :
    ∃ l first l' second r, segments = l ++ first :: (l' ++ second :: r) ∧
      (acronymOf first).isSome = true ∧ (acronymOf second).isSome = true := by
  have hne : u.parts segments ≠ [] := by
    rintro hnil
    rw [hnil] at h
    cases h
  obtain ⟨l, first, r, rfl, hfirst, hparts⟩ := u.exists_of_parts_ne_nil hne
  rw [hparts, List.length_cons] at h
  have hne' : u.parts r ≠ [] := by
    rintro hnil
    rw [hnil] at h
    exact absurd h (by decide)
  obtain ⟨l', second, r', rfl, hsecond, -⟩ := u.exists_of_parts_ne_nil hne'
  exact ⟨l, first, l', second, r', rfl, hfirst, hsecond⟩

/-- A token with two acronyms is no key, whatever else is in it. -/
theorem lookup_of_two {core : Text} (h : 2 ≤ (u.parts (u.segments core)).length) :
    acronymCanonical.lookup (u.upper core) = none := by
  obtain ⟨l, first, l', second, r', heq, hfirst, hsecond⟩ := u.exists_two_acronyms h
  have hmem : ∀ s, s ∈ l ++ first :: (l' ++ second :: r') → s ∈ u.segments core := fun s hs =>
    heq ▸ hs
  have hrun := u.mem_runs (hmem first (by simp)) hfirst
  have hrun' := u.mem_runs (hmem second (by simp)) hsecond
  have hcore := u.flatten_segments core
  rw [heq] at hcore
  have hsplit : core = (l.map (·.2)).flatten ++ (first.2 ++ ((l'.map (·.2)).flatten
      ++ (second.2 ++ (r'.map (·.2)).flatten))) := by
    rw [← hcore]
    simp
  rw [hsplit]
  refine u.lookup_upper_eq_none hrun (u.upper_run hrun) _ ?_
  rw [u.upper_append, u.upper_append, u.upper_run hrun', List.length_append, List.length_append]
  have htwo := (lookup_runs _ hrun').2.1
  omega

/-- So is a compound of two. -/
theorem lookup_compound {parts : List (Text × Text)} (hparts : ∀ part ∈ parts, u.IsPart part)
    (h : 2 ≤ parts.length) : acronymCanonical.lookup (u.upper (compound parts)) = none := by
  match parts, h with
  | first :: second :: rest, _ =>
    have hrun := (hparts first (by simp)).run
    have hrun' := (hparts second (by simp)).run
    rw [compound_cons, compound_cons, ← List.nil_append (spelled first.1 ++ _)]
    refine u.lookup_upper_eq_none hrun (u.upper_spelled hrun) _ ?_
    rw [u.upper_append, u.upper_append, u.upper_spelled hrun', List.length_append, List.length_append]
    have htwo := (lookup_runs _ hrun').2.1
    omega

theorem mixedCaseCorrect_of_two {core : Text} (h : 2 ≤ (u.parts (u.segments core)).length)
    (hlen : 3 ≤ core.length) (hne : trimmed (compound (u.parts (u.segments core))) ≠ []) :
    u.mixedCaseCorrect core = some (trimmed (compound (u.parts (u.segments core)))) := by
  have htrimmed : (u.rebuild false (u.segments core)).rdropWhile (lit "/-_.").contains
      = trimmed (compound (u.parts (u.segments core))) := by
    rw [(u.rebuild_eq _).1]
    rfl
  rw [mixedCaseCorrect, if_neg (by omega), u.filterMap_acronymOf]
  generalize u.parts (u.segments core) = ps at h hne htrimmed ⊢
  match ps, h with
  | first :: second :: rest, _ =>
    dsimp only
    rw [htrimmed, if_neg hne]
    rfl

theorem length_of_two {core : Text} (h : 2 ≤ (u.parts (u.segments core)).length) :
    3 ≤ core.length := by
  obtain ⟨l, first, l', second, r', heq, hfirst, hsecond⟩ := u.exists_two_acronyms h
  have hmem : ∀ s, s ∈ l ++ first :: (l' ++ second :: r') → s ∈ u.segments core := fun s hs =>
    heq ▸ hs
  have htwo := (lookup_runs _ (u.mem_runs (hmem first (by simp)) hfirst)).2.1
  have htwo' := (lookup_runs _ (u.mem_runs (hmem second (by simp)) hsecond)).2.1
  have hcore := congrArg List.length (u.flatten_segments core)
  rw [heq] at hcore
  simp only [List.map_append, List.map_cons, List.flatten_append, List.flatten_cons,
    List.length_append] at hcore
  omega

/-- **A token with two acronyms becomes a compound.** -/
theorem canonicalOf_of_two {core : Text} (h : 2 ≤ (u.parts (u.segments core)).length) :
    u.canonicalOf core = some (trimmed (compound (u.parts (u.segments core))), .mixedCase) := by
  have hparts : ∀ part ∈ u.parts (u.segments core), u.IsPart part := fun part hpart =>
    u.isPart_parts (List.Subset.refl _) hpart
  have hne : u.parts (u.segments core) ≠ [] := by
    rintro hnil
    rw [hnil] at h
    cases h
  obtain ⟨parts', rest, htrimmed, -, -, -, -, -, ⟨c, hc, -⟩, -⟩ := u.coreOf_spec hne hparts
  have hnonempty : trimmed (compound (u.parts (u.segments core))) ≠ [] := by
    rw [htrimmed]
    intro hnil
    rw [(List.append_eq_nil_iff.mp hnil).1] at hc
    cases hc
  rw [canonicalOf, u.lookup_of_two h]
  dsimp only
  rw [u.mixedCaseCorrect_of_two h (u.length_of_two h) hnonempty]

theorem trimmed_of_last {t : Text} (h : ∃ c, t.getLast? = some c ∧ u.isCore c = true) :
    trimmed t = t := by
  obtain ⟨c, hc, hcore⟩ := h
  refine Trim.rdropWhile_eq_self hc ?_
  cases htrailing : isTrailing c with
  | false => rfl
  | true =>
    rw [u.not_isCore_of_trailing htrailing] at hcore
    cases hcore

/-- A spaced compound is left as it is. -/
theorem canonicalOf_spaced {parts : List (Text × Text)} (hparts : ∀ part ∈ parts, u.IsPart part)
    (hspaced : Spaced parts) (htwo : 2 ≤ parts.length)
    (hlast : ∃ c, (compound parts).getLast? = some c ∧ u.isCore c = true) :
    u.canonicalOf (compound parts) = some (compound parts, .mixedCase) := by
  have hread := u.parts_segments_compound hparts hspaced
  have htwo' : 2 ≤ (u.parts (u.segments (compound parts))).length := by rwa [hread]
  have h := u.canonicalOf_of_two htwo'
  rwa [hread, u.trimmed_of_last hlast] at h

/-- What is kept of a token is no longer than it, and as long only if everything is kept. -/
theorem length_rebuild (last : Bool) {segments : List (Kind × Text)}
    (hne : ∀ segment ∈ segments, segment.2 ≠ [])
    (hruns : ∀ segment ∈ segments, (acronymOf segment).isSome = true → segment.2 ∈ runs) :
    (u.rebuild last segments).length ≤ (segments.map (·.2)).flatten.length ∧
      ((u.rebuild last segments).length = (segments.map (·.2)).flatten.length →
        ∀ segment ∈ segments, (acronymOf segment).isSome = true ∨
          segment.1 ≠ .upper ∧ segment.2.all u.isAlpha = false) := by
  induction segments generalizing last with
  | nil => exact ⟨le_rfl, fun _ segment hsegment => by cases hsegment⟩
  | cons segment segments ih =>
    have ih' := fun last => ih last (fun s hs => hne s (List.mem_cons_of_mem _ hs))
      fun s hs => hruns s (List.mem_cons_of_mem _ hs)
    have hpos := List.length_pos_of_ne_nil (hne segment List.mem_cons_self)
    rw [List.map_cons, List.flatten_cons, List.length_append, rebuild]
    cases hacronym : acronymOf segment with
    | some canonical =>
      have hrun := hruns segment List.mem_cons_self (by rw [hacronym]; rfl)
      obtain ⟨-, -, -, rfl⟩ := acronymOf_eq hacronym
      have hlen := (spelled_runs _ hrun).1
      obtain ⟨hle, hkept⟩ := ih' true
      dsimp only
      rw [List.length_append]
      refine ⟨by omega, fun heq s hs => ?_⟩
      rcases List.mem_cons.mp hs with rfl | hs
      · exact .inl (by rw [hacronym]; rfl)
      · exact hkept (by omega) s hs
    | none =>
      dsimp only
      split
      · next hsep =>
        obtain ⟨hle, hkept⟩ := ih' last
        rw [List.length_append]
        refine ⟨by omega, fun heq s hs => ?_⟩
        rcases List.mem_cons.mp hs with rfl | hs
        · exact .inr ⟨hsep.1, hsep.2.1⟩
        · exact hkept (by omega) s hs
      · obtain ⟨hle, -⟩ := ih' false
        exact ⟨by omega, fun heq => by omega⟩

theorem mem_of_fuzzyCorrect {token canonical : Text} (h : u.fuzzyCorrect token = some canonical) :
    ∃ e ∈ acronymCanonical, e.2 = canonical := by
  cases token with
  | nil => cases h
  | cons first rest =>
    rw [fuzzyCorrect] at h
    split at h
    · cases h
    · split at h
      · cases h
      · dsimp only at h
        split at h
        · next c hc =>
          cases h
          have hmem : canonical ∈ ([canonical] : List Text) := List.mem_singleton_self _
          rw [← hc, List.mem_dedup, List.mem_map] at hmem
          obtain ⟨e, he, heq⟩ := hmem
          exact ⟨e, List.mem_of_mem_filter he, heq⟩
        · cases h

/-- Without two acronyms a token becomes an entry of the lexicon. -/
theorem mem_of_canonicalOf {core canonical : Text} {source : Source}
    (h : u.canonicalOf core = some (canonical, source))
    (htwo : ¬2 ≤ (u.parts (u.segments core)).length) : ∃ e ∈ acronymCanonical, e.2 = canonical := by
  rw [canonicalOf] at h
  split at h
  · next c hlookup =>
    cases h
    exact ⟨_, mem_of_lookup hlookup, rfl⟩
  · split at h
    · next c hmixed =>
      cases h
      rw [mixedCaseCorrect] at hmixed
      split at hmixed
      · cases hmixed
      · rw [u.filterMap_acronymOf] at hmixed
        have hruns : ∀ part ∈ u.parts (u.segments core), part.1 ∈ runs := fun part hpart =>
          (u.isPart_parts (List.Subset.refl _) hpart).run
        generalize u.parts (u.segments core) = ps at hmixed htwo hruns
        match ps, htwo with
        | [], _ => cases hmixed
        | [part], _ =>
          have hrun := hruns part List.mem_cons_self
          have hmixed : some (spelled part.1) = some canonical := hmixed
          rw [← Option.some.inj hmixed]
          exact ⟨_, mem_of_lookup (lookup_runs _ hrun).1, rfl⟩
        | _ :: _ :: _, htwo => exact absurd (by simp) htwo
    · next hmixed =>
      obtain ⟨c, hfuzzy, heq⟩ := Option.map_eq_some_iff.mp h
      cases heq
      exact u.mem_of_fuzzyCorrect hfuzzy

/-- **A compound that is left as it is, is spaced.** -/
theorem spaced_of_canonicalOf {parts : List (Text × Text)} (hparts : ∀ part ∈ parts, u.IsPart part)
    (htwo : 2 ≤ parts.length) {source : Source}
    (h : u.canonicalOf (compound parts) = some (compound parts, source)) :
    Spaced parts := by
  have hlookup := u.lookup_compound hparts htwo
  have htwo' : 2 ≤ (u.parts (u.segments (compound parts))).length := by
    by_contra hnot
    obtain ⟨e, he, heq⟩ := u.mem_of_canonicalOf h hnot
    obtain ⟨hfound, hupper, -, hchars, -⟩ := entries e he
    -- an entry of the lexicon would be looked up
    have hexact := u.canonicalOf_entry he
    rw [heq, h] at hexact
    have hnone := hlookup
    rw [← heq] at hnone
    have hsome : acronymCanonical.lookup (u.upper e.2) = some e.2 := by
      have hcanonical := u.canonicalOf_entry he
      rw [canonicalOf, hnone] at hcanonical
      dsimp only at hcanonical
      split at hcanonical
      · cases hcanonical
      · obtain ⟨c, -, hc⟩ := Option.map_eq_some_iff.mp hcanonical
        cases hc
    rw [hnone] at hsome
    cases hsome
  -- everything is kept
  have hkept : ∀ segment ∈ u.segments (compound parts), (acronymOf segment).isSome = true ∨
      segment.1 ≠ .upper ∧ segment.2.all u.isAlpha = false := by
    have hsame := u.canonicalOf_of_two htwo'
    rw [h] at hsame
    have htext : compound parts = trimmed (compound (u.parts (u.segments (compound parts)))) :=
      congrArg (·.1) (Option.some.inj hsame)
    have hle : (compound parts).length
        ≤ (compound (u.parts (u.segments (compound parts)))).length := by
      rw [congrArg List.length htext]
      exact (List.rdropWhile_prefix _ _).length_le
    obtain ⟨hle', hall⟩ := u.length_rebuild false (fun s hs => (u.mem_segments hs).1)
      fun s hs => u.mem_runs hs (t := compound parts)
    rw [(u.rebuild_eq _).1, u.flatten_segments] at hle' hall
    exact hall (le_antisymm hle' hle)
  have hrun : ∀ part ∈ parts, part.1 ∈ runs := fun part hpart => (hparts part hpart).run
  have hplain : ∀ part ∈ parts, spelled part.1 = part.1 := by
    intro part hpart
    refine (spelled_runs _ (hrun part hpart)).2.2.2.resolve_right fun hlower => ?_
    -- a small letter is in a segment that is dropped
    obtain ⟨c, hc, hsmall⟩ := List.any_eq_true.mp hlower
    have hmem : c ∈ compound parts :=
      List.mem_flatMap.mpr ⟨part, hpart, List.mem_append_left _ hc⟩
    rw [← u.flatten_segments (compound parts), List.mem_flatten] at hmem
    obtain ⟨s, hs, hcs⟩ := hmem
    obtain ⟨segment, hsegment, rfl⟩ := List.mem_map.mp hs
    have hletter : isLetter c = true := by
      rw [isLetter, hsmall]
      exact Bool.or_true _
    have halpha := u.isAlpha_of_letter hletter
    have hcapital : u.isUpper c = false := by
      rw [u.isUpper_ascii c (letter_lt hletter)]
      simp [isAsciiLower] at hsmall
      simp [isAsciiUpper]
      omega
    have hgoes := (u.mem_segments hsegment).2 c hcs
    rcases hkept segment hsegment with hacronym | ⟨hnot, hsep⟩
    · obtain ⟨canonical, hcanonical⟩ := Option.isSome_iff_exists.mp hacronym
      rw [(acronymOf_eq hcanonical).1] at hgoes
      rw [goesOn, hcapital] at hgoes
      cases hgoes
    · rw [u.kind_other hsegment hnot hsep] at hgoes
      simp [goesOn, halpha] at hgoes
  refine ⟨hplain, fun part hpart hnil => ?_⟩
  -- two acronyms without a separator are one run
  obtain ⟨front, next, rest, heq⟩ : ∃ front next rest, parts = front ++ part :: next :: rest := by
    obtain ⟨a, b, hab⟩ := List.append_of_mem hpart
    have hne : parts ≠ [] := by
      rintro rfl
      cases hpart
    have hwhole := List.dropLast_append_getLast hne
    rw [hab] at hwhole
    cases b with
    | nil => exact ⟨a, parts.getLast hne, [], hwhole.symm.trans (by simp)⟩
    | cons q b => exact ⟨a, q, b ++ [parts.getLast hne], hwhole.symm.trans (by simp)⟩
  have hmem : part ∈ parts := by rw [heq]; simp
  have hnext : next ∈ parts := by rw [heq]; simp
  have hletters : ∀ c ∈ part.1 ++ next.1, u.isAlpha c = true ∧ u.isUpper c = true := by
    intro c hc
    have hup : isAsciiUpper c = true := by
      rcases List.mem_append.mp hc with hc | hc
      · exact List.all_eq_true.mp (lookup_runs _ (hrun part hmem)).2.2 c hc
      · exact List.all_eq_true.mp (lookup_runs _ (hrun next hnext)).2.2 c hc
    exact ⟨u.isAlpha_of_letter (by rw [isLetter, hup]; rfl), u.isUpper_of_asciiUpper hup⟩
  have hpos := (lookup_runs _ (hrun part hmem)).2.1
  have htext : compound parts = compound front ++ (part.1 ++ next.1) ++ (next.2 ++ compound rest) := by
    rw [heq, compound_append, compound_cons, compound_cons, hplain part hmem, hplain next hnext, hnil]
    simp
  obtain ⟨s, hs, hin⟩ := u.exists_segment_of_infix (a := compound front) (r := part.1 ++ next.1)
    (b := next.2 ++ compound rest) (by intro hnil; rw [(List.append_eq_nil_iff.mp hnil).1] at hpos; cases hpos)
    hletters
  rw [← htext] at hs
  have hacronym : (acronymOf (Kind.upper, s)).isSome = true :=
    (hkept _ hs).resolve_right fun h => h.1 rfl
  have hkey := (List.mem_filter.mp (u.mem_runs hs hacronym)).1
  obtain ⟨x, y, hxy⟩ := hin
  have hlt := length_of_prefix_tail s hkey part.1 (hrun part hmem) (part.1 ++ (next.1 ++ y))
    ((List.mem_tails _ _).mpr ⟨x, by rw [← hxy]; simp⟩) (List.prefix_append _ _)
  have htwo := (lookup_runs _ (hrun next hnext)).2.1
  rw [List.length_append, List.length_append] at hlt
  omega

/-! ## Tokens that are steady -/

/-- A compound of two acronyms or more is spaced, or it has none that is read again. -/
def SteadyToken (token : Text) : Prop :=
  let parts := u.parts (u.segments (u.splitPunctuation token).2.1)
  2 ≤ parts.length → Spaced parts ∨ u.canonicalOf (u.coreOf parts) = none

/-- What a core is rewritten to. -/
theorem canonicalOf_cases {core canonical : Text} {source : Source}
    (h : u.canonicalOf core = some (canonical, source)) :
    (¬2 ≤ (u.parts (u.segments core)).length ∧ ∃ e ∈ acronymCanonical, e.2 = canonical) ∨
      2 ≤ (u.parts (u.segments core)).length ∧
        canonical = trimmed (compound (u.parts (u.segments core))) := by
  by_cases htwo : 2 ≤ (u.parts (u.segments core)).length
  · rw [u.canonicalOf_of_two htwo] at h
    cases h
    exact .inr ⟨htwo, rfl⟩
  · exact .inl ⟨htwo, u.mem_of_canonicalOf h htwo⟩

theorem rewrite_entry {e : Text × Text} (he : e ∈ acronymCanonical) {head tail : Text}
    (hhead : ∀ c ∈ head, u.isCore c = false) (htail : ∀ c ∈ tail, u.isCore c = false) :
    u.rewrite (head ++ e.2 ++ tail) = head ++ e.2 ++ tail := by
  have hne := (entries e he).2.2.1
  obtain ⟨c, s, hs⟩ := List.exists_cons_of_ne_nil hne
  have hlast := List.getLast?_eq_some_getLast hne
  rw [u.rewrite_append hhead htail
    ⟨c, by rw [hs]; rfl, u.isCore_of_mem_entry he (by rw [hs]; exact List.mem_cons_self)⟩
    ⟨_, hlast, u.isCore_of_mem_entry he (List.mem_of_getLast? hlast)⟩, u.canonicalOf_entry he]
  rfl

/-- **A token is left as it is the second time if and only if it is steady.** -/
theorem rewrite_rewrite_iff (token : Text) :
    u.rewrite (u.rewrite token) = u.rewrite token ↔ u.SteadyToken token := by
  rcases u.exists_core token with hnil | ⟨head, core, tail, rfl, hcore, hhead, htail, hfirst, hlast⟩
  · rw [SteadyToken, u.rewrite_of_core_nil hnil, u.rewrite_of_core_nil hnil, hnil]
    exact iff_of_true rfl fun h => absurd h (Nat.not_succ_le_zero 1)
  rw [SteadyToken, hcore, u.rewrite_append hhead htail hfirst hlast]
  cases h : u.canonicalOf core with
  | none =>
    have hsame := u.rewrite_append hhead htail hfirst hlast
    rw [h] at hsame
    refine iff_of_true hsame fun htwo => ?_
    rw [u.canonicalOf_of_two htwo] at h
    cases h
  | some r =>
    obtain ⟨canonical, source⟩ := r
    show u.rewrite (head ++ canonical ++ tail) = head ++ canonical ++ tail ↔ _
    rcases u.canonicalOf_cases h with ⟨hnot, e, he, rfl⟩ | ⟨htwo, rfl⟩
    · exact iff_of_true (u.rewrite_entry he hhead htail) fun htwo => absurd htwo hnot
    · have hparts : ∀ part ∈ u.parts (u.segments core), u.IsPart part := fun part hpart =>
        u.isPart_parts (List.Subset.refl _) hpart
      have hne : u.parts (u.segments core) ≠ [] := by
        rintro hnil
        rw [hnil] at htwo
        cases htwo
      obtain ⟨parts, rest, htrimmed, hcoreOf, hrest, hparts', hkeys, hinit, hfirst', hlast'⟩ :=
        u.coreOf_spec hne hparts
      have hlength : parts.length = (u.parts (u.segments core)).length := by
        simpa using congrArg List.length hkeys
      have htwo' : 2 ≤ parts.length := hlength ▸ htwo
      have hspaced : Spaced parts ↔ Spaced (u.parts (u.segments core)) := by
        have hall : ∀ ps qs : List (Text × Text), ps.map (·.1) = qs.map (·.1) →
            (∀ p ∈ ps, spelled p.1 = p.1) → ∀ q ∈ qs, spelled q.1 = q.1 := by
          intro ps qs heq hps q hq
          have hmem : q.1 ∈ ps.map (·.1) := heq ▸ List.mem_map_of_mem hq
          obtain ⟨p, hp, hpq⟩ := List.mem_map.mp hmem
          rw [← hpq]
          exact hps p hp
        rw [Spaced, Spaced, hinit]
        exact and_congr_left fun _ => ⟨hall _ _ hkeys, hall _ _ hkeys.symm⟩
      have htail' : ∀ c ∈ rest ++ tail, u.isCore c = false := fun c hc =>
        (List.mem_append.mp hc).elim (hrest c) (htail c)
      have htext : head ++ trimmed (compound (u.parts (u.segments core))) ++ tail
          = head ++ compound parts ++ (rest ++ tail) := by
        rw [htrimmed]
        simp
      rw [htext, u.rewrite_append hhead htail' hfirst' hlast', ← hspaced, hcoreOf]
      constructor
      · intro heq _
        have hsame : ((u.canonicalOf (compound parts)).map (·.1)).getD (compound parts)
            = compound parts :=
          List.append_cancel_left (List.append_cancel_right heq)
        cases hagain : u.canonicalOf (compound parts) with
        | none => exact .inr rfl
        | some r =>
          obtain ⟨canonical, source⟩ := r
          rw [hagain] at hsame
          have hsame : canonical = compound parts := hsame
          rw [hsame] at hagain
          exact .inl (u.spaced_of_canonicalOf hparts' htwo' hagain)
      · intro hsteady
        rcases hsteady htwo with hs | hnone
        · rw [u.canonicalOf_spaced hparts' hs htwo' hlast']
          rfl
        · rw [hnone]
          rfl

end Unicode

/-! ## The characters of a rewritten token -/

/-- A letter or a digit of ASCII. -/
def isAsciiAlnum (c : CodePoint) : Bool := isLetter c || (0x30 ≤ c.val && c.val ≤ 0x39)

theorem ascii_of_alnum {c : CodePoint} (h : isAsciiAlnum c = true) : c.val < 0x80 := by
  simp [isAsciiAlnum, isLetter, isAsciiUpper, isAsciiLower] at h
  omega

namespace Unicode

variable (u : Unicode)

/-- A compound has only letters and separators. -/
theorem mem_compound {parts : List (Text × Text)} (hparts : ∀ part ∈ parts, u.IsPart part)
    {c : CodePoint} (hc : c ∈ compound parts) :
    isLetter c = true ∨ ∃ part ∈ parts, c ∈ part.2 := by
  obtain ⟨part, hpart, hmem⟩ := List.mem_flatMap.mp hc
  rcases List.mem_append.mp hmem with h | h
  · exact .inl (isLetter_of_mem_spelled (hparts part hpart).run h)
  · exact .inr ⟨part, hpart, h⟩

theorem separator_subset (segments : List (Kind × Text)) {c : CodePoint}
    (h : c ∈ u.separator segments) : c ∈ (segments.map (·.2)).flatten := by
  induction segments with
  | nil => cases h
  | cons segment segments ih =>
    rw [List.map_cons, List.flatten_cons, List.mem_append]
    rw [separator] at h
    split at h
    · exact (List.mem_append.mp h).imp_right ih
    · cases h

theorem parts_subset (segments : List (Kind × Text)) {part : Text × Text}
    (hpart : part ∈ u.parts segments) {c : CodePoint} (h : c ∈ part.2) :
    c ∈ (segments.map (·.2)).flatten := by
  induction segments with
  | nil => cases hpart
  | cons segment segments ih =>
    rw [List.map_cons, List.flatten_cons, List.mem_append]
    rw [parts] at hpart
    split at hpart
    · rcases List.mem_cons.mp hpart with rfl | hpart
      · exact .inr (u.separator_subset segments h)
      · exact .inr (ih hpart)
    · exact .inr (ih hpart)

/-- **A rewritten token has the characters of the token** and ASCII letters and digits. -/
theorem mem_rewrite {token : Text} {c : CodePoint} (h : c ∈ u.rewrite token) :
    c ∈ token ∨ isAsciiAlnum c = true := by
  rcases u.exists_core token with hnil | ⟨head, core, tail, rfl, hcore, hhead, htail, hfirst, hlast⟩
  · rw [u.rewrite_of_core_nil hnil] at h
    exact .inl h
  rw [u.rewrite_append hhead htail hfirst hlast, List.mem_append, List.mem_append] at h
  rcases h with (h | h) | h
  · exact .inl (List.mem_append_left _ (List.mem_append_left _ h))
  · cases hcanonical : u.canonicalOf core with
    | none =>
      rw [hcanonical] at h
      exact .inl (List.mem_append_left _ (List.mem_append_right _ h))
    | some r =>
      obtain ⟨canonical, source⟩ := r
      rw [hcanonical] at h
      rcases u.canonicalOf_cases hcanonical with ⟨-, e, he, rfl⟩ | ⟨-, rfl⟩
      · exact .inr (List.all_eq_true.mp (entries e he).2.2.2.1 c h)
      · have hmem : c ∈ compound (u.parts (u.segments core)) :=
          (List.rdropWhile_prefix _ _).subset h
        rcases u.mem_compound (fun part hpart => u.isPart_parts (List.Subset.refl _) hpart) hmem with
          hletter | ⟨part, hpart, hc⟩
        · exact .inr (by rw [isAsciiAlnum, hletter]; rfl)
        · have hin := u.parts_subset _ hpart hc
          rw [u.flatten_segments] at hin
          exact .inl (List.mem_append_left _ (List.mem_append_right _ hin))
  · exact .inl (List.mem_append_right _ h)

theorem rewrite_ne_nil {token : Text} (h : token ≠ []) : u.rewrite token ≠ [] := by
  rcases u.exists_core token with hnil | ⟨head, core, tail, rfl, hcore, hhead, htail, hfirst, hlast⟩
  · rwa [u.rewrite_of_core_nil hnil]
  rw [u.rewrite_append hhead htail hfirst hlast]
  have hne : ((u.canonicalOf core).map (·.1)).getD core ≠ [] := by
    cases hcanonical : u.canonicalOf core with
    | none =>
      obtain ⟨c, hc, -⟩ := hfirst
      rintro rfl
      cases hc
    | some r =>
      obtain ⟨canonical, source⟩ := r
      rcases u.canonicalOf_cases hcanonical with ⟨-, e, he, rfl⟩ | ⟨htwo, rfl⟩
      · exact (entries e he).2.2.1
      · have hne : u.parts (u.segments core) ≠ [] := by
          rintro hnil
          rw [hnil] at htwo
          cases htwo
        obtain ⟨parts', rest, htrimmed, -, -, -, -, -, ⟨c, hc, -⟩, -⟩ := u.coreOf_spec hne
          fun part hpart => u.isPart_parts (List.Subset.refl _) hpart
        show trimmed _ ≠ []
        rw [htrimmed]
        intro hnil
        rw [(List.append_eq_nil_iff.mp hnil).1] at hc
        cases hc
  intro hnil
  exact hne (List.append_eq_nil_iff.mp (List.append_eq_nil_iff.mp hnil).1).2

end Unicode

end ForgeKit.Canonicalizer
