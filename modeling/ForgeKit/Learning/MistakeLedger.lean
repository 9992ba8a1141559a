import Mathlib.Data.Finset.Card
import Mathlib.Data.List.Sort
import Mathlib.Data.Prod.Lex
import Mathlib.Data.String.Basic
import Mathlib.Algebra.Field.Rat
import Mathlib.Algebra.Order.Ring.Unbundled.Rat
import ForgeKit.Lib.Json
import ForgeKit.Lib.Table

/-!
# The mistake ledger (`mistake_ledger.py`)

One row for each role, pattern and signature. `record_mistake` inserts the row or bumps it and
opens it again, `resolve` closes it, `prune_old_resolved` deletes closed rows, and `find_similar`
is what the preflight asks before it lets an action run.

A text is a string that the driver can bind. The ids of `_new_record_id` do not repeat, so they are
numbers. `float` ratios and thresholds are rational.
-/

namespace ForgeKit

/-! ## Levels -/

inductive BlockerLevel where
  | advisory
  | warning
  | block
deriving DecidableEq, Repr

/-- `_LEVEL_ORDER`. -/
def BlockerLevel.rank : BlockerLevel → ℕ
  | .advisory => 0
  | .warning => 1
  | .block => 2

/-- `max_blocker_level` of two levels. -/
def maxBlockerLevel (a b : BlockerLevel) : BlockerLevel := if a.rank < b.rank then b else a

theorem rank_maxBlockerLevel (a b : BlockerLevel) :
    (maxBlockerLevel a b).rank = max a.rank b.rank := by
  unfold maxBlockerLevel
  split <;> omega

theorem maxBlockerLevel_cases (a b : BlockerLevel) :
    maxBlockerLevel a b = a ∨ maxBlockerLevel a b = b := by
  unfold maxBlockerLevel
  split
  · exact .inr rfl
  · exact .inl rfl

/-! ## Similarity -/

namespace Mistakes

/-- A character of `[a-z0-9]`. -/
def isTokenChar (c : Char) : Bool :=
  ('a'.toNat ≤ c.toNat && c.toNat ≤ 'z'.toNat) || ('0'.toNat ≤ c.toNat && c.toNat ≤ '9'.toNat)

/-- `_TOKEN_RE.findall`. -/
def findTokens (cs : List Char) : List (List Char) :=
  (cs.splitOnP fun c => !isTokenChar c).filter (· ≠ [])

/-- `_tokenize`. -/
def tokenize (value : String) : Finset (List Char) :=
  (findTokens (PyText.lower (PyText.strip value)).toList).toFinset

/-- `jaccard_similarity`. -/
def jaccardSimilarity (a b : String) : ℚ :=
  let tokensA := tokenize a
  let tokensB := tokenize b
  if tokensA = ∅ ∨ tokensB = ∅ then 0
  else ((tokensA ∩ tokensB).card : ℚ) / ((tokensA ∪ tokensB).card : ℚ)

theorem jaccardSimilarity_self {a : String} (h : tokenize a ≠ ∅) : jaccardSimilarity a a = 1 := by
  have hcard : ((tokenize a).card : ℚ) ≠ 0 :=
    Nat.cast_ne_zero.mpr (Finset.card_ne_zero.mpr (Finset.nonempty_iff_ne_empty.mpr h))
  simp only [jaccardSimilarity, h, or_self, if_false, Finset.inter_self, Finset.union_self]
  exact div_self hcard

theorem jaccardSimilarity_of_no_tokens {a : String} (h : tokenize a = ∅) (b : String) :
    jaccardSimilarity a b = 0 := by
  simp only [jaccardSimilarity, h, true_or, if_true]

@[simp] theorem tokenize_strip (a : String) : tokenize (PyText.strip a) = tokenize a := by
  unfold tokenize
  rw [PyText.strip_strip]

@[simp] theorem jaccardSimilarity_strip (a b : String) :
    jaccardSimilarity (PyText.strip a) (PyText.strip b) = jaccardSimilarity a b := by
  simp only [jaccardSimilarity, tokenize_strip]

end Mistakes

/-! ## The table -/

/-- `MistakeRecord`, also a row of the table. -/
structure MistakeRecord where
  id : ℕ
  role : String
  pattern : String
  signature : String
  firstSeen : String
  lastSeen : String
  occurrences : ℕ
  blockerLevel : BlockerLevel
  postmortemRef : Option String
  resolvedAt : Option String
deriving DecidableEq, Repr

/-- The columns of the unique index. -/
def MistakeRecord.key (r : MistakeRecord) : String × String × String :=
  (r.role, r.pattern, r.signature)

namespace Mistakes

/-- `_optional_str`. -/
@[irreducible] def optionalStr (value : Option String) : Option String :=
  value.bind fun text => if PyText.strip text = "" then none else some (PyText.strip text)

/-- `_row_to_record`. -/
def rowToRecord (row : MistakeRecord) : MistakeRecord :=
  { row with postmortemRef := optionalStr row.postmortemRef, resolvedAt := optionalStr row.resolvedAt }

/-- `(when or _utc_now_iso()).strip() or _utc_now_iso()`. -/
@[irreducible] def stamp (when_ : Option String) (utcNow : String) : String :=
  let given := when_.getD ""
  let text := PyText.strip (if given = "" then utcNow else given)
  if text = "" then utcNow else text

/-- `_require_non_empty`. -/
def requireNonEmpty (name value : String) : Except String String :=
  if PyText.strip value = "" then .error (name ++ " is required and must be non-empty")
  else .ok (PyText.strip value)

/-- The table under `MistakeLedger`. -/
structure Ledger where
  rows : Table (String × String × String) MistakeRecord MistakeRecord.key
  /-- The next id that `_new_record_id` returns. -/
  nextId : ℕ

/-- The arguments of `record_mistake`, with the clock read. -/
structure RecordArgs where
  role : String
  pattern : String
  signature : String
  postmortemRef : Option String := none
  blockerLevel : BlockerLevel := .advisory
  when_ : Option String := none
  utcNow : String

/-- The key under which a mistake is kept. -/
def keyOf (role pattern signature : String) : String × String × String :=
  (PyText.strip role, PyText.strip pattern, PyText.strip signature)

namespace Ledger

def empty : Ledger := ⟨.empty, 0⟩

/-- The row that `record_mistake` inserts. -/
def freshRow (l : Ledger) (key : String × String × String) (a : RecordArgs) : MistakeRecord where
  id := l.nextId
  role := key.1
  pattern := key.2.1
  signature := key.2.2
  firstSeen := stamp a.when_ a.utcNow
  lastSeen := stamp a.when_ a.utcNow
  occurrences := 1
  blockerLevel := a.blockerLevel
  postmortemRef := optionalStr a.postmortemRef
  resolvedAt := none

/-- The row of an existing record after `record_mistake`. -/
def bumped (current : MistakeRecord) (a : RecordArgs) : MistakeRecord :=
  { current with
    lastSeen := stamp a.when_ a.utcNow
    occurrences := current.occurrences + 1
    blockerLevel := maxBlockerLevel current.blockerLevel a.blockerLevel
    postmortemRef :=
      -- `current.postmortem_ref or ref_value`
      (optionalStr current.postmortemRef).or (optionalStr a.postmortemRef)
    resolvedAt := none }

/-- A row after `resolve`. -/
def closed (resolvedAt : String) (row : MistakeRecord) : MistakeRecord :=
  { row with resolvedAt := some resolvedAt }

theorem closed_key (resolvedAt : String) (r : MistakeRecord) : (closed resolvedAt r).key = r.key :=
  rfl

theorem bumped_key (a : RecordArgs) (r : MistakeRecord) : (bumped r a).key = r.key := rfl

@[simp] theorem bumped_id (a : RecordArgs) (r : MistakeRecord) : (bumped r a).id = r.id := rfl

@[simp] theorem bumped_occurrences (a : RecordArgs) (r : MistakeRecord) :
    (bumped r a).occurrences = r.occurrences + 1 := rfl

@[simp] theorem bumped_blockerLevel (a : RecordArgs) (r : MistakeRecord) :
    (bumped r a).blockerLevel = maxBlockerLevel r.blockerLevel a.blockerLevel := rfl

@[simp] theorem bumped_resolvedAt (a : RecordArgs) (r : MistakeRecord) :
    (bumped r a).resolvedAt = none := rfl

@[simp] theorem closed_id (resolvedAt : String) (r : MistakeRecord) : (closed resolvedAt r).id = r.id :=
  rfl

theorem freshRow_free {l : Ledger} {key : String × String × String} (h : l.rows.find? key = none)
    (a : RecordArgs) : l.rows.find? (l.freshRow key a).key = none := h

theorem key_updated {f : MistakeRecord → MistakeRecord} (hf : ∀ r, (f r).key = r.key) (id : ℕ)
    (r : MistakeRecord) : (if r.id = id then f r else r).key = r.key := by
  split
  · exact hf r
  · rfl

/-- `UPDATE … WHERE id = ?`. -/
def updateId (l : Ledger) (id : ℕ) (f : MistakeRecord → MistakeRecord)
    (hf : ∀ r, (f r).key = r.key) : Ledger :=
  { l with rows := l.rows.mapRows (fun r => if r.id = id then f r else r) (key_updated hf id) }

/-- `record_mistake` once its arguments are checked. -/
def upsert (l : Ledger) (key : String × String × String) (a : RecordArgs) : MistakeRecord × Ledger :=
  match hfind : l.rows.find? key with
  | none =>
    (l.freshRow key a, ⟨l.rows.insert (l.freshRow key a) (freshRow_free hfind a), l.nextId + 1⟩)
  | some current =>
    (bumped current a, l.updateId current.id (bumped · a) (bumped_key a))

/-- `record_mistake`; the error is the message of the `ValueError`. -/
def recordMistake (l : Ledger) (a : RecordArgs) : Except String (MistakeRecord × Ledger) := do
  let role ← requireNonEmpty "role" a.role
  let pattern ← requireNonEmpty "pattern" a.pattern
  let signature ← requireNonEmpty "signature" a.signature
  return l.upsert (role, pattern, signature) a

/-- `resolve`. -/
def resolve (l : Ledger) (recordId : ℕ) (resolvedAt : Option String) (utcNow : String) :
    Option MistakeRecord × Ledger :=
  match l.rows.rows.find? fun r => r.id = recordId with
  | none => (none, l)
  | some row =>
    let current := rowToRecord row
    if current.resolvedAt.isSome then (some current, l)
    else
      (some (closed (stamp resolvedAt utcNow) current),
        l.updateId recordId (closed (stamp resolvedAt utcNow)) (closed_key _))

/-- `prune_old_resolved`, given its `cutoff_iso`. -/
def pruneOldResolved (l : Ledger) (cutoffIso : String) : Ledger :=
  { l with rows := l.rows.filterRows fun r => !r.resolvedAt.any fun t => decide (t ≤ cutoffIso) }

/-! ## `find_similar` -/

/-- What `find_similar` sorts by. -/
def sortKey (signature : String) (r : MistakeRecord) : ℚ ×ₗ ℤ ×ₗ String :=
  toLex (-jaccardSimilarity r.signature signature, toLex (-(r.occurrences : ℤ), r.lastSeen))

/-- A row that `find_similar` returns, for a role and a signature without white space around. -/
def selects (role signature : String) (threshold : ℚ) (includeResolved : Bool) (r : MistakeRecord) :
    Bool :=
  r.role = role && (includeResolved || r.resolvedAt.isNone)
    && decide (max 0 threshold ≤ jaccardSimilarity r.signature signature)

/-- `find_similar`. -/
def findSimilar (l : Ledger) (role signature : String) (threshold : ℚ) (includeResolved : Bool) :
    List MistakeRecord :=
  if PyText.strip role = "" then []
  else if PyText.strip signature = "" then []
  else
    ((l.rows.rows.filter (selects (PyText.strip role) (PyText.strip signature) threshold
      includeResolved)).map rowToRecord).insertionSort
      fun r r' => sortKey (PyText.strip signature) r ≤ sortKey (PyText.strip signature) r'

end Ledger

end Mistakes

end ForgeKit
