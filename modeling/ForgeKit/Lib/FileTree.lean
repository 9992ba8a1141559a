import ForgeKit.Lib.PosixPath

/-!
# Trees of text files

A tree says what is at each location. The operations are those of `pathlib`, with the two kinds of
exception a caller tells apart: an `OSError`, and a `ValueError` of a text or a name that cannot be
encoded or decoded. Opening a file for writing empties it before the text is encoded.

* `makeDirs`, `readText`, `writeText` — the operations
* `bytesAt_makeDirs`, `bytesAt_writeText` — what they do to the files
-/

namespace FileTree

open Py (Text CodePoint)
open PosixPath (Location)

/-- What is at a location. -/
inductive Entry where
  | dir
  | file (bytes : ByteArray)

instance : DecidableEq Entry
  | .dir, .dir => isTrue rfl
  | .dir, .file _ => isFalse nofun
  | .file _, .dir => isFalse nofun
  | .file b, .file c => decidable_of_iff (b.data = c.data) (by rw [Entry.file.injEq, ByteArray.ext_iff])

abbrev Tree := Location → Option Entry

/-- The `OSError`s that a tree can answer with. -/
inductive OsError where
  | notFound
  | isDirectory
  | notDirectory
deriving DecidableEq, Repr

/-- What an operation raises. -/
inductive Raised where
  | os (e : OsError)
  | value
deriving DecidableEq, Repr

/-- A name that the file system can be asked for: no NUL, no surrogate but the escaped bytes. -/
def isFsName (n : Text) : Bool :=
  n.all fun c => c.val != 0 && (!Py.isSurrogate c || (0xDC80 ≤ c.val && c.val ≤ 0xDCFF))

/-- The bytes of the file at a location. -/
def bytesAt (t : Tree) (loc : Location) : Option ByteArray :=
  match t loc with
  | some (.file b) => some b
  | _ => none

/-- `path.exists()`. -/
def pathExists (t : Tree) (loc : Location) : Bool := loc.all isFsName && (t loc).isSome

/-- `path.read_text(encoding="utf-8")`. -/
def readText (t : Tree) (loc : Location) : Except Raised Text :=
  if loc.all isFsName = false then .error .value
  else match t loc with
    | none => .error (.os .notFound)
    | some .dir => .error (.os .isDirectory)
    | some (.file b) =>
      match Py.readText b with
      | some text => .ok text
      | none => .error .value

/-- `path.mkdir(parents=True, exist_ok=True)`. -/
def makeDirs (t : Tree) (loc : Location) : Except Raised Tree :=
  if loc.all isFsName = false then .error .value
  else if loc.inits.any fun l => (bytesAt t l).isSome then .error (.os .notDirectory)
  else .ok fun l => if l ∈ loc.inits then some .dir else t l

/-- A file in the place of what was there. -/
def put (t : Tree) (loc : Location) (b : ByteArray) : Tree :=
  fun l => if l = loc then some (.file b) else t l

/-- `path.write_text(text, encoding="utf-8")` where the directory of the path exists. -/
def writeText (t : Tree) (loc : Location) (text : Text) : Except Raised Unit × Tree :=
  if loc.all isFsName = false then (.error .value, t)
  else if t loc = some .dir then (.error (.os .isDirectory), t)
  else match Py.encode text with
    | none => (.error .value, put t loc .empty)
    | some b => (.ok (), put t loc b)

/-! ## The files -/

theorem bytesAt_put (t : Tree) (loc : Location) (b : ByteArray) (l : Location) :
    bytesAt (put t loc b) l = if l = loc then some b else bytesAt t l := by
  unfold bytesAt put
  by_cases h : l = loc <;> simp [h]

@[simp] theorem bytesAt_put_self (t : Tree) (loc : Location) (b : ByteArray) :
    bytesAt (put t loc b) loc = some b := by
  rw [bytesAt_put, if_pos rfl]

theorem bytesAt_put_eq_iff {t : Tree} {loc : Location} {b : ByteArray} :
    bytesAt (put t loc b) = bytesAt t ↔ bytesAt t loc = some b := by
  constructor
  · intro h
    rw [← h, bytesAt_put_self]
  · intro h
    funext l
    rw [bytesAt_put]
    split
    · next he => rw [he, h]
    · rfl

/-- Making directories changes no file. -/
theorem bytesAt_makeDirs {t t' : Tree} {loc : Location} (h : makeDirs t loc = .ok t') :
    bytesAt t' = bytesAt t := by
  unfold makeDirs at h
  split at h
  · cases h
  · split at h
    · cases h
    · next hno =>
      cases h
      funext l
      by_cases hl : l ∈ loc.inits
      · have hnone : bytesAt t l = none := by
          by_contra hne
          exact hno (List.any_eq_true.mpr ⟨l, hl, Option.isSome_iff_ne_none.mpr hne⟩)
        rw [hnone]
        simp [bytesAt, hl]
      · simp [bytesAt, hl]

theorem readText_put {t : Tree} {loc : Location} {text : Text} {b : ByteArray}
    (hname : loc.all isFsName = true) (hb : Py.encode text = some b) :
    readText (put t loc b) loc = .ok (Py.universalNewlines false text) := by
  unfold readText
  rw [if_neg (by simp [hname])]
  simp only [put, if_true, Py.readText_encode hb]

theorem readText_ok {t : Tree} {loc : Location} {text : Text} (h : readText t loc = .ok text) :
    loc.all isFsName = true ∧ ∃ b, bytesAt t loc = some b ∧ Py.readText b = some text := by
  unfold readText at h
  split at h
  · cases h
  · next hname =>
    refine ⟨by simpa using hname, ?_⟩
    cases he : t loc with
    | none => rw [he] at h; cases h
    | some e =>
      cases e with
      | dir => rw [he] at h; cases h
      | file b =>
        simp only [he] at h
        refine ⟨b, by simp [bytesAt, he], ?_⟩
        cases hb : Py.readText b with
        | none => rw [hb] at h; cases h
        | some text' => rw [hb] at h; cases h; rfl

end FileTree
