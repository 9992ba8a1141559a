import ForgeKit.Lib.JsonSorted

/-!
# Reading the fields of a JSON dict

The ways in which a `from_dict` reads a key, each with the law that it reads back what the matching
`to_dict` wrote, through text with sorted keys.

* `toInt?_ofInt` — an integer is read back from its digits
* `strAt_sorted`, `intAt_sorted`, `optStr_sorted`, … — one law for each way to read a key
* `dictsAt_sorted` — a list of records
-/

namespace JsonText

open Py (Text CodePoint)

/-! ## Integers -/

/-- The value of a word of digits. -/
def readDecimal (t : Text) : Nat := Nat.ofDigits 10 (t.reverse.map fun c => c.val - 0x30)

/-- The value of a word that is written as an integer. -/
def readInt : Text → Option Int
  | [] => none
  | c :: t =>
    if c = Py.ofChar '-' then if t ≠ [] ∧ t.all isDigit then some (-(readDecimal t : Int)) else none
    else if (c :: t).all isDigit then some (readDecimal (c :: t)) else none

/-- The number, when it is an `int`. -/
def Number.toInt? (n : Number) : Option Int := readInt n.word

theorem all_isDigit_decimal (n : Nat) : (decimal n).all isDigit = true := by
  unfold decimal
  split
  · decide
  · rw [List.all_eq_true]
    intro c hc
    obtain ⟨d, -, rfl⟩ := List.mem_map.mp hc
    exact isDigit_digitChar d

theorem decimal_ne_nil (n : Nat) : decimal n ≠ [] := by
  unfold decimal
  split
  · decide
  · next hn => simpa using Nat.digits_ne_nil_iff_ne_zero.mpr hn

theorem readDecimal_decimal (n : Nat) : readDecimal (decimal n) = n := by
  unfold decimal
  split
  · next hn => rw [hn]; rfl
  · have hdigit : ∀ d ∈ Nat.digits 10 n, (fun d => (digitChar d).val - 0x30) d = d := by
      intro d hd
      have hlt : d < 10 := Nat.digits_lt_base (by omega) hd
      show (digitChar d).val - 0x30 = d
      rw [val_digitChar]
      omega
    rw [readDecimal, ← List.map_reverse, List.reverse_reverse, List.map_map]
    show Nat.ofDigits 10 ((Nat.digits 10 n).map fun d => (digitChar d).val - 0x30) = n
    rw [List.map_congr_left hdigit, List.map_id', Nat.ofDigits_digits]

/-- **An integer is read back from its digits.** -/
theorem toInt?_ofInt (n : Int) : (Number.ofInt n).toInt? = some n := by
  have hall := all_isDigit_decimal n.natAbs
  show readInt (if n < 0 then Py.ofChar '-' :: decimal n.natAbs else decimal n.natAbs) = some n
  by_cases hn : n < 0
  · rw [if_pos hn, readInt, if_pos rfl, if_pos ⟨decimal_ne_nil _, hall⟩, readDecimal_decimal]
    congr 1
    omega
  · rw [if_neg hn]
    cases hdec : decimal n.natAbs with
    | nil => exact absurd hdec (decimal_ne_nil _)
    | cons c t =>
      have hdigit : isDigit c = true := by
        rw [hdec] at hall
        exact List.all_eq_true.mp hall c List.mem_cons_self
      have hminus : c ≠ Py.ofChar '-' := by
        rintro rfl
        exact absurd hdigit (by decide)
      rw [hdec] at hall
      rw [readInt, if_neg hminus, if_pos hall, ← hdec, readDecimal_decimal]
      congr 1
      omega

/-! ## Values that are written -/

def ofInt (n : Int) : Value := .num (.ofInt n)

/-- A text or `None`. -/
def ofText? : Option Text → Value
  | some t => .str t
  | none => .null

/-- An integer or `None`. -/
def ofInt? : Option Int → Value
  | some n => ofInt n
  | none => .null

def ofTexts (ts : List Text) : Value := .arr (ts.map .str)

def ofDicts (ds : List JsonDict) : Value := .arr (ds.map fun d => .obj d.members)

theorem valid_ofText? (o : Option Text) : (ofText? o).Valid := by
  cases o <;> trivial

theorem valid_ofInt? (o : Option Int) : (ofInt? o).Valid := by
  cases o <;> trivial

theorem valid_ofTexts (ts : List Text) : (ofTexts ts).Valid := by
  show validElems (ts.map .str)
  induction ts with
  | nil => trivial
  | cons t ts ih => exact ⟨trivial, ih⟩

theorem valid_ofDicts (ds : List JsonDict) : (ofDicts ds).Valid := by
  show validElems (ds.map fun d => .obj d.members)
  induction ds with
  | nil => trivial
  | cons d ds ih => exact ⟨d.valid, ih⟩

theorem sortKeys_ofText? (o : Option Text) : (ofText? o).sortKeys = ofText? o := by
  cases o <;> rfl

theorem sortKeys_ofTexts (ts : List Text) : (ofTexts ts).sortKeys = ofTexts ts := by
  show Value.arr (sortElems (ts.map .str)) = .arr (ts.map .str)
  rw [sortElems_eq_map, List.map_map]
  rfl

theorem sortKeys_ofDicts (ds : List JsonDict) :
    (ofDicts ds).sortKeys = ofDicts (ds.map JsonDict.sorted) := by
  show Value.arr (sortElems (ds.map fun d => .obj d.members))
    = .arr ((ds.map JsonDict.sorted).map fun d => .obj d.members)
  rw [sortElems_eq_map, List.map_map, List.map_map]
  rfl

/-! ## Reading a key -/

/-- What Python makes of a JSON value of another kind than the one that is asked for. -/
structure Conversions where
  str : Value → Text
  /-- `none` where `int(v)` raises. -/
  int : Value → Option Int
  bool : Number → Bool

/-- `str(v)`. -/
def Conversions.strOf (py : Conversions) : Value → Text
  | .str t => t
  | v => py.str v

/-- `int(v)`. -/
def Conversions.intOf (py : Conversions) (v : Value) : Option Int :=
  match v with
  | .num n => n.toInt?.or (py.int v)
  | _ => py.int v

/-- `bool(v)`. -/
def Conversions.truthy (py : Conversions) : Value → Bool
  | .null => false
  | .bool b => b
  | .num n => py.bool n
  | .str t => t ≠ []
  | .arr vs => !vs.isEmpty
  | .obj d => !d.isEmpty

/-- `d.get(k)`. -/
def get (d : List (Text × Value)) (k : Text) : Value := (d.lookup k).getD .null

/-- `d.get(k, default)`. -/
def getOr (d : List (Text × Value)) (k default : Text) : Value := (d.lookup k).getD (.str default)

/-- `v or w`. -/
def Conversions.orElse (py : Conversions) (v w : Value) : Value := if py.truthy v then v else w

/-- `for x in v`. -/
def items : Value → Option (List Value)
  | .arr vs => some vs
  | .obj d => some (d.map fun m => .str m.1)
  | .str t => some (t.map fun c => .str [c])
  | _ => none

variable (py : Conversions)

/-- `str(d[k])`. -/
def strAt (d : List (Text × Value)) (k : Text) : Option Text := (d.lookup k).map py.strOf

/-- `int(d[k])`. -/
def intAt (d : List (Text × Value)) (k : Text) : Option Int := (d.lookup k).bind py.intOf

/-- `bool(d[k])`. -/
def boolAt (d : List (Text × Value)) (k : Text) : Option Bool := (d.lookup k).map py.truthy

/-- `str(d.get(k) or default)`. -/
def strOr (d : List (Text × Value)) (k default : Text) : Text :=
  if py.truthy (get d k) then py.strOf (get d k) else default

/-- `bool(d.get(k) or False)`. -/
def boolOrFalse (d : List (Text × Value)) (k : Text) : Bool := py.truthy (get d k)

/-- `None if d.get(k) is None else str(d.get(k))`. -/
def optStr (d : List (Text × Value)) (k : Text) : Option Text :=
  match get d k with
  | .null => none
  | v => some (py.strOf v)

/-- `[str(x) for x in d.get(k, [])]`. -/
def textsAt (d : List (Text × Value)) (k : Text) : Option (List Text) :=
  (items ((d.lookup k).getD (.arr []))).map (·.map py.strOf)

/-- The items that are dicts. -/
def Value.dict? : Value → Option (List (Text × Value))
  | .obj d => some d
  | _ => none

/-- `d[k]`, kept as it is, where the code takes it for a text. -/
def rawText (d : List (Text × Value)) (k : Text) : Option Text :=
  match d.lookup k with
  | some (.str t) => some t
  | _ => none

/-- `d.get(k, default)`, kept as it is, where the code takes it for a text. -/
def rawTextOr (d : List (Text × Value)) (k default : Text) : Option Text :=
  match getOr d k default with
  | .str t => some t
  | _ => none

/-- `d[k]`, kept as it is, where the code takes it for a boolean. -/
def rawBool (d : List (Text × Value)) (k : Text) : Option Bool :=
  match d.lookup k with
  | some (.bool b) => some b
  | _ => none

/-- `d.get(k)`, kept as it is, where the code takes it for a text or `None`. -/
def rawText? (d : List (Text × Value)) (k : Text) : Option (Option Text) :=
  match get d k with
  | .null => some none
  | .str t => some (some t)
  | _ => none

/-- `d.get(k)`, kept as it is, where the code takes it for an integer or `None`. -/
def rawInt? (d : List (Text × Value)) (k : Text) : Option (Option Int) :=
  match get d k with
  | .null => some none
  | .num n => n.toInt?.map some
  | _ => none

/-- `d[k]`, when it is a dict. -/
def dictAt (d : List (Text × Value)) (k : Text) : Option (List (Text × Value)) :=
  (d.lookup k).bind Value.dict?

/-- `[read(x) for x in d.get(k, []) if isinstance(x, dict)]`. -/
def dictsAt {α : Type} (read : List (Text × Value) → Option α) (d : List (Text × Value)) (k : Text) :
    Option (List α) := do
  let vs ← items ((d.lookup k).getD (.arr []))
  (vs.filterMap Value.dict?).mapM read

/-! ## What was written is read -/

section Sorted

variable {d : JsonDict} {k : Text}

theorem lookup_sorted_of {v : Value} (h : d.members.lookup k = some v) :
    d.sorted.members.lookup k = some v.sortKeys := by
  rw [JsonDict.lookup_sorted, h, Option.map_some]

theorem strAt_sorted {t : Text} (h : d.members.lookup k = some (.str t)) :
    strAt py d.sorted.members k = some t := by
  rw [strAt, lookup_sorted_of h]
  rfl

theorem intAt_sorted {n : Int} (h : d.members.lookup k = some (ofInt n)) :
    intAt py d.sorted.members k = some n := by
  rw [intAt, lookup_sorted_of h]
  show (Number.ofInt n).toInt?.or _ = some n
  rw [toInt?_ofInt, Option.some_or]

theorem boolAt_sorted {b : Bool} (h : d.members.lookup k = some (.bool b)) :
    boolAt py d.sorted.members k = some b := by
  rw [boolAt, lookup_sorted_of h]
  rfl

theorem get_sorted {v : Value} (h : d.members.lookup k = some v) :
    get d.sorted.members k = v.sortKeys := by
  rw [get, lookup_sorted_of h, Option.getD_some]

theorem boolOrFalse_sorted {b : Bool} (h : d.members.lookup k = some (.bool b)) :
    boolOrFalse py d.sorted.members k = b := by
  rw [boolOrFalse, get_sorted h]
  rfl

/-- The empty text is read back as the default. -/
theorem strOr_sorted {t default : Text} (h : d.members.lookup k = some (.str t)) :
    strOr py d.sorted.members k default = if t = [] then default else t := by
  rw [strOr, get_sorted h]
  show (if decide (t ≠ []) = true then t else default) = _
  by_cases ht : t = []
  · rw [if_pos ht, if_neg (by simp [ht])]
  · rw [if_neg ht, if_pos (by simp [ht])]

theorem strOr_sorted_nil {t : Text} (h : d.members.lookup k = some (.str t)) :
    strOr py d.sorted.members k [] = t := by
  rw [strOr_sorted py h]
  split
  · next ht => exact ht.symm
  · rfl

theorem optStr_sorted {o : Option Text} (h : d.members.lookup k = some (ofText? o)) :
    optStr py d.sorted.members k = o := by
  rw [optStr, get_sorted h, sortKeys_ofText?]
  cases o <;> rfl

theorem textsAt_sorted {l : List Text} (h : d.members.lookup k = some (ofTexts l)) :
    textsAt py d.sorted.members k = some l := by
  rw [textsAt, lookup_sorted_of h, sortKeys_ofTexts]
  show some ((l.map Value.str).map py.strOf) = some l
  rw [List.map_map]
  exact congrArg some (List.map_id' l)

theorem rawText_sorted {t : Text} (h : d.members.lookup k = some (.str t)) :
    rawText d.sorted.members k = some t := by
  rw [rawText, lookup_sorted_of h]
  rfl

theorem rawTextOr_sorted {t default : Text} (h : d.members.lookup k = some (.str t)) :
    rawTextOr d.sorted.members k default = some t := by
  rw [rawTextOr, getOr, lookup_sorted_of h]
  rfl

theorem rawBool_sorted {b : Bool} (h : d.members.lookup k = some (.bool b)) :
    rawBool d.sorted.members k = some b := by
  rw [rawBool, lookup_sorted_of h]
  rfl

theorem rawText?_sorted {o : Option Text} (h : d.members.lookup k = some (ofText? o)) :
    rawText? d.sorted.members k = some o := by
  rw [rawText?, get_sorted h, sortKeys_ofText?]
  cases o <;> rfl

theorem rawInt?_sorted {o : Option Int} (h : d.members.lookup k = some (ofInt? o)) :
    rawInt? d.sorted.members k = some o := by
  rw [rawInt?, get_sorted h]
  cases o with
  | none => rfl
  | some n =>
    show (Number.ofInt n).toInt?.map some = some (some n)
    rw [toInt?_ofInt, Option.map_some]

theorem dictAt_sorted {e : JsonDict} (h : d.members.lookup k = some (.obj e.members)) :
    dictAt d.sorted.members k = some e.sorted.members := by
  rw [dictAt, lookup_sorted_of h]
  rfl

theorem mapM_map_of_forall {α β : Type} {read : β → Option α} {write : α → β} {f : α → α}
    {xs : List α} (h : ∀ x ∈ xs, read (write x) = some (f x)) :
    (xs.map write).mapM read = some (xs.map f) := by
  induction xs with
  | nil => rfl
  | cons x xs ih =>
    rw [List.map_cons, List.mapM_cons, h x List.mem_cons_self,
      ih fun y hy => h y (List.mem_cons_of_mem _ hy)]
    rfl

theorem filterMap_dict? (ds : List JsonDict) :
    (ds.map fun d => Value.obj d.members).filterMap Value.dict? = ds.map JsonDict.members := by
  induction ds with
  | nil => rfl
  | cons d ds ih => exact congrArg (d.members :: ·) ih

/-- A list of records is read as each record is. -/
theorem dictsAt_sorted_map {α : Type} {read : List (Text × Value) → Option α}
    {write : α → JsonDict} {f : α → α} {xs : List α}
    (h : d.members.lookup k = some (ofDicts (xs.map write)))
    (hread : ∀ x ∈ xs, read (write x).sorted.members = some (f x)) :
    dictsAt read d.sorted.members k = some (xs.map f) := by
  rw [dictsAt, lookup_sorted_of h, sortKeys_ofDicts]
  show List.mapM read (List.filterMap Value.dict?
    (((xs.map write).map JsonDict.sorted).map fun d => .obj d.members)) = some (xs.map f)
  rw [filterMap_dict?, List.map_map, List.map_map]
  exact mapM_map_of_forall hread

/-- **A list of records is read back** when each record is. -/
theorem dictsAt_sorted {α : Type} {read : List (Text × Value) → Option α} {write : α → JsonDict}
    {xs : List α} (h : d.members.lookup k = some (ofDicts (xs.map write)))
    (hread : ∀ x ∈ xs, read (write x).sorted.members = some x) :
    dictsAt read d.sorted.members k = some xs := by
  rw [dictsAt_sorted_map (f := id) h hread, List.map_id]

end Sorted

/-! ## Items that are dicts -/

/-- The items of a list, with their validity. -/
def documents : (vs : List Value) → validElems vs → List Document
  | [], _ => []
  | v :: vs, h => ⟨v, h.1⟩ :: documents vs h.2

/-- `for x in v`, for a document. -/
def Document.items? : Document → Option (List Document)
  | ⟨.arr vs, h⟩ => some (documents vs h)
  | ⟨.obj d, _⟩ => some (d.map fun m => ⟨.str m.1, trivial⟩)
  | ⟨.str t, _⟩ => some (t.map fun c => ⟨.str [c], trivial⟩)
  | _ => none

/-- The dict, as a document. -/
def JsonDict.document (d : JsonDict) : Document := ⟨.obj d.members, d.valid⟩

theorem documents_map_document (ds : List JsonDict)
    (h : validElems (ds.map fun d => .obj d.members)) :
    documents (ds.map fun d => .obj d.members) h = ds.map JsonDict.document := by
  induction ds with
  | nil => rfl
  | cons d ds ih => exact congrArg (d.document :: ·) (ih h.2)

theorem get?_sorted_of {d : JsonDict} {k : Text} {v : Value} (hv : v.Valid)
    (h : d.members.lookup k = some v) : d.sorted.get? k = some ⟨v.sortKeys, v.valid_sortKeys hv⟩ :=
  JsonDict.get?_eq_some_iff.mpr (lookup_sorted_of h)

/-- A list of dicts is read as their sorted dicts. -/
theorem items?_sorted_dicts {d : JsonDict} {k : Text} {ds : List JsonDict}
    (h : d.members.lookup k = some (ofDicts ds)) :
    ∃ v, d.sorted.get? k = some v ∧ v.items? = some ((ds.map JsonDict.sorted).map JsonDict.document) ∧
      v.1 = ofDicts (ds.map JsonDict.sorted) := by
  have hvalid := valid_ofDicts (ds.map JsonDict.sorted)
  have hget : d.sorted.get? k = some ⟨ofDicts (ds.map JsonDict.sorted), hvalid⟩ := by
    refine JsonDict.get?_eq_some_iff.mpr ?_
    rw [lookup_sorted_of h, sortKeys_ofDicts]
  refine ⟨_, hget, ?_, rfl⟩
  exact congrArg some (documents_map_document _ hvalid)

end JsonText
