import Mathlib.Data.Rat.Defs
import ForgeKit.Lib.Dict
import ForgeKit.Lib.Trim

/-!
# JSON values under Python's operators

The values a JSON column holds, with the operators Python code applies to them: truth, `str`,
`int`, and the `str(d.get(k) or default)` idiom. The text operators work on code points.

Three of Python's tables are not carried over in full:

* `lower` — exact on every character whose lower case holds an ASCII character, the two such
  non-ASCII characters included. So a comparison of `lower s` with ASCII text is Python's.
* `repr` — strings inside a list or a dict are quoted but not escaped, and a float that is not
  whole prints as a fraction.
* `int` — of a text reads ASCII digits only.
-/

/-- A JSON value. `int` and `float` are different, as they are in Python. -/
inductive Json where
  | null
  | bool (b : Bool)
  | int (n : Int)
  | float (q : ℚ)
  | str (s : String)
  | arr (xs : List Json)
  | obj (d : List (String × Json))
deriving Inhabited

/-! ## Text -/

namespace PyText

/-- `c.isspace()`. -/
def isSpace (c : Char) : Bool :=
  let n := c.toNat
  (0x09 ≤ n && n ≤ 0x0D) || (0x1C ≤ n && n ≤ 0x20) || n == 0x85 || n == 0xA0 || n == 0x1680
    || (0x2000 ≤ n && n ≤ 0x200A) || n == 0x2028 || n == 0x2029 || n == 0x202F || n == 0x205F
    || n == 0x3000

/-- `s.strip()`. -/
def strip (s : String) : String :=
  String.ofList ((s.toList.dropWhile isSpace).reverse.dropWhile isSpace).reverse

/-- A text without white space is its own `strip`. -/
theorem strip_eq_self {s : String} (h : ∀ c ∈ s.toList, isSpace c = false) : strip s = s := by
  have hself : ∀ cs : List Char, (∀ c ∈ cs, isSpace c = false) → cs.dropWhile isSpace = cs := by
    intro cs hcs
    cases cs with
    | nil => rfl
    | cons c cs => rw [List.dropWhile_cons_of_neg (by simp [hcs c])]
  rw [strip, hself _ h, hself _ fun c hc => h c (List.mem_reverse.mp hc), List.reverse_reverse,
    String.ofList_toList]

theorem strip_strip (s : String) : strip (strip s) = strip s := by
  have hlist : ∀ s, (strip s).toList = Trim.trim isSpace s.toList := fun s => String.toList_ofList
  rw [← String.toList_inj, hlist (strip s), hlist s, Trim.trim_trim]

/-- The lower case of one character, which may be two characters. -/
def lowerChar (c : Char) : List Char :=
  if c.toNat == 0x130 then ['i', Char.ofNat 0x307]
  else if c.toNat == 0x212A then ['k']
  else [c.toLower]

/-- `s.lower()`. -/
def lower (s : String) : String := String.ofList (s.toList.flatMap lowerChar)

/-- `s.startswith(p)`. -/
def startsWith (s p : String) : Bool := p.toList.isPrefixOf s.toList

/-- `p in s`. -/
def contains (s p : String) : Bool := s.toList.tails.any fun t => p.toList.isPrefixOf t

/-- What stands before the last occurrence of `p` in a text, if there is one. -/
def beforeLast (p : List Char) : List Char → Option (List Char)
  | [] => none
  | c :: cs =>
    match beforeLast p cs with
    | some before => some (c :: before)
    | none => if p.isPrefixOf (c :: cs) then some [] else none

/-- `s.rsplit(p, 1)[0]`. -/
def rsplitHead (s p : String) : String :=
  ((beforeLast p.toList s.toList).map String.ofList).getD s

/-- Decimal digits with single underscores between them; `digit` says whether one was just read. -/
def digits : List Char → Nat → Bool → Option Nat
  | [], n, digit => if digit then some n else none
  | c :: cs, n, digit =>
    if c = '_' && digit then digits cs n false
    else if '0'.toNat ≤ c.toNat && c.toNat ≤ '9'.toNat then
      digits cs (10 * n + (c.toNat - '0'.toNat)) true
    else none

/-- `int(s)`; `none` is the `ValueError`. -/
def toInt? (s : String) : Option Int :=
  match (strip s).toList with
  | '-' :: cs => (digits cs 0 false).map fun n => -(n : Int)
  | '+' :: cs => (digits cs 0 false).map fun n => (n : Int)
  | cs => (digits cs 0 false).map fun n => (n : Int)

end PyText

namespace Json

/-! ## Operators on values -/

/-- `bool(v)`. -/
def truthy : Json → Bool
  | null => false
  | bool b => b
  | int n => n != 0
  | float q => q != 0
  | str s => s != ""
  | arr xs => !xs.isEmpty
  | obj d => !d.isEmpty

mutual

/-- `repr(v)`. -/
def repr : Json → String
  | null => "None"
  | bool b => if b then "True" else "False"
  | int n => toString n
  | float q => if q.den = 1 then toString q.num ++ ".0" else toString q.num ++ "/" ++ toString q.den
  | str s => "'" ++ s ++ "'"
  | arr xs => "[" ++ reprList xs ++ "]"
  | obj d => "\x7b" ++ reprDict d ++ "\x7d"

def reprList : List Json → String
  | [] => ""
  | [v] => repr v
  | v :: vs => repr v ++ ", " ++ reprList vs

def reprDict : List (String × Json) → String
  | [] => ""
  | [(k, v)] => "'" ++ k ++ "': " ++ repr v
  | (k, v) :: d => "'" ++ k ++ "': " ++ repr v ++ ", " ++ reprDict d

end

/-- `str(v)`. -/
def toStr : Json → String
  | str s => s
  | v => repr v

/-- `int(v)`; `none` is the `TypeError` or the `ValueError`. -/
def toInt? : Json → Option Int
  | bool b => some (if b then 1 else 0)
  | int n => some n
  | float q => some (if 0 ≤ q then q.floor else q.ceil)
  | str s => PyText.toInt? s
  | _ => none

/-- `v` as a mapping, when `isinstance(v, Mapping)`. -/
def obj? : Json → Option (Dict Json)
  | obj d => some d
  | _ => none

/-- `v` as a list, when `isinstance(v, list)`. -/
def arr? : Json → Option (List Json)
  | arr xs => some xs
  | _ => none

/-- `list(v or ())`; `none` is the `TypeError` of a value that cannot be iterated. -/
def items? (v : Json) : Option (List Json) :=
  if v.truthy then
    match v with
    | arr xs => some xs
    | str s => some (s.toList.map fun c => str (String.singleton c))
    | obj d => some (d.map fun e => str e.1)
    | _ => none
  else some []

/-- `v == s`, for a text `s`. -/
def eqStr (v : Json) (s : String) : Bool :=
  match v with
  | str t => t == s
  | _ => false

@[simp] theorem eqStr_str (t s : String) : (str t).eqStr s = (t == s) := rfl

@[simp] theorem items?_arr (xs : List Json) : (arr xs).items? = some xs := by
  cases xs <;> simp [items?, truthy]

/-- `v or w`. -/
def orElse (v w : Json) : Json := if v.truthy then v else w

end Json

/-! ## Reading a dictionary -/

namespace Dict

/-- `d.get(k)`, with `None` for a missing key. -/
def getJson (d : Dict Json) (k : String) : Json := (d.get? k).getD .null

/-- `str(d.get(k) or dflt)`. -/
def strOr (d : Dict Json) (k : String) (dflt : String) : String :=
  if (d.getJson k).truthy then (d.getJson k).toStr else dflt

/-- A stored text is read back, unless it is empty. -/
theorem strOr_str {d : Dict Json} {k s dflt : String} (h : d.get? k = some (.str s)) :
    d.strOr k dflt = if s = "" then dflt else s := by
  unfold strOr getJson
  rw [h, Option.getD_some]
  by_cases hs : s = ""
  · rw [if_pos hs, if_neg (by simp [Json.truthy, hs])]
  · rw [if_neg hs, if_pos (by simp [Json.truthy, hs])]
    rfl

theorem strOr_str_self {d : Dict Json} {k s : String} (h : d.get? k = some (.str s)) :
    d.strOr k "" = s := by
  rw [strOr_str h]
  split
  · next hs => exact hs.symm
  · rfl

@[simp] theorem getJson_set_self (d : Dict Json) (k : String) (v : Json) :
    getJson (set d k v) k = v := by
  simp [getJson]

theorem getJson_set_ne (d : Dict Json) {k k' : String} (v : Json) (h : k' ≠ k) :
    getJson (set d k v) k' = getJson d k' := by
  simp [getJson, get?_set_ne d v h]

theorem getJson_set (d : Dict Json) (k k' : String) (v : Json) :
    getJson (set d k v) k' = if k' = k then v else getJson d k' := by
  split
  case isTrue h => rw [h, getJson_set_self]
  case isFalse h => exact getJson_set_ne d v h

theorem getJson_pop_ne (d : Dict Json) {k k' : String} (h : k' ≠ k) :
    getJson (pop d k) k' = getJson d k' := by
  simp [getJson, get?_pop_ne d h]

end Dict
