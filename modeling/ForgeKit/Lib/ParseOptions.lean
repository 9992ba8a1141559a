import ForgeKit.Lib.PyStr

/-!
# Reading options as git does

A command line is a list of tokens. A token that starts with two dashes is a long option, with its
value after a `=` or in the next token; its name may be cut short as long as it stays unique, and
`no-` before a name negates it. A token that starts with one dash is a cluster of short options. What
comes after `--` is no option.

* `readItems_positional` — tokens that start with no dash are read as they stand
-/

namespace ParseOptions

open Py (Text CodePoint)

/-- Whether an option has a value. -/
inductive Arity where
  | flag
  | required
  /-- In the same token or not at all. -/
  | attached
deriving DecidableEq, Repr

/-- An option of a command. -/
structure OptionSpec (ν : Type*) where
  name : ν
  short : Option CodePoint
  long : Option Text
  arity : Arity

/-- What a command line is read as. -/
inductive Item (ν : Type*) where
  | option (name : ν) (value : Option Text)
  | negated (name : ν)
  | positional (t : Text)
deriving DecidableEq

variable {ν : Type*} (specs : List (OptionSpec ν))

def dash : CodePoint := Py.ofChar '-'

def equals : CodePoint := Py.ofChar '='

/-- The long options that a name may stand for, each with whether it is negated. -/
def candidates (key : Text) : List (OptionSpec ν × Bool) :=
  (specs.filter fun s => s.long.any (Py.startsWith · key)).map (·, false)
    ++ (specs.filter fun s => s.long.any fun l => Py.startsWith (Py.lit "no-" ++ l) key).map (·, true)

/-- The option that a long name stands for; `none` where git knows none or more than one. -/
def findLong (key : Text) : Option (OptionSpec ν × Bool) :=
  match specs.find? fun s => s.long = some key with
  | some s => some (s, false)
  | none =>
    match specs.find? fun s => s.long.any fun l => Py.lit "no-" ++ l = key with
    | some s => some (s, true)
    | none =>
      match candidates specs key with
      | [found] => some found
      | _ => none

/-- A long option without its dashes; the second part is an option that waits for its value. -/
def readLong (body : Text) : Option (List (Item ν) × Option ν) :=
  let key := body.takeWhile (· ≠ equals)
  let value := if equals ∈ body then some (body.drop (key.length + 1)) else none
  match findLong specs key with
  | none => none
  | some (s, true) => if value = none then some ([.negated s.name], none) else none
  | some (s, false) =>
    match s.arity, value with
    | .flag, none => some ([.option s.name none], none)
    | .flag, some _ => none
    | .required, none => some ([], some s.name)
    | .required, some v => some ([.option s.name (some v)], none)
    | .attached, v => some ([.option s.name v], none)

/-- A cluster of short options without its dash. -/
def readCluster : Text → Option (List (Item ν) × Option ν)
  | [] => some ([], none)
  | c :: cs =>
    match specs.find? fun s => s.short = some c with
    | none => none
    | some s =>
      match s.arity with
      | .flag => (readCluster cs).map fun read => (.option s.name none :: read.1, read.2)
      | .required => if cs = [] then some ([], some s.name) else some ([.option s.name (some cs)], none)
      | .attached => some ([.option s.name (if cs = [] then none else some cs)], none)

/-- One token that is not the value of an option. -/
def readToken (t : Text) : Option (List (Item ν) × Option ν) :=
  match t with
  | [] => some ([.positional t], none)
  | [_] => some ([.positional t], none)
  | c :: d :: body =>
    if c ≠ dash then some ([.positional t], none)
    else if d = dash then readLong specs body
    else readCluster specs (d :: body)

/-- A command line, from a token on; `none` is a command line that git refuses. -/
def readItems : Option ν → List Text → Option (List (Item ν))
  | none, [] => some []
  | some _, [] => none
  | some name, t :: ts => (readItems none ts).map (.option name (some t) :: ·)
  | none, t :: ts =>
    if t = Py.lit "--" then some (ts.map .positional)
    else
      match readToken specs t with
      | none => none
      | some (items, waiting) => (readItems waiting ts).map (items ++ ·)

/-- The tokens that are no options. -/
def positionals (items : List (Item ν)) : List Text :=
  items.filterMap fun item => match item with
    | .positional t => some t
    | _ => none

/-- **Tokens that start with no dash are read as they stand.** -/
theorem readItems_positional {ts : List Text} (h : ∀ t ∈ ts, t.head? ≠ some dash) :
    readItems specs none ts = some (ts.map .positional) := by
  induction ts with
  | nil => rfl
  | cons t ts ih =>
    have ht := h t List.mem_cons_self
    have hdashes : t ≠ Py.lit "--" := by
      rintro rfl
      exact ht (by decide)
    have hread : readToken specs t = some ([.positional t], none) := by
      unfold readToken
      split
      · rfl
      · rfl
      · next c d body =>
        exact if_pos fun hc => ht (by rw [hc]; rfl)
    rw [readItems, if_neg hdashes, hread]
    dsimp only
    rw [ih fun t' ht' => h t' (List.mem_cons_of_mem t ht')]
    rfl

end ParseOptions
