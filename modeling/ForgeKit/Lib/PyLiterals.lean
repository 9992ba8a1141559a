import ForgeKit.Lib.LineEnds
import ForgeKit.Lib.PyStr

/-!
# String literals of a Python source

The tokenizer of Python 3.9 to 3.11, as far as string literals go: a quote opens one outside
comments and other literals, three quotes open one that may span lines, a backslash hides the
character after it, and the word before the quote may be a prefix. A formatted literal is one
token.

* `literals`, `Literal.value` — the literals of a source and what they stand for
* `scan_trims`, `values_trims` — what becomes of them where lines lose blanks at their ends
-/

namespace PyLiterals

open Py (Text CodePoint lit newline)
open LineEnds (run)

def backslash : CodePoint := Py.ofChar '\\'

def hash : CodePoint := Py.ofChar '#'

/-- The quotes. -/
inductive Quote where
  | apostrophe
  | quotation
deriving DecidableEq, Repr

def Quote.code : Quote → CodePoint
  | apostrophe => Py.ofChar '\''
  | quotation => Py.ofChar '"'

inductive Kind where
  | text
  | bytes
  | formatted
deriving DecidableEq, Repr

/-- What the prefix says. -/
structure Form where
  kind : Kind
  raw : Bool
deriving DecidableEq, Repr

/-- A literal without its prefix and quotes. -/
structure Literal where
  form : Form
  body : Text
deriving DecidableEq, Repr

/-- A character that a name or a number may have. -/
def isWordChar (c : CodePoint) : Bool :=
  let n := c.val
  (0x30 ≤ n && n ≤ 0x39) || (0x41 ≤ n && n ≤ 0x5A) || (0x61 ≤ n && n ≤ 0x7A) || n == 0x5F
    || 128 ≤ n

/-- What the word ahead of a quote says; a word that is no prefix is a token of its own. -/
def formOf (word : Text) : Form :=
  let word := Py.lower word
  if word = lit "r" then ⟨.text, true⟩
  else if word = lit "b" then ⟨.bytes, false⟩
  else if word = lit "br" ∨ word = lit "rb" then ⟨.bytes, true⟩
  else if word = lit "f" then ⟨.formatted, false⟩
  else if word = lit "fr" ∨ word = lit "rf" then ⟨.formatted, true⟩
  else ⟨.text, false⟩

/-! ## The scanner -/

/-- Where the scanner is. -/
inductive Mode where
  /-- Outside, after so much of a word. -/
  | code (word : Text)
  | comment
  /-- After one quote. -/
  | opened (form : Form) (quote : Quote)
  /-- After two quotes. -/
  | openedTwice (form : Form) (quote : Quote)
  /-- In a literal with one quote at either end. -/
  | short (form : Form) (quote : Quote) (body : Text) (escaped : Bool)
  /-- In a literal with three, after so many of the quotes that may close it. -/
  | long (form : Form) (quote : Quote) (body : Text) (quotes : Nat) (escaped : Bool)
deriving DecidableEq, Repr

namespace Mode

/-- A character outside literals and comments. -/
def inCode (word : Text) (c : CodePoint) : Mode :=
  if c = hash then comment
  else if c = Quote.apostrophe.code then opened (formOf word) .apostrophe
  else if c = Quote.quotation.code then opened (formOf word) .quotation
  else if isWordChar c = true then code (word ++ [c])
  else code []

/-- A character in a literal with one quote at either end; a line end is an error. -/
def inShort (form : Form) (quote : Quote) (body : Text) (c : CodePoint) :
    Option (Mode × List Literal) :=
  if c = quote.code then some (code [], [⟨form, body⟩])
  else if c = newline then none
  else some (short form quote (body ++ [c]) (c = backslash), [])

/-- The body with the quotes that did not close it. -/
def withQuotes (quote : Quote) (body : Text) (quotes : Nat) : Text :=
  body ++ List.replicate quotes quote.code

/-- A character in a literal with three quotes at either end. -/
def inLong (form : Form) (quote : Quote) (body : Text) (quotes : Nat) (c : CodePoint) :
    Mode × List Literal :=
  if c = quote.code then
    if quotes = 2 then (code [], [⟨form, body⟩]) else (long form quote body (quotes + 1) false, [])
  else (long form quote (withQuotes quote body quotes ++ [c]) 0 (c = backslash), [])

/-- One character: the mode after it, and the literal that it ends. -/
def step : Mode → CodePoint → Option (Mode × List Literal)
  | code word, c => some (inCode word c, [])
  | comment, c => some (if c = newline then code [] else comment, [])
  | opened form quote, c =>
    if c = quote.code then some (openedTwice form quote, []) else inShort form quote [] c
  | openedTwice form quote, c =>
    if c = quote.code then some (long form quote [] 0 false, [])
    else some (inCode [] c, [⟨form, []⟩])
  | short form quote body true, c => some (short form quote (body ++ [c]) false, [])
  | short form quote body false, c => inShort form quote body c
  | long form quote body quotes true, c =>
    some (long form quote (withQuotes quote body quotes ++ [c]) 0 false, [])
  | long form quote body quotes false, c => some (inLong form quote body quotes c)

end Mode

/-- The literals of a text whose lines end in newlines, `none` where one is not closed. -/
def scan (t : Text) : Option (List Literal) :=
  match run Mode.step (.code []) t with
  | some (.code _, ls) => some ls
  | _ => none

/-- The literals of a source. Its line ends become newlines, and the last line is ended. -/
def literals (t : Text) : Option (List Literal) :=
  scan (Py.universalNewlines false t ++ [newline])

/-! ## Values -/

/-- Where the reader of escapes is. -/
inductive Reading where
  | plain
  | escape
  /-- After an octal digit, with room for so many more. -/
  | octal (value left : Nat)
  /-- Hexadecimal digits, so many of which are missing. -/
  | hex (value left : Nat)
  | brace
  | name (letters : Text)
deriving DecidableEq, Repr

/-- The escapes of one character; a line end is dropped. -/
def simpleEscape (c : CodePoint) : Option Text :=
  if c = newline then some []
  else if c = backslash ∨ c = Quote.apostrophe.code ∨ c = Quote.quotation.code then some [c]
  else if c = Py.ofChar 'a' then some [7]
  else if c = Py.ofChar 'b' then some [8]
  else if c = Py.ofChar 'f' then some [12]
  else if c = Py.ofChar 'n' then some [10]
  else if c = Py.ofChar 'r' then some [13]
  else if c = Py.ofChar 't' then some [9]
  else if c = Py.ofChar 'v' then some [11]
  else none

def octalDigit (c : CodePoint) : Option Nat :=
  if 0x30 ≤ c.val ∧ c.val ≤ 0x37 then some (c.val - 0x30) else none

def hexDigit (c : CodePoint) : Option Nat :=
  if 0x30 ≤ c.val ∧ c.val ≤ 0x39 then some (c.val - 0x30)
  else if 0x41 ≤ c.val ∧ c.val ≤ 0x46 then some (c.val - 0x41 + 10)
  else if 0x61 ≤ c.val ∧ c.val ≤ 0x66 then some (c.val - 0x61 + 10)
  else none

/-- A character that the name of a character may have. -/
def isNameChar (c : CodePoint) : Bool :=
  (isWordChar c && c.val < 128) || c = Py.ofChar ' ' || c = Py.ofChar '-'

namespace Reading

variable (bytes : Bool) (names : Text → Option CodePoint)

/-- An octal escape; in bytes it wraps around. -/
def octalCode (value : Nat) : CodePoint := Fin.ofNat _ (if bytes = true then value % 256 else value)

def inPlain (c : CodePoint) : Reading × Text :=
  if c = backslash then (escape, []) else (plain, [c])

/-- The character after a backslash; an escape that is none keeps its backslash. -/
def inEscape (c : CodePoint) : Reading × Text :=
  match simpleEscape c, octalDigit c with
  | some out, _ => (plain, out)
  | none, some d => (octal d 2, [])
  | none, none =>
    if c = Py.ofChar 'x' then (hex 0 2, [])
    else if bytes = false ∧ c = Py.ofChar 'u' then (hex 0 4, [])
    else if bytes = false ∧ c = Py.ofChar 'U' then (hex 0 8, [])
    else if bytes = false ∧ c = Py.ofChar 'N' then (brace, [])
    else (plain, [backslash, c])

/-- One character of a body. `names` is the table of Unicode names. -/
def step : Reading → CodePoint → Option (Reading × Text)
  | plain, c => some (inPlain c)
  | escape, c => some (inEscape bytes c)
  | octal value left, c =>
    match octalDigit c with
    | some d =>
      if left = 1 then some (plain, [octalCode bytes (value * 8 + d)])
      else some (octal (value * 8 + d) (left - 1), [])
    | none => some ((inPlain c).1, octalCode bytes value :: (inPlain c).2)
  | hex value left, c =>
    match hexDigit c with
    | some d =>
      if 1 < left then some (hex (value * 16 + d) (left - 1), [])
      else if h : value * 16 + d < 1114112 then some (plain, [⟨value * 16 + d, h⟩])
      else none
    | none => none
  | brace, c => if c = Py.ofChar '{' then some (name [], []) else none
  | name letters, c =>
    if c = Py.ofChar '}' then (names letters).map fun code => (plain, [code])
    else if isNameChar c = true then some (name (letters ++ [c]), [])
    else none

/-- What the end of the body still puts out. -/
def atEnd : Reading → Option Text
  | plain => some []
  | octal value _ => some [octalCode bytes value]
  | _ => none

/-- A body with its escapes replaced. -/
def unescape (body : Text) : Option Text :=
  match run (step bytes names) plain body with
  | some (s, out) => (atEnd bytes s).map (out ++ ·)
  | none => none

end Reading

inductive Value where
  | text (t : Text)
  | bytes (t : Text)
  /-- What a formatted literal fills in when it is evaluated, as it is written. -/
  | template (t : Text)
deriving DecidableEq, Repr

def isAscii (c : CodePoint) : Bool := c.val < 128

/-- What a literal stands for, `none` where it is an error. -/
def Literal.value (names : Text → Option CodePoint) (l : Literal) : Option Value :=
  match l.form.kind with
  | .formatted => some (.template l.body)
  | .text =>
    if l.form.raw = true then some (.text l.body)
    else (Reading.unescape false names l.body).map .text
  | .bytes =>
    if l.body.all isAscii = false then none
    else if l.form.raw = true then some (.bytes l.body)
    else (Reading.unescape true names l.body).map .bytes

/-- The values of all literals of a source, in order. -/
def literalValues (names : Text → Option CodePoint) (t : Text) : Option (List Value) :=
  (literals t).bind fun ls => ls.mapM (Literal.value names)

/-- Prefixes, both kinds of quotes, a comment and a line that goes on. -/
example : literalValues (fun _ => none)
    (lit "a = rb'\\x' # it's\nb = f\"\"\"x\"\n\"\"\" if'\\x41\\\n\\60'else''\n")
    = some [.bytes (lit "\\x"), .template (lit "x\"\n"), .text (lit "A0"), .text []] := by
  decide +kernel

/-! ## Blanks ahead of a line end -/

/-- White space that may be dropped at the end of a line. -/
def IsBlanks (ws : Text) : Prop := ∀ c ∈ ws, Py.isSpace c = true ∧ c ≠ newline

/-- `LineEnds.Trims` for white space. -/
abbrev Trims : Text → Text → Nat → Prop := LineEnds.Trims newline Py.isSpace

theorem blank_ne {c d : CodePoint} (hc : Py.isSpace c = true) (hd : Py.isSpace d = false) :
    c ≠ d := by
  rintro rfl
  simp [hc] at hd

theorem Quote.isSpace_code (quote : Quote) : Py.isSpace quote.code = false := by
  cases quote <;> decide

theorem Quote.newline_ne_code (quote : Quote) : newline ≠ quote.code := by
  cases quote <;> decide

namespace Mode

theorem inCode_newline (word : Text) : inCode word newline = code [] := rfl

/-- A blank outside literals ends no more than a word. -/
theorem inCode_blank {c : CodePoint} (hc : Py.isSpace c = true) (word : Text) :
    ∃ word', inCode word c = code word' := by
  unfold inCode
  rw [if_neg (blank_ne hc (by decide)), if_neg (blank_ne hc (by decide)),
    if_neg (blank_ne hc (by decide))]
  split
  · exact ⟨_, rfl⟩
  · exact ⟨_, rfl⟩

theorem run_code_blanks {ws : Text} (hws : IsBlanks ws) (word : Text) :
    run step (code word) (ws ++ [newline]) = some (code [], []) := by
  induction ws generalizing word with
  | nil => simp [LineEnds.run, step, inCode_newline]
  | cons c ws ih =>
    obtain ⟨word', hword⟩ := inCode_blank (hws c List.mem_cons_self).1 word
    have hstep : step (code word) c = some (code word', []) := by rw [step, hword]
    rw [List.cons_append, LineEnds.run_cons hstep,
      ih fun d hd => hws d (List.mem_cons_of_mem _ hd)]
    rfl

theorem run_comment_blanks {ws : Text} (hws : IsBlanks ws) :
    run step comment (ws ++ [newline]) = some (code [], []) := by
  induction ws with
  | nil => rfl
  | cons c ws ih =>
    have hstep : step comment c = some (comment, []) := by
      rw [step, if_neg (hws c List.mem_cons_self).2]
    rw [List.cons_append, LineEnds.run_cons hstep,
      ih fun d hd => hws d (List.mem_cons_of_mem _ hd)]
    rfl

theorem inShort_blank {c : CodePoint} (hc : Py.isSpace c = true ∧ c ≠ newline) (form : Form)
    (quote : Quote) (body : Text) :
    inShort form quote body c = some (short form quote (body ++ [c]) false, []) := by
  unfold inShort
  rw [if_neg (blank_ne hc.1 quote.isSpace_code), if_neg hc.2,
    decide_eq_false (blank_ne hc.1 (by decide))]

/-- A literal with one quote at either end does not reach the end of its line. -/
theorem run_short_blanks {ws : Text} (hws : IsBlanks ws) (form : Form) (quote : Quote)
    (body : Text) : run step (short form quote body false) (ws ++ [newline]) = none := by
  induction ws generalizing body with
  | nil =>
    rw [List.nil_append, LineEnds.run_singleton, step, inShort, if_neg quote.newline_ne_code,
      if_pos rfl]
  | cons c ws ih =>
    have hstep : step (short form quote body false) c
        = some (short form quote (body ++ [c]) false, []) :=
      inShort_blank (hws c List.mem_cons_self) form quote body
    rw [List.cons_append, LineEnds.run_cons hstep,
      ih fun d hd => hws d (List.mem_cons_of_mem _ hd)]
    rfl

theorem step_long_blank {c : CodePoint} (hc : Py.isSpace c = true) (form : Form) (quote : Quote)
    (body : Text) (quotes : Nat) (escaped : Bool) :
    step (long form quote body quotes escaped) c
      = some (long form quote (withQuotes quote body quotes ++ [c]) 0 false, []) := by
  cases escaped with
  | true => rfl
  | false =>
    rw [step, inLong, if_neg (blank_ne hc quote.isSpace_code),
      decide_eq_false (blank_ne hc (by decide))]

/-- A literal with three quotes goes over the end of a line. -/
theorem run_long_blanks {ws : Text} (hws : IsBlanks ws) (form : Form) (quote : Quote)
    (body : Text) (quotes : Nat) (escaped : Bool) :
    run step (long form quote body quotes escaped) (ws ++ [newline])
      = some (long form quote (withQuotes quote body quotes ++ ws ++ [newline]) 0 false, []) := by
  induction ws generalizing body quotes escaped with
  | nil =>
    rw [List.nil_append, LineEnds.run_singleton, step_long_blank (by decide), List.append_nil]
  | cons c ws ih =>
    rw [List.cons_append,
      LineEnds.run_cons (step_long_blank (hws c List.mem_cons_self).1 form quote body quotes _),
      ih fun d hd => hws d (List.mem_cons_of_mem _ hd)]
    simp [withQuotes]

/-- The same mode, but for blanks that the second body has lost. -/
inductive Near : Mode → Mode → Prop where
  | same (m : Mode) : Near m m
  | short {body body' : Text} {n : Nat} (form : Form) (quote : Quote) (escaped : Bool)
      (h : Trims body body' n) : Near (.short form quote body escaped) (.short form quote body' escaped)
  | long {body body' : Text} {n : Nat} (form : Form) (quote : Quote) (quotes : Nat) (escaped : Bool)
      (h : Trims body body' n) :
      Near (.long form quote body quotes escaped) (.long form quote body' quotes escaped)

end Mode

/-- The second literal is the first one without some blanks ahead of line ends. -/
def Trimmed (l l' : Literal) : Prop := l.form = l'.form ∧ ∃ n, Trims l.body l'.body n

theorem Trimmed.refl (l : Literal) : Trimmed l l := ⟨rfl, 0, .refl l.body⟩

theorem trimmed_refl (ls : List Literal) : List.Forall₂ Trimmed ls ls :=
  List.forall₂_same.mpr fun l _ => .refl l

namespace Mode

/-- One character, read in two modes that are near. -/
theorem Near.step {m m' t : Mode} {c : CodePoint} {out : List Literal} (h : Near m m')
    (hstep : m.step c = some (t, out)) :
    ∃ t' out', m'.step c = some (t', out') ∧ Near t t' ∧ List.Forall₂ Trimmed out out' := by
  cases h with
  | same m => exact ⟨t, out, hstep, .same t, trimmed_refl out⟩
  | @short body body' n form quote escaped h =>
    have hkeep : ∀ e, Near (.short form quote (body ++ [c]) e) (.short form quote (body' ++ [c]) e) :=
      fun e => .short form quote e (.keep c h)
    cases escaped with
    | true =>
      rw [Mode.step, Option.some.injEq, Prod.mk.injEq] at hstep
      obtain ⟨rfl, rfl⟩ := hstep
      exact ⟨_, _, rfl, hkeep false, .nil⟩
    | false =>
      rw [Mode.step, inShort] at hstep ⊢
      split at hstep
      · next hquote =>
        rw [Option.some.injEq, Prod.mk.injEq] at hstep
        obtain ⟨rfl, rfl⟩ := hstep
        rw [if_pos hquote]
        exact ⟨_, _, rfl, .same _, .cons ⟨rfl, n, h⟩ .nil⟩
      · next hquote =>
        split at hstep
        · cases hstep
        · next hnl =>
          rw [Option.some.injEq, Prod.mk.injEq] at hstep
          obtain ⟨rfl, rfl⟩ := hstep
          rw [if_neg hquote, if_neg hnl]
          exact ⟨_, _, rfl, hkeep _, .nil⟩
  | @long body body' n form quote quotes escaped h =>
    have hkeep : ∀ e, Near (.long form quote (withQuotes quote body quotes ++ [c]) 0 e)
        (.long form quote (withQuotes quote body' quotes ++ [c]) 0 e) :=
      fun e => .long form quote 0 e (.keep c (h.append _))
    cases escaped with
    | true =>
      rw [Mode.step, Option.some.injEq, Prod.mk.injEq] at hstep
      obtain ⟨rfl, rfl⟩ := hstep
      exact ⟨_, _, rfl, hkeep false, .nil⟩
    | false =>
      rw [Mode.step, Option.some.injEq, inLong] at hstep
      rw [Mode.step, inLong]
      split at hstep
      · next hquote =>
        rw [if_pos hquote]
        split at hstep
        · next htwo =>
          rw [Prod.mk.injEq] at hstep
          obtain ⟨rfl, rfl⟩ := hstep
          rw [if_pos htwo]
          exact ⟨_, _, rfl, .same _, .cons ⟨rfl, n, h⟩ .nil⟩
        · next htwo =>
          rw [Prod.mk.injEq] at hstep
          obtain ⟨rfl, rfl⟩ := hstep
          rw [if_neg htwo]
          exact ⟨_, _, rfl, .long form quote _ false h, .nil⟩
      · next hquote =>
        rw [Prod.mk.injEq] at hstep
        obtain ⟨rfl, rfl⟩ := hstep
        rw [if_neg hquote]
        exact ⟨_, _, rfl, hkeep _, .nil⟩

/-- Blanks and a line end, and the line end alone, read in two modes that are near. -/
theorem Near.line {m m' t : Mode} {ws : Text} {out : List Literal} (h : Near m m')
    (hws : IsBlanks ws) (hrun : run Mode.step m (ws ++ [newline]) = some (t, out)) :
    ∃ t' out', m'.step newline = some (t', out') ∧ Near t t' ∧ List.Forall₂ Trimmed out out' := by
  -- without blanks it is one character
  cases ws with
  | nil =>
    rw [List.nil_append, LineEnds.run_singleton] at hrun
    exact h.step hrun
  | cons c ws =>
    have hc := hws c List.mem_cons_self
    have hrest : IsBlanks ws := fun d hd => hws d (List.mem_cons_of_mem _ hd)
    have hlong : ∀ {form quote body body' quotes escaped n}, Trims body body' n →
        run Mode.step (.long form quote body quotes escaped) (c :: ws ++ [newline]) = some (t, out) →
        ∃ t' out', Mode.step (.long form quote body' quotes escaped) newline = some (t', out')
          ∧ Near t t' ∧ List.Forall₂ Trimmed out out' := by
      intro form quote body body' quotes escaped n h hrun
      rw [run_long_blanks hws, Option.some.injEq, Prod.mk.injEq] at hrun
      obtain ⟨rfl, rfl⟩ := hrun
      refine ⟨_, _, step_long_blank (by decide) form quote body' quotes escaped, ?_, .nil⟩
      exact .long form quote 0 false (.line hws (h.append _))
    have hshort : ∀ {form quote body body' escaped n}, Trims body body' n →
        run Mode.step (.short form quote body escaped) (c :: ws ++ [newline]) = some (t, out) →
        False := by
      intro form quote body body' escaped n h hrun
      have hstep : Mode.step (.short form quote body escaped) c
          = some (.short form quote (body ++ [c]) false, []) := by
        cases escaped with
        | true => rfl
        | false => exact inShort_blank hc form quote body
      rw [List.cons_append, LineEnds.run_cons hstep, run_short_blanks hrest] at hrun
      cases hrun
    cases h with
    | short form quote escaped h => exact (hshort h hrun).elim
    | long form quote quotes escaped h => exact hlong h hrun
    | same =>
      cases m with
      | code word =>
        rw [run_code_blanks hws, Option.some.injEq, Prod.mk.injEq] at hrun
        obtain ⟨rfl, rfl⟩ := hrun
        exact ⟨_, _, rfl, inCode_newline word ▸ .same _, .nil⟩
      | comment =>
        rw [run_comment_blanks hws, Option.some.injEq, Prod.mk.injEq] at hrun
        obtain ⟨rfl, rfl⟩ := hrun
        exact ⟨_, _, rfl, .same _, .nil⟩
      | opened form quote =>
        have hstep : Mode.step (.opened form quote) c
            = some (.short form quote ([] ++ [c]) false, []) := by
          rw [Mode.step, if_neg (blank_ne hc.1 quote.isSpace_code)]
          exact inShort_blank hc form quote []
        rw [List.cons_append, LineEnds.run_cons hstep, run_short_blanks hrest] at hrun
        cases hrun
      | openedTwice form quote =>
        obtain ⟨word, hword⟩ := inCode_blank hc.1 []
        have hstep : Mode.step (.openedTwice form quote) c = some (.code word, [⟨form, []⟩]) := by
          rw [Mode.step, if_neg (blank_ne hc.1 quote.isSpace_code), hword]
        rw [List.cons_append, LineEnds.run_cons hstep, run_code_blanks hrest, Option.map_some,
          Option.some.injEq, Prod.mk.injEq] at hrun
        obtain ⟨rfl, rfl⟩ := hrun
        refine ⟨_, _, ?_, .same _, trimmed_refl _⟩
        rw [Mode.step, if_neg quote.newline_ne_code, inCode_newline]
        rfl
      | short form quote body escaped => exact (hshort (.refl body) hrun).elim
      | long form quote body quotes escaped => exact hlong (.refl body) hrun

/-- **The scanner finds the same literals in a trimmed text**, but for the blanks. -/
theorem run_trims {t t' : Text} {n : Nat} (h : Trims t t' n) {r : Mode × List Literal}
    (hrun : run Mode.step (.code []) t = some r) :
    ∃ r', run Mode.step (.code []) t' = some r' ∧ Near r.1 r'.1 ∧ List.Forall₂ Trimmed r.2 r'.2 := by
  refine LineEnds.Trims.run (R := fun _ r r' => Near r.1 r'.1 ∧ List.Forall₂ Trimmed r.2 r'.2)
    ?_ ?_ h ⟨.same _, .nil⟩ hrun
  · rintro n s s' o o' a t p ⟨hnear, hout⟩ hstep
    obtain ⟨t', p', hstep', hnear', hp⟩ := hnear.step hstep
    exact ⟨t', p', hstep', hnear', List.rel_append hout hp⟩
  · rintro n s s' o o' ws t p ⟨hnear, hout⟩ hws hrun
    obtain ⟨t', p', hstep', hnear', hp⟩ := hnear.line hws hrun
    exact ⟨t', p', hstep', hnear', List.rel_append hout hp⟩

end Mode

/-! ## Where the literals are -/

namespace Mode

/-- What the scanner has read of a literal that is still open. -/
def pending : Mode → Text
  | short _ _ body _ => body
  | long _ quote body quotes _ => withQuotes quote body quotes
  | _ => []

theorem withQuotes_succ (quote : Quote) (body : Text) (quotes : Nat) :
    withQuotes quote body (quotes + 1) = withQuotes quote body quotes ++ [quote.code] := by
  rw [withQuotes, withQuotes, List.replicate_succ', List.append_assoc]

theorem pending_inCode (word : Text) (c : CodePoint) : pending (inCode word c) = [] := by
  unfold inCode
  split_ifs <;> rfl

/-- One character is added to what is pending, or nothing is pending any more. -/
theorem step_pending {m m' : Mode} {c : CodePoint} {out : List Literal}
    (h : step m c = some (m', out)) :
    (pending m' = [] ∨ pending m' = pending m ++ [c]) ∧ ∀ l ∈ out, l.body <+: pending m := by
  have hshort : ∀ {form quote body}, inShort form quote body c = some (m', out) →
      (pending m' = [] ∨ pending m' = body ++ [c]) ∧ ∀ l ∈ out, l.body <+: body := by
    intro form quote body h
    unfold inShort at h
    split at h
    · rw [Option.some.injEq, Prod.mk.injEq] at h
      obtain ⟨rfl, rfl⟩ := h
      exact ⟨.inl rfl, by simp⟩
    · split at h
      · cases h
      · rw [Option.some.injEq, Prod.mk.injEq] at h
        obtain ⟨rfl, rfl⟩ := h
        exact ⟨.inr rfl, by simp⟩
  cases m with
  | code word =>
    rw [step, Option.some.injEq, Prod.mk.injEq] at h
    obtain ⟨rfl, rfl⟩ := h
    exact ⟨.inl (pending_inCode word c), by simp⟩
  | comment =>
    rw [step, Option.some.injEq, Prod.mk.injEq] at h
    obtain ⟨rfl, rfl⟩ := h
    refine ⟨.inl ?_, by simp⟩
    split <;> rfl
  | opened form quote =>
    rw [step] at h
    split at h
    · rw [Option.some.injEq, Prod.mk.injEq] at h
      obtain ⟨rfl, rfl⟩ := h
      exact ⟨.inl rfl, by simp⟩
    · exact hshort h
  | openedTwice form quote =>
    rw [step] at h
    split at h
    · rw [Option.some.injEq, Prod.mk.injEq] at h
      obtain ⟨rfl, rfl⟩ := h
      exact ⟨.inl rfl, by simp⟩
    · rw [Option.some.injEq, Prod.mk.injEq] at h
      obtain ⟨rfl, rfl⟩ := h
      exact ⟨.inl (pending_inCode [] c), by simp⟩
  | short form quote body escaped =>
    cases escaped with
    | true =>
      rw [step, Option.some.injEq, Prod.mk.injEq] at h
      obtain ⟨rfl, rfl⟩ := h
      exact ⟨.inr rfl, by simp⟩
    | false => exact hshort h
  | long form quote body quotes escaped =>
    have hkeep : ∀ e, pending (.long form quote (withQuotes quote body quotes ++ [c]) 0 e)
        = pending (.long form quote body quotes escaped) ++ [c] := by
      intro e
      simp [pending, withQuotes]
    cases escaped with
    | true =>
      rw [step, Option.some.injEq, Prod.mk.injEq] at h
      obtain ⟨rfl, rfl⟩ := h
      exact ⟨.inr (hkeep false), by simp⟩
    | false =>
      rw [step, Option.some.injEq, inLong] at h
      split at h
      · next hquote =>
        split at h
        · rw [Prod.mk.injEq] at h
          obtain ⟨rfl, rfl⟩ := h
          refine ⟨.inl rfl, fun l hl => ?_⟩
          rw [List.mem_singleton.mp hl]
          exact List.prefix_append _ _
        · rw [Prod.mk.injEq] at h
          obtain ⟨rfl, rfl⟩ := h
          exact ⟨.inr (by rw [hquote]; exact withQuotes_succ quote body quotes), by simp⟩
      · rw [Prod.mk.injEq] at h
        obtain ⟨rfl, rfl⟩ := h
        exact ⟨.inr (hkeep _), by simp⟩

theorem run_infix {t : Text} {m : Mode} {ls : List Literal}
    (h : run step (.code []) t = some (m, ls)) :
    pending m <:+ t ∧ ∀ l ∈ ls, l.body <:+: t := by
  induction t using List.reverseRecOn generalizing m ls with
  | nil =>
    simp only [LineEnds.run, Option.some.injEq, Prod.mk.injEq] at h
    obtain ⟨rfl, rfl⟩ := h
    exact ⟨List.suffix_refl _, by simp⟩
  | append_singleton t c ih =>
    obtain ⟨m0, front, back, hfront, hback, rfl⟩ := LineEnds.run_append_some h
    rw [LineEnds.run_singleton] at hback
    obtain ⟨hpending, hfrontInfix⟩ := ih hfront
    obtain ⟨hnext, hout⟩ := step_pending hback
    have hprefix : t <:+: t ++ [c] := (List.prefix_append _ _).isInfix
    constructor
    · rcases hnext with hnil | hmore
      · rw [hnil]
        exact List.nil_suffix
      · obtain ⟨u, rfl⟩ := hpending
        exact ⟨u, by rw [hmore, List.append_assoc]⟩
    · intro l hl
      rcases List.mem_append.mp hl with hl | hl
      · exact (hfrontInfix l hl).trans hprefix
      · exact ((hout l hl).isInfix.trans hpending.isInfix).trans hprefix

end Mode

theorem scan_some {t : Text} {ls : List Literal} (h : scan t = some ls) :
    ∃ word, run Mode.step (.code []) t = some (.code word, ls) := by
  unfold scan at h
  split at h
  · next hrun =>
    cases h
    exact ⟨_, hrun⟩
  · cases h

/-- **A literal stands in its text as it is.** -/
theorem infix_of_scan {t : Text} {ls : List Literal} (h : scan t = some ls) :
    ∀ l ∈ ls, l.body <:+: t := by
  obtain ⟨word, hrun⟩ := scan_some h
  exact (Mode.run_infix hrun).2

/-! ## Line ends at the end -/

namespace Mode

theorem run_code_newlines (k : Nat) :
    run step (code []) (List.replicate k newline) = some (code [], []) := by
  induction k with
  | zero => rfl
  | succ k ih =>
    have hstep : step (code []) newline = some (code [], []) := rfl
    rw [List.replicate_succ, LineEnds.run_cons hstep, ih]
    rfl

theorem run_long_newlines (form : Form) (quote : Quote) (body : Text) (quotes : Nat)
    (escaped : Bool) (k : Nat) :
    ∃ body', run step (long form quote body quotes escaped) (List.replicate (k + 1) newline)
      = some (long form quote body' 0 false, []) := by
  induction k generalizing body quotes escaped with
  | zero => exact ⟨_, by rw [List.replicate_one, LineEnds.run_singleton, step_long_blank (by decide)]⟩
  | succ k ih =>
    obtain ⟨body', hbody⟩ := ih (withQuotes quote body quotes ++ [newline]) 0 false
    refine ⟨body', ?_⟩
    rw [List.replicate_succ,
      LineEnds.run_cons (step_long_blank (by decide) form quote body quotes escaped), hbody]
    rfl

/-- Where line ends lead outside literals, one leads there as well as many. -/
theorem run_newlines {m : Mode} {word : Text} {ls : List Literal} {k : Nat}
    (h : run step m (List.replicate (k + 1) newline) = some (code word, ls)) (j : Nat) :
    run step m (List.replicate (j + 1) newline) = some (code [], ls) := by
  have hout : ∀ {out}, step m newline = some (code [], out) →
      ∀ j, run step m (List.replicate (j + 1) newline) = some (code [], out) := by
    intro out hstep j
    rw [List.replicate_succ, LineEnds.run_cons hstep, run_code_newlines, Option.map_some,
      List.append_nil]
  have hends : ∀ {out}, step m newline = some (code [], out) → ls = out := by
    intro out hstep
    rw [hout hstep k, Option.some.injEq, Prod.mk.injEq] at h
    exact h.2.symm
  have hshort : ∀ {form quote body}, inShort form quote body newline = none := by
    intro form quote body
    rw [inShort, if_neg quote.newline_ne_code, if_pos rfl]
  cases m with
  | code word' =>
    have hstep : step (code word') newline = some (code [], []) := rfl
    rw [hends hstep, hout hstep]
  | comment =>
    have hstep : step comment newline = some (code [], []) := rfl
    rw [hends hstep, hout hstep]
  | openedTwice form quote =>
    have hstep : step (openedTwice form quote) newline = some (code [], [⟨form, []⟩]) := by
      rw [step, if_neg quote.newline_ne_code, inCode_newline]
    rw [hends hstep, hout hstep]
  | opened form quote =>
    rw [List.replicate_succ, LineEnds.run, step, if_neg quote.newline_ne_code, hshort] at h
    cases h
  | short form quote body escaped =>
    cases escaped with
    | false =>
      rw [List.replicate_succ, LineEnds.run, step, hshort] at h
      cases h
    | true =>
      -- the line goes on, and the literal is still open at the end of the next one
      rw [List.replicate_succ, LineEnds.run] at h
      cases k with
      | zero => cases h
      | succ k =>
        simp only [step, List.replicate_succ, LineEnds.run, hshort] at h
        cases h
  | long form quote body quotes escaped =>
    obtain ⟨body', hbody⟩ := run_long_newlines form quote body quotes escaped k
    rw [hbody] at h
    cases h

end Mode

/-- **How many line ends a text ends in does not matter.** -/
theorem scan_newlines {t : Text} {ls : List Literal} {k : Nat}
    (h : scan (t ++ List.replicate (k + 1) newline) = some ls) (j : Nat) :
    scan (t ++ List.replicate (j + 1) newline) = some ls := by
  obtain ⟨word, hrun⟩ := scan_some h
  obtain ⟨m, front, back, hfront, hback, rfl⟩ := LineEnds.run_append_some hrun
  rw [scan, LineEnds.run_append hfront, Mode.run_newlines hback j]
  rfl

/-- **The literals of a trimmed text are trimmed literals.** -/
theorem scan_trims {t t' : Text} {n : Nat} (h : Trims t t' n) {ls : List Literal}
    (hscan : scan t = some ls) : ∃ ls', scan t' = some ls' ∧ List.Forall₂ Trimmed ls ls' := by
  obtain ⟨word, hrun⟩ := scan_some hscan
  obtain ⟨⟨m, ls'⟩, hrun', hnear, hls⟩ := Mode.run_trims h hrun
  dsimp only at hnear hls
  cases hnear
  exact ⟨ls', by rw [scan, hrun'], hls⟩

/-! ## Values of trimmed literals -/

namespace Reading

variable {bytes : Bool} {names : Text → Option CodePoint}

theorem octalDigit_blank {c : CodePoint} (hc : Py.isSpace c = true) : octalDigit c = none := by
  simp only [Py.isSpace, Bool.or_eq_true, Bool.and_eq_true, decide_eq_true_eq, beq_iff_eq] at hc
  exact if_neg (by omega)

theorem hexDigit_blank {c : CodePoint} (hc : Py.isSpace c = true) : hexDigit c = none := by
  simp only [Py.isSpace, Bool.or_eq_true, Bool.and_eq_true, decide_eq_true_eq, beq_iff_eq] at hc
  unfold hexDigit
  rw [if_neg (by omega), if_neg (by omega), if_neg (by omega)]

theorem simpleEscape_blank {c : CodePoint} (hc : Py.isSpace c = true ∧ c ≠ newline) :
    simpleEscape c = none := by
  have hne : ∀ d, Py.isSpace d = false → c ≠ d := fun d => blank_ne hc.1
  unfold simpleEscape
  simp only [hc.2, hne backslash (by decide), hne Quote.apostrophe.code (by decide),
    hne Quote.quotation.code (by decide), hne (Py.ofChar 'a') (by decide),
    hne (Py.ofChar 'b') (by decide), hne (Py.ofChar 'f') (by decide),
    hne (Py.ofChar 'n') (by decide), hne (Py.ofChar 'r') (by decide),
    hne (Py.ofChar 't') (by decide), hne (Py.ofChar 'v') (by decide), or_self, if_false]

theorem inPlain_blank {c : CodePoint} (hc : Py.isSpace c = true) : inPlain c = (plain, [c]) :=
  if_neg (blank_ne hc (by decide))

/-- A backslash ahead of a blank stays. -/
theorem inEscape_blank {c : CodePoint} (hc : Py.isSpace c = true ∧ c ≠ newline) :
    inEscape bytes c = (plain, [backslash, c]) := by
  have hne : ∀ d, Py.isSpace d = false → c ≠ d := fun d => blank_ne hc.1
  unfold inEscape
  simp only [simpleEscape_blank hc, octalDigit_blank hc.1, hne (Py.ofChar 'x') (by decide),
    hne (Py.ofChar 'u') (by decide), hne (Py.ofChar 'U') (by decide),
    hne (Py.ofChar 'N') (by decide), and_false, if_false]

theorem run_plain_blanks {ws : Text} (hws : IsBlanks ws) :
    run (step bytes names) plain (ws ++ [newline]) = some (plain, ws ++ [newline]) := by
  induction ws with
  | nil => rfl
  | cons c ws ih =>
    have hstep : step bytes names plain c = some (plain, [c]) := by
      rw [step, inPlain_blank (hws c List.mem_cons_self).1]
    rw [List.cons_append, LineEnds.run_cons hstep,
      ih fun d hd => hws d (List.mem_cons_of_mem _ hd)]
    rfl

/-- The name of a character stays on its line. -/
theorem run_name_blanks {ws : Text} (hws : IsBlanks ws) (letters : Text) :
    run (step bytes names) (name letters) (ws ++ [newline]) = none := by
  induction ws generalizing letters with
  | nil => rfl
  | cons c ws ih =>
    have hrest := ih fun d hd => hws d (List.mem_cons_of_mem _ hd)
    rw [List.cons_append, LineEnds.run, step,
      if_neg (blank_ne (hws c List.mem_cons_self).1 (by decide))]
    split
    · next heq =>
      rfl
    · next heq =>
      split at heq
      · rw [Option.some.injEq, Prod.mk.injEq] at heq
        obtain ⟨rfl, rfl⟩ := heq
        rw [hrest]
        rfl
      · cases heq

/-- Blanks ahead of a line end are read as they are, or lead to an error. -/
theorem run_blanks {s t : Reading} {ws out : Text} (hws : IsBlanks ws)
    (h : run (step bytes names) s (ws ++ [newline]) = some (t, out)) :
    ∃ out', step bytes names s newline = some (t, out') ∧ out'.length + ws.length ≤ out.length := by
  cases ws with
  | nil =>
    rw [List.nil_append, LineEnds.run_singleton] at h
    exact ⟨out, h, le_rfl⟩
  | cons c ws =>
    have hc := hws c List.mem_cons_self
    have hrest : IsBlanks ws := fun d hd => hws d (List.mem_cons_of_mem _ hd)
    -- a first character that leaves the reader in plain text
    have hplain : ∀ {front}, step bytes names s c = some (plain, front) →
        t = plain ∧ out = front ++ (ws ++ [newline]) := by
      intro front hstep
      rw [List.cons_append, LineEnds.run_cons hstep, run_plain_blanks hrest, Option.map_some,
        Option.some.injEq, Prod.mk.injEq] at h
      exact ⟨h.1.symm, h.2.symm⟩
    cases s with
    | plain =>
      obtain ⟨rfl, rfl⟩ := hplain (by rw [step, inPlain_blank hc.1])
      exact ⟨[newline], rfl, by simp; omega⟩
    | escape =>
      obtain ⟨rfl, rfl⟩ := hplain (by rw [step, inEscape_blank hc])
      exact ⟨[], rfl, by simp⟩
    | octal value left =>
      have hstep : step bytes names (octal value left) c
          = some (plain, [octalCode bytes value, c]) := by
        simp only [step, octalDigit_blank hc.1, inPlain_blank hc.1]
      obtain ⟨rfl, rfl⟩ := hplain hstep
      exact ⟨[octalCode bytes value, newline], rfl, by simp; omega⟩
    | hex value left => simp [LineEnds.run, step, hexDigit_blank hc.1] at h
    | brace =>
      rw [List.cons_append, LineEnds.run, step, if_neg (blank_ne hc.1 (by decide))] at h
      cases h
    | name letters =>
      rw [run_name_blanks hws] at h
      cases h

/-- **A trimmed body is shorter by what it lost.** -/
theorem unescape_trims {body body' v : Text} {n : Nat} (h : Trims body body' n)
    (hv : unescape bytes names body = some v) :
    ∃ v', unescape bytes names body' = some v' ∧ v'.length + n ≤ v.length := by
  unfold unescape at hv
  split at hv
  · next s out hrun =>
    obtain ⟨⟨s', out'⟩, hrun', rfl, hle⟩ := LineEnds.Trims.run
      (R := fun n r r' => r.1 = r'.1 ∧ r'.2.length + n ≤ r.2.length)
      (by
        rintro n s s' o o' a t p ⟨hs, hle⟩ hstep
        dsimp only at hs hle
        subst hs
        refine ⟨t, p, hstep, rfl, ?_⟩
        simp only [List.length_append]
        omega)
      (by
        rintro n s s' o o' ws t p ⟨hs, hle⟩ hws hrun
        dsimp only at hs hle
        subst hs
        obtain ⟨p', hstep', hp⟩ := run_blanks hws hrun
        refine ⟨t, p', hstep', rfl, ?_⟩
        simp only [List.length_append]
        omega)
      h ⟨rfl, le_rfl⟩ hrun
    obtain ⟨last, hlast, rfl⟩ := Option.map_eq_some_iff.mp hv
    refine ⟨out' ++ last, ?_, ?_⟩
    · rw [unescape, hrun']
      simp only [hlast, Option.map_some]
    · simp only [List.length_append]
      simp only at hle
      omega
  · cases hv

end Reading

def Value.content : Value → Text
  | text t => t
  | bytes t => t
  | template t => t

/-- A trimmed literal has a value, shorter by what the literal lost. -/
theorem value_trims {names : Text → Option CodePoint} {l l' : Literal} {v : Value} {n : Nat}
    (hform : l.form = l'.form) (h : Trims l.body l'.body n) (hv : l.value names = some v) :
    ∃ v', l'.value names = some v' ∧ v'.content.length + n ≤ v.content.length := by
  have hlen := h.length
  unfold Literal.value at hv ⊢
  rw [← hform]
  cases hkind : l.form.kind with
  | formatted =>
    simp only [hkind, Option.some.injEq] at hv ⊢
    exact ⟨_, rfl, hv ▸ hlen.le⟩
  | text =>
    simp only [hkind] at hv ⊢
    split at hv
    · next hraw =>
      rw [if_pos hraw]
      rw [Option.some.injEq] at hv
      exact ⟨_, rfl, hv ▸ hlen.le⟩
    · next hraw =>
      rw [if_neg hraw]
      obtain ⟨u, hu, rfl⟩ := Option.map_eq_some_iff.mp hv
      obtain ⟨u', hu', hle⟩ := Reading.unescape_trims h hu
      exact ⟨.text u', by rw [hu', Option.map_some], hle⟩
  | bytes =>
    simp only [hkind] at hv ⊢
    split at hv
    · cases hv
    · next hascii =>
      have hascii' : ¬ l'.body.all isAscii = false := by
        rw [Bool.not_eq_false, List.all_eq_true] at hascii ⊢
        exact fun c hc => hascii c (h.subset hc)
      rw [if_neg hascii']
      split at hv
      · next hraw =>
        rw [if_pos hraw]
        rw [Option.some.injEq] at hv
        exact ⟨_, rfl, hv ▸ hlen.le⟩
      · next hraw =>
        rw [if_neg hraw]
        obtain ⟨u, hu, rfl⟩ := Option.map_eq_some_iff.mp hv
        obtain ⟨u', hu', hle⟩ := Reading.unescape_trims h hu
        exact ⟨.bytes u', by rw [hu', Option.map_some], hle⟩

/-- A line end in the literal comes after white space. -/
def Literal.BlankAtEnd (l : Literal) : Prop := LineEnds.BlankAtEnd newline Py.isSpace l.body

instance (l : Literal) : Decidable l.BlankAtEnd :=
  inferInstanceAs (Decidable (LineEnds.BlankAtEnd newline Py.isSpace l.body))

/-- **Trimmed literals have the same values exactly when no line of them lost a blank.** -/
theorem values_trims {names : Text → Option CodePoint} {ls ls' : List Literal} {vs : List Value}
    (h : List.Forall₂ Trimmed ls ls') (hclean : ∀ l' ∈ ls', ¬ l'.BlankAtEnd)
    (hvs : ls.mapM (Literal.value names) = some vs) :
    ∃ vs', ls'.mapM (Literal.value names) = some vs'
      ∧ (vs' = vs ↔ ∀ l ∈ ls, ¬ l.BlankAtEnd) := by
  induction h generalizing vs with
  | nil => exact ⟨[], rfl, by simpa using hvs⟩
  | @cons l l' ls ls' hl hls ih =>
    obtain ⟨hform, n, htrims⟩ := hl
    simp only [List.mapM_cons, Option.bind_eq_bind, Option.bind_eq_some_iff, Option.pure_def,
      Option.some.injEq] at hvs
    obtain ⟨v, hv, rest, hrest, rfl⟩ := hvs
    obtain ⟨v', hv', hle⟩ := value_trims hform htrims hv
    obtain ⟨rest', hrest', hiff⟩ := ih (fun l hl => hclean l (List.mem_cons_of_mem _ hl)) hrest
    have hhead : v' = v ↔ ¬ l.BlankAtEnd := by
      constructor
      · rintro rfl hbad
        obtain rfl : n = 0 := by omega
        rw [Literal.BlankAtEnd, htrims.eq_of_zero] at hbad
        exact hclean l' List.mem_cons_self hbad
      · intro hok
        obtain rfl := htrims.zero_of_clean hok
        have hsame : l = l' := by
          cases l
          cases l'
          simp only [Literal.mk.injEq]
          exact ⟨hform, htrims.eq_of_zero⟩
        rw [← hsame, hv, Option.some.injEq] at hv'
        exact hv'.symm
    refine ⟨v' :: rest', ?_, ?_⟩
    · simp [List.mapM_cons, hv', hrest']
    · simp only [List.cons.injEq, List.forall_mem_cons, hhead, hiff]

end PyLiterals
