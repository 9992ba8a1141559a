import ForgeKit.Lib.PyStr

/-!
# JSON text

What `json.dumps(v, ensure_ascii=False)` writes and what `json.loads` reads. A number is the word
it is written with, so no rounding comes in. The reader is a lexer, one step for each code point,
and a stack machine, one step for each token.

* `dumps`, `loads` — the writer and the reader
-/

namespace JsonText

open Py (Text CodePoint)

/-! ## Values -/

def isDigit (c : CodePoint) : Bool := 0x30 ≤ c.val && c.val ≤ 0x39

/-- The code points of numbers and of the words `null`, `true` and `false`. -/
def isWordChar (c : CodePoint) : Bool :=
  isDigit c || c ∈ Py.lit "+-.EINaefilnrstuy"

/-- An exponent, or nothing. -/
def isExponent : Text → Bool
  | [] => true
  | e :: t =>
    (e == Py.ofChar 'e' || e == Py.ofChar 'E') &&
      match t with
      | [] => false
      | c :: ds =>
        if c = Py.ofChar '+' ∨ c = Py.ofChar '-' then ds != [] && ds.all isDigit
        else (c :: ds).all isDigit

/-- A fraction and an exponent, each of which may be missing. -/
def isFraction : Text → Bool
  | p :: c :: t =>
    if p = Py.ofChar '.' then isDigit c && isExponent (t.dropWhile isDigit)
    else isExponent (p :: c :: t)
  | t => isExponent t

/-- Digits without a leading zero, then a fraction and an exponent. -/
def isUnsigned : Text → Bool
  | [] => false
  | c :: t => if c = Py.ofChar '0' then isFraction t
    else isDigit c && isFraction (t.dropWhile isDigit)

/-- What `json.dumps` writes for an `int` or a `float`. -/
def isNumber (w : Text) : Bool :=
  w == Py.lit "NaN" || w == Py.lit "Infinity" || w == Py.lit "-Infinity" ||
    isUnsigned (if w.head? = some (Py.ofChar '-') then w.tail else w)

/-- A number, as the word it is written with. -/
structure Number where
  word : Text
  isNumber : isNumber word = true
deriving DecidableEq

inductive Value where
  | null
  | bool (b : Bool)
  | num (n : Number)
  | str (t : Text)
  | arr (vs : List Value)
  | obj (d : List (Text × Value))

mutual

/-- No object in the value has a key twice. -/
def Value.Valid : Value → Prop
  | .arr vs => validElems vs
  | .obj d => (d.map Prod.fst).Nodup ∧ validMembers d
  | _ => True

def validElems : List Value → Prop
  | [] => True
  | v :: vs => v.Valid ∧ validElems vs

def validMembers : List (Text × Value) → Prop
  | [] => True
  | (_, v) :: d => v.Valid ∧ validMembers d

end

/-- `d[k] = v`. -/
def setKey : List (Text × Value) → Text → Value → List (Text × Value)
  | [], k, v => [(k, v)]
  | (k', v') :: d, k, v => if k' = k then (k, v) :: d else (k', v') :: setKey d k v

/-! ## Tokens -/

inductive Token where
  | openObj
  | closeObj
  | openArr
  | closeArr
  | colon
  | comma
  | word (w : Text)
  | str (t : Text)
deriving DecidableEq

def quote : CodePoint := Py.ofChar '"'

def backslash : CodePoint := Py.ofChar '\\'

def hexDigit (n : Nat) : CodePoint := Fin.ofNat _ (if n < 10 then 0x30 + n else 0x57 + n)

/-- `ESCAPE_DCT`, with the escapes of the control characters. -/
def escapeChar (c : CodePoint) : Text :=
  if c = quote ∨ c = backslash then [backslash, c]
  else if c.val = 0x08 then Py.lit "\\b"
  else if c.val = 0x09 then Py.lit "\\t"
  else if c.val = 0x0A then Py.lit "\\n"
  else if c.val = 0x0C then Py.lit "\\f"
  else if c.val = 0x0D then Py.lit "\\r"
  else if c.val < 0x20 then Py.lit "\\u00" ++ [hexDigit (c.val / 16), hexDigit (c.val % 16)]
  else [c]

/-- A token as `json.dumps` writes it, with the default separators. -/
def Token.text : Token → Text
  | .openObj => Py.lit "\x7b"
  | .closeObj => Py.lit "\x7d"
  | .openArr => Py.lit "["
  | .closeArr => Py.lit "]"
  | .colon => Py.lit ": "
  | .comma => Py.lit ", "
  | .word w => w
  | .str t => quote :: (t.flatMap escapeChar ++ [quote])

mutual

def Value.tokens : Value → List Token
  | .null => [.word (Py.lit "null")]
  | .bool true => [.word (Py.lit "true")]
  | .bool false => [.word (Py.lit "false")]
  | .num n => [.word n.word]
  | .str t => [.str t]
  | .arr vs => .openArr :: (elemTokens vs ++ [.closeArr])
  | .obj d => .openObj :: (memberTokens d ++ [.closeObj])

def elemTokens : List Value → List Token
  | [] => []
  | [v] => v.tokens
  | v :: vs => v.tokens ++ .comma :: elemTokens vs

def memberTokens : List (Text × Value) → List Token
  | [] => []
  | [(k, v)] => .str k :: .colon :: v.tokens
  | (k, v) :: d => .str k :: .colon :: (v.tokens ++ .comma :: memberTokens d)

end

/-- The text of a list of tokens. -/
def textOf (ts : List Token) : Text := ts.flatMap Token.text

/-- `json.dumps(v, ensure_ascii=False)`. -/
def dumps (v : Value) : Text := textOf v.tokens

/-! ## The lexer -/

/-- Between two code points; the text read so far is reversed. `high` says that a high surrogate
was just read from an escape, so that a low one completes it. -/
inductive Lexer where
  | out
  | word (acc : Text)
  | str (acc : Text) (high : Bool)
  | esc (acc : Text) (high : Bool)
  | hex (acc : Text) (high : Bool) (digits value : Nat)
deriving DecidableEq

def isJsonSpace (c : CodePoint) : Bool := c ∈ Py.lit " \t\n\r"

def punctuation (c : CodePoint) : Option Token :=
  if c = Py.ofChar '\x7b' then some .openObj
  else if c = Py.ofChar '\x7d' then some .closeObj
  else if c = Py.ofChar '[' then some .openArr
  else if c = Py.ofChar ']' then some .closeArr
  else if c = Py.ofChar ':' then some .colon
  else if c = Py.ofChar ',' then some .comma
  else none

/-- The escapes of one character. -/
def unescape (c : CodePoint) : Option CodePoint :=
  if c = quote ∨ c = backslash ∨ c = Py.ofChar '/' then some c
  else if c = Py.ofChar 'b' then some ⟨0x08, by decide⟩
  else if c = Py.ofChar 't' then some ⟨0x09, by decide⟩
  else if c = Py.ofChar 'n' then some ⟨0x0A, by decide⟩
  else if c = Py.ofChar 'f' then some ⟨0x0C, by decide⟩
  else if c = Py.ofChar 'r' then some ⟨0x0D, by decide⟩
  else none

def hexValue (c : CodePoint) : Option Nat :=
  if isDigit c then some (c.val - 0x30)
  else if 0x61 ≤ c.val ∧ c.val ≤ 0x66 then some (c.val - 0x57)
  else if 0x41 ≤ c.val ∧ c.val ≤ 0x46 then some (c.val - 0x37)
  else none

/-- What `\uXXXX` adds to a text. -/
def addUnit (acc : Text) (high : Bool) (value : Nat) : Lexer :=
  match acc with
  | h :: rest =>
    if high = true ∧ 0xDC00 ≤ value ∧ value ≤ 0xDFFF then
      .str (Fin.ofNat _ (0x10000 + (h.val - 0xD800) * 0x400 + (value - 0xDC00)) :: rest) false
    else .str (Fin.ofNat _ value :: acc) (0xD800 ≤ value && value ≤ 0xDBFF)
  | [] => .str [Fin.ofNat _ value] (0xD800 ≤ value && value ≤ 0xDBFF)

/-- One code point outside of texts. -/
def stepOut (c : CodePoint) : Option (List Token × Lexer) :=
  if isJsonSpace c then some ([], .out)
  else if c = quote then some ([], .str [] false)
  else if isWordChar c then some ([], .word [c])
  else (punctuation c).map fun p => ([p], .out)

/-- One code point: the tokens that end with it, and where it leads. -/
def Lexer.step : Lexer → CodePoint → Option (List Token × Lexer)
  | .out, c => stepOut c
  | .word acc, c =>
    if isWordChar c then some ([], .word (c :: acc))
    else (stepOut c).map fun r => (.word acc.reverse :: r.1, r.2)
  | .str acc high, c =>
    if c = quote then some ([.str acc.reverse], .out)
    else if c = backslash then some ([], .esc acc high)
    else if c.val < 0x20 then none
    else some ([], .str (c :: acc) false)
  | .esc acc high, c =>
    if c = Py.ofChar 'u' then some ([], .hex acc high 0 0)
    else (unescape c).map fun d => ([], .str (d :: acc) false)
  | .hex acc high digits value, c =>
    (hexValue c).map fun n =>
      if digits = 3 then ([], addUnit acc high (16 * value + n))
      else ([], .hex acc high (digits + 1) (16 * value + n))

/-- The tokens of a text, and where it leads. -/
def Lexer.scan : Lexer → Text → Option (List Token × Lexer)
  | s, [] => some ([], s)
  | s, c :: t => (s.step c).bind fun r => (r.2.scan t).map fun q => (r.1 ++ q.1, q.2)

/-- The tokens that end with the text. -/
def Lexer.finish : Lexer → Option (List Token)
  | .out => some []
  | .word acc => some [.word acc.reverse]
  | _ => none

def lex (t : Text) : Option (List Token) :=
  (Lexer.out.scan t).bind fun r => r.2.finish.map (r.1 ++ ·)

/-! ## The parser -/

/-- What a value that is being read is part of. -/
inductive Frame where
  | elem (before : List Value)
  | member (before : List (Text × Value)) (key : Text)

/-- What is due. -/
inductive Due where
  | value
  | firstElem
  | key (before : List (Text × Value)) (first : Bool)
  | colon (before : List (Text × Value)) (key : Text)
  | closing (v : Value)

structure Parser where
  due : Due
  stack : List Frame

def readWord (w : Text) : Option Value :=
  if w = Py.lit "null" then some .null
  else if w = Py.lit "true" then some (.bool true)
  else if w = Py.lit "false" then some (.bool false)
  else if h : isNumber w = true then some (.num ⟨w, h⟩)
  else none

/-- A token where a value is due. -/
def startValue (stack : List Frame) : Token → Option Parser
  | .openObj => some ⟨.key [] true, stack⟩
  | .openArr => some ⟨.firstElem, stack⟩
  | .word w => (readWord w).map fun v => ⟨.closing v, stack⟩
  | .str t => some ⟨.closing (.str t), stack⟩
  | _ => none

def Parser.step (p : Parser) (tok : Token) : Option Parser :=
  match p.due, p.stack, tok with
  | .value, stack, tok => startValue stack tok
  | .firstElem, stack, .closeArr => some ⟨.closing (.arr []), stack⟩
  | .firstElem, stack, tok => startValue (.elem [] :: stack) tok
  | .key before _, stack, .str k => some ⟨.colon before k, stack⟩
  | .key _ true, stack, .closeObj => some ⟨.closing (.obj []), stack⟩
  | .colon before k, stack, .colon => some ⟨.value, .member before k :: stack⟩
  | .closing v, .elem before :: stack, .comma => some ⟨.value, .elem (before ++ [v]) :: stack⟩
  | .closing v, .elem before :: stack, .closeArr =>
    some ⟨.closing (.arr (before ++ [v])), stack⟩
  | .closing v, .member before k :: stack, .comma => some ⟨.key (setKey before k v) false, stack⟩
  | .closing v, .member before k :: stack, .closeObj =>
    some ⟨.closing (.obj (setKey before k v)), stack⟩
  | _, _, _ => none

def Parser.run : Parser → List Token → Option Parser
  | p, [] => some p
  | p, tok :: ts => (p.step tok).bind fun p' => p'.run ts

/-- The value that was read, when nothing is open. -/
def Parser.finish (p : Parser) : Option Value :=
  match p.due, p.stack with
  | .closing v, [] => some v
  | _, _ => none

/-- `json.loads(t)`; `none` is the `JSONDecodeError`. -/
def loads (t : Text) : Option Value :=
  (lex t).bind fun ts => (Parser.run ⟨.value, []⟩ ts).bind Parser.finish

end JsonText
