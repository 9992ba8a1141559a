import Mathlib.Data.List.Basic

/-!
# SHA-1 of a text

`hexdigest s` is `hashlib.sha1(s.encode("utf-8")).hexdigest()`, as a list of characters. Bytes and
32-bit words are natural numbers; additions and rotations are taken modulo 2 ^ 32.
-/

namespace Sha1

/-! ## UTF-8 -/

/-- The UTF-8 bytes of one character. -/
def utf8Char (c : Char) : List Nat :=
  let n := c.toNat
  if n < 0x80 then [n]
  else if n < 0x800 then [0xC0 + n / 0x40, 0x80 + n % 0x40]
  else if n < 0x10000 then [0xE0 + n / 0x1000, 0x80 + n / 0x40 % 0x40, 0x80 + n % 0x40]
  else [0xF0 + n / 0x40000, 0x80 + n / 0x1000 % 0x40, 0x80 + n / 0x40 % 0x40, 0x80 + n % 0x40]

/-- `s.encode("utf-8")`. -/
def utf8 (s : String) : List Nat := s.toList.flatMap utf8Char

/-! ## Padding and blocks -/

/-- The last `k` bytes of `n`, most significant first. -/
def bigEndian : Nat → Nat → List Nat
  | 0, _ => []
  | k + 1, n => bigEndian k (n / 256) ++ [n % 256]

/-- The message, the closing bit, zeros up to a whole block, and the length in bits. -/
def pad (message : List Nat) : List Nat :=
  message ++ 0x80 :: List.replicate ((119 - message.length % 64) % 64) 0
    ++ bigEndian 8 (8 * message.length)

/-- Big-endian words of four bytes. -/
def words : List Nat → List Nat
  | a :: b :: c :: d :: rest => (((a * 256 + b) * 256 + c) * 256 + d) :: words rest
  | _ => []

/-- The first `n` blocks of sixteen words. -/
def blocks : Nat → List Nat → List (List Nat)
  | 0, _ => []
  | n + 1, ws => ws.take 16 :: blocks n (ws.drop 16)

/-! ## Compression -/

/-- The chaining value. -/
structure Chain where
  a : Nat
  b : Nat
  c : Nat
  d : Nat
  e : Nat

def initial : Chain := ⟨0x67452301, 0xEFCDAB89, 0x98BADCFE, 0x10325476, 0xC3D2E1F0⟩

def rotl (k x : Nat) : Nat := (x <<< k ||| x >>> (32 - k)) % 0x100000000

/-- Adds `k` words to a message schedule; the newest word stands first. -/
def extend : Nat → List Nat → List Nat
  | 0, ws => ws
  | k + 1, ws =>
    extend k (rotl 1 (ws.getD 2 0 ^^^ ws.getD 7 0 ^^^ ws.getD 13 0 ^^^ ws.getD 15 0) :: ws)

/-- The eighty words of a block. -/
def schedule (block : List Nat) : List Nat := (extend 64 block.reverse).reverse

/-- The round function and the round constant. -/
def roundTerm (t : Nat) (b c d : Nat) : Nat :=
  if t < 20 then ((b &&& c) ||| ((b ^^^ 0xFFFFFFFF) &&& d)) + 0x5A827999
  else if t < 40 then (b ^^^ c ^^^ d) + 0x6ED9EBA1
  else if t < 60 then ((b &&& c) ||| (b &&& d) ||| (c &&& d)) + 0x8F1BBCDC
  else (b ^^^ c ^^^ d) + 0xCA62C1D6

/-- The rounds from round `t` on, one for each word left. -/
def rounds : Nat → Chain → List Nat → Chain
  | _, s, [] => s
  | t, s, w :: ws =>
    let a := (rotl 5 s.a + roundTerm t s.b s.c s.d + s.e + w) % 0x100000000
    rounds (t + 1) ⟨a, s.a, rotl 30 s.b, s.c, s.d⟩ ws

def compress (h : Chain) (block : List Nat) : Chain :=
  let s := rounds 0 h (schedule block)
  ⟨(h.a + s.a) % 0x100000000, (h.b + s.b) % 0x100000000, (h.c + s.c) % 0x100000000,
    (h.d + s.d) % 0x100000000, (h.e + s.e) % 0x100000000⟩

def digest (message : List Nat) : Chain :=
  let ws := words (pad message)
  (blocks (ws.length / 16) ws).foldl compress initial

/-! ## The digest in hexadecimal -/

/-- The lower-case hexadecimal digit of `n` modulo 16. -/
def hexDigit (n : Nat) : Char :=
  if n % 16 < 10 then Char.ofNat (48 + n % 16) else Char.ofNat (87 + n % 16)

/-- The last `k` hexadecimal digits of `n`. -/
def hexDigits : Nat → Nat → List Char
  | 0, _ => []
  | k + 1, n => hexDigits k (n / 16) ++ [hexDigit n]

/-- `hashlib.sha1(s.encode("utf-8")).hexdigest()`. -/
def hexdigest (s : String) : List Char :=
  let h := digest (utf8 s)
  [h.a, h.b, h.c, h.d, h.e].flatMap (hexDigits 8)

/-- Every property of the sixteen digits holds of the characters of a digest. -/
theorem hexdigest_forall {P : Char → Prop} (hdigit : ∀ n < 16, P (hexDigit n)) (s : String) :
    ∀ c ∈ hexdigest s, P c := by
  have hword : ∀ k n, ∀ c ∈ hexDigits k n, P c := by
    intro k
    induction k with
    | zero => intro n c hc; cases hc
    | succ k ih =>
      intro n c hc
      rcases List.mem_append.mp hc with hc | hc
      · exact ih (n / 16) c hc
      · rw [List.mem_singleton] at hc
        subst hc
        have hmod : hexDigit n = hexDigit (n % 16) := by simp [hexDigit]
        rw [hmod]
        exact hdigit _ (Nat.mod_lt _ (by decide))
  intro c hc
  obtain ⟨w, -, hc⟩ := List.mem_flatMap.mp hc
  exact hword 8 w c hc

example : String.ofList (hexdigest "abc") = "a9993e364706816aba3e25717850c26c9cd0d89d" := by
  decide +kernel

end Sha1
