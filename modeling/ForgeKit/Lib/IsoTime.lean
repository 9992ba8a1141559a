import ForgeKit.Lib.JsonRead

/-!
# Dates and times in ISO form

`date.isoformat` and `datetime.isoformat` write numbers of a fixed width. What they write is read
back; the other forms that `fromisoformat` accepts are a parameter of the readers.

* `Date.read_isoformat`, `DateTime.read_isoformat` — the round trips
-/

namespace IsoTime

open Py (Text CodePoint ofChar)
open JsonText (digitChar isDigit readDecimal Encodable isSurrogate_of_lt encodable_of_ascii)

/-! ## Numbers of a fixed width -/

/-- `n` with `w` digits, as `%04d` does. -/
def pad : Nat → Nat → Text
  | 0, _ => []
  | w + 1, n => pad w (n / 10) ++ [digitChar n]

/-- A word of digits. -/
def readPad (t : Text) : Option Nat := if t.all isDigit then some (readDecimal t) else none

theorem all_isDigit_pad (w n : Nat) : (pad w n).all isDigit = true := by
  induction w generalizing n with
  | zero => rfl
  | succ w ih => rw [pad, List.all_append, ih]; simp [JsonText.isDigit_digitChar]

theorem readDecimal_pad {w n : Nat} (h : n < 10 ^ w) : readDecimal (pad w n) = n := by
  induction w generalizing n with
  | zero =>
    rw [pow_zero] at h
    have hn : n = 0 := by omega
    rw [hn]
    rfl
  | succ w ih =>
    have hdiv : n / 10 < 10 ^ w := by
      rw [pow_succ] at h
      omega
    have hstep : readDecimal (pad w (n / 10) ++ [digitChar n])
        = ((digitChar n).val - 0x30) + 10 * readDecimal (pad w (n / 10)) := by
      rw [readDecimal, List.reverse_append, List.reverse_singleton, List.singleton_append,
        List.map_cons, Nat.ofDigits_cons]
      rfl
    rw [pad, hstep, ih hdiv, JsonText.val_digitChar]
    omega

theorem readPad_pad {w n : Nat} (h : n < 10 ^ w) : readPad (pad w n) = some n := by
  rw [readPad, if_pos (all_isDigit_pad w n), readDecimal_pad h]

/-! ## Dates -/

def isLeap (year : Nat) : Bool := year % 4 = 0 && (year % 100 ≠ 0 || year % 400 = 0)

def daysInMonth (year month : Nat) : Nat :=
  if month = 2 then if isLeap year then 29 else 28
  else if month = 4 ∨ month = 6 ∨ month = 9 ∨ month = 11 then 30
  else 31

/-- `datetime.date`. -/
structure Date where
  year : Nat
  month : Nat
  day : Nat
  year_mem : 1 ≤ year ∧ year ≤ 9999
  month_mem : 1 ≤ month ∧ month ≤ 12
  day_mem : 1 ≤ day ∧ day ≤ daysInMonth year month
deriving DecidableEq

/-- `datetime.date(year, month, day)`. -/
def Date.mk? (year month day : Nat) : Option Date :=
  if h : (1 ≤ year ∧ year ≤ 9999) ∧ (1 ≤ month ∧ month ≤ 12) ∧
      1 ≤ day ∧ day ≤ daysInMonth year month then
    some ⟨year, month, day, h.1, h.2.1, h.2.2⟩
  else none

theorem Date.mk?_self (d : Date) : Date.mk? d.year d.month d.day = some d :=
  dif_pos ⟨d.year_mem, d.month_mem, d.day_mem⟩

theorem Date.day_lt (d : Date) : d.day < 10 ^ 2 := by
  have hday := d.day_mem.2
  unfold daysInMonth at hday
  split at hday
  · split at hday <;> omega
  · split at hday <;> omega

def dash : CodePoint := ofChar '-'

/-- `date.isoformat`. -/
def Date.isoformat (d : Date) : Text := pad 4 d.year ++ dash :: (pad 2 d.month ++ dash :: pad 2 d.day)

/-- `YYYY-MM-DD`, and what follows it. -/
def Date.readPrefix : Text → Option (Date × Text)
  | a :: b :: c :: d :: e :: f :: g :: h :: i :: j :: rest =>
    if e = dash ∧ h = dash then do
      let year ← readPad [a, b, c, d]
      let month ← readPad [f, g]
      let day ← readPad [i, j]
      let date ← Date.mk? year month day
      some (date, rest)
    else none
  | _ => none

theorem Date.readPrefix_isoformat (d : Date) (rest : Text) :
    Date.readPrefix (d.isoformat ++ rest) = some (d, rest) := by
  have hyear : readPad (pad 4 d.year) = some d.year := readPad_pad (by have := d.year_mem; omega)
  have hmonth : readPad (pad 2 d.month) = some d.month :=
    readPad_pad (by have := d.month_mem; omega)
  have hday : readPad (pad 2 d.day) = some d.day := readPad_pad d.day_lt
  show (if dash = dash ∧ dash = dash then do
    let year ← readPad (pad 4 d.year)
    let month ← readPad (pad 2 d.month)
    let day ← readPad (pad 2 d.day)
    let date ← Date.mk? year month day
    some (date, rest) else none) = _
  rw [if_pos ⟨rfl, rfl⟩, hyear, hmonth, hday]
  simp only [Option.bind_eq_bind, Option.bind_some, Date.mk?_self]

/-- `date.fromisoformat`; `other` reads the forms that `isoformat` does not write. -/
def Date.fromisoformat (other : Text → Option Date) (t : Text) : Option Date :=
  match Date.readPrefix t with
  | some (d, []) => some d
  | _ => other t

/-- **A date is read back.** -/
theorem Date.read_isoformat (other : Text → Option Date) (d : Date) :
    Date.fromisoformat other d.isoformat = some d := by
  have h := d.readPrefix_isoformat []
  rw [List.append_nil] at h
  rw [Date.fromisoformat, h]

/-! ## Times -/

instance neZeroHours : @NeZero Nat Zero.ofOfNat0 24 := ⟨by decide⟩

instance neZeroSixty : @NeZero Nat Zero.ofOfNat0 60 := ⟨by decide⟩

instance neZeroMicroseconds : @NeZero Nat Zero.ofOfNat0 1000000 := ⟨by decide⟩

/-- An offset of so many hours. -/
def hoursEast (hours : Fin 24) : {n : Int // n.natAbs < 86400000000} :=
  ⟨hours * 3600000000, by omega⟩

/-- `datetime.datetime`, with its offset in microseconds when it has one. -/
structure DateTime where
  date : Date
  hour : Fin 24
  minute : Fin 60
  second : Fin 60
  microsecond : Fin 1000000
  offset : Option {n : Int // n.natAbs < 86400000000}
deriving DecidableEq

def colon : CodePoint := ofChar ':'

/-- `.ffffff`, unless it is zero. -/
def fraction (micros : Nat) : Text := if micros = 0 then [] else ofChar '.' :: pad 6 micros

/-- `_format_offset`. -/
def formatOffset (n : Int) : Text :=
  let a := n.natAbs
  let seconds := a / 1000000 % 60
  let micros := a % 1000000
  (if n < 0 then dash else ofChar '+') :: (pad 2 (a / 3600000000) ++ colon ::
    (pad 2 (a / 60000000 % 60) ++
      if seconds = 0 ∧ micros = 0 then [] else colon :: (pad 2 seconds ++ fraction micros)))

/-- `datetime.isoformat`. -/
def DateTime.isoformat (t : DateTime) : Text :=
  t.date.isoformat ++ ofChar 'T' :: (pad 2 t.hour ++ colon :: (pad 2 t.minute ++ colon ::
    (pad 2 t.second ++ (fraction t.microsecond ++
      match t.offset with
      | some n => formatOffset n.1
      | none => []))))

/-- A fraction, and what follows it. -/
def readFraction : Text → Option (Nat × Text)
  | p :: a :: b :: c :: d :: e :: f :: rest =>
    if p = ofChar '.' then (readPad [a, b, c, d, e, f]).map fun n => (n, rest)
    else some (0, p :: a :: b :: c :: d :: e :: f :: rest)
  | t => some (0, t)

/-- What follows the minutes of an offset: seconds and a fraction, or nothing. -/
def readOffsetSeconds : Text → Option Nat
  | [] => some 0
  | p :: a :: b :: rest => do
    if p = colon then
      let seconds ← readPad [a, b]
      let (micros, rest) ← readFraction rest
      if rest = [] then some (seconds * 1000000 + micros) else none
    else none
  | _ => none

def readOffset : Text → Option {n : Int // n.natAbs < 86400000000}
  | s :: a :: b :: p :: c :: d :: rest => do
    if (s = dash ∨ s = ofChar '+') ∧ p = colon then
      let hours ← readPad [a, b]
      let minutes ← readPad [c, d]
      let small ← readOffsetSeconds rest
      let n : Int := ↑(hours * 3600000000 + minutes * 60000000 + small)
      let n := if s = dash then -n else n
      if h : n.natAbs < 86400000000 then some ⟨n, h⟩ else none
    else none
  | _ => none

/-- `HH:MM:SS`, and what follows it. -/
def readClock : Text → Option ((Fin 24 × Fin 60 × Fin 60) × Text)
  | a :: b :: p :: c :: d :: q :: e :: f :: rest =>
    if p = colon ∧ q = colon then do
      let hour ← readPad [a, b]
      let minute ← readPad [c, d]
      let second ← readPad [e, f]
      if h : hour < 24 ∧ minute < 60 ∧ second < 60 then
        some ((⟨hour, h.1⟩, ⟨minute, h.2.1⟩, ⟨second, h.2.2⟩), rest)
      else none
    else none
  | _ => none

/-- An offset at the end, or nothing. -/
def readEnd (t : Text) : Option (Option {n : Int // n.natAbs < 86400000000}) :=
  if t = [] then some none else (readOffset t).map some

/-- The forms that `datetime.isoformat` writes. -/
def DateTime.read (t : Text) : Option DateTime := do
  let (date, rest) ← Date.readPrefix t
  let ((hour, minute, second), rest) ← if rest.head? = some (ofChar 'T') then readClock rest.tail else none
  let (micros, rest) ← readFraction rest
  let offset ← readEnd rest
  if h : micros < 1000000 then some ⟨date, hour, minute, second, ⟨micros, h⟩, offset⟩ else none

/-- `datetime.fromisoformat`; `other` reads the forms that `isoformat` does not write. -/
def DateTime.fromisoformat (other : Text → Option DateTime) (t : Text) : Option DateTime :=
  (DateTime.read t).or (other t)

/-! ## Times are read back -/

theorem readFraction_of_head {t : Text} (h : t.head? ≠ some (ofChar '.')) :
    readFraction t = some (0, t) := by
  unfold readFraction
  split
  · next p _ _ _ _ _ _ _ =>
    have hp : p ≠ ofChar '.' := fun hp => h (congrArg some hp)
    rw [if_neg hp]
  · rfl

theorem readFraction_fraction {m : Nat} (hm : m < 1000000) {rest : Text}
    (h : rest.head? ≠ some (ofChar '.')) :
    readFraction (fraction m ++ rest) = some (m, rest) := by
  unfold fraction
  by_cases hzero : m = 0
  · rw [if_pos hzero, hzero, List.nil_append, readFraction_of_head h]
  · rw [if_neg hzero]
    have hread : readFraction (ofChar '.' :: pad 6 m ++ rest)
        = (readPad (pad 6 m)).map fun n => (n, rest) := by
      simp [readFraction, pad]
    rw [hread, readPad_pad hm, Option.map_some]

theorem readOffset_formatOffset (n : {n : Int // n.natAbs < 86400000000}) :
    readOffset (formatOffset n.1) = some n := by
  obtain ⟨n, hn⟩ := n
  have hhours : readPad (pad 2 (n.natAbs / 3600000000)) = some (n.natAbs / 3600000000) :=
    readPad_pad (by omega)
  have hminutes : readPad (pad 2 (n.natAbs / 60000000 % 60)) = some (n.natAbs / 60000000 % 60) :=
    readPad_pad (by omega)
  have hseconds : readPad (pad 2 (n.natAbs / 1000000 % 60)) = some (n.natAbs / 1000000 % 60) :=
    readPad_pad (by omega)
  have hsmall : readOffsetSeconds
      (if n.natAbs / 1000000 % 60 = 0 ∧ n.natAbs % 1000000 = 0 then []
        else colon :: (pad 2 (n.natAbs / 1000000 % 60) ++ fraction (n.natAbs % 1000000)))
      = some (n.natAbs / 1000000 % 60 * 1000000 + n.natAbs % 1000000) := by
    by_cases hzero : n.natAbs / 1000000 % 60 = 0 ∧ n.natAbs % 1000000 = 0
    · rw [if_pos hzero, hzero.1, hzero.2]
      rfl
    · have hfraction : readFraction (fraction (n.natAbs % 1000000))
          = some (n.natAbs % 1000000, []) := by
        have h := readFraction_fraction (m := n.natAbs % 1000000) (by omega)
          (show ([] : Text).head? ≠ some (ofChar '.') by simp)
        rwa [List.append_nil] at h
      rw [if_neg hzero]
      show (do
        if colon = colon then
          let seconds ← readPad (pad 2 (n.natAbs / 1000000 % 60))
          let (micros, rest) ← readFraction (fraction (n.natAbs % 1000000))
          if rest = [] then some (seconds * 1000000 + micros) else none
        else none : Option Nat) = _
      rw [if_pos rfl, hseconds, hfraction]
      rfl
  have hsign : ((if n < 0 then dash else ofChar '+') = dash) = (n < 0) := by
    split
    · next h => simp [h]
    · next h => simp only [h]; decide
  have hhead : ((if n < 0 then dash else ofChar '+') = dash ∨
      (if n < 0 then dash else ofChar '+') = ofChar '+') ∧ colon = colon := by
    split <;> simp
  unfold formatOffset
  have hread : ∀ (s : CodePoint) (h m : Nat) (rest : Text),
      readOffset (s :: (pad 2 h ++ colon :: (pad 2 m ++ rest)))
        = if (s = dash ∨ s = ofChar '+') ∧ colon = colon then do
            let hours ← readPad (pad 2 h)
            let minutes ← readPad (pad 2 m)
            let small ← readOffsetSeconds rest
            let n : Int := ↑(hours * 3600000000 + minutes * 60000000 + small)
            let n := if s = dash then -n else n
            if h : n.natAbs < 86400000000 then some ⟨n, h⟩ else none
          else none := by
    intro s h m rest
    simp [readOffset, pad]
  show readOffset (_ :: (pad 2 _ ++ colon :: (pad 2 _ ++ _))) = _
  rw [hread, if_pos hhead, hhours, hminutes, hsmall]
  simp only [Option.bind_eq_bind, Option.bind_some, hsign]
  have hvalue : (if n < 0 then -((n.natAbs / 3600000000 * 3600000000
      + n.natAbs / 60000000 % 60 * 60000000
      + (n.natAbs / 1000000 % 60 * 1000000 + n.natAbs % 1000000) : ℕ) : ℤ)
      else ((n.natAbs / 3600000000 * 3600000000 + n.natAbs / 60000000 % 60 * 60000000
      + (n.natAbs / 1000000 % 60 * 1000000 + n.natAbs % 1000000) : ℕ) : ℤ)) = n := by
    have hsum : n.natAbs / 3600000000 * 3600000000 + n.natAbs / 60000000 % 60 * 60000000
        + (n.natAbs / 1000000 % 60 * 1000000 + n.natAbs % 1000000) = n.natAbs := by
      omega
    rw [hsum]
    split <;> omega
  simp only [hvalue, hn, dite_true]

theorem head?_formatOffset (n : Int) : (formatOffset n).head? ≠ some (ofChar '.') := by
  unfold formatOffset
  rw [List.head?_cons]
  split <;> decide

theorem readClock_pad (hour : Fin 24) (minute second : Fin 60) (rest : Text) :
    readClock (pad 2 hour ++ colon :: (pad 2 minute ++ colon :: (pad 2 second ++ rest)))
      = some ((hour, minute, second), rest) := by
  have hread : ∀ a b c : Nat,
      readClock (pad 2 a ++ colon :: (pad 2 b ++ colon :: (pad 2 c ++ rest)))
        = if colon = colon ∧ colon = colon then do
            let hour ← readPad (pad 2 a)
            let minute ← readPad (pad 2 b)
            let second ← readPad (pad 2 c)
            if h : hour < 24 ∧ minute < 60 ∧ second < 60 then
              some ((⟨hour, h.1⟩, ⟨minute, h.2.1⟩, ⟨second, h.2.2⟩), rest)
            else none
          else none := by
    intro a b c
    simp [readClock, pad]
  rw [hread, if_pos ⟨rfl, rfl⟩, readPad_pad (by omega), readPad_pad (by omega),
    readPad_pad (by omega)]
  exact dif_pos ⟨hour.2, minute.2, second.2⟩

theorem readEnd_formatOffset (o : Option {n : Int // n.natAbs < 86400000000}) :
    readEnd (match o with
      | some n => formatOffset n.1
      | none => []) = some o := by
  cases o with
  | none => rfl
  | some n =>
    have hne : formatOffset n.1 ≠ [] := List.cons_ne_nil _ _
    show (if formatOffset n.1 = [] then _ else _) = _
    rw [if_neg hne, readOffset_formatOffset, Option.map_some]

/-- **A time is read back.** -/
theorem DateTime.read_isoformat (other : Text → Option DateTime) (t : DateTime) :
    DateTime.fromisoformat other t.isoformat = some t := by
  obtain ⟨date, hour, minute, second, micros, offset⟩ := t
  have hhead : (match offset with
      | some n => formatOffset n.1
      | none => []).head? ≠ some (ofChar '.') := by
    cases offset with
    | none => simp
    | some n => exact head?_formatOffset n.1
  rw [DateTime.fromisoformat, DateTime.isoformat, DateTime.read, Date.readPrefix_isoformat]
  simp only [Option.bind_eq_bind, Option.bind_some, List.head?_cons, List.tail_cons, if_true,
    readClock_pad, readFraction_fraction micros.2 hhead, readEnd_formatOffset]
  simp

/-! ## ISO forms have an encoding -/

theorem lt_of_isDigit {c : CodePoint} (h : isDigit c = true) : c.val < 0x80 := by
  simp only [isDigit, Bool.and_eq_true, decide_eq_true_eq] at h
  omega

theorem encodable_pad (w n : Nat) : Encodable (pad w n) := fun c hc =>
  isSurrogate_of_lt (lt_of_isDigit (List.all_eq_true.mp (all_isDigit_pad w n) c hc))

theorem encodable_cons {c : CodePoint} {t : Text} (hc : c.val < 0x80) (ht : Encodable t) :
    Encodable (c :: t) := by
  intro d hd
  rcases List.mem_cons.mp hd with rfl | hd
  · exact isSurrogate_of_lt hc
  · exact ht d hd

theorem encodable_isoformat (d : Date) : Encodable d.isoformat :=
  (encodable_pad _ _).append (encodable_cons (by decide)
    ((encodable_pad _ _).append (encodable_cons (by decide) (encodable_pad _ _))))

theorem encodable_fraction (m : Nat) : Encodable (fraction m) := by
  unfold fraction
  split
  · exact encodable_of_ascii rfl
  · exact encodable_cons (by decide) (encodable_pad _ _)

theorem encodable_formatOffset (n : Int) : Encodable (formatOffset n) := by
  refine encodable_cons (by split <;> decide) ((encodable_pad _ _).append (encodable_cons (by decide)
    ((encodable_pad _ _).append ?_)))
  split
  · exact encodable_of_ascii rfl
  · exact encodable_cons (by decide) ((encodable_pad _ _).append (encodable_fraction _))

theorem DateTime.encodable_isoformat (t : DateTime) : Encodable t.isoformat := by
  refine (IsoTime.encodable_isoformat _).append (encodable_cons (by decide)
    ((encodable_pad _ _).append (encodable_cons (by decide) ((encodable_pad _ _).append
      (encodable_cons (by decide) ((encodable_pad _ _).append ((encodable_fraction _).append ?_)))))))
  cases t.offset with
  | none => exact encodable_of_ascii rfl
  | some n => exact encodable_formatOffset n.1

end IsoTime
