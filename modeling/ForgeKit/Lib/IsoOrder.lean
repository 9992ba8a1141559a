import ForgeKit.Lib.IsoTime
import ForgeKit.Lib.KeyOrder

/-!
# ISO texts in order

Numbers of a fixed width are in the order of their texts. So are dates, and so are times with one
offset: a fraction is written only where it is not zero, and its point comes after both signs.

* `lexLe_date_append` — dates first, and then what follows them
* `lexLe_clock_append` — clocks first, and then what follows them
-/

namespace IsoTime

open Py (Text CodePoint ofChar lit)
open JsonText (digitChar)
open KeyOrder (lexLe lexLe_cons)

/-- After the same items the rest decides. -/
theorem lexLe_append_left (t : Text) {u v : Text} : lexLe (t ++ u) (t ++ v) = lexLe u v := by
  induction t with
  | nil => rfl
  | cons c t ih => simp [lexLe, ih]

theorem digitChar_lt_iff {n m : Nat} : digitChar n < digitChar m ↔ n % 10 < m % 10 := by
  rw [Fin.lt_def, JsonText.val_digitChar, JsonText.val_digitChar]
  omega

theorem digitChar_eq_iff {n m : Nat} : digitChar n = digitChar m ↔ n % 10 = m % 10 := by
  rw [Fin.ext_iff, JsonText.val_digitChar, JsonText.val_digitChar]
  omega

/-- **Numbers of one width are compared as numbers**, and then what follows them. -/
theorem lexLe_pad_append {w n m : Nat} (hn : n < 10 ^ w) (hm : m < 10 ^ w) {s t : Text} :
    lexLe (pad w n ++ s) (pad w m ++ t) = true ↔ n < m ∨ n = m ∧ lexLe s t = true := by
  induction w generalizing n m s t with
  | zero =>
    obtain rfl : n = 0 := by omega
    obtain rfl : m = 0 := by omega
    simp [pad]
  | succ w ih =>
    rw [pow_succ] at hn hm
    rw [pad, pad, List.append_assoc, List.append_assoc, ih (by omega) (by omega),
      List.singleton_append, List.singleton_append, lexLe_cons, digitChar_lt_iff, digitChar_eq_iff]
    constructor
    · rintro (h | ⟨h, hlt | ⟨heq, hle⟩⟩)
      · exact .inl (by omega)
      · exact .inl (by omega)
      · exact .inr ⟨by omega, hle⟩
    · rintro (h | ⟨rfl, hle⟩)
      · by_cases hdiv : n / 10 < m / 10
        · exact .inl hdiv
        · exact .inr ⟨by omega, .inl (by omega)⟩
      · exact .inr ⟨rfl, .inr ⟨rfl, hle⟩⟩

theorem lexLe_cons_self (c : CodePoint) {s t : Text} : lexLe (c :: s) (c :: t) = lexLe s t :=
  lexLe_append_left [c]

/-! ## Dates -/

/-- One date comes before another. -/
def Date.Before (d e : Date) : Prop :=
  d.year < e.year ∨ d.year = e.year ∧ (d.month < e.month ∨ d.month = e.month ∧ d.day < e.day)

instance Date.decidableBefore (d e : Date) : Decidable (d.Before e) :=
  inferInstanceAs (Decidable (_ ∨ _ ∧ (_ ∨ _ ∧ _)))

theorem Date.ext_iff' {d e : Date} : d = e ↔ d.year = e.year ∧ d.month = e.month ∧ d.day = e.day := by
  constructor
  · rintro rfl
    exact ⟨rfl, rfl, rfl⟩
  · rintro ⟨hyear, hmonth, hday⟩
    cases d
    cases e
    cases hyear
    cases hmonth
    cases hday
    rfl

/-- **Dates are compared as dates**, and then what follows them. -/
theorem lexLe_date_append {d e : Date} {s t : Text} :
    lexLe (d.isoformat ++ s) (e.isoformat ++ t) = true ↔ d.Before e ∨ d = e ∧ lexLe s t = true := by
  have hyear : ∀ f : Date, f.year < 10 ^ 4 := fun f => by
    have := f.year_mem
    omega
  have hmonth : ∀ f : Date, f.month < 10 ^ 2 := fun f => by
    have := f.month_mem
    omega
  have happend : ∀ (f : Date) (r : Text), f.isoformat ++ r =
      pad 4 f.year ++ (dash :: (pad 2 f.month ++ (dash :: (pad 2 f.day ++ r)))) := fun f r => by
    simp [Date.isoformat]
  rw [happend, happend, lexLe_pad_append (hyear d) (hyear e), lexLe_cons_self,
    lexLe_pad_append (hmonth d) (hmonth e), lexLe_cons_self, lexLe_pad_append d.day_lt e.day_lt,
    Date.Before, Date.ext_iff']
  tauto

/-! ## Clocks -/

/-- The clock of a time within its day, as `isoformat` writes it. -/
def DateTime.clockText (t : DateTime) : Text :=
  pad 2 t.hour ++ (colon :: (pad 2 t.minute ++ (colon :: (pad 2 t.second ++ fraction t.microsecond))))

/-- The offset of a time, as `isoformat` writes it. -/
def DateTime.offsetText (t : DateTime) : Text :=
  match t.offset with
  | some n => formatOffset n.1
  | none => []

theorem DateTime.isoformat_eq (t : DateTime) :
    t.isoformat = t.date.isoformat ++ (ofChar 'T' :: (t.clockText ++ t.offsetText)) := by
  show t.date.isoformat ++ ofChar 'T' :: (pad 2 t.hour ++ colon :: (pad 2 t.minute ++ colon ::
    (pad 2 t.second ++ (fraction t.microsecond ++ t.offsetText)))) = _
  simp only [DateTime.clockText, List.append_assoc, List.cons_append]

/-- The clock of one time comes before that of another. -/
def DateTime.ClockBefore (t u : DateTime) : Prop :=
  t.hour.val < u.hour.val ∨ t.hour.val = u.hour.val ∧ (t.minute.val < u.minute.val
    ∨ t.minute.val = u.minute.val ∧ (t.second.val < u.second.val
      ∨ t.second.val = u.second.val ∧ t.microsecond.val < u.microsecond.val))

/-- No offset, or a sign: what may follow a clock. -/
def BeforePoint (s : Text) : Prop := ∀ c, s.head? = some c → c < ofChar '.'

/-- **Fractions are compared as numbers**, and then what follows them, if that comes before a point. -/
theorem lexLe_fraction_append {n m : Nat} (hn : n < 1000000) (hm : m < 1000000) {s t : Text}
    (hs : BeforePoint s) (ht : BeforePoint t) :
    lexLe (fraction n ++ s) (fraction m ++ t) = true ↔ n < m ∨ n = m ∧ lexLe s t = true := by
  unfold fraction
  by_cases hzero : n = 0
  · by_cases hzero' : m = 0
    · simp [hzero, hzero']
    · rw [if_pos hzero, if_neg hzero', hzero, List.nil_append, List.cons_append]
      refine iff_of_true ?_ (.inl (Nat.pos_of_ne_zero hzero'))
      cases s with
      | nil => rfl
      | cons c s => exact lexLe_cons.mpr (.inl (hs c rfl))
  · by_cases hzero' : m = 0
    · rw [if_neg hzero, if_pos hzero', hzero', List.nil_append, List.cons_append]
      refine iff_of_false ?_ (by omega)
      cases t with
      | nil => exact Bool.false_ne_true
      | cons c t =>
        rw [lexLe_cons]
        rintro (hlt | ⟨heq, -⟩)
        · exact absurd (hlt.trans (ht c rfl)) (lt_irrefl _)
        · exact absurd (heq ▸ ht c rfl) (lt_irrefl _)
    · rw [if_neg hzero, if_neg hzero', List.cons_append, List.cons_append, lexLe_cons_self]
      exact lexLe_pad_append hn hm

/-- **Clocks are compared as clocks**, and then what follows them, if that comes before a point. -/
theorem lexLe_clock_append {t u : DateTime} {r s : Text} (hr : BeforePoint r) (hs : BeforePoint s) :
    lexLe (t.clockText ++ r) (u.clockText ++ s) = true ↔
      t.ClockBefore u ∨ (t.hour = u.hour ∧ t.minute = u.minute ∧ t.second = u.second
        ∧ t.microsecond = u.microsecond) ∧ lexLe r s = true := by
  have happend : ∀ (v : DateTime) (e : Text), v.clockText ++ e = pad 2 v.hour ++ (colon ::
      (pad 2 v.minute ++ (colon :: (pad 2 v.second ++ (fraction v.microsecond ++ e))))) := fun v e => by
    simp [DateTime.clockText]
  have hhour : ∀ v : DateTime, v.hour.val < 10 ^ 2 := fun v => by omega
  have hminute : ∀ v : DateTime, v.minute.val < 10 ^ 2 := fun v => by omega
  have hsecond : ∀ v : DateTime, v.second.val < 10 ^ 2 := fun v => by omega
  rw [happend, happend, lexLe_pad_append (hhour t) (hhour u), lexLe_cons_self,
    lexLe_pad_append (hminute t) (hminute u), lexLe_cons_self,
    lexLe_pad_append (hsecond t) (hsecond u),
    lexLe_fraction_append t.microsecond.isLt u.microsecond.isLt hr hs, DateTime.ClockBefore,
    Fin.ext_iff, Fin.ext_iff, Fin.ext_iff, Fin.ext_iff]
  tauto

theorem beforePoint_offsetText (t : DateTime) : BeforePoint t.offsetText := by
  unfold DateTime.offsetText
  cases t.offset with
  | none => exact fun _ h => nomatch h
  | some n =>
    intro c hc
    simp only [formatOffset, List.head?_cons, Option.some.injEq] at hc
    subst hc
    split <;> decide

end IsoTime
