import ForgeKit.DayPlan.FreeWindows
import ForgeKit.Lib.Backtrack
import ForgeKit.Lib.Trim

/-!
# Times in a description (`yule_planning/schedule`)

A line of an event's description names a block: a start, a dash, an end, a colon and a title. Both
patterns backtrack, as `re` does.

* `descriptionBlockPattern_clockLine` — what is read of `HH:MM ~ HH:MM : title`
-/

namespace ForgeKit.DayPlan

open Py (Text CodePoint lit ofChar newline isSpace strip)
open IsoTime (colon dash pad)
open Backtrack

/-! ## Lines -/

/-- The characters at which `str.splitlines` breaks a text. -/
def isLineBreak (c : CodePoint) : Bool :=
  let n := c.val
  (0x0A ≤ n && n ≤ 0x0D) || (0x1C ≤ n && n ≤ 0x1E) || n == 0x85 || n == 0x2028 || n == 0x2029

/-- The loop of `str.splitlines`, with what was read of the line. After `"\r"` a newline is part of
the same break. -/
def splitlinesFrom (afterReturn : Bool) (line : Text) : Text → List Text
  | [] => if line = [] then [] else [line]
  | c :: t =>
    if afterReturn && c == newline then splitlinesFrom false line t
    else if isLineBreak c then line :: splitlinesFrom (c == Py.carriageReturn) [] t
    else splitlinesFrom false (line ++ [c]) t

/-- `str.splitlines`. -/
def splitlines (t : Text) : List Text := splitlinesFrom false [] t

theorem splitlinesFrom_of_no_break {t : Text} (h : ∀ c ∈ t, isLineBreak c = false) (line : Text) :
    splitlinesFrom false line t = if line ++ t = [] then [] else [line ++ t] := by
  induction t generalizing line with
  | nil => rw [splitlinesFrom, List.append_nil]
  | cons c t ih =>
    obtain ⟨hc, ht⟩ := List.forall_mem_cons.mp h
    rw [splitlinesFrom, Bool.false_and, if_neg Bool.false_ne_true, if_neg (by rw [hc]; decide),
      ih ht, List.append_assoc, List.singleton_append]

/-- A text without line breaks is one line. -/
theorem splitlines_of_no_break {t : Text} (hne : t ≠ []) (h : ∀ c ∈ t, isLineBreak c = false) :
    splitlines t = [t] := by
  rw [splitlines, splitlinesFrom_of_no_break h, List.nil_append, if_neg hne]

/-! ## `DESCRIPTION_BLOCK_PATTERN` -/

/-- `.` -/
def isDot (c : CodePoint) : Bool := c != newline

/-- `$` -/
def atEnd (t : Text) : Bool := t == [] || t == [newline]

/-- `[-*]` -/
def isBullet (c : CodePoint) : Bool := c == dash || c == ofChar '*'

/-- `(?:~|〜|–|-)` -/
def isRange (c : CodePoint) : Bool :=
  c == ofChar '~' || c == ofChar '〜' || c == ofChar '–' || c == dash

/-- One item that `p` accepts. -/
def one (p : CodePoint → Bool) : Text → Option Text
  | c :: t => if p c then some t else none
  | [] => none

/-- What is left after `(?:[-*]\s*)?`. -/
def bullets (t : Text) : List Text :=
  (match one isBullet t with
    | some t => (greedily isSpace t).map (·.2)
    | none => []) ++ [t]

/-- The groups of a match. -/
structure DescriptionLine where
  start : Text
  stop : Text
  title : Text
deriving DecidableEq

/-- `(?P<title>.+?)\s*$` -/
def matchTitle (t : Text) : Option Text :=
  (lazilySome isDot t).findSome? fun (title, t) =>
    (greedily isSpace t).findSome? fun (_, t) => if atEnd t then some title else none

/-- `(?P<end>.+?)\s*:\s*`, and what follows. -/
def matchStop (start t : Text) : Option DescriptionLine :=
  (lazilySome isDot t).findSome? fun (stop, t) =>
    (greedily isSpace t).findSome? fun (_, t) =>
      (one (· == colon) t).bind fun t =>
        (greedily isSpace t).findSome? fun (_, t) =>
          (matchTitle t).map fun title => ⟨start, stop, title⟩

/-- `(?P<start>.+?)\s*(?:~|〜|–|-)\s*`, and what follows. -/
def matchStart (t : Text) : Option DescriptionLine :=
  (lazilySome isDot t).findSome? fun (start, t) =>
    (greedily isSpace t).findSome? fun (_, t) =>
      (one isRange t).bind fun t =>
        (greedily isSpace t).findSome? fun (_, t) => matchStop start t

/-- `DESCRIPTION_BLOCK_PATTERN.match`. -/
def descriptionBlockPattern (t : Text) : Option DescriptionLine :=
  (greedily isSpace t).findSome? fun (_, t) => (bullets t).findSome? matchStart

/-! ## `TIME_TOKEN_PATTERN` -/

/-- `오전` or `오후`. -/
inductive Meridian where
  | am
  | pm
deriving DecidableEq

/-- The groups of a match. -/
structure TimeToken where
  meridian : Option Meridian
  hour : Nat
  minute : Nat
deriving DecidableEq

/-- `시` -/
def isHourMark (c : CodePoint) : Bool := c == ofChar '시'

/-- `(?:(오전|오후))?` -/
def matchMeridian (t : Text) : List (Option Meridian × Text) :=
  (if Py.startsWith t (lit "오전") then [(some .am, t.drop 2)]
    else if Py.startsWith t (lit "오후") then [(some .pm, t.drop 2)] else []) ++ [(none, t)]

/-- The digits beyond ASCII, as `\d` and `int` take them. -/
abbrev OtherDigits := CodePoint → Option (Fin 10)

variable (other : OtherDigits)

/-- The value of a digit. -/
def digitValue (c : CodePoint) : Option Nat :=
  if JsonText.isDigit c then some (c.val - 0x30) else (other c).map Fin.val

/-- `\d{1,2}`, as `int` reads it. -/
def matchNumber (t : Text) : List (Nat × Text) :=
  match t with
  | c :: t =>
    match digitValue other c with
    | some n =>
      (match t with
        | d :: rest => ((digitValue other d).map fun m => (10 * n + m, rest)).toList
        | [] => []) ++ [(n, t)]
    | none => []
  | [] => []

/-- `(?:(?:[:시])(?P<minute>\d{1,2}))?`, as `int(match.group("minute") or "0")` reads it. -/
def matchMinute (t : Text) : List (Nat × Text) :=
  (match one (fun c => c == colon || isHourMark c) t with
    | some t => matchNumber other t
    | none => []) ++ [(0, t)]

/-- `시?` -/
def matchHourMark (t : Text) : List Text := (one isHourMark t).toList ++ [t]

/-- `TIME_TOKEN_PATTERN.match`. -/
def timeTokenPattern (t : Text) : Option TimeToken :=
  (matchMeridian t).findSome? fun (meridian, t) =>
    (matchNumber other t).findSome? fun (hour, t) =>
      (matchMinute other t).findSome? fun (minute, t) =>
        (matchHourMark t).findSome? fun t =>
          if atEnd t then some ⟨meridian, hour, minute⟩ else none

/-- The token that `_resolve_description_time` reads. -/
def readToken (token : Text) : Option TimeToken :=
  timeTokenPattern other
    ((strip token).filter fun c => !(c == ofChar ' ' || c == ofChar '분'))

/-! ## `HH:MM ~ HH:MM : title` -/

/-- `HH:MM`. -/
def clockText (t : Fin 24 × Fin 60) : Text := pad 2 t.1 ++ colon :: pad 2 t.2

/-- `HH:MM ~ HH:MM : title`. -/
def clockLine (start stop : Fin 24 × Fin 60) (title : Text) : Text :=
  clockText start ++ (lit " ~ " ++ (clockText stop ++ (lit " : " ++ title)))

/-- What comes after the first colon behind the dash. -/
def afterHour (minutes : Fin 60) (title : Text) : Text :=
  pad 2 minutes ++ if title = [] then lit " :" else lit " : " ++ title

section Match

theorem pad_two (n : Nat) : pad 2 n = [JsonText.digitChar (n / 10), JsonText.digitChar n] := rfl

/-- A digit is none of the characters that the pattern asks for. -/
theorem digitChar_apart (n : Nat) :
    isSpace (JsonText.digitChar n) = false ∧ isDot (JsonText.digitChar n) = true
      ∧ isRange (JsonText.digitChar n) = false ∧ isBullet (JsonText.digitChar n) = false
      ∧ (JsonText.digitChar n == colon) = false := by
  have hdigit : ∀ m : Fin 10, isSpace (JsonText.digitChar m) = false
      ∧ isDot (JsonText.digitChar m) = true ∧ isRange (JsonText.digitChar m) = false
      ∧ isBullet (JsonText.digitChar m) = false ∧ (JsonText.digitChar m == colon) = false := by
    decide
  have hmod : JsonText.digitChar n = JsonText.digitChar (n % 10) := by
    rw [JsonText.digitChar, JsonText.digitChar, Nat.mod_mod]
  rw [hmod]
  exact hdigit ⟨n % 10, Nat.mod_lt _ (by decide)⟩

/-- A title goes to the end when it does not end in a blank. -/
theorem matchTitle_eq {t : Text} {c : CodePoint} (hlast : t.getLast? = some c)
    (hspace : isSpace c = false) (hline : newline ∉ t) : matchTitle t = some t := by
  have hne : t ≠ [] := by
    rintro rfl
    cases hlast
  refine findSome?_lazilySome (show t ++ [] = t from List.append_nil t) hne (fun a ha => ?_) rfl ?_
  · exact bne_iff_ne.mpr fun h => hline (h ▸ ha)
  · -- a shorter title leaves the last character, which is not a blank
    rintro less more rfl - hlt
    have hmore : more ≠ [] := by
      rintro rfl
      rw [List.append_nil] at hlt
      exact Nat.lt_irrefl _ hlt
    refine List.findSome?_eq_none_iff.mpr ?_
    rintro ⟨blanks, rest⟩ hmem
    obtain ⟨rfl, hblanks⟩ := mem_greedily.mp hmem
    refine if_neg fun hend => ?_
    rw [atEnd, Bool.or_eq_true, beq_iff_eq, beq_iff_eq] at hend
    rcases hend with rfl | rfl
    · rw [List.append_nil] at hlast hmore
      rw [List.getLast?_append_of_ne_nil _ hmore] at hlast
      rw [hblanks c (List.mem_of_getLast? hlast)] at hspace
      cases hspace
    · exact hline (by simp)

/-- The end is what stands before the first colon. -/
theorem matchStop_eq {start rest : Text} (n m : Nat) {c : CodePoint}
    (hhead : ∀ d, rest.head? = some d → isSpace d = false) (hlast : rest.getLast? = some c)
    (hspace : isSpace c = false) (hline : newline ∉ rest) :
    matchStop start (JsonText.digitChar n :: JsonText.digitChar m :: colon :: rest) =
      some ⟨start, [JsonText.digitChar n, JsonText.digitChar m], rest⟩ := by
  obtain ⟨-, hdot, -⟩ := digitChar_apart n
  obtain ⟨hspace', hdot', -, -, hcolon'⟩ := digitChar_apart m
  have hskip : greedily isSpace rest = [([], rest)] := by
    cases rest with
    | nil => rfl
    | cons d rest => exact greedily_cons_of_neg (hhead d rfl) rest
  have hcolon : isSpace colon = false := by decide
  rw [matchStop, lazilySome_cons, if_pos hdot, lazily_eq, lazilySome_cons, if_pos hdot', lazily_eq]
  simp only [List.map_cons, List.findSome?_cons, greedily_cons_of_neg hspace',
    greedily_cons_of_neg hcolon, List.findSome?_nil, one, hcolon', beq_self_eq_true, if_true,
    Bool.false_eq_true, if_false, Option.bind_none, Option.bind_some, hskip,
    matchTitle_eq hlast hspace hline, Option.map_some]

/-- The start is what stands before the blank and the tilde. -/
theorem matchStart_eq {rest : Text} (n m i j k l : Nat) {c : CodePoint}
    (hhead : ∀ d, rest.head? = some d → isSpace d = false) (hlast : rest.getLast? = some c)
    (hspace : isSpace c = false) (hline : newline ∉ rest) :
    matchStart (JsonText.digitChar n :: JsonText.digitChar m :: colon :: JsonText.digitChar i
        :: JsonText.digitChar j :: ofChar ' ' :: ofChar '~' :: ofChar ' ' :: JsonText.digitChar k
        :: JsonText.digitChar l :: colon :: rest) =
      some ⟨[JsonText.digitChar n, JsonText.digitChar m, colon, JsonText.digitChar i,
        JsonText.digitChar j], [JsonText.digitChar k, JsonText.digitChar l], rest⟩ := by
  obtain ⟨-, hdotn, -⟩ := digitChar_apart n
  obtain ⟨hspacem, hdotm, hrangem, -⟩ := digitChar_apart m
  obtain ⟨hspacei, hdoti, hrangei, -⟩ := digitChar_apart i
  obtain ⟨hspacej, hdotj, hrangej, -⟩ := digitChar_apart j
  obtain ⟨hspacek, -⟩ := digitChar_apart k
  have hcolon : isSpace colon = false ∧ isDot colon = true ∧ isRange colon = false := by decide
  have hblank : isSpace (ofChar ' ') = true ∧ isSpace (ofChar '~') = false
      ∧ isRange (ofChar '~') = true := by decide
  rw [matchStart, lazilySome_cons, if_pos hdotn, lazily_eq, lazilySome_cons, if_pos hdotm,
    lazily_eq, lazilySome_cons, if_pos hcolon.2.1, lazily_eq, lazilySome_cons, if_pos hdoti,
    lazily_eq, lazilySome_cons, if_pos hdotj, lazily_eq]
  simp only [List.map_cons, List.findSome?_cons, List.findSome?_nil, one,
    greedily_cons_of_neg hspacem, greedily_cons_of_neg hspacei, greedily_cons_of_neg hspacej,
    greedily_cons_of_neg hcolon.1, greedily_cons_cons_of_neg hblank.1 hblank.2.1,
    greedily_cons_cons_of_neg hblank.1 hspacek, hrangem, hrangei, hrangej, hcolon.2.2, hblank.2.2,
    if_true, Bool.false_eq_true, if_false, Option.bind_none, Option.bind_some,
    matchStop_eq k l hhead hlast hspace hline]

/-- A line that starts with a digit starts with the time. -/
theorem descriptionBlockPattern_digit (n : Nat) (t : Text) :
    descriptionBlockPattern (JsonText.digitChar n :: t) = matchStart (JsonText.digitChar n :: t) := by
  obtain ⟨hspace, -, -, hbullet, -⟩ := digitChar_apart n
  have hbullets : bullets (JsonText.digitChar n :: t) = [JsonText.digitChar n :: t] := by
    simp [bullets, one, hbullet]
  rw [descriptionBlockPattern, greedily_cons_of_neg hspace]
  simp only [List.findSome?_singleton, hbullets]

end Match

/-- What comes after the first colon behind the dash starts with a digit and ends in no blank. -/
theorem ends_afterHour (minutes : Fin 60) {title : Text} (htitle : strip title = title) :
    (∀ d, (afterHour minutes title).head? = some d → isSpace d = false)
      ∧ ∃ c, (afterHour minutes title).getLast? = some c ∧ isSpace c = false := by
  rw [afterHour, pad_two]
  refine ⟨fun d hd => ?_, ?_⟩
  · cases hd
    exact (digitChar_apart _).1
  · by_cases hnil : title = []
    · exact ⟨colon, by rw [if_pos hnil]; rfl, by decide⟩
    · obtain ⟨c, hc⟩ : ∃ c, title.getLast? = some c := ⟨_, List.getLast?_eq_some_getLast hnil⟩
      refine ⟨c, ?_, Trim.not_of_getLast?_trim (p := isSpace) (l := title) ?_⟩
      · rw [if_neg hnil, List.getLast?_append_of_ne_nil _ (List.append_ne_nil_of_right_ne_nil _ hnil),
          List.getLast?_append_of_ne_nil _ hnil, hc]
      · exact (congrArg List.getLast? htitle).trans hc

theorem strip_afterHour (minutes : Fin 60) {title : Text} (htitle : strip title = title) :
    strip (afterHour minutes title) = afterHour minutes title := by
  obtain ⟨hhead, c, hlast, hspace⟩ := ends_afterHour minutes htitle
  have hleft : Py.lstrip (afterHour minutes title) = afterHour minutes title :=
    Py.lstrip_append (a := []) hhead
  have hright := Py.rstrip_append (a := []) (t := afterHour minutes title) fun d hd => by
    rw [hlast] at hd
    cases hd
    exact hspace
  rw [List.append_nil] at hright
  rw [strip, hleft, hright]
  exact List.append_nil _

theorem isLineBreak_digitChar (n : Nat) : isLineBreak (JsonText.digitChar n) = false := by
  have hdigit : ∀ m : Fin 10, isLineBreak (JsonText.digitChar m) = false := by decide
  have hmod : JsonText.digitChar n = JsonText.digitChar (n % 10) := by
    rw [JsonText.digitChar, JsonText.digitChar, Nat.mod_mod]
  rw [hmod]
  exact hdigit ⟨n % 10, Nat.mod_lt _ (by decide)⟩

/-- The line is one line when its title is. -/
theorem isLineBreak_clockLine (start stop : Fin 24 × Fin 60) {title : Text}
    (h : ∀ c ∈ title, isLineBreak c = false) : ∀ c ∈ clockLine start stop title, isLineBreak c = false := by
  have hclock : ∀ t : Fin 24 × Fin 60, ∀ c ∈ clockText t, isLineBreak c = false := by
    intro t c hc
    simp only [clockText, pad_two, List.cons_append, List.nil_append, List.mem_cons,
      List.not_mem_nil, or_false] at hc
    rcases hc with rfl | rfl | rfl | rfl | rfl
    · exact isLineBreak_digitChar _
    · exact isLineBreak_digitChar _
    · decide
    · exact isLineBreak_digitChar _
    · exact isLineBreak_digitChar _
  have hmarks : (lit " ~ ").all (!isLineBreak ·) = true ∧ (lit " : ").all (!isLineBreak ·) = true :=
    ⟨rfl, rfl⟩
  simp only [List.all_eq_true, Bool.not_eq_true'] at hmarks
  simp only [clockLine, List.forall_mem_append]
  exact ⟨hclock start, hmarks.1, hclock stop, hmarks.2, h⟩

/-- The line without the blanks around it. -/
theorem strip_clockLine (start stop : Fin 24 × Fin 60) {title : Text} (htitle : strip title = title) :
    strip (clockLine start stop title) =
      clockText start ++ (lit " ~ " ++ (pad 2 stop.1 ++ colon :: afterHour stop.2 title)) := by
  obtain ⟨-, c, hlast, hspace⟩ := ends_afterHour stop.2 htitle
  have hends : ∀ d, (clockText start ++ (lit " ~ " ++ (pad 2 stop.1
      ++ colon :: afterHour stop.2 title))).getLast? = some d → isSpace d = false := by
    intro d hd
    rw [List.getLast?_append_of_ne_nil _ (by simp), List.getLast?_append_of_ne_nil _ (by simp),
      List.getLast?_append_of_ne_nil _ (by simp), List.getLast?_cons, hlast] at hd
    cases hd
    exact hspace
  have hstart : strip (clockLine start stop title) = Py.rstrip (clockLine start stop title) := by
    have hhead := Py.lstrip_append (a := []) (t := clockLine start stop title) fun d hd => by
      cases hd
      exact (digitChar_apart _).1
    exact congrArg Py.rstrip hhead
  have hline : clockLine start stop title = clockText start ++ (lit " ~ " ++ (pad 2 stop.1
      ++ colon :: afterHour stop.2 title)) ++ if title = [] then lit " " else [] := by
    rw [clockLine, afterHour, clockText, clockText]
    split
    · next h =>
      rw [h]
      simp [lit]
    · simp
  rw [hstart, hline, Py.rstrip_append hends]
  split
  · exact List.append_nil _
  · exact List.append_nil _

/-- **The end loses its minutes.** Of `HH:MM ~ HH:MM : title` the start is read as it stands, the end
is what comes before its colon, and the rest is the title. -/
theorem descriptionBlockPattern_clockLine (start stop : Fin 24 × Fin 60) {title : Text}
    (hline : newline ∉ title) (htitle : strip title = title) :
    descriptionBlockPattern (strip (clockLine start stop title)) =
      some ⟨clockText start, pad 2 stop.1, afterHour stop.2 title⟩ := by
  obtain ⟨hhead, c, hlast, hspace⟩ := ends_afterHour stop.2 htitle
  have hnewline : newline ∉ afterHour stop.2 title := by
    rw [afterHour, pad_two, List.mem_append]
    rintro (hdigits | hrest)
    · rcases List.mem_pair.mp hdigits with h | h
      · exact absurd (h ▸ (digitChar_apart _).2.1) (by decide)
      · exact absurd (h ▸ (digitChar_apart _).2.1) (by decide)
    · split at hrest
      · exact absurd hrest (by decide)
      · rcases List.mem_append.mp hrest with h | h
        · exact absurd h (by decide)
        · exact hline h
  have hstart := matchStart_eq (start.1 / 10) start.1 (start.2 / 10) start.2 (stop.1 / 10) stop.1
    hhead hlast hspace hnewline
  rw [strip_clockLine start stop htitle]
  exact (descriptionBlockPattern_digit _ _).trans hstart

end ForgeKit.DayPlan
