import Mathlib.Algebra.Order.Ring.Rat
import Mathlib.Data.NNRat.Defs
import Std.Data.String.ToNat
import ForgeKit.JobQueue.Store
import ForgeKit.Lib.Machine

/-!
# The registry of autonomy locks (`autonomy_lock.py`)

A lock is a token with a lease. The registry keeps one token a scope; an expired one is dropped when
`acquire` or `is_held` meets it, and a token that is no longer kept is released without effect.

* `Sound` — the invariant: the tokens that are kept are open, and every open token with a lease that
  runs is kept
* `lock_exclusion` — at most one token a scope is open with a lease that runs, and a release drops a
  holder exactly when its token is the one that is kept
-/

namespace ForgeKit

namespace AutonomyLocks

structure AutonomyLock where
  scope : String
  holder : String
  acquiredAt : Time
  expiresAt : Time
  tokenId : String
deriving DecidableEq

structure Registry where
  holders : Dict AutonomyLock := []
  defaultTtl : ℚ
  counter : Nat := 0

/-- `AutonomyLockRegistry.__init__`. -/
def Registry.init (defaultTtlSeconds : ℚ := 30) : Registry where
  defaultTtl := max 1 defaultTtlSeconds

/-- `int(x)`. -/
def truncate (x : ℚ) : Int := if 0 ≤ x then x.floor else x.ceil

/-- `f"{int(now * 1000)}-{counter}"`. -/
def tokenIdOf (now : Time) (counter : Nat) : String :=
  toString (truncate (now * 1000)) ++ "-" ++ Nat.repr counter

namespace Registry

variable (reg : Registry)

/-- `acquire`. -/
def acquire (scope holder : String) (ttlSeconds : Option ℚ) (now : Time) :
    Option AutonomyLock × Registry :=
  if scope = "" ∨ holder = "" then (none, reg)
  else
    let ttl := max 1 (ttlSeconds.getD reg.defaultTtl)
    if (reg.holders.get? scope).any fun current => now < current.expiresAt then (none, reg)
    else
      let counter := reg.counter + 1
      let token : AutonomyLock :=
        { scope, holder, acquiredAt := now, expiresAt := now + ttl, tokenId := tokenIdOf now counter }
      (some token, { reg with counter, holders := reg.holders.set scope token })

/-- `release`. -/
def release (lock : Option AutonomyLock) : Bool × Registry :=
  match lock with
  | none => (false, reg)
  | some lock =>
    match reg.holders.get? lock.scope with
    | none => (false, reg)
    | some current =>
      if current.tokenId ≠ lock.tokenId then (false, reg)
      else (true, { reg with holders := reg.holders.pop lock.scope })

/-- `is_held`. -/
def isHeld (scope : String) (now : Time) : Bool × Registry :=
  if scope = "" then (false, reg)
  else
    match reg.holders.get? scope with
    | none => (false, reg)
    | some current =>
      if current.expiresAt ≤ now then (false, { reg with holders := reg.holders.pop scope })
      else (true, reg)

/-- `reset`. -/
def reset : Registry := { reg with holders := [] }

end Registry

/-! ## Callers -/

/-- A call. A release names a token by the place at which it was returned. -/
inductive Call where
  | acquire (scope holder : String) (ttlSeconds : Option ℚ)
  | release (index : Nat)
  | isHeld (scope : String)
  | reset

/-- The registry with its clock and the tokens it has returned; an open one was neither released nor
reset. -/
structure World where
  registry : Registry
  now : Time
  tokens : List (AutonomyLock × Bool)

def World.init (registry : Registry) (now : Time) : World := ⟨registry, now, []⟩

def close (entry : AutonomyLock × Bool) : AutonomyLock × Bool := (entry.1, false)

/-- A call, some time after the one before. -/
def step (w : World) (a : ℚ≥0 × Call) : World :=
  let now := w.now + a.1
  match a.2 with
  | .acquire scope holder ttlSeconds =>
    let (token, registry) := w.registry.acquire scope holder ttlSeconds now
    { registry, now, tokens := w.tokens ++ (token.map (·, true)).toList }
  | .release index =>
    let (_, registry) := w.registry.release (w.tokens[index]?.map Prod.fst)
    { registry, now, tokens := w.tokens.modify index close }
  | .isHeld scope => { w with registry := (w.registry.isHeld scope now).2, now }
  | .reset => { registry := w.registry.reset, now, tokens := w.tokens.map close }

/-- A token was returned, and neither released nor reset since. -/
def World.Open (w : World) (index : Nat) (lock : AutonomyLock) : Prop :=
  w.tokens[index]? = some (lock, true)

/-- **The invariant.** -/
structure Sound (w : World) : Prop where
  counted : w.registry.counter = w.tokens.length
  /-- The place of a token is in its id. -/
  numbered : ∀ index entry, w.tokens[index]? = some entry →
    ∃ acquiredAt, entry.1.tokenId = tokenIdOf acquiredAt (index + 1)
  keptOpen : ∀ scope lock, w.registry.holders.get? scope = some lock →
    lock.scope = scope ∧ ∃ index, w.Open index lock
  openKept : ∀ index lock, w.Open index lock → w.now < lock.expiresAt →
    w.registry.holders.get? lock.scope = some lock

/-! ## Token ids -/

/-- The text behind the last dash is what it was made of. -/
theorem append_dash_inj {a b x y : List Char} (hx : '-' ∉ x) (hy : '-' ∉ y)
    (h : a ++ '-' :: x = b ++ '-' :: y) : x = y := by
  induction a generalizing b with
  | nil =>
    cases b with
    | nil => exact (List.cons.inj h).2
    | cons c b =>
      obtain ⟨-, rfl⟩ := List.cons.inj h
      exact absurd (List.mem_append_right b List.mem_cons_self) hx
  | cons c a ih =>
    cases b with
    | nil =>
      obtain ⟨-, rfl⟩ := List.cons.inj h
      exact absurd (List.mem_append_right a List.mem_cons_self) hy
    | cons d b => exact ih (List.cons.inj h).2

theorem dash_notMem_repr (n : Nat) : '-' ∉ (Nat.repr n).toList := by
  intro hmem
  rw [Nat.toList_repr] at hmem
  have hdigit := Nat.isDigit_of_mem_toDigits (by decide) (by decide) hmem
  revert hdigit
  decide

/-- **Token ids of different calls differ**, whatever the clock says. -/
theorem tokenIdOf_inj {now now' : Time} {m n : Nat} (h : tokenIdOf now m = tokenIdOf now' n) :
    m = n := by
  have hlist := congrArg String.toList h
  unfold tokenIdOf at hlist
  simp only [String.toList_append, List.append_assoc] at hlist
  have hdash : "-".toList = ['-'] := by decide
  rw [hdash] at hlist
  have htail := append_dash_inj (dash_notMem_repr m) (dash_notMem_repr n) hlist
  exact Nat.repr_injective (String.toList_inj.mp htail)

/-! ## The steps -/

variable {w : World}

theorem Sound.index_eq (h : Sound w) {i j : Nat} {entry entry' : AutonomyLock × Bool}
    (hi : w.tokens[i]? = some entry) (hj : w.tokens[j]? = some entry')
    (hid : entry.1.tokenId = entry'.1.tokenId) : i = j := by
  obtain ⟨at1, h1⟩ := h.numbered i entry hi
  obtain ⟨at2, h2⟩ := h.numbered j entry' hj
  exact Nat.succ.inj (tokenIdOf_inj (h1.symm.trans (hid.trans h2)))

theorem sound_init (registry : Registry) (hholders : registry.holders = [])
    (hcounter : registry.counter = 0) (now : Time) : Sound (World.init registry now) where
  counted := hcounter
  numbered index entry h := by cases h
  keptOpen scope lock h := by
    rw [World.init, hholders] at h
    cases h
  openKept index lock h := by cases h

/-- Time passes. -/
theorem Sound.later (h : Sound w) (elapsed : ℚ≥0) : Sound { w with now := w.now + elapsed } where
  counted := h.counted
  numbered := h.numbered
  keptOpen := h.keptOpen
  openKept index lock hopen hlt :=
    h.openKept index lock hopen (lt_of_le_of_lt (le_add_of_nonneg_right elapsed.2) hlt)

/-- A lease that has expired may be dropped. -/
theorem Sound.pop_expired (h : Sound w) {scope : String} {current : AutonomyLock}
    (hcurrent : w.registry.holders.get? scope = some current) (hexpired : current.expiresAt ≤ w.now) :
    Sound { w with registry := { w.registry with holders := w.registry.holders.pop scope } } where
  counted := h.counted
  numbered := h.numbered
  keptOpen scope' lock hget := by
    have hne : scope' ≠ scope := by
      rintro rfl
      dsimp only at hget
      rw [Dict.get?_pop_self] at hget
      cases hget
    rw [Dict.get?_pop_ne _ hne] at hget
    exact h.keptOpen scope' lock hget
  openKept index lock hopen hlt := by
    have hkept := h.openKept index lock hopen hlt
    have hne : lock.scope ≠ scope := by
      rintro rfl
      rw [hcurrent] at hkept
      obtain rfl := Option.some.inj hkept
      exact absurd hexpired (not_le.mpr hlt)
    dsimp only
    rw [Dict.get?_pop_ne _ hne]
    exact hkept

/-- A new token for a scope that is free. -/
theorem Sound.grant (h : Sound w) (token : AutonomyLock)
    (hfree : ∀ current, w.registry.holders.get? token.scope = some current →
      current.expiresAt ≤ w.now)
    (hid : token.tokenId = tokenIdOf token.acquiredAt (w.registry.counter + 1)) :
    Sound { w with
      registry := { w.registry with
        counter := w.registry.counter + 1
        holders := w.registry.holders.set token.scope token }
      tokens := w.tokens ++ [(token, true)] } where
  counted := by
    dsimp only
    rw [h.counted, List.length_append, List.length_singleton]
  numbered index entry hentry := by
    dsimp only at hentry
    rw [List.getElem?_append] at hentry
    split at hentry
    · exact h.numbered index entry hentry
    · next hlen =>
      rw [List.getElem?_singleton] at hentry
      split at hentry
      · next hzero =>
        obtain rfl := Option.some.inj hentry
        have hindex : index = w.tokens.length := by omega
        exact ⟨token.acquiredAt, by rw [hid, h.counted, hindex]⟩
      · cases hentry
  keptOpen scope lock hget := by
    dsimp only at hget
    by_cases hscope : scope = token.scope
    · subst hscope
      rw [Dict.get?_set_self] at hget
      obtain rfl := Option.some.inj hget
      exact ⟨rfl, w.tokens.length, List.getElem?_concat_length⟩
    · rw [Dict.get?_set_ne _ _ hscope] at hget
      obtain ⟨hlock, index, hopen⟩ := h.keptOpen scope lock hget
      have hlen := (List.getElem?_eq_some_iff.mp hopen).1
      exact ⟨hlock, index, (List.getElem?_append_left hlen).trans hopen⟩
  openKept index lock hopen hlt := by
    unfold World.Open at hopen
    dsimp only at hopen hlt ⊢
    rw [List.getElem?_append] at hopen
    split at hopen
    · have hkept := h.openKept index lock hopen hlt
      have hne : lock.scope ≠ token.scope := by
        intro hscope
        exact absurd (hfree lock (hscope ▸ hkept)) (not_le.mpr hlt)
      rw [Dict.get?_set_ne _ _ hne]
      exact hkept
    · rw [List.getElem?_singleton] at hopen
      split at hopen
      · obtain rfl := (Prod.mk.inj (Option.some.inj hopen)).1
        exact Dict.get?_set_self _ _ _
      · cases hopen

/-- What a release does: it drops the holder exactly when its token is the one that is kept. -/
theorem Sound.release_eq (h : Sound w) {index : Nat} {entry : AutonomyLock × Bool}
    (hentry : w.tokens[index]? = some entry) :
    w.registry.release (some entry.1)
      = if w.registry.holders.get? entry.1.scope = some entry.1
        then (true, { w.registry with holders := w.registry.holders.pop entry.1.scope })
        else (false, w.registry) := by
  unfold Registry.release
  dsimp only
  cases hget : w.registry.holders.get? entry.1.scope with
  | none => rw [if_neg (by simp)]
  | some current =>
    dsimp only
    obtain ⟨-, j, hopen⟩ := h.keptOpen _ current hget
    by_cases hid : current.tokenId = entry.1.tokenId
    · obtain rfl := h.index_eq hopen hentry hid
      obtain rfl := Option.some.inj (hopen.symm.trans hentry)
      rw [if_neg (not_not.mpr hid), if_pos rfl]
    · have hne : ¬some current = some entry.1 := fun heq => hid (by rw [Option.some.inj heq])
      rw [if_pos hid, if_neg hne]

/-- A token is released. -/
theorem Sound.released (h : Sound w) {index : Nat} {entry : AutonomyLock × Bool}
    (hentry : w.tokens[index]? = some entry) :
    Sound { w with
      registry := (w.registry.release (some entry.1)).2
      tokens := w.tokens.modify index close } where
  counted := by
    dsimp only
    rw [h.release_eq hentry, List.length_modify]
    split
    · exact h.counted
    · exact h.counted
  numbered i other hother := by
    dsimp only at hother
    rw [List.getElem?_modify] at hother
    obtain ⟨old, hold, rfl⟩ := Option.map_eq_some_iff.mp hother
    obtain ⟨acquiredAt, hid⟩ := h.numbered i old hold
    refine ⟨acquiredAt, ?_⟩
    split
    · exact hid
    · exact hid
  keptOpen scope lock hget := by
    dsimp only at hget
    rw [h.release_eq hentry] at hget
    have hkept : w.registry.holders.get? scope = some lock
        ∧ ¬(scope = entry.1.scope ∧ lock = entry.1) := by
      split at hget
      · dsimp only at hget
        by_cases hscope : scope = entry.1.scope
        · rw [hscope, Dict.get?_pop_self] at hget
          cases hget
        · rw [Dict.get?_pop_ne _ hscope] at hget
          exact ⟨hget, fun hsame => hscope hsame.1⟩
      · next hnot =>
        refine ⟨hget, ?_⟩
        rintro ⟨rfl, rfl⟩
        exact hnot hget
    obtain ⟨hlock, i, hopen⟩ := h.keptOpen scope lock hkept.1
    refine ⟨hlock, i, ?_⟩
    have hne : index ≠ i := by
      rintro rfl
      obtain rfl := Option.some.inj (hopen.symm.trans hentry)
      exact hkept.2 ⟨hlock.symm, rfl⟩
    unfold World.Open
    dsimp only
    rw [List.getElem?_modify]
    refine Option.map_eq_some_iff.mpr ⟨(lock, true), hopen, ?_⟩
    exact if_neg hne
  openKept i lock hopen hlt := by
    unfold World.Open at hopen
    dsimp only at hopen hlt ⊢
    rw [List.getElem?_modify] at hopen
    obtain ⟨old, hold, hold'⟩ := Option.map_eq_some_iff.mp hopen
    have hne : index ≠ i := by
      rintro rfl
      rw [if_pos rfl] at hold'
      cases (Prod.mk.inj hold').2
    rw [if_neg hne] at hold'
    obtain rfl : old = (lock, true) := hold'
    have hkept := h.openKept i lock hold hlt
    rw [h.release_eq hentry]
    split
    · next hstored =>
      have hscope : lock.scope ≠ entry.1.scope := by
        intro heq
        rw [heq, hstored] at hkept
        have hid : entry.1.tokenId = lock.tokenId := by rw [Option.some.inj hkept]
        exact hne (h.index_eq hentry hold hid)
      dsimp only
      rw [Dict.get?_pop_ne _ hscope]
      exact hkept
    · exact hkept

/-- **Every call keeps the invariant.** -/
theorem sound_step (h : Sound w) (a : ℚ≥0 × Call) : Sound (step w a) := by
  obtain ⟨elapsed, call⟩ := a
  have hlater := h.later elapsed
  cases call with
  | acquire scope holder ttlSeconds =>
    unfold step Registry.acquire
    dsimp only
    split
    · simpa using hlater
    · split
      · simpa using hlater
      · next hcurrent =>
        refine hlater.grant ⟨scope, holder, _, _, _⟩ ?_ rfl
        intro current hget
        dsimp only at hget
        rw [hget] at hcurrent
        simpa using hcurrent
  | release index =>
    unfold step
    dsimp only
    cases hentry : w.tokens[index]? with
    | none =>
      have hsame : w.tokens.modify index close = w.tokens :=
        List.modify_eq_self (List.getElem?_eq_none_iff.mp hentry)
      rw [hsame]
      exact hlater
    | some entry => exact hlater.released hentry
  | isHeld scope =>
    unfold step Registry.isHeld
    dsimp only
    split
    · exact hlater
    · split
      · exact hlater
      · next current hcurrent =>
        split
        · next hexpired => exact hlater.pop_expired hcurrent hexpired
        · exact hlater
  | reset =>
    unfold step Registry.reset
    dsimp only
    refine ⟨?_, ?_, ?_, ?_⟩
    · dsimp only
      rw [List.length_map]
      exact h.counted
    · intro index entry hentry
      dsimp only at hentry
      rw [List.getElem?_map] at hentry
      obtain ⟨old, hold, rfl⟩ := Option.map_eq_some_iff.mp hentry
      exact h.numbered index old hold
    · intro scope lock hget
      cases hget
    · intro index lock hopen
      unfold World.Open at hopen
      dsimp only at hopen
      rw [List.getElem?_map] at hopen
      obtain ⟨old, -, hold⟩ := Option.map_eq_some_iff.mp hopen
      cases (Prod.mk.inj hold).2

/--
**Mutual exclusion.** For every sequence of calls on a new registry, with a clock that does not go
back: from then on until the next call, at most one token a scope is neither released nor reset with
a lease that still runs; and the release of a returned token answers true and drops the holder of its
scope, and no other, exactly when it is the token that is kept for it.
-/
theorem lock_exclusion (defaultTtlSeconds : ℚ) (start : Time) (calls : List (ℚ≥0 × Call)) :
    let w := Machine.run step (World.init (Registry.init defaultTtlSeconds) start) calls
    (∀ t, w.now ≤ t → ∀ i j lock lock', w.Open i lock → w.Open j lock' → lock.scope = lock'.scope →
        t < lock.expiresAt → t < lock'.expiresAt → i = j)
      ∧ ∀ entry ∈ w.tokens,
        ((w.registry.release (some entry.1)).1 = true
            ↔ w.registry.holders.get? entry.1.scope = some entry.1)
          ∧ ∀ scope, (w.registry.release (some entry.1)).2.holders.get? scope
            = if scope = entry.1.scope ∧ w.registry.holders.get? scope = some entry.1 then none
              else w.registry.holders.get? scope := by
  intro w
  have hsound : Sound w := Machine.run_of_step (A := fun _ => True) (I := Sound)
    (fun _ a _ h => sound_step h a) (sound_init _ rfl rfl start) (fun _ _ => trivial)
  constructor
  · intro t ht i j lock lock' hi hj hscope hlt hlt'
    have hkept := hsound.openKept i lock hi (ht.trans_lt hlt)
    have hkept' := hsound.openKept j lock' hj (ht.trans_lt hlt')
    rw [hscope, hkept'] at hkept
    have hid : lock.tokenId = lock'.tokenId := by rw [Option.some.inj hkept]
    exact hsound.index_eq hi hj hid
  · intro entry hmem
    obtain ⟨index, hentry⟩ := List.mem_iff_getElem?.mp hmem
    rw [hsound.release_eq hentry]
    by_cases hstored : w.registry.holders.get? entry.1.scope = some entry.1
    · rw [if_pos hstored]
      refine ⟨by simp [hstored], fun scope => ?_⟩
      dsimp only
      by_cases hscope : scope = entry.1.scope
      · rw [hscope, Dict.get?_pop_self, if_pos ⟨rfl, hstored⟩]
      · rw [Dict.get?_pop_ne _ hscope, if_neg fun hboth => hscope hboth.1]
    · rw [if_neg hstored]
      refine ⟨by simp [hstored], fun scope => ?_⟩
      rw [if_neg]
      rintro ⟨rfl, hboth⟩
      exact hstored hboth

end AutonomyLocks

end ForgeKit
