import ForgeKit.Provider.Specs
import ForgeKit.Lib.Trim

/-!
# Configuration and routing (`forgekit_provider/policy/provider_config.py`, `policy/routing.py`)

Two lists of candidates for one slot: the one that the routing answer is displayed from, and the
one that a submit works through.

* `resolveRouting_live_iff` — the displayed answer is the first candidate that is linked and usable
* `find?_submitChain` — the first usable candidate of a submit, before blanks and repeats are dropped
-/

namespace ForgeKit.Provider

open Py (Text lit)
open JsonText

/-- The brain slots. -/
inductive Slot where
  | defaultChat
  | synthesis
  | research
  | execution
  | compression
  | classification
  | safety
deriving DecidableEq

def Slot.key : Slot → Text
  | defaultChat => lit "default_chat"
  | synthesis => lit "synthesis"
  | research => lit "research"
  | execution => lit "execution"
  | compression => lit "compression"
  | classification => lit "classification"
  | safety => lit "safety"

/-- `ProviderConfig`, but for the budget policy. -/
structure ProviderConfig where
  primaryProvider : Text
  linkedProviders : List Text
  modelOverrides : List (Text × Text)
  slotRouting : List (Text × Text)
  implicitLocalFallback : Bool
  slotFallbackOrders : List (Text × List Text)
  migratedFromLegacy : Bool

/-- `slot_target`. -/
def ProviderConfig.slotTarget (cfg : ProviderConfig) (slot : Slot) : Text :=
  match cfg.slotRouting.lookup slot.key with
  | some target => if target = [] then cfg.primaryProvider else target
  | none => cfg.primaryProvider

/-- `fallback_order`. -/
def ProviderConfig.fallbackOrder (cfg : ProviderConfig) (slot : Slot) : List Text :=
  (cfg.slotFallbackOrders.lookup slot.key).getD []

/-- `model_for`. -/
def ProviderConfig.modelFor (cfg : ProviderConfig) (providerId : Text) : Text :=
  (cfg.modelOverrides.lookup providerId).getD []

section

variable (py : Readers)

/-- `_coerce_str_map`. -/
def coerceStrMap : Value → List (Text × Text)
  | .obj d => (d.map fun m => (m.1, py.strOf m.2)).filter fun m => m.1 ≠ [] ∧ m.2 ≠ []
  | _ => []

/-- `tuple(str(x) for x in v if str(x))`. -/
def textsOf (vs : List Value) : List Text := (vs.map py.strOf).filter (· ≠ [])

/-- `_coerce_order_map`. -/
def coerceOrderMap : Value → List (Text × List Text)
  | .obj d => d.filterMap fun m =>
      match m.2 with
      | .arr vs => some (m.1, textsOf py vs)
      | _ => none
  | _ => []

/-- `str(config.get(k, "") or "")`. -/
def textOrEmpty (config : List (Text × Value)) (k : Text) : Text :=
  py.strOf (py.orElse (getOr config k []) (.str []))

/-- The id of a configuration of before there was a primary provider. -/
def legacyProvider (config : List (Text × Value)) : Text :=
  Py.strip (py.strOf (py.orElse (py.orElse (getOr config (lit "main_provider") [])
    (getOr config (lit "id") [])) (.str [])))

/-- `config["primary_provider"]`, or the legacy id. -/
def primaryOf (config : List (Text × Value)) : Text :=
  let declared := Py.strip (textOrEmpty py config (lit "primary_provider"))
  if declared = [] then legacyProvider py config else declared

/-- `linked_raw or ()`. -/
def linkedItems (config : List (Text × Value)) : Option (List Value) :=
  let linkedRaw := JsonText.get config (lit "linked_providers")
  if py.truthy linkedRaw then items linkedRaw else some []

/-- The linked providers, the primary one among them. -/
def linkPrimary (primary : Text) (listed : List Text) : List Text :=
  let linked := if listed = [] ∧ primary ≠ [] then [primary] else listed
  if primary ≠ [] ∧ primary ∉ linked then primary :: linked else linked

/-- `config.get("fallback_policy")`, where it is a dict. -/
def fallbackPolicy (config : List (Text × Value)) : List (Text × Value) :=
  (JsonText.get config (lit "fallback_policy")).dict?.getD []

/-- `load_provider_config`; it raises where this is `none`. -/
def loadProviderConfig (config : List (Text × Value)) : Option ProviderConfig := do
  let vs ← linkedItems py config
  let primary := primaryOf py config
  let fb := fallbackPolicy config
  some
    { primaryProvider := primary
      linkedProviders := linkPrimary primary (textsOf py vs)
      modelOverrides := coerceStrMap py (JsonText.get config (lit "model_overrides"))
      slotRouting := coerceStrMap py (JsonText.get config (lit "slot_routing"))
      implicitLocalFallback := py.truthy (JsonText.get fb (lit "implicit_local_fallback"))
      slotFallbackOrders := coerceOrderMap py (JsonText.get fb (lit "slot_fallback_orders"))
      migratedFromLegacy := primary ≠ [] &&
        (Py.strip (textOrEmpty py config (lit "primary_provider")) = [] ||
          textsOf py vs = [] && isNull (JsonText.get config (lit "linked_providers"))) }

variable {py}

end

end ForgeKit.Provider

namespace ForgeKit.Provider

open Py (Text lit)

/-- `RESOLVE_*`. -/
inductive ResolveStatus where
  | resolved
  | fallback
  | unsupportedInConsole
  | noConfig
deriving DecidableEq

/-- `RoutingResolution`. -/
structure RoutingResolution where
  slot : Slot
  declaredProvider : Text
  actualProvider : Text
  status : ResolveStatus
  fallbackUsed : Bool := false
  fallbackChain : List Text := []
  submitSupported : Bool := false
  reason : Text := []
deriving DecidableEq

/-- `is_live_capable`. -/
def RoutingResolution.isLiveCapable (r : RoutingResolution) : Bool :=
  (r.status = .resolved || r.status = .fallback) && r.submitSupported

section

variable (cfg : ProviderConfig) (slot : Slot)

/-- `"ollama"`, where the operator has opted into it and it is linked. -/
def ProviderConfig.localFallback : List Text :=
  if cfg.implicitLocalFallback = true ∧ lit "ollama" ∈ cfg.linkedProviders then [lit "ollama"] else []

/-- The candidates of `resolve_routing`. -/
def resolveChain : List Text :=
  let declared := cfg.slotTarget slot
  let chain := declared :: (cfg.fallbackOrder slot).filter (· ≠ declared)
  chain ++ cfg.localFallback.filter (· ∉ chain)

/-- The loop of `resolve_routing`, from the candidate of index `i` on. -/
def resolveLoop (supported available : Text → Bool) :
    Nat → List Text → List Text → RoutingResolution
  | _, [], tried =>
    let declared := cfg.slotTarget slot
    { slot := slot, declaredProvider := declared, actualProvider := declared
      status := .unsupportedInConsole, fallbackChain := tried
      reason := lit "'" ++ declared ++ lit "' 는 콘솔 live-submit 미구현(routable). " ++
        lit "explicit fallback 도 live 불가 — 설정 또는 fallback 정책을 조정하세요" }
  | i, pid :: rest, tried =>
    if pid ∉ cfg.linkedProviders then resolveLoop supported available (i + 1) rest tried
    else
      let tried := tried ++ [pid]
      if ¬ available pid then resolveLoop supported available (i + 1) rest tried
      else if supported pid then
        let declared := cfg.slotTarget slot
        let isFb := 0 < i
        { slot := slot, declaredProvider := declared, actualProvider := pid
          status := if isFb then .fallback else .resolved
          fallbackUsed := isFb, fallbackChain := tried, submitSupported := true
          reason := if isFb then lit "declared '" ++ declared ++ lit "' 불가 → fallback '" ++ pid ++
              lit "'"
            else lit "slot '" ++ slot.key ++ lit "' → " ++ pid ++ lit " (declared)" }
      else resolveLoop supported available (i + 1) rest tried

/-- `resolve_routing`. -/
def resolveRouting (supported available : Text → Bool) : RoutingResolution :=
  if cfg.primaryProvider = [] then
    { slot := slot, declaredProvider := [], actualProvider := [], status := .noConfig
      reason := lit "provider 미설정 — `/setup` 으로 브레인을 구성하세요" }
  else resolveLoop cfg slot supported available 0 (resolveChain cfg slot) []

/-- `seen` and `chain` of `submit_chain`. -/
def dedupeIds (seen : List Text) : List Text → List Text
  | [] => []
  | pid :: rest =>
    let pid := Py.strip pid
    if pid = [] ∨ pid ∈ seen then dedupeIds seen rest else pid :: dedupeIds (pid :: seen) rest

/-- `submit_chain`. -/
def submitChain (prefer : Text) : List Text :=
  let head := Py.strip (if prefer = [] then cfg.slotTarget slot else prefer)
  dedupeIds [] (head :: cfg.fallbackOrder slot ++ cfg.localFallback)

/-- The candidates as the operator has written them. -/
def writtenChain : List Text :=
  cfg.slotTarget slot :: cfg.fallbackOrder slot ++ cfg.localFallback

/-! ## The displayed answer -/

/-- Who answers, and whether it is a fallback. -/
def RoutingResolution.answer (r : RoutingResolution) : Option (Text × Bool) :=
  if r.isLiveCapable then some (r.actualProvider, r.fallbackUsed) else none

/-- What a candidate has to be for the displayed answer. -/
def ProviderConfig.picks (cfg : ProviderConfig) (supported available : Text → Bool) (pid : Text) :
    Bool :=
  pid ∈ cfg.linkedProviders && available pid && supported pid

variable {cfg slot} {supported available : Text → Bool}

theorem answer_of_picks {pid : Text} (h : cfg.picks supported available pid = true) (i : Nat)
    (rest tried : List Text) :
    (resolveLoop cfg slot supported available i (pid :: rest) tried).answer
      = some (pid, decide (0 < i)) := by
  simp only [ProviderConfig.picks, Bool.and_eq_true, decide_eq_true_eq] at h
  obtain ⟨⟨hlinked, havailable⟩, hsupported⟩ := h
  rw [resolveLoop, if_neg (not_not.mpr hlinked)]
  dsimp only
  rw [if_neg (not_not.mpr havailable), if_pos hsupported]
  by_cases hi : 0 < i <;> simp [RoutingResolution.answer, RoutingResolution.isLiveCapable, hi]

variable (slot) in
/-- A candidate that is not picked is passed over. -/
theorem exists_tried_of_not_picks {pid : Text} (h : cfg.picks supported available pid = false)
    (i : Nat) (rest tried : List Text) :
    ∃ tried', resolveLoop cfg slot supported available i (pid :: rest) tried
      = resolveLoop cfg slot supported available (i + 1) rest tried' := by
  rw [resolveLoop]
  dsimp only
  split
  · exact ⟨tried, rfl⟩
  · next hlinked =>
    split
    · exact ⟨_, rfl⟩
    · next havailable =>
      split
      · next hsupported =>
        have hlinked := not_not.mp hlinked
        have havailable := not_not.mp havailable
        simp [ProviderConfig.picks, hlinked, havailable, hsupported] at h
      · exact ⟨_, rfl⟩

/-- Past the declared provider every answer is a fallback. -/
theorem answer_resolveLoop {i : Nat} (hi : 0 < i) (chain tried : List Text) :
    (resolveLoop cfg slot supported available i chain tried).answer
      = (chain.find? (cfg.picks supported available)).map fun pid => (pid, true) := by
  induction chain generalizing i tried with
  | nil => rfl
  | cons pid rest ih =>
    cases hpick : cfg.picks supported available pid with
    | true => rw [answer_of_picks hpick, List.find?_cons_of_pos hpick, decide_eq_true hi]; rfl
    | false =>
      obtain ⟨tried', heq⟩ := exists_tried_of_not_picks slot hpick i rest tried
      rw [heq, ih (Nat.succ_pos i), List.find?_cons_of_neg (by simp [hpick])]

/-- A filter that keeps all that `P` accepts does not change what `P` finds. -/
theorem find?_filter_of_imp {α : Type} {P Q : α → Bool} {xs : List α}
    (h : ∀ x ∈ xs, P x = true → Q x = true) : (xs.filter Q).find? P = xs.find? P := by
  induction xs with
  | nil => rfl
  | cons x xs ih =>
    have ih := ih fun y hy => h y (List.mem_cons_of_mem _ hy)
    cases hQ : Q x with
    | true =>
      rw [List.filter_cons_of_pos hQ, List.find?_cons, List.find?_cons, ih]
    | false =>
      have hP : ¬ P x = true := fun hP => by simp [h x List.mem_cons_self hP] at hQ
      rw [List.filter_cons_of_neg (by simp [hQ]), List.find?_cons_of_neg hP, ih]

/-- Leaving out what was listed before does not change what is found first. -/
theorem find?_append_filter {α : Type} {P Q : α → Bool} {xs ys : List α}
    (h : ∀ y ∈ ys, Q y = false → y ∈ xs) :
    (xs ++ ys.filter Q).find? P = (xs ++ ys).find? P := by
  rw [List.find?_append, List.find?_append]
  cases hxs : xs.find? P with
  | some x => rfl
  | none =>
    rw [find?_filter_of_imp fun y hy hP => ?_]
    cases hQ : Q y with
    | true => rfl
    | false => exact absurd hP (List.find?_eq_none.mp hxs y (h y hy hQ))

theorem find?_resolveChain (P : Text → Bool) :
    (resolveChain cfg slot).find? P = (writtenChain cfg slot).find? P := by
  have hfallback : (cfg.slotTarget slot :: (cfg.fallbackOrder slot).filter
      (· ≠ cfg.slotTarget slot)).find? P
        = (cfg.slotTarget slot :: cfg.fallbackOrder slot).find? P := by
    rw [← List.singleton_append, ← List.singleton_append]
    exact find?_append_filter fun y _ hy => by simpa using hy
  rw [resolveChain, find?_append_filter fun y _ hy => not_not.mp (of_decide_eq_false hy),
    List.find?_append, hfallback, writtenChain, List.find?_append]

/-- **The displayed answer is the first candidate that is linked, available and supported.** -/
theorem answer_resolveRouting (hprimary : cfg.primaryProvider ≠ []) :
    (resolveRouting cfg slot supported available).answer
      = ((writtenChain cfg slot).find? (cfg.picks supported available)).map fun pid =>
          (pid, decide (pid ≠ cfg.slotTarget slot)) := by
  rw [resolveRouting, if_neg hprimary, ← find?_resolveChain, resolveChain, List.cons_append]
  generalize hrest : (cfg.fallbackOrder slot).filter (· ≠ cfg.slotTarget slot) ++
    cfg.localFallback.filter (· ∉ cfg.slotTarget slot :: (cfg.fallbackOrder slot).filter
      (· ≠ cfg.slotTarget slot)) = rest
  have hne : ∀ pid ∈ rest, pid ≠ cfg.slotTarget slot := by
    intro pid hpid
    rw [← hrest, List.mem_append, List.mem_filter, List.mem_filter] at hpid
    rcases hpid with ⟨-, hpid⟩ | ⟨-, hpid⟩
    · simpa using hpid
    · intro heq
      simp [heq] at hpid
  cases hpick : cfg.picks supported available (cfg.slotTarget slot) with
  | true => rw [answer_of_picks hpick, List.find?_cons_of_pos hpick]; simp
  | false =>
    obtain ⟨tried', heq⟩ := exists_tried_of_not_picks slot hpick 0 rest []
    rw [heq, answer_resolveLoop Nat.one_pos, List.find?_cons_of_neg (by simp [hpick])]
    cases hfind : rest.find? (cfg.picks supported available) with
    | none => rfl
    | some pid => simp [hne pid (List.mem_of_find?_eq_some hfind)]

/-! ## The chain of a submit -/

theorem strip_strip (t : Text) : Py.strip (Py.strip t) = Py.strip t := Trim.trim_trim t

/-- Dropping blanks and repeats does not change which id is found first. -/
theorem find?_dedupeIds {P : Text → Bool} (hempty : P [] = false) {seen : List Text}
    (hseen : ∀ pid ∈ seen, P pid = false) (pids : List Text) :
    (dedupeIds seen pids).find? P = (pids.map Py.strip).find? P := by
  induction pids generalizing seen with
  | nil => rfl
  | cons pid rest ih =>
    rw [dedupeIds, List.map_cons]
    by_cases hdrop : Py.strip pid = [] ∨ Py.strip pid ∈ seen
    · have hP : P (Py.strip pid) = false := by
        rcases hdrop with hnil | hmem
        · rw [hnil, hempty]
        · exact hseen _ hmem
      rw [if_pos hdrop, List.find?_cons_of_neg (by simp [hP]), ih hseen]
    · rw [if_neg hdrop]
      cases hP : P (Py.strip pid) with
      | true => rw [List.find?_cons_of_pos hP, List.find?_cons_of_pos hP]
      | false =>
        rw [List.find?_cons_of_neg (by simp [hP]), List.find?_cons_of_neg (by simp [hP])]
        refine ih fun q hq => ?_
        rcases List.mem_cons.mp hq with rfl | hq
        · exact hP
        · exact hseen q hq

/-- **What a submit finds first**, among the written candidates without their blanks. -/
theorem find?_submitChain {P : Text → Bool} (hempty : P [] = false) :
    (submitChain cfg slot []).find? P = ((writtenChain cfg slot).map Py.strip).find? P := by
  rw [submitChain, find?_dedupeIds hempty (by simp), if_pos rfl, writtenChain, List.cons_append,
    List.cons_append, List.map_cons, List.map_cons, strip_strip]

theorem mem_dedupeIds {seen pids : List Text} {pid : Text} (h : pid ∈ dedupeIds seen pids) :
    Py.strip pid = pid ∧ pid ≠ [] := by
  induction pids generalizing seen with
  | nil => cases h
  | cons q rest ih =>
    rw [dedupeIds] at h
    by_cases hdrop : Py.strip q = [] ∨ Py.strip q ∈ seen
    · rw [if_pos hdrop] at h
      exact ih h
    · rw [if_neg hdrop] at h
      rcases List.mem_cons.mp h with rfl | h
      · exact ⟨strip_strip q, fun hnil => hdrop (.inl hnil)⟩
      · exact ih h

end

end ForgeKit.Provider
