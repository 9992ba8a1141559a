import ForgeKit.Provider.SubmitService

/-!
# The displayed routing answer and a submit

The routing answer passes over what is not linked and takes ids as they are written. A submit does
not look at links, and strips ids.

* `submit_agrees_iff` — when the displayed routing answer is what a submit does
* `unlinked_dispatched` — a prompt goes to a provider that is not linked
-/

namespace ForgeKit.Provider

open Py (Text lit)
open JsonText

section

variable (py : Readers) (service : SubmitService) (prompt : Text) (cfg : ProviderConfig)

/-- The routing answer that is displayed for the chat slot. -/
def SubmitService.displayed : RoutingResolution :=
  resolveRouting cfg .defaultChat (service.succeeds py prompt cfg) fun pid => !service.overBudget pid

/-- **A submit does what the displayed routing answer says**, and sends the prompt to linked
providers only. -/
def SubmitService.Agrees : Prop :=
  ∃ result dispatched, service.submit py prompt [] = some (result, dispatched) ∧
    (∀ pid fallbackUsed,
      (result.ok = true ∧ result.providerId = pid ∧ result.fallbackUsed = fallbackUsed) ↔
        ((service.displayed py prompt cfg).isLiveCapable = true ∧
          (service.displayed py prompt cfg).actualProvider = pid ∧
          (service.displayed py prompt cfg).fallbackUsed = fallbackUsed)) ∧
    ∀ pid ∈ dispatched, pid ∈ cfg.linkedProviders

/-- Every candidate that a submit gets to is linked, unless it has no spec or is over its budget. -/
def SubmitService.ReachesLinked : Prop :=
  ∀ pid ∈ service.reached py prompt cfg (submitChain cfg .defaultChat []),
    (service.specFor py pid).isSome = true → service.overBudget pid = false →
      pid ∈ cfg.linkedProviders

/-- The provider is linked and can answer. -/
def SubmitService.linkedUsable (pid : Text) : Bool :=
  pid ∈ cfg.linkedProviders && service.usable py prompt cfg pid

/-- Blanks around the written ids play no part: they change neither which linked provider that can
answer comes first, nor whether it is the head of the chain. -/
def SubmitService.BlanksAside : Prop :=
  (writtenChain cfg .defaultChat).find? (service.linkedUsable py prompt cfg)
      = ((writtenChain cfg .defaultChat).map Py.strip).find? (service.linkedUsable py prompt cfg) ∧
    ∀ pid, (writtenChain cfg .defaultChat).find? (service.linkedUsable py prompt cfg) = some pid →
      (pid = cfg.slotTarget .defaultChat ↔ (submitChain cfg .defaultChat []).head? = some pid)

variable {py service prompt cfg}

/-- Both kinds of answer, as `answer` has them. -/
theorem answer_eq_iff (result : SubmitResult) (r : RoutingResolution) :
    result.answer = r.answer ↔ ∀ pid fallbackUsed,
      (result.ok = true ∧ result.providerId = pid ∧ result.fallbackUsed = fallbackUsed) ↔
        (r.isLiveCapable = true ∧ r.actualProvider = pid ∧ r.fallbackUsed = fallbackUsed) := by
  have hresult : ∀ pid fallbackUsed, result.answer = some (pid, fallbackUsed) ↔
      result.ok = true ∧ result.providerId = pid ∧ result.fallbackUsed = fallbackUsed := by
    intro pid fallbackUsed
    rw [SubmitResult.answer]
    by_cases hok : result.ok = true <;> simp [hok]
  have hr : ∀ pid fallbackUsed, r.answer = some (pid, fallbackUsed) ↔
      r.isLiveCapable = true ∧ r.actualProvider = pid ∧ r.fallbackUsed = fallbackUsed := by
    intro pid fallbackUsed
    rw [RoutingResolution.answer]
    by_cases hlive : r.isLiveCapable = true <;> simp [hlive]
  constructor
  · intro heq pid fallbackUsed
    rw [← hresult, heq, hr]
  · intro h
    refine Option.ext fun x => ?_
    exact (hresult x.1 x.2).trans ((h x.1 x.2).trans (hr x.1 x.2).symm)

theorem answer_displayed (hprimary : cfg.primaryProvider ≠ []) :
    (service.displayed py prompt cfg).answer
      = ((writtenChain cfg .defaultChat).find? (service.linkedUsable py prompt cfg)).map fun pid =>
          (pid, decide (pid ≠ cfg.slotTarget .defaultChat)) := by
  have hpicks : cfg.picks (service.succeeds py prompt cfg) (fun pid => !service.overBudget pid)
      = service.linkedUsable py prompt cfg := by
    funext pid
    rw [ProviderConfig.picks, SubmitService.linkedUsable, SubmitService.usable, Bool.and_assoc]
  rw [SubmitService.displayed, answer_resolveRouting hprimary, hpicks]

/-- Where only linked providers are reached, the first that can answer is linked. -/
theorem find?_linkedUsable (h : service.ReachesLinked py prompt cfg) :
    (submitChain cfg .defaultChat []).find? (service.usable py prompt cfg)
      = ((writtenChain cfg .defaultChat).map Py.strip).find?
          (service.linkedUsable py prompt cfg) := by
  have hnil : service.linkedUsable py prompt cfg [] = false := by
    rw [SubmitService.linkedUsable, usable_nil, Bool.and_false]
  rw [← find?_submitChain hnil]
  cases hfind : (submitChain cfg .defaultChat []).find? (service.usable py prompt cfg) with
  | none =>
    refine (List.find?_eq_none.mpr fun pid hpid hlinked => ?_).symm
    rw [SubmitService.linkedUsable, Bool.and_eq_true] at hlinked
    exact List.find?_eq_none.mp hfind pid hpid hlinked.2
  | some pid =>
    obtain ⟨husable, before, after, hchain, hbefore⟩ := List.find?_eq_some_iff_append.mp hfind
    refine (List.find?_eq_some_iff_append.mpr ⟨?_, before, after, hchain, fun q hq => ?_⟩).symm
    · have hreached := h pid (mem_reached_of_find? hfind)
      have hspec := husable
      rw [SubmitService.usable, SubmitService.succeeds, Bool.and_eq_true, Bool.not_eq_true'] at hspec
      have hsome : (service.specFor py pid).isSome = true := by
        cases hcase : service.specFor py pid with
        | none =>
          rw [hcase] at hspec
          cases hspec.2
        | some spec => rfl
      rw [SubmitService.linkedUsable, husable, decide_eq_true (hreached hsome hspec.1)]
      rfl
    · have hq := hbefore q hq
      rw [SubmitService.linkedUsable]
      simp only [Bool.not_eq_true'] at hq ⊢
      rw [hq, Bool.and_false]

variable (py service prompt cfg)

/--
**The displayed answer is what a submit does exactly when** every candidate that the submit gets to
is linked, and blanks around the ids play no part.
-/
theorem submit_agrees_iff (hload : loadProviderConfig py service.config = some cfg)
    (hprimary : cfg.primaryProvider ≠ []) :
    service.Agrees py prompt cfg ↔
      service.ReachesLinked py prompt cfg ∧ service.BlanksAside py prompt cfg := by
  obtain ⟨result, dispatched, hsubmit, hanswer, hdispatched⟩ :=
    submit_spec prompt hload hprimary
  have hreaches : (∀ pid ∈ dispatched, pid ∈ cfg.linkedProviders) ↔
      service.ReachesLinked py prompt cfg := by
    rw [hdispatched]
    simp only [List.mem_filter, Bool.and_eq_true, Bool.not_eq_true', and_imp]
    rfl
  have hagrees : service.Agrees py prompt cfg ↔
      result.answer = (service.displayed py prompt cfg).answer ∧
        service.ReachesLinked py prompt cfg := by
    rw [answer_eq_iff, ← hreaches]
    constructor
    · rintro ⟨result', dispatched', hsubmit', h⟩
      rw [hsubmit] at hsubmit'
      cases hsubmit'
      exact h
    · exact fun h => ⟨result, dispatched, hsubmit, h⟩
  rw [hagrees, and_comm]
  refine and_congr_right fun hlinked => ?_
  rw [hanswer, answer_displayed hprimary, find?_linkedUsable hlinked, SubmitService.BlanksAside]
  cases hwritten : (writtenChain cfg .defaultChat).find? (service.linkedUsable py prompt cfg) with
  | none =>
    cases hstripped : ((writtenChain cfg .defaultChat).map Py.strip).find?
      (service.linkedUsable py prompt cfg) <;> simp
  | some pid =>
    cases hstripped : ((writtenChain cfg .defaultChat).map Py.strip).find?
        (service.linkedUsable py prompt cfg) with
    | none => simp
    | some pid' =>
      simp only [Option.map_some, Option.some.injEq, Prod.mk.injEq, decide_eq_decide]
      constructor
      · rintro ⟨rfl, hhead⟩
        refine ⟨rfl, fun q hq => ?_⟩
        subst hq
        exact (not_iff_not.mp hhead).symm
      · rintro ⟨rfl, hhead⟩
        exact ⟨rfl, not_iff_not.mpr (hhead pid rfl).symm⟩

end

/-! ## A chat slot with one fallback -/

def plainReaders : Readers where
  str _ := []
  int _ := none
  bool _ := true
  upper t := t

/-- Gemini is the primary provider, and ollama its fallback. -/
def sampleConfig (linked : List Value) : List (Text × Value) :=
  [(lit "primary_provider", .str (lit "gemini")), (lit "linked_providers", .arr linked),
    (lit "fallback_policy", .obj [(lit "slot_fallback_orders",
      .obj [(lit "default_chat", .arr [.str (lit "ollama")])])])]

/-- A local ollama answers. -/
def sampleService (linked : List Value) : SubmitService where
  transport :=
    { openaiChat := fun _ _ _ _ => .ok (lit "hi", none), ollamaReachable := fun _ => true
      ollamaModels := fun _ => [lit "gemma3"] }
  env _ := []
  config := sampleConfig linked
  overBudget _ := false

def sampleBrain (linked : List Text) : ProviderConfig where
  primaryProvider := lit "gemini"
  linkedProviders := linked
  modelOverrides := []
  slotRouting := []
  implicitLocalFallback := false
  slotFallbackOrders := [(lit "default_chat", [lit "ollama"])]
  migratedFromLegacy := false

theorem submit_agrees_sample :
    (sampleService [.str (lit "gemini"), .str (lit "ollama")]).Agrees plainReaders (lit "hello")
      (sampleBrain [lit "gemini", lit "ollama"]) := by
  have hchain : submitChain (sampleBrain [lit "gemini", lit "ollama"]) .defaultChat []
      = [lit "gemini", lit "ollama"] := by decide
  have hfind : (writtenChain (sampleBrain [lit "gemini", lit "ollama"]) .defaultChat).find?
      ((sampleService [.str (lit "gemini"), .str (lit "ollama")]).linkedUsable plainReaders
        (lit "hello") (sampleBrain [lit "gemini", lit "ollama"])) = some (lit "ollama") := by
    decide +kernel
  refine (submit_agrees_iff _ _ _ _ rfl (by decide)).mpr ⟨?_, ?_, ?_⟩
  · unfold SubmitService.ReachesLinked
    decide +kernel
  · decide +kernel
  · intro pid hpid
    obtain rfl : lit "ollama" = pid := Option.some.inj (hfind.symm.trans hpid)
    rw [hchain]
    decide

/-- **A prompt is sent to a provider that is not linked**, which answers it. -/
theorem unlinked_dispatched :
    loadProviderConfig plainReaders (sampleService [.str (lit "gemini")]).config
        = some (sampleBrain [lit "gemini"]) ∧
      ¬ (sampleService [.str (lit "gemini")]).Agrees plainReaders (lit "hello")
        (sampleBrain [lit "gemini"]) := by
  refine ⟨rfl, ?_⟩
  rintro ⟨result, dispatched, hsubmit, -, hlinked⟩
  have hdispatched : ((sampleService [.str (lit "gemini")]).submit plainReaders (lit "hello") []).map
      Prod.snd = some [lit "gemini", lit "ollama"] := by decide +kernel
  rw [hsubmit] at hdispatched
  obtain rfl : dispatched = [lit "gemini", lit "ollama"] := Option.some.inj hdispatched
  have hollama : lit "ollama" ∈ [lit "gemini"] := hlinked (lit "ollama") (by decide)
  exact absurd hollama (by decide)

end ForgeKit.Provider
