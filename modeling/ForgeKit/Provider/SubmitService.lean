import ForgeKit.Provider.Routing

/-!
# The submit service (`forgekit_provider/chat/service.py`)

A prompt goes to the candidates of the chat slot, one after the other, until one of them answers.

* `submit_spec` — the first candidate that can answer does, and whom the prompt is dispatched to
-/

namespace ForgeKit.Provider

open Py (Text lit)
open JsonText

/-! ## Results (`chat/models.py`) -/

/-- `SOURCE_*`. -/
inductive Source where
  | configured
  | localDefault
  | none
deriving DecidableEq

/-- `MODE_*`. -/
inductive SubmitMode where
  | live
  | setup
  | error
  | held
deriving DecidableEq

/-- `CAT_*`. -/
inductive Category where
  | ok
  | noProviderConfigured
  | authMissing
  | unsupportedInConsole
  | endpointUnreachable
  | transportError
  | budgetThrottled
deriving DecidableEq

/-- `USAGE_*`. -/
inductive UsageBasis where
  | live
  | estimate
  | unknown
deriving DecidableEq

/-- `ProviderUsage`. -/
structure ProviderUsage where
  inputTokens : Int
  outputTokens : Int
  totalTokens : Int

/-- `SubmitResult`, without a runtime mode. -/
structure SubmitResult where
  ok : Bool
  mode : SubmitMode
  category : Category
  text : Text := []
  providerId : Text := []
  providerLabel : Text := []
  source : Source := .none
  model : Text := []
  nextAction : Text := []
  usageBasis : UsageBasis := .unknown
  inputTokens : Int := 0
  outputTokens : Int := 0
  totalTokens : Int := 0
  throttled : Bool := false
  fallbackUsed : Bool := false
  routedFrom : Text := []
deriving DecidableEq

/-- An exception: the name of its type, and what it says. -/
structure Raised where
  type : Text
  message : Text

/-- `Transport`. A reply is a text, with the usage that the provider reports. -/
structure Transport where
  openaiChat : (endpoint model prompt apiKey : Text) → Except Raised (Text × Option ProviderUsage)
  ollamaReachable : Text → Bool
  ollamaModels : Text → List Text

/-- `SubmitService`. `overBudget` is what `_over_budget_providers` gives; `env` gives the empty text
for what is not set. -/
structure SubmitService where
  transport : Transport
  env : Text → Text
  config : List (Text × Value)
  overBudget : Text → Bool

section

variable (py : Readers) (service : SubmitService) (prompt : Text)

/-- `_spec_for`. -/
def SubmitService.specFor (providerId : Text) : Option ProviderSpec :=
  let pid := Py.strip providerId
  if pid = [] then none
  else
    match builtin pid with
    | some spec => some spec
    | none => buildProvider py (withId service.config pid)

/-- `_estimate_tokens`. -/
def estimateTokens (text : Text) : Int := max 1 (text.length / 4)

/-- The model that `_submit_openai` asks for. -/
def SubmitService.modelOf (spec : ProviderSpec) (brain : ProviderConfig) : Text :=
  let override := Py.strip (brain.modelFor spec.id)
  let configured := Py.strip (py.strOf (getOr service.config (lit "model") []))
  let installed := if spec.authKind = authNone
    then ((service.transport.ollamaModels spec.endpoint).head?).getD [] else []
  if override ≠ [] then override
  else if configured ≠ [] then configured
  else if installed ≠ [] then installed
  else spec.id

/-- `key_name`. -/
def keyName (spec : ProviderSpec) : Text := py.upper spec.id ++ lit "_API_KEY"

/-- `api_key`. -/
def SubmitService.apiKeyOf (spec : ProviderSpec) : Text :=
  if spec.authKind = authApiKey then Py.strip (service.env (keyName py spec)) else []

/-- The reply of a provider, with its own usage or an estimate. -/
def liveResult (spec : ProviderSpec) (source : Source) (model reply : Text)
    (usage : Option ProviderUsage) : SubmitResult :=
  let text := if Py.strip reply = [] then lit "(빈 응답)" else Py.strip reply
  let (basis, inTok, outTok, total) :=
    match usage.filter fun u => 0 < u.totalTokens with
    | some u => (UsageBasis.live, u.inputTokens, u.outputTokens, u.totalTokens)
    | none => (.estimate, estimateTokens prompt, estimateTokens text,
        estimateTokens prompt + estimateTokens text)
  { ok := true, mode := .live, category := .ok, source := source, providerId := spec.id
    providerLabel := spec.label, model := model, text := text, usageBasis := basis
    inputTokens := inTok, outputTokens := outTok, totalTokens := total }

/-- `_submit_openai`. -/
def SubmitService.submitOpenai (spec : ProviderSpec) (source : Source) (brain : ProviderConfig) :
    SubmitResult :=
  if spec.authKind = authApiKey ∧ service.apiKeyOf py spec = [] then
    { ok := false, mode := .error, category := .authMissing, source := source
      providerId := spec.id, providerLabel := spec.label
      text := spec.label ++ lit " 는 API 키가 필요합니다 (" ++ keyName py spec ++ lit " 미설정)."
      nextAction := lit "환경변수 " ++ keyName py spec ++ lit " 를 설정한 뒤 다시 시도하세요." }
  else if spec.endpoint = [] then
    { ok := false, mode := .error, category := .transportError, source := source
      providerId := spec.id, providerLabel := spec.label
      text := spec.label ++ lit " endpoint 가 비어 있습니다."
      nextAction := lit "provider config 의 endpoint 를 설정하세요." }
  else
    let model := service.modelOf py spec brain
    match service.transport.openaiChat spec.endpoint model prompt (service.apiKeyOf py spec) with
    | .error exc =>
      { ok := false, mode := .error
        category := if spec.authKind = authNone then .endpointUnreachable else .transportError
        source := source, providerId := spec.id, providerLabel := spec.label, model := model
        text := spec.label ++ lit " 요청 실패: " ++ exc.type ++ lit ": " ++ exc.message
        nextAction := lit "endpoint/health 를 `/render` 또는 `/doctor` 로 확인하세요." }
    | .ok (reply, usage) => liveResult prompt spec source model reply usage

/-- `_dispatch`. -/
def SubmitService.dispatch (spec : ProviderSpec) (source : Source) (brain : ProviderConfig) :
    SubmitResult :=
  if spec.submitCompat = Provider.submitOpenai then service.submitOpenai py prompt spec source brain
  else
    { ok := false, mode := .error, category := .unsupportedInConsole, source := source
      providerId := spec.id, providerLabel := spec.label
      text := spec.label ++ lit " 는 콘솔 live-submit 이 아직 구현되지 않았습니다 " ++
        lit "(submit_compat=" ++ spec.submitCompat ++ lit ")."
      nextAction :=
        lit "로컬 ollama 또는 openai-compatible provider 를 설정하면 free-text 가 live 로 동작합니다." }

/-- A provider that has used up its own budget of the day. -/
def budgetHeld (pid : Text) (spec : ProviderSpec) (source : Source) : SubmitResult :=
  { ok := false, mode := .held, category := .budgetThrottled, providerId := pid
    providerLabel := spec.label, source := source, throttled := true
    text := spec.label ++ lit " 는 per-provider 일일 token budget 초과 — 다음 후보로 fallback."
    nextAction := lit "`budget_policy.provider_daily_limits` 상향 또는 다른 provider 로 routing." }

/-- No candidate has a spec. -/
def noResolvable (source : Source) : SubmitResult :=
  { ok := false, mode := .setup, category := .noProviderConfigured, source := source
    text := lit "resolvable provider 가 없습니다."
    nextAction := lit "`/provider set <id>` 로 primary provider 를 설정하세요." }

/-- There is no candidate. -/
def notConfigured (source : Source) : SubmitResult :=
  { ok := false, mode := .setup, category := .noProviderConfigured, source := source
    text :=
      lit "primary provider 가 아직 설정되지 않았습니다 — free-text 를 보낼 대상이 없습니다."
    nextAction :=
      lit "콘솔에서 `/provider set <id>` (claude/codex/gemini/ollama) 로 primary provider 를 " ++
      lit "정하세요. ForgeKit 은 자동으로 ollama 를 쓰지 않습니다 — operator 가 정합니다." }

/-- The loop of `submit`, from the candidate of index `i` on: the result, and the providers that
the prompt was dispatched to. -/
def SubmitService.submitLoop (source : Source) (brain : ProviderConfig) (head : Text) :
    Nat → List Text → Option SubmitResult → SubmitResult × List Text
  | _, [], last => (last.getD (noResolvable source), [])
  | i, pid :: rest, last =>
    match service.specFor py pid with
    | none => submitLoop source brain head (i + 1) rest last
    | some spec =>
      if service.overBudget pid then
        submitLoop source brain head (i + 1) rest (some (budgetHeld pid spec source))
      else
        let result := service.dispatch py prompt spec source brain
        if result.ok then
          (if 0 < i then { result with fallbackUsed := true, routedFrom := head } else result,
            [spec.id])
        else
          let (answer, dispatched) := submitLoop source brain head (i + 1) rest (some result)
          (answer, spec.id :: dispatched)

/-- The candidates of `submit`, and where they come from. -/
def SubmitService.candidates (brain : ProviderConfig) (prefer : Text) : List Text × Source :=
  if brain.primaryProvider ≠ [] ∨ prefer ≠ [] ∧ (builtin prefer).isSome then
    (submitChain brain .defaultChat prefer, .configured)
  else if brain.implicitLocalFallback ∧ service.transport.ollamaReachable ollama.endpoint then
    ([ollama.id], .localDefault)
  else ([], .none)

/-- `submit`, without a context; it raises where the configuration cannot be loaded. -/
def SubmitService.submit (prefer : Text) : Option (SubmitResult × List Text) := do
  let brain ← loadProviderConfig py service.config
  let (chain, source) := service.candidates brain prefer
  match chain with
  | [] => some (notConfigured source, [])
  | head :: _ => some (service.submitLoop py prompt source brain head 0 chain none)

/-! ## Who answers -/

/-- Who answers, and whether it is a fallback. -/
def SubmitResult.answer (r : SubmitResult) : Option (Text × Bool) :=
  if r.ok then some (r.providerId, r.fallbackUsed) else none

/-- The provider is one whose dispatch succeeds. -/
def SubmitService.succeeds (brain : ProviderConfig) (pid : Text) : Bool :=
  match service.specFor py pid with
  | some spec =>
    spec.id = pid && (service.dispatch py prompt spec .configured brain).ok
  | none => false

/-- The provider can answer. -/
def SubmitService.usable (brain : ProviderConfig) (pid : Text) : Bool :=
  !service.overBudget pid && service.succeeds py prompt brain pid

/-- The candidates that a submit gets to: all of them, up to the first that can answer. -/
def SubmitService.reached (brain : ProviderConfig) : List Text → List Text
  | [] => []
  | pid :: rest =>
    if service.usable py prompt brain pid then [pid] else pid :: reached brain rest

variable {py service prompt} {brain : ProviderConfig}

theorem id_of_specFor {pid : Text} {spec : ProviderSpec} (h : service.specFor py pid = some spec) :
    spec.id = Py.strip pid := by
  rw [SubmitService.specFor] at h
  split at h
  · cases h
  · split at h
    · next hbuiltin =>
      cases h
      exact id_of_builtin hbuiltin
    · exact id_of_buildProvider (strip_strip pid) h

theorem usable_nil : service.usable py prompt brain [] = false := by
  rw [SubmitService.usable, SubmitService.succeeds]
  simp [SubmitService.specFor, Py.strip, Py.lstrip, Py.rstrip]

theorem SubmitService.id_of_submitOpenai (service : SubmitService) (py : Readers) (prompt : Text)
    (brain : ProviderConfig) (spec : ProviderSpec) (source : Source) :
    (service.submitOpenai py prompt spec source brain).providerId = spec.id ∧
      (service.submitOpenai py prompt spec source brain).fallbackUsed = false := by
  rw [SubmitService.submitOpenai]
  by_cases hkey : spec.authKind = authApiKey ∧ service.apiKeyOf py spec = []
  · rw [if_pos hkey]
    exact ⟨rfl, rfl⟩
  · rw [if_neg hkey]
    by_cases hendpoint : spec.endpoint = []
    · rw [if_pos hendpoint]
      exact ⟨rfl, rfl⟩
    · rw [if_neg hendpoint]
      dsimp only
      cases service.transport.openaiChat spec.endpoint (service.modelOf py spec brain) prompt
        (service.apiKeyOf py spec) with
      | error exc => exact ⟨rfl, rfl⟩
      | ok reply => exact ⟨rfl, rfl⟩

theorem SubmitService.id_of_dispatch (service : SubmitService) (py : Readers) (prompt : Text)
    (brain : ProviderConfig) (spec : ProviderSpec) (source : Source) :
    (service.dispatch py prompt spec source brain).providerId = spec.id ∧
      (service.dispatch py prompt spec source brain).fallbackUsed = false := by
  rw [SubmitService.dispatch]
  split
  · exact service.id_of_submitOpenai py prompt brain spec source
  · exact ⟨rfl, rfl⟩

/-- The result of the candidate before is a failure. -/
def Failed (last : Option SubmitResult) : Prop := ∀ r, last = some r → r.ok = false

/-- What the loop does with its next candidate. -/
theorem SubmitService.submitLoop_cons (service : SubmitService) (py : Readers) (prompt : Text)
    (brain : ProviderConfig) {pid : Text} (hpid : Py.strip pid = pid) (head : Text) (i : Nat)
    (rest : List Text) {last : Option SubmitResult} (hlast : Failed last) :
    (service.usable py prompt brain pid = true ∧
      (service.submitLoop py prompt .configured brain head i (pid :: rest) last).1.answer
        = some (pid, decide (0 < i)) ∧
      (service.submitLoop py prompt .configured brain head i (pid :: rest) last).2 = [pid]) ∨
    (service.usable py prompt brain pid = false ∧ ∃ last', Failed last' ∧
      (service.submitLoop py prompt .configured brain head i (pid :: rest) last).1
        = (service.submitLoop py prompt .configured brain head (i + 1) rest last').1 ∧
      (service.submitLoop py prompt .configured brain head i (pid :: rest) last).2
        = [pid].filter (fun q => (service.specFor py q).isSome && !service.overBudget q) ++
          (service.submitLoop py prompt .configured brain head (i + 1) rest last').2) := by
  rw [SubmitService.submitLoop, SubmitService.usable, SubmitService.succeeds, List.filter_singleton]
  cases hspec : service.specFor py pid with
  | none => exact .inr ⟨by simp, last, hlast, rfl, by simp⟩
  | some spec =>
    have hid : spec.id = pid := (id_of_specFor hspec).trans hpid
    dsimp only
    cases hover : service.overBudget pid with
    | true => exact .inr ⟨by simp, some (budgetHeld pid spec .configured),
        fun r hr => Option.some.inj hr ▸ rfl, rfl, by simp⟩
    | false =>
      rw [if_neg Bool.false_ne_true]
      cases hok : (service.dispatch py prompt spec .configured brain).ok with
      | true =>
        refine .inl ⟨by simp [hid], ?_, ?_⟩
        · obtain ⟨hprovider, hfallback⟩ := service.id_of_dispatch py prompt brain spec .configured
          rw [if_pos rfl]
          by_cases hi : 0 < i
          · simp [SubmitResult.answer, hi, hprovider, hid]
          · simp [SubmitResult.answer, hi, hok, hprovider, hid, hfallback]
        · rw [if_pos rfl, hid]
      | false =>
        refine .inr ⟨by simp, some (service.dispatch py prompt spec .configured brain),
          fun r hr => Option.some.inj hr ▸ hok, ?_, ?_⟩
        · rw [if_neg Bool.false_ne_true]
        · rw [if_neg Bool.false_ne_true]
          simp [hid]

/-- Past the head every answer is a fallback. -/
theorem answer_submitLoop {chain : List Text} (hchain : ∀ pid ∈ chain, Py.strip pid = pid)
    (head : Text) {i : Nat} (hi : 0 < i) {last : Option SubmitResult} (hlast : Failed last) :
    (service.submitLoop py prompt .configured brain head i chain last).1.answer
      = (chain.find? (service.usable py prompt brain)).map fun pid => (pid, true) := by
  induction chain generalizing i last with
  | nil =>
    cases last with
    | none => rfl
    | some r =>
      show r.answer = none
      rw [SubmitResult.answer, hlast r rfl, if_neg Bool.false_ne_true]
  | cons pid rest ih =>
    have hrest : ∀ q ∈ rest, Py.strip q = q := fun q hq => hchain q (List.mem_cons_of_mem _ hq)
    rcases service.submitLoop_cons py prompt brain
      (hchain pid List.mem_cons_self) head i rest hlast with
      ⟨husable, hanswer, -⟩ | ⟨husable, last', hlast', heq, -⟩
    · rw [hanswer, List.find?_cons_of_pos husable, decide_eq_true hi]
      rfl
    · rw [heq, ih hrest (Nat.succ_pos i) hlast', List.find?_cons_of_neg (by simp [husable])]

/-- The prompt goes to each candidate that is reached, has a spec and is within its budget. -/
theorem dispatched_submitLoop {chain : List Text} (hchain : ∀ pid ∈ chain, Py.strip pid = pid)
    (head : Text) (i : Nat) {last : Option SubmitResult} (hlast : Failed last) :
    (service.submitLoop py prompt .configured brain head i chain last).2
      = (service.reached py prompt brain chain).filter
          fun q => (service.specFor py q).isSome && !service.overBudget q := by
  induction chain generalizing i last with
  | nil => rfl
  | cons pid rest ih =>
    have hrest : ∀ q ∈ rest, Py.strip q = q := fun q hq => hchain q (List.mem_cons_of_mem _ hq)
    rcases service.submitLoop_cons py prompt brain
      (hchain pid List.mem_cons_self) head i rest hlast with
      ⟨husable, -, hdispatched⟩ | ⟨husable, last', hlast', -, hdispatched⟩
    · have hkept : ((service.specFor py pid).isSome && !service.overBudget pid) = true := by
        rw [SubmitService.usable, SubmitService.succeeds, Bool.and_eq_true] at husable
        cases hspec : service.specFor py pid with
        | none =>
          rw [hspec] at husable
          cases husable.2
        | some spec => simpa using husable.1
      rw [hdispatched, SubmitService.reached, if_pos husable, List.filter_singleton, hkept]
      rfl
    · rw [hdispatched, SubmitService.reached, if_neg (by simp [husable]), ih hrest (i + 1) hlast',
        ← List.filter_append, List.singleton_append]

theorem mem_reached_of_find? {chain : List Text} {pid : Text}
    (h : chain.find? (service.usable py prompt brain) = some pid) :
    pid ∈ service.reached py prompt brain chain := by
  induction chain with
  | nil => cases h
  | cons q rest ih =>
    rw [SubmitService.reached]
    cases husable : service.usable py prompt brain q with
    | true =>
      rw [List.find?_cons_of_pos husable] at h
      rw [if_pos rfl, Option.some.inj h]
      exact List.mem_cons_self
    | false =>
      rw [List.find?_cons_of_neg (by simp [husable])] at h
      rw [if_neg Bool.false_ne_true]
      exact List.mem_cons_of_mem _ (ih h)

variable (prompt) in
/-- **What a submit does**: who answers, and whom the prompt is dispatched to. -/
theorem submit_spec (hload : loadProviderConfig py service.config = some brain)
    (hprimary : brain.primaryProvider ≠ []) :
    ∃ result dispatched, service.submit py prompt [] = some (result, dispatched) ∧
      result.answer = ((submitChain brain .defaultChat []).find?
        (service.usable py prompt brain)).map (fun pid =>
          (pid, decide ((submitChain brain .defaultChat []).head? ≠ some pid))) ∧
      dispatched = (service.reached py prompt brain (submitChain brain .defaultChat [])).filter
        fun q => (service.specFor py q).isSome && !service.overBudget q := by
  have hchain : ∀ pid ∈ submitChain brain .defaultChat [], Py.strip pid = pid :=
    fun pid hpid => (mem_dedupeIds hpid).1
  have hnone : Failed none := fun r hr => by cases hr
  have hconfigured : service.candidates brain [] = (submitChain brain .defaultChat [], .configured) :=
    if_pos (.inl hprimary)
  simp only [SubmitService.submit, hload, hconfigured, Option.bind_eq_bind, Option.bind_some]
  cases hcandidates : submitChain brain .defaultChat [] with
  | nil => exact ⟨notConfigured .configured, [], rfl, rfl, rfl⟩
  | cons head rest =>
    rw [hcandidates] at hchain
    have hrest : ∀ q ∈ rest, Py.strip q = q := fun q hq => hchain q (List.mem_cons_of_mem _ hq)
    refine ⟨(service.submitLoop py prompt .configured brain head 0 (head :: rest) none).1,
      (service.submitLoop py prompt .configured brain head 0 (head :: rest) none).2, rfl, ?_,
      dispatched_submitLoop hchain head 0 hnone⟩
    rcases service.submitLoop_cons py prompt brain
      (hchain head List.mem_cons_self) head 0 rest hnone with
      ⟨husable, hanswer, -⟩ | ⟨husable, last', hlast', heq, -⟩
    · rw [hanswer, List.find?_cons_of_pos husable]
      simp
    · rw [heq, answer_submitLoop hrest head Nat.one_pos hlast',
        List.find?_cons_of_neg (by simp [husable])]
      cases hfind : rest.find? (service.usable py prompt brain) with
      | none => rfl
      | some pid =>
        have hne : head ≠ pid := by
          rintro rfl
          rw [List.find?_some hfind] at husable
          cases husable
        simp [hne]

end

end ForgeKit.Provider
