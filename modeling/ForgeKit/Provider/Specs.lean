import ForgeKit.Lib.JsonRead

/-!
# Provider specs (`forgekit_provider/providers`)

A provider is one of the four that ship with the program, or the one gateway that the configuration
describes itself, under whatever id it is asked for.

* `id_of_buildProvider` — a spec that is built from the configuration has the id it is built for
* `validateProviderSpec_builtin` — the specs that ship with the program pass their own check
-/

namespace ForgeKit.Provider

open Py (Text lit)
open JsonText

/-- What reading a configuration rests on and is not carried over: `str` and `bool` of other kinds
of values, and `str.upper`. -/
structure Readers extends Conversions where
  upper : Text → Text

/-! ## The contract (`contract.py`) -/

/-- `ProviderSpec`. -/
structure ProviderSpec where
  id : Text
  label : Text
  kind : Text
  authKind : Text
  usageMode : Text
  submitCompat : Text
  healthContract : Text
  capabilityFlags : List Text := []
  endpoint : Text := []
  enterprise : Bool := false
deriving DecidableEq

def kindCloudCli : Text := lit "cloud_cli"
def kindCloudApi : Text := lit "cloud_api"
def kindLocal : Text := lit "local"
def kindEnterprise : Text := lit "enterprise"

def authOauth : Text := lit "oauth"
def authApiKey : Text := lit "api_key"
def authNone : Text := lit "none"
def authEndpoint : Text := lit "endpoint"

def submitCli : Text := lit "cli"
def submitOpenai : Text := lit "openai_compatible"
def submitCustomHttp : Text := lit "custom_http"
def submitNative : Text := lit "native"

def usageSubscription : Text := lit "subscription"
def usageApi : Text := lit "api"
def usageLocal : Text := lit "local"
def usageEnterprise : Text := lit "enterprise"

def healthCliPresent : Text := lit "cli_present"
def healthApiKeySet : Text := lit "api_key_set"
def healthEndpointReachable : Text := lit "endpoint_reachable"

def allKinds : List Text := [kindCloudCli, kindCloudApi, kindLocal, kindEnterprise]

def allAuthKinds : List Text := [authOauth, authApiKey, authNone, authEndpoint]

def allSubmitCompat : List Text := [submitCli, submitOpenai, submitCustomHttp, submitNative]

def allUsageModes : List Text := [usageSubscription, usageApi, usageLocal, usageEnterprise]

def allHealthContracts : List Text := [healthCliPresent, healthApiKeySet, healthEndpointReachable]

/-- `coherent[kind]`. -/
def coherent (kind : Text) : List Text :=
  if kind = kindCloudCli then [usageSubscription, usageApi]
  else if kind = kindCloudApi then [usageApi, usageSubscription]
  else if kind = kindLocal then [usageLocal]
  else [usageEnterprise]

/-- What `validate_provider_spec` has to say. -/
inductive SpecError where
  | idEmpty
  | labelEmpty
  | unknownKind (kind : Text)
  | unknownAuthKind (authKind : Text)
  | unknownUsageMode (usageMode : Text)
  | unknownSubmitCompat (submitCompat : Text)
  | unknownHealthContract (healthContract : Text)
  | kindNeedsEndpoint (kind : Text)
  | healthNeedsEndpoint
  | authNoneNotLocal
  | authEndpointNotEnterprise
  | usageKindMismatch (usageMode kind : Text)
  | enterpriseKindMismatch
deriving DecidableEq

/-- `[e]` when the check fails. -/
def errorIf {ε : Type} (p : Prop) [Decidable p] (e : ε) : List ε := if p then [e] else []

/-- `validate_provider_spec`. -/
def validateProviderSpec (spec : ProviderSpec) : List SpecError :=
  let endpointBlank := Py.strip spec.endpoint = []
  errorIf (Py.strip spec.id = []) .idEmpty ++
  errorIf (Py.strip spec.label = []) .labelEmpty ++
  errorIf (spec.kind ∉ allKinds) (.unknownKind spec.kind) ++
  errorIf (spec.authKind ∉ allAuthKinds) (.unknownAuthKind spec.authKind) ++
  errorIf (spec.usageMode ∉ allUsageModes) (.unknownUsageMode spec.usageMode) ++
  errorIf (spec.submitCompat ∉ allSubmitCompat) (.unknownSubmitCompat spec.submitCompat) ++
  errorIf (spec.healthContract ∉ allHealthContracts) (.unknownHealthContract spec.healthContract) ++
  errorIf (spec.kind ∈ [kindLocal, kindEnterprise] ∧ endpointBlank) (.kindNeedsEndpoint spec.kind) ++
  errorIf (spec.healthContract = healthEndpointReachable ∧ endpointBlank) .healthNeedsEndpoint ++
  errorIf (spec.authKind = authNone ∧ spec.kind ≠ kindLocal) .authNoneNotLocal ++
  errorIf (spec.authKind = authEndpoint ∧ spec.kind ≠ kindEnterprise) .authEndpointNotEnterprise ++
  errorIf (spec.kind ∈ allKinds ∧ spec.usageMode ∈ allUsageModes ∧
    spec.usageMode ∉ coherent spec.kind) (.usageKindMismatch spec.usageMode spec.kind) ++
  errorIf (spec.enterprise = true ∧ spec.kind ≠ kindEnterprise) .enterpriseKindMismatch

/-! ## Built-in providers (`builtins.py`) -/

def claude : ProviderSpec where
  id := lit "claude"
  label := lit "Claude Code"
  kind := kindCloudCli
  authKind := authOauth
  usageMode := usageSubscription
  submitCompat := submitCli
  healthContract := healthCliPresent
  capabilityFlags :=
    [lit "chat", lit "synthesis", lit "safety", lit "tool_use", lit "long_context"]

def codex : ProviderSpec where
  id := lit "codex"
  label := lit "Codex"
  kind := kindCloudCli
  authKind := authApiKey
  usageMode := usageSubscription
  submitCompat := submitCli
  healthContract := healthCliPresent
  capabilityFlags := [lit "chat", lit "execution", lit "tool_use"]

def gemini : ProviderSpec where
  id := lit "gemini"
  label := lit "Gemini"
  kind := kindCloudApi
  authKind := authApiKey
  usageMode := usageApi
  submitCompat := submitOpenai
  healthContract := healthApiKeySet
  capabilityFlags := [lit "chat", lit "research", lit "long_context", lit "cheap"]

def ollama : ProviderSpec where
  id := lit "ollama"
  label := lit "Ollama"
  kind := kindLocal
  authKind := authNone
  usageMode := usageLocal
  submitCompat := submitOpenai
  healthContract := healthEndpointReachable
  capabilityFlags := [lit "chat", lit "cheap", lit "local", lit "classification"]
  endpoint := lit "http://localhost:11434"

/-- `BUILTIN_PROVIDERS.values()`. -/
def builtinProviders : List ProviderSpec := [claude, codex, gemini, ollama]

/-- `builtin`. -/
def builtin (providerId : Text) : Option ProviderSpec :=
  builtinProviders.find? fun spec => spec.id = providerId

theorem id_of_builtin {providerId : Text} {spec : ProviderSpec}
    (h : builtin providerId = some spec) : spec.id = providerId := by
  simpa using List.find?_some h

theorem validateProviderSpec_builtin : ∀ spec ∈ builtinProviders, validateProviderSpec spec = [] := by
  decide +kernel

/-! ## Specs from a configuration (`registry.py`) -/

/-- A row of `_SHAPE_DEFAULTS`. -/
structure ShapeDefaults where
  shape : Text
  kind : Text
  authKind : Text
  usageMode : Text
  submitCompat : Text
  healthContract : Text

/-- `_SHAPE_DEFAULTS`. -/
def shapeDefaults : List ShapeDefaults :=
  [⟨lit "openai-compatible", kindCloudApi, authApiKey, usageApi, submitOpenai, healthApiKeySet⟩,
    ⟨lit "custom-http", kindEnterprise, authEndpoint, usageEnterprise, submitCustomHttp,
      healthEndpointReachable⟩,
    ⟨lit "internal-enterprise", kindEnterprise, authEndpoint, usageEnterprise, submitCustomHttp,
      healthEndpointReachable⟩]

/-- The defaults of a shape that is one of `ALL_SHAPES`. -/
def defaultsOf : Value → Option ShapeDefaults
  | .str t => shapeDefaults.find? fun row => row.shape = t
  | _ => none

/-- What `validate_config` has to say. -/
inductive ConfigError where
  | idEmpty
  | shapeMissing
  | unknownShape (shape : Value)
  | labelEmpty
  | shapeNeedsEndpoint
  | unknownAuthKind (authKind : Value)
  | flagsNotList
  | spec (e : SpecError)

section

variable (py : Readers) (config : List (Text × Value))

/-- The items of a list, and none of what is false. -/
def flagsOf (v : Value) : List Text :=
  match v with
  | .arr vs => vs.map py.strOf
  | _ => []

/-- `_spec_from_config`. -/
def specFromConfig (defaults : ShapeDefaults) : ProviderSpec where
  id := py.strOf (get config (lit "id"))
  label := py.strOf ((config.lookup (lit "label")).getD (get config (lit "id")))
  kind := py.strOf (getOr config (lit "kind") defaults.kind)
  authKind := py.strOf (getOr config (lit "auth_kind") defaults.authKind)
  usageMode := py.strOf (getOr config (lit "usage_mode") defaults.usageMode)
  submitCompat := py.strOf (getOr config (lit "submit_compat") defaults.submitCompat)
  healthContract := py.strOf (getOr config (lit "health_contract") defaults.healthContract)
  capabilityFlags := flagsOf py (get config (lit "capability_flags"))
  endpoint := py.strOf (getOr config (lit "endpoint") [])
  enterprise := defaults.kind = kindEnterprise

/-- A value that is one of the texts. -/
def isOneOf (ts : List Text) : Value → Bool
  | .str t => t ∈ ts
  | _ => false

/-- A value that is a list. -/
def isList : Value → Bool
  | .arr _ => true
  | _ => false

def isNull : Value → Bool
  | .null => true
  | _ => false

/-- The id of a configuration. -/
def configId : Text := Py.strip (py.strOf (getOr config (lit "id") []))

/-- `validate_config`. -/
def validateConfig : List ConfigError :=
  let idErrors := errorIf (configId py config = []) ConfigError.idEmpty
  if (builtin (configId py config)).isSome && (config.lookup (lit "shape")).isNone then idErrors
  else
    let shape := get config (lit "shape")
    let defaults := defaultsOf shape
    let auth := get config (lit "auth_kind")
    let flags := get config (lit "capability_flags")
    let errors := idErrors ++
      (if isNull shape then [.shapeMissing] else errorIf (defaults = none) (.unknownShape shape)) ++
      errorIf (Py.strip (py.strOf (getOr config (lit "label") [])) = []) .labelEmpty ++
      errorIf (defaults.isSome ∧ Py.strip (py.strOf (getOr config (lit "endpoint") [])) = [])
        .shapeNeedsEndpoint ++
      errorIf (¬ isNull auth ∧ ¬ isOneOf allAuthKinds auth) (.unknownAuthKind auth) ++
      errorIf (py.truthy flags ∧ ¬ isList flags) .flagsNotList
    match defaults with
    | some row =>
      if errors.isEmpty then (validateProviderSpec (specFromConfig py config row)).map .spec
      else errors
    | none => errors

/-- `build_provider`; it raises where this is `none`. -/
def buildProvider : Option ProviderSpec :=
  if (validateConfig py config).isEmpty then
    match builtin (configId py config), config.lookup (lit "shape") with
    | some base, none =>
      if [lit "label", lit "endpoint", lit "capability_flags"].all fun k => (config.lookup k).isNone
      then some base
      else
        let flags := get config (lit "capability_flags")
        some { base with
          label := py.strOf (getOr config (lit "label") base.label)
          endpoint := py.strOf (getOr config (lit "endpoint") base.endpoint)
          capabilityFlags := if py.truthy flags then flagsOf py flags else base.capabilityFlags }
    | _, _ => (defaultsOf (get config (lit "shape"))).map (specFromConfig py config)
  else none

/-- `{**config, "id": pid}`. -/
def withId (providerId : Text) : List (Text × Value) :=
  (lit "id", .str providerId) :: config.filter fun m => m.1 ≠ lit "id"

variable {py config}

theorem configId_withId (providerId : Text) :
    configId py (withId config providerId) = Py.strip providerId := by
  rw [configId, withId, getOr, List.lookup_cons_self]
  rfl

/-- **A spec that is built for an id has this id.** -/
theorem id_of_buildProvider {providerId : Text} {spec : ProviderSpec}
    (hid : Py.strip providerId = providerId)
    (h : buildProvider py (withId config providerId) = some spec) : spec.id = providerId := by
  rw [buildProvider, configId_withId, hid] at h
  split at h
  · split at h
    · next base hbase _ =>
      split at h
      · cases h
        exact id_of_builtin hbase
      · cases h
        show base.id = providerId
        exact id_of_builtin hbase
    · obtain ⟨row, -, rfl⟩ := Option.map_eq_some_iff.mp h
      show py.strOf (JsonText.get (withId config providerId) (lit "id")) = providerId
      rw [withId, JsonText.get, List.lookup_cons_self]
      rfl
  · cases h

end

end ForgeKit.Provider
