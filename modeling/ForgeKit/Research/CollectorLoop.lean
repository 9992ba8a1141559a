import ForgeKit.Lib.Collecting
import ForgeKit.Lib.Json
import ForgeKit.Lib.KeyOrder

/-!
# Follow-up collection (`research/collector_loop.py`)

A pack of sources that does not cover its roles is extended: one role after the other is asked for, as
long as calls are left, and the hits with a new URL, or without URL a new title, are appended.

* `round_cases` — what one round can do
* `exists_ending` — the loop ends, whatever the collector returns
* `newOnly_iff` — when no appended source repeats another
* `extendPack_spec` — the two with the bounds on the calls
-/

namespace ForgeKit.Research

open Collecting (Step Visits fresh loop)

/-! ## Sources (`pack.py`, `deliberation.py`) -/

inductive SourceType where
  | userMessage
  | url
  | webResult
  | imageReference
  | fileAttachment
  | githubIssue
  | githubPr
  | codeContext
  | officialDocs
  | communitySignal
  | designReference
  | unknown
deriving DecidableEq

/-- The `value` of the type. -/
def SourceType.value : SourceType → String
  | userMessage => "user_message"
  | url => "url"
  | webResult => "web_result"
  | imageReference => "image_reference"
  | fileAttachment => "file_attachment"
  | githubIssue => "github_issue"
  | githubPr => "github_pr"
  | codeContext => "code_context"
  | officialDocs => "official_docs"
  | communitySignal => "community_signal"
  | designReference => "design_reference"
  | unknown => "unknown"

/-- `KNOWN_SOURCE_TYPES`. -/
def knownSourceTypes : List SourceType :=
  [.userMessage, .url, .webResult, .imageReference, .fileAttachment, .githubIssue, .githubPr,
    .codeContext, .officialDocs, .communitySignal, .designReference]

/-- A `datetime`, in microseconds: without a time zone, or as an instant. -/
inductive Stamp where
  | naive (micros : Int)
  | aware (micros : Int)
deriving DecidableEq

/-- `s < t`; `none` is the `TypeError`. -/
def Stamp.lt? : Stamp → Stamp → Option Bool
  | naive s, naive t => some (s < t)
  | aware s, aware t => some (s < t)
  | _, _ => none

/-- `min(stamps) if stamps else None`. -/
def earliest : List Stamp → Option (Option Stamp)
  | [] => some none
  | s :: stamps =>
    (stamps.foldlM (fun best (t : Stamp) => (t.lt? best).map fun less => if less then t else best) s).map some

structure ResearchSource where
  sourceUrl : Option String := none
  title : Option String := none
  postedAt : Option Stamp := none
  /-- The kinds of the attachments. -/
  attachments : List String := []
  extra : Dict Json := []
  sourceType : SourceType := .unknown
  collectedAt : Option Stamp := none

/-- `timestamp`. -/
def ResearchSource.timestamp (source : ResearchSource) : Option Stamp :=
  source.collectedAt.or source.postedAt

/-- The stripped URL. -/
def ResearchSource.url (source : ResearchSource) : String := PyText.strip (source.sourceUrl.getD "")

/-- The stripped title. -/
def ResearchSource.name (source : ResearchSource) : String := PyText.strip (source.title.getD "")

/-- `(s.extra or {}).get("provider")`, as a test. -/
def ResearchSource.hasProvider (source : ResearchSource) : Bool :=
  (source.extra.getJson "provider").truthy

structure ResearchRequest where
  topic : String
  createdAt : Option Stamp := none

structure ResearchFinding where
  findingId : String
  title : String
  summary : String
  role : String
  supportingSourceIds : List String := []
  confidence : String := "medium"
  riskOrLimit : Option String := none
  createdAt : Option Stamp := none

structure ResearchPack where
  title : String
  summary : String := ""
  primaryUrl : Option String := none
  sources : List ResearchSource := []
  tags : List String := []
  createdAt : Option Stamp := none
  extra : Dict Json := []
  request : Option ResearchRequest := none
  findings : List ResearchFinding := []

/-- `_clean_url`. -/
def cleanUrl (value : Option String) : String :=
  String.ofList ((PyText.strip (value.getD "")).toList.rdropWhile (".,);".toList.contains ·))

/-- `pack_from_request`, with what the loop gives it; `none` is the `TypeError` of `min`. -/
def packFromRequest (request : ResearchRequest) (sources : List ResearchSource) (tags : List String)
    (extra : Dict Json) : Option ResearchPack := do
  let primary := (sources.map fun s => cleanUrl s.sourceUrl).find? (· ≠ "")
  let createdAt ← earliest (request.createdAt.toList ++ sources.filterMap (·.timestamp))
  let topic := PyText.strip request.topic
  pure
    { title := if topic = "" then "(untitled)" else topic, summary := "", primaryUrl := primary
      sources := sources, tags := tags, createdAt := createdAt, extra := extra
      request := some request, findings := [] }

/-- The `any(hint in lowered for hint in hints)` of the hosts. -/
def anyHost (hints : List String) (lowered : String) : Bool :=
  hints.any fun host => PyText.contains lowered host

/-- `_infer_from_url`. -/
def inferFromUrl (url : Option String) : Option SourceType :=
  let lowered := PyText.lower (url.getD "")
  let github := anyHost ["github.com", "www.github.com"] lowered
  if url.getD "" = "" then none
  else if PyText.contains lowered "/issues/" && github then some .githubIssue
  else if PyText.contains lowered "/pull/" && github then some .githubPr
  else if anyHost ["developer.mozilla.org", "docs.python.org", "react.dev", "vuejs.org", "nextjs.org",
      "kubernetes.io", "cloud.google.com", "docs.aws.amazon.com", "learn.microsoft.com",
      "fastapi.tiangolo.com", "docs.djangoproject.com"] lowered then some .officialDocs
  else if anyHost ["pinterest.com", "notefolio.net", "behance.net", "awwwards.com", "dribbble.com",
      "canva.com", "wix.com", "mobbin.com", "pageflows.com"] lowered then some .designReference
  else if anyHost ["reddit.com", "news.ycombinator.com", "stackoverflow.com", "twitter.com", "x.com"]
      lowered then some .communitySignal
  else none

/-- `source_type`. -/
def sourceType (source : ResearchSource) : String :=
  let explicit := match source.extra.getJson "source_type" with
    | .str s => PyText.strip s
    | _ => ""
  if explicit ≠ "" then explicit
  else
    let kind := source.attachments.head?.map PyText.lower
    if kind = some "image" then SourceType.imageReference.value
    else if kind = some "file" then SourceType.fileAttachment.value
    else if kind = some "embed" then SourceType.webResult.value
    else match inferFromUrl source.sourceUrl with
      | some inferred => inferred.value
      | none =>
        if source.sourceUrl.getD "" ≠ "" then SourceType.url.value else SourceType.userMessage.value

/-! ## Sufficiency (`sufficiency.py`) -/

structure RoleSufficiencyTarget where
  role : String
  minSources : Int
  requiredTypes : List String := []

structure RoleCoverage where
  role : String
  distinctSources : Nat
  matchedTypes : List String
  missingTypes : List String
  sufficient : Bool

structure ResearchSufficiencyScore where
  sufficient : Bool
  distinctUrlCount : Nat
  roleCoverage : List RoleCoverage := []
  notes : List String := []

/-- `DEFAULT_ROLE_TARGETS`. -/
def defaultRoleTargets : List RoleSufficiencyTarget :=
  [{ role := "tech-lead", minSources := 1, requiredTypes := [SourceType.officialDocs.value] },
    { role := "ai-engineer", minSources := 2
      requiredTypes := [SourceType.officialDocs.value, SourceType.webResult.value] },
    { role := "product-designer", minSources := 2
      requiredTypes := [SourceType.imageReference.value, SourceType.designReference.value] },
    { role := "backend-engineer", minSources := 2
      requiredTypes := [SourceType.officialDocs.value, SourceType.codeContext.value] },
    { role := "frontend-engineer", minSources := 1
      requiredTypes := [SourceType.designReference.value] },
    { role := "qa-engineer", minSources := 2
      requiredTypes := [SourceType.githubIssue.value, SourceType.githubPr.value] },
    { role := "devops-engineer", minSources := 2
      requiredTypes := [SourceType.officialDocs.value, SourceType.githubIssue.value,
        SourceType.githubPr.value] }]

/-- The coverage of one role, from the number of URLs and the types that there are. -/
def coverRole (distinctUrls : Nat) (seenTypes : List String) (target : RoleSufficiencyTarget) :
    RoleCoverage :=
  let matched := target.requiredTypes.filter (· ∈ seenTypes)
  { role := target.role, distinctSources := distinctUrls, matchedTypes := matched
    missingTypes := target.requiredTypes.filter (· ∉ seenTypes)
    sufficient := target.minSources ≤ distinctUrls
      && (target.requiredTypes.isEmpty || !matched.isEmpty) }

/-- The notes on one role that is not covered. -/
def coverNotes (distinctUrls : Nat) (seenTypes : List String) (target : RoleSufficiencyTarget) :
    List String :=
  let count :=
    if target.minSources ≤ distinctUrls then []
    else [target.role ++ ": 자료 " ++ toString distinctUrls ++ "/" ++ toString target.minSources
      ++ "건 — 추가 수집 필요"]
  let types :=
    if target.requiredTypes.isEmpty || target.requiredTypes.any (· ∈ seenTypes) then []
    else [target.role ++ ": 필요한 source_type(" ++ ", ".intercalate target.requiredTypes
      ++ ") 중 어느 것도 없음"]
  count ++ types

/-- `score_research_sufficiency`. -/
def scoreResearchSufficiency (pack : ResearchPack) (roleTargets : List RoleSufficiencyTarget) :
    ResearchSufficiencyScore :=
  if pack.sources.isEmpty then
    { sufficient := false, distinctUrlCount := 0
      roleCoverage := roleTargets.map fun t =>
        { role := t.role, distinctSources := 0, matchedTypes := [], missingTypes := t.requiredTypes
          sufficient := false }
      notes := ["research_pack 없음 — 자료 수집을 시작해야 합니다."] }
  else
    let distinctUrls := ((pack.sources.map (·.url)).filter (· ≠ "")).dedup.length
    let seenTypes := pack.sources.map sourceType
    let coverage := roleTargets.map (coverRole distinctUrls seenTypes)
    { sufficient := coverage.all (·.sufficient), distinctUrlCount := distinctUrls
      roleCoverage := coverage, notes := roleTargets.flatMap (coverNotes distinctUrls seenTypes) }

/-- `under_covered_roles`. -/
def underCoveredRoles (score : ResearchSufficiencyScore) : List String :=
  (score.roleCoverage.filter (!·.sufficient)).map (·.role)

/-! ## Budget, queries and ranks (`collector.py`) -/

structure BudgetTracker where
  maxProviderCalls : Int
  maxResultsPerRole : Int
  callsMade : Int := 0
  truncated : Bool := false

namespace BudgetTracker

/-- `can_call`. -/
def canCall (b : BudgetTracker) : Bool := b.callsMade < b.maxProviderCalls

/-- `record_call`. -/
def recordCall (b : BudgetTracker) : BudgetTracker := { b with callsMade := b.callsMade + 1 }

/-- `trim_results`; a negative cap counts from the end, as a slice does. -/
def trimResults (b : BudgetTracker) (results : List ResearchSource) :
    List ResearchSource × BudgetTracker :=
  if b.maxResultsPerRole < results.length then
    (if 0 ≤ b.maxResultsPerRole then results.take b.maxResultsPerRole.toNat
      else results.take (results.length - b.maxResultsPerRole.natAbs), { b with truncated := true })
  else (results, b)

end BudgetTracker

structure CollectorQuery where
  query : String
  role : String
  maxResults : Int
  taskType : Option String

/-- `short_role`. -/
def shortRole (role : String) : String :=
  if role.toList.contains '/' then String.ofList ((role.toList.dropWhile (· ≠ '/')).drop 1) else role

/-- `ROLE_RESEARCH_PROFILES`. -/
def roleResearchProfiles : Dict (List SourceType) :=
  [("tech-lead", [.userMessage, .url, .officialDocs, .githubIssue, .githubPr, .webResult]),
    ("product-designer",
      [.imageReference, .designReference, .fileAttachment, .userMessage, .url, .webResult]),
    ("backend-engineer", [.officialDocs, .codeContext, .githubPr, .githubIssue, .url, .webResult]),
    ("frontend-engineer",
      [.officialDocs, .designReference, .codeContext, .imageReference, .url, .webResult]),
    ("qa-engineer",
      [.githubIssue, .communitySignal, .officialDocs, .userMessage, .githubPr, .url]),
    ("ai-engineer", [.officialDocs, .githubPr, .codeContext, .communitySignal, .webResult, .url]),
    ("devops-engineer", [.officialDocs, .githubPr, .githubIssue, .codeContext, .url, .webResult])]

/-- `_rank_sources_for_role`. -/
def rankSourcesForRole (sources : List ResearchSource) (role : String) : List ResearchSource :=
  let profile := (roleResearchProfiles.get? (shortRole role)).getD []
  if profile = [] then sources
  else
    let fallback := profile.length + knownSourceTypes.length
    let rank := fun source : ResearchSource => (profile.idxOf? source.sourceType).getD fallback
    KeyOrder.sortBy (fun m n : Nat => decide (m ≤ n)) rank sources

/-! ## The loop (`collector_loop.py`) -/

/-- `_FOLLOWUP_ROLE_ORDER`. -/
def followupRoleOrder : List String :=
  ["ai-engineer", "backend-engineer", "product-designer", "frontend-engineer", "qa-engineer",
    "tech-lead"]

/-- `if candidate not in ordered: ordered.append(candidate)`. -/
def appendNew (ordered : List String) (candidate : String) : List String :=
  if candidate ∈ ordered then ordered else ordered ++ [candidate]

/-- `_next_followup_role`. -/
def nextFollowupRole (score : ResearchSufficiencyScore) (primaryRole : String)
    (visited : List (String × String)) : Option String :=
  let underCovered := underCoveredRoles score
  let short := shortRole primaryRole
  let ordered := if short ∈ underCovered then [short] else []
  let ordered := (followupRoleOrder.filter (· ∈ underCovered)).foldl appendNew ordered
  let ordered := underCovered.foldl appendNew ordered
  ordered.find? fun candidate => !visited.any fun v => v.1 = candidate

/-- `_append_sources`, for new sources; `none` is what `pack_from_request` raises. -/
def appendSources (pack : ResearchPack) (newSources : List ResearchSource) : Option ResearchPack :=
  let merged := pack.sources ++ newSources
  let tags :=
    if merged.any (·.hasProvider) && !pack.tags.contains "auto-collected" then
      pack.tags ++ ["auto-collected"]
    else pack.tags
  pack.request.bind fun request => packFromRequest request merged tags pack.extra

/-- What a source is told apart by: its URL, or without URL its title. -/
def sourceKey (source : ResearchSource) : String :=
  if source.url = "" then "title:" ++ source.name else source.url

/-- What one call is made with. The collector may answer each query by all the queries it got so far;
`none` is an exception. -/
structure Collection where
  buildQuery : String → String
  search : List CollectorQuery → Option (List ResearchSource)
  primaryRole : String
  maxResults : Int
  taskType : Option String
  sufficiencyTargets : List RoleSufficiencyTarget

structure LoopState where
  pack : ResearchPack
  budget : BudgetTracker
  score : ResearchSufficiencyScore
  seenUrls : List String
  visited : List (String × String) := []
  consecutiveNoGain : Nat := 0
  iterations : Nat := 1
  /-- What the collector was asked, in order. -/
  queries : List CollectorQuery := []

/-- How the call ends; without a reason, an exception leaves it. -/
structure Ending where
  state : LoopState
  stopReason : Option String

namespace Collection

variable (c : Collection)

/-- `targets`. -/
def targets : List RoleSufficiencyTarget :=
  if c.sufficiencyTargets = [] then defaultRoleTargets else c.sufficiencyTargets

/-- The end of a round. -/
def rescore (s : LoopState) : Step LoopState Ending :=
  let score := scoreResearchSufficiency s.pack c.targets
  if score.sufficient then .stop ⟨{ s with score := score }, some "sufficient"⟩
  else .next { s with score := score }

/-- The `CollectorQuery` for a role. -/
def queryFor (role : String) : CollectorQuery where
  query := c.buildQuery role
  role := role
  maxResults := c.maxResults
  taskType := c.taskType

/-- The ranked hits for a role, cut to the cap, and the budget after the call. -/
def hitsFor (s : LoopState) (role : String) : List ResearchSource × BudgetTracker :=
  let hits := (c.search (s.queries ++ [c.queryFor role])).getD []
  s.budget.recordCall.trimResults (rankSourcesForRole hits role)

/-- The rest of a round, once a role and its query are chosen. -/
def askRole (s : LoopState) (role : String) : Step LoopState Ending :=
  let found := c.hitsFor s role
  let kept := fresh sourceKey s.seenUrls found.1
  let s :=
    { s with
      budget := found.2, iterations := s.iterations + 1, queries := s.queries ++ [c.queryFor role]
      seenUrls := kept.1, visited := (role, c.buildQuery role) :: s.visited }
  if kept.2 = [] then
    let s := { s with consecutiveNoGain := s.consecutiveNoGain + 1 }
    if 4 ≤ s.consecutiveNoGain then .stop ⟨s, some "no_progress"⟩ else c.rescore s
  else
    match appendSources s.pack kept.2 with
    | none => .stop ⟨s, none⟩
    | some pack => c.rescore { s with pack := pack, consecutiveNoGain := 0 }

/-- One round of `while budget.can_call()`. -/
def round (s : LoopState) : Step LoopState Ending :=
  if s.budget.canCall = false then .stop ⟨s, some "budget_exhausted"⟩
  else
    match nextFollowupRole s.score c.primaryRole s.visited with
    | none => .stop ⟨s, some "role_rotation_exhausted"⟩
    | some role =>
      let marker := (role, c.buildQuery role)
      if c.buildQuery role = "" ∨ marker ∈ s.visited then
        .next { s with visited := marker :: s.visited }
      else c.askRole s role

/-- What comes before the loop. -/
def start (pack : ResearchPack) (budget : BudgetTracker) : Step LoopState Ending :=
  let score := scoreResearchSufficiency pack c.targets
  let s : LoopState :=
    { pack := pack, budget := budget, score := score
      seenUrls := (pack.sources.map (·.url)).filter (· ≠ "") }
  if score.sufficient then .stop ⟨s, some "sufficient"⟩
  else if pack.sources.any (·.hasProvider) = false then .stop ⟨s, some "no_initial_provider_hit"⟩
  else .next s

/-- `_extend_pack_until_sufficient`, for at most `fuel` rounds. -/
def extendPackUntilSufficient (pack : ResearchPack) (budget : BudgetTracker) (fuel : Nat) :
    Option Ending :=
  match c.start pack budget with
  | .stop ending => some ending
  | .next s => loop c.round fuel s

/-! ## One round -/

/-- The role that a round asks the collector for. -/
def askedRole (s : LoopState) : Option String :=
  if s.budget.canCall = false then none
  else (nextFollowupRole s.score c.primaryRole s.visited).filter fun role =>
    c.buildQuery role ≠ "" ∧ (role, c.buildQuery role) ∉ s.visited

/-- The hits that a round looks at, ranked and cut to the cap. -/
def roundHits (s : LoopState) : List ResearchSource :=
  match c.askedRole s with
  | none => []
  | some role => (c.hitsFor s role).1

/-- The sources that a round finds new. -/
def newSources (s : LoopState) : List ResearchSource :=
  (fresh sourceKey s.seenUrls (c.roundHits s)).2

end Collection

theorem roleCoverage_score (pack : ResearchPack) (targets : List RoleSufficiencyTarget) :
    (scoreResearchSufficiency pack targets).roleCoverage.map (·.role) = targets.map (·.role) := by
  unfold scoreResearchSufficiency
  split
  · simp
  · simp [coverRole]

theorem sources_of_appendSources {pack pack' : ResearchPack} {newSources : List ResearchSource}
    (h : appendSources pack newSources = some pack') : pack'.sources = pack.sources ++ newSources := by
  obtain ⟨request, -, hpack⟩ := Option.bind_eq_some_iff.mp h
  obtain ⟨createdAt, -, hpack⟩ := Option.bind_eq_some_iff.mp hpack
  cases hpack
  rfl

theorem mem_foldl_appendNew {ordered candidates : List String} {role : String}
    (h : role ∈ candidates.foldl appendNew ordered) : role ∈ ordered ∨ role ∈ candidates := by
  induction candidates generalizing ordered with
  | nil => exact .inl h
  | cons candidate candidates ih =>
    rcases ih h with h | h
    · unfold appendNew at h
      split at h
      · exact .inl h
      · rw [List.mem_append, List.mem_singleton] at h
        exact h.imp_right fun heq => List.mem_cons.mpr (.inl heq)
    · exact .inr (List.mem_cons_of_mem _ h)

/-- The next role is one of the score that was not visited. -/
theorem nextFollowupRole_spec {score : ResearchSufficiencyScore} {primaryRole role : String}
    {visited : List (String × String)} (h : nextFollowupRole score primaryRole visited = some role) :
    role ∈ score.roleCoverage.map (·.role) ∧ role ∉ visited.map Prod.fst := by
  unfold nextFollowupRole at h
  have hmem := List.mem_of_find?_eq_some h
  have hnew := List.find?_some h
  refine ⟨?_, ?_⟩
  · have hunder : role ∈ underCoveredRoles score := by
      rcases mem_foldl_appendNew hmem with hmem | hmem
      · rcases mem_foldl_appendNew hmem with hmem | hmem
        · split at hmem
          · next hshort => exact (List.mem_singleton.mp hmem) ▸ hshort
          · cases hmem
        · simpa using (List.mem_filter.mp hmem).2
      · exact hmem
    obtain ⟨coverage, hcoverage, rfl⟩ := List.mem_map.mp hunder
    exact List.mem_map_of_mem (List.mem_filter.mp hcoverage).1
  · rintro hmem
    obtain ⟨v, hv, rfl⟩ := List.mem_map.mp hmem
    simp only [Bool.not_eq_true', List.any_eq_false, decide_eq_true_eq] at hnew
    exact hnew v hv rfl

namespace Collection

variable {c : Collection} {s s' : LoopState} {role : String} {reason : Option String}

theorem callsMade_hitsFor : (c.hitsFor s role).2.callsMade = s.budget.callsMade + 1
    ∧ (c.hitsFor s role).2.maxProviderCalls = s.budget.maxProviderCalls := by
  unfold hitsFor BudgetTracker.trimResults
  dsimp only
  split <;> exact ⟨rfl, rfl⟩

/-- What asking the collector for a role does to the state. -/
structure Asked (c : Collection) (s : LoopState) (role : String) (s' : LoopState) : Prop where
  budget : s'.budget = (c.hitsFor s role).2
  queries : s'.queries = s.queries ++ [c.queryFor role]
  seen : s'.seenUrls = (fresh sourceKey s.seenUrls (c.hitsFor s role).1).1
  visited : s'.visited = (role, c.buildQuery role) :: s.visited

/-- How a round ends that asked for a role. -/
inductive AskEnds (c : Collection) (s : LoopState) (role : String) : Step LoopState Ending → Prop
  | next {s' : LoopState} (hasked : c.Asked s role s')
      (hsources : s'.pack.sources
        = s.pack.sources ++ (fresh sourceKey s.seenUrls (c.hitsFor s role).1).2)
      (hscore : s'.score = scoreResearchSufficiency s'.pack c.targets) : AskEnds c s role (.next s')
  | stop {s' : LoopState} (reason : String) (hasked : c.Asked s role s')
      (hsources : s'.pack.sources
        = s.pack.sources ++ (fresh sourceKey s.seenUrls (c.hitsFor s role).1).2) :
      AskEnds c s role (.stop ⟨s', some reason⟩)
  | raised {s' : LoopState} (hasked : c.Asked s role s') (hpack : s'.pack = s.pack) :
      AskEnds c s role (.stop ⟨s', none⟩)

theorem askEnds_rescore (hasked : c.Asked s role s') (hsources : s'.pack.sources
    = s.pack.sources ++ (fresh sourceKey s.seenUrls (c.hitsFor s role).1).2) :
    c.AskEnds s role (c.rescore s') := by
  have hasked' : c.Asked s role { s' with score := scoreResearchSufficiency s'.pack c.targets } :=
    ⟨hasked.budget, hasked.queries, hasked.seen, hasked.visited⟩
  unfold rescore
  dsimp only
  split
  · exact .stop _ hasked' hsources
  · exact .next hasked' hsources rfl

/-- **Asking for a role**: the round goes on or stops with the new hits in the pack, or the pack cannot
be built. -/
theorem askEnds_askRole (c : Collection) (s : LoopState) (role : String) :
    c.AskEnds s role (c.askRole s role) := by
  unfold askRole
  dsimp only
  split
  · next hnone =>
    split
    · exact .stop _ ⟨rfl, rfl, rfl, rfl⟩ (by rw [hnone, List.append_nil])
    · exact askEnds_rescore ⟨rfl, rfl, rfl, rfl⟩ (by rw [hnone, List.append_nil])
  · split
    · exact .raised ⟨rfl, rfl, rfl, rfl⟩ rfl
    · next hpack => exact askEnds_rescore ⟨rfl, rfl, rfl, rfl⟩ (sources_of_appendSources hpack)

/-- How a round ends. -/
inductive RoundEnds (c : Collection) (s : LoopState) : Step LoopState Ending → Prop
  | asked {role : String} {step : Step LoopState Ending} (hrole : c.askedRole s = some role)
      (hends : c.AskEnds s role step) : RoundEnds c s step
  | passed {role query : String} (hnone : c.askedRole s = none)
      (hrole : nextFollowupRole s.score c.primaryRole s.visited = some role) :
      RoundEnds c s (.next { s with visited := (role, query) :: s.visited })
  | stop (reason : String) (hnone : c.askedRole s = none) : RoundEnds c s (.stop ⟨s, some reason⟩)

/-- **One round** asks for a role, passes over a role without a query, or ends the loop. -/
theorem round_cases (c : Collection) (s : LoopState) : c.RoundEnds s (c.round s) := by
  unfold round
  split
  · next hcall => exact .stop _ (by rw [askedRole, if_pos hcall])
  · next hcall =>
    cases hnext : nextFollowupRole s.score c.primaryRole s.visited with
    | none => exact .stop _ (by rw [askedRole, if_neg hcall, hnext]; rfl)
    | some role =>
      dsimp only
      split
      · next hpass =>
        refine .passed ?_ hnext
        rw [askedRole, if_neg hcall, hnext, Option.filter_some, if_neg]
        simpa only [decide_eq_true_eq, not_and_or, not_not, ne_eq] using hpass
      · next hpass =>
        refine .asked ?_ (askEnds_askRole c s role)
        rw [askedRole, if_neg hcall, hnext, Option.filter_some, if_pos]
        simpa [not_or] using hpass

theorem askedRole_spec (h : c.askedRole s = some role) : s.budget.canCall = true
    ∧ nextFollowupRole s.score c.primaryRole s.visited = some role := by
  unfold askedRole at h
  split at h
  · cases h
  · next hcall => exact ⟨by simpa using hcall, (Option.filter_eq_some_iff.mp h).1⟩

/-! ## What the rounds keep -/

variable {pack : ResearchPack} {budget : BudgetTracker}

/-- What holds of the collector's calls and of the sources. -/
structure Kept (c : Collection) (pack : ResearchPack) (budget : BudgetTracker) (s : LoopState) :
    Prop where
  visitedNodup : (s.visited.map Prod.fst).Nodup
  visitedTargets : ∀ role ∈ s.visited.map Prod.fst, role ∈ c.targets.map (·.role)
  askedNodup : (s.queries.map (·.role)).Nodup
  askedVisited : ∀ role ∈ s.queries.map (·.role), role ∈ s.visited.map Prod.fst
  calls : s.budget.callsMade = budget.callsMade + s.queries.length
  cap : s.budget.maxProviderCalls = budget.maxProviderCalls
  within : s.queries.length ≤ (budget.maxProviderCalls - budget.callsMade).toNat
  sources : ∃ added, s.pack.sources = pack.sources ++ added ∧ (added.map sourceKey).Nodup
    ∧ (∀ a ∈ added, sourceKey a ∈ s.seenUrls)
    ∧ (∀ b ∈ pack.sources, b.url ≠ "" → b.url ∈ s.seenUrls)
    ∧ ∀ a ∈ added, ∀ b ∈ pack.sources, b.url ≠ "" → sourceKey a ≠ b.url

/-- The score is one of the targets. -/
def Scored (c : Collection) (s : LoopState) : Prop :=
  s.score.roleCoverage.map (·.role) = c.targets.map (·.role)

theorem Kept.sources_append {added : List ResearchSource} {seen : List String}
    (hadded : (added.map sourceKey).Nodup ∧ (∀ a ∈ added, sourceKey a ∈ seen)
      ∧ (∀ b ∈ pack.sources, b.url ≠ "" → b.url ∈ seen)
      ∧ ∀ a ∈ added, ∀ b ∈ pack.sources, b.url ≠ "" → sourceKey a ≠ b.url)
    (hits : List ResearchSource) :
    ((added ++ (fresh sourceKey seen hits).2).map sourceKey).Nodup
      ∧ (∀ a ∈ added ++ (fresh sourceKey seen hits).2, sourceKey a ∈ (fresh sourceKey seen hits).1)
      ∧ (∀ b ∈ pack.sources, b.url ≠ "" → b.url ∈ (fresh sourceKey seen hits).1)
      ∧ ∀ a ∈ added ++ (fresh sourceKey seen hits).2, ∀ b ∈ pack.sources, b.url ≠ "" →
        sourceKey a ≠ b.url := by
  obtain ⟨hnodup, hseen, hinitial, hapart⟩ := hadded
  refine ⟨?_, ?_, ?_, ?_⟩
  · rw [List.map_append, List.nodup_append]
    refine ⟨hnodup, Collecting.nodup_fresh, fun k hk k' hk' heq => ?_⟩
    obtain ⟨a, ha, rfl⟩ := List.mem_map.mp hk
    obtain ⟨a', ha', rfl⟩ := List.mem_map.mp hk'
    exact Collecting.notMem_seen_of_mem_fresh ha' (heq ▸ hseen a ha)
  · intro a ha
    rw [Collecting.mem_fresh_seen]
    exact (List.mem_append.mp ha).imp (hseen a) List.mem_map_of_mem
  · exact fun b hb hurl => Collecting.mem_fresh_seen.mpr (.inl (hinitial b hb hurl))
  · intro a ha b hb hurl
    rcases List.mem_append.mp ha with ha | ha
    · exact hapart a ha b hb hurl
    · exact fun heq => Collecting.notMem_seen_of_mem_fresh ha (heq ▸ hinitial b hb hurl)

/-- Asking for a new role keeps what is kept. -/
theorem Kept.asked (h : c.Kept pack budget s) (hscored : c.Scored s) (hrole : c.askedRole s = some role)
    (hasked : c.Asked s role s')
    (hsources : s'.pack.sources = s.pack.sources ++ (fresh sourceKey s.seenUrls (c.hitsFor s role).1).2
      ∨ s'.pack.sources = s.pack.sources) : c.Kept pack budget s' := by
  obtain ⟨hcall, hnext⟩ := askedRole_spec hrole
  obtain ⟨hmem, hnew⟩ := nextFollowupRole_spec hnext
  have hcall' : s.budget.callsMade < s.budget.maxProviderCalls := of_decide_eq_true hcall
  have hcalls := h.calls
  have hcap := h.cap
  refine ⟨?_, ?_, ?_, ?_, ?_, ?_, ?_, ?_⟩
  · rw [hasked.visited, List.map_cons, List.nodup_cons]
    exact ⟨hnew, h.visitedNodup⟩
  · rw [hasked.visited, List.map_cons, List.forall_mem_cons]
    exact ⟨hscored ▸ hmem, h.visitedTargets⟩
  · rw [hasked.queries, List.map_append, List.nodup_append]
    refine ⟨h.askedNodup, List.nodup_singleton _, fun r hr r' hr' heq => ?_⟩
    have hsame : r = role := heq.trans (List.mem_singleton.mp hr')
    exact hnew (hsame ▸ h.askedVisited r hr)
  · intro r hr
    rw [hasked.queries, List.map_append, List.mem_append] at hr
    rw [hasked.visited, List.map_cons, List.mem_cons]
    rcases hr with hr | hr
    · exact .inr (h.askedVisited r hr)
    · exact .inl (List.mem_singleton.mp hr)
  · rw [hasked.budget, callsMade_hitsFor.1, hasked.queries, List.length_append, List.length_singleton]
    omega
  · rw [hasked.budget, callsMade_hitsFor.2, hcap]
  · rw [hasked.queries, List.length_append, List.length_singleton]
    omega
  · obtain ⟨added, heq, hadded⟩ := h.sources
    obtain ⟨hnodup, hseen, hinitial, hapart⟩ :=
      Kept.sources_append hadded (c.hitsFor s role).1
    rw [hasked.seen]
    rcases hsources with hsources | hsources
    · exact ⟨_, by rw [hsources, heq, List.append_assoc], hnodup, hseen, hinitial, hapart⟩
    · refine ⟨added, hsources.trans heq, hadded.1, fun a ha => ?_, hinitial, hadded.2.2.2⟩
      exact hseen a (List.mem_append_left _ ha)

/-- Passing over a role keeps it too. -/
theorem Kept.passed {query : String} (h : c.Kept pack budget s) (hscored : c.Scored s)
    (hrole : nextFollowupRole s.score c.primaryRole s.visited = some role) :
    c.Kept pack budget { s with visited := (role, query) :: s.visited } := by
  obtain ⟨hmem, hnew⟩ := nextFollowupRole_spec hrole
  refine { h with visitedNodup := ?_, visitedTargets := ?_, askedVisited := ?_ }
  · exact List.nodup_cons.mpr ⟨hnew, h.visitedNodup⟩
  · exact List.forall_mem_cons.mpr ⟨hscored ▸ hmem, h.visitedTargets⟩
  · exact fun r hr => List.mem_cons_of_mem _ (h.askedVisited r hr)

theorem kept_of_round (h : c.Kept pack budget s ∧ c.Scored s) (hround : c.round s = .next s') :
    c.Kept pack budget s' ∧ c.Scored s' := by
  have hends := round_cases c s
  rw [hround] at hends
  cases hends with
  | asked hrole hends =>
    cases hends with
    | next hasked hsources hscore =>
      exact ⟨h.1.asked h.2 hrole hasked (.inl hsources), by
        rw [Scored, hscore, roleCoverage_score]⟩
  | passed hnone hrole => exact ⟨h.1.passed h.2 hrole, h.2⟩

/-- A round that goes on takes a role that was not taken. -/
theorem takes_role (s s' : LoopState) (h : c.Kept pack budget s ∧ c.Scored s)
    (hround : c.round s = .next s') : (c.Kept pack budget s' ∧ c.Scored s')
      ∧ ∃ role ∈ c.targets.map (·.role), role ∉ s.visited.map Prod.fst
        ∧ s'.visited.map Prod.fst = role :: s.visited.map Prod.fst := by
  refine ⟨kept_of_round h hround, ?_⟩
  have hscored : s.score.roleCoverage.map (·.role) = c.targets.map (·.role) := h.2
  have hends := round_cases c s
  rw [hround] at hends
  cases hends with
  | asked hrole hends =>
    obtain ⟨hmem, hnew⟩ := nextFollowupRole_spec (askedRole_spec hrole).2
    cases hends with
    | next hasked hsources hscore =>
      exact ⟨_, hscored ▸ hmem, hnew, by rw [hasked.visited, List.map_cons]⟩
  | passed hnone hrole =>
    obtain ⟨hmem, hnew⟩ := nextFollowupRole_spec hrole
    exact ⟨_, hscored ▸ hmem, hnew, rfl⟩

theorem kept_of_stop {ending : Ending} (h : c.Kept pack budget s) (hscored : c.Scored s)
    (hround : c.round s = .stop ending) : c.Kept pack budget ending.state := by
  have hends := round_cases c s
  rw [hround] at hends
  cases hends with
  | asked hrole hends =>
    cases hends with
    | stop reason hasked hsources => exact h.asked hscored hrole hasked (.inl hsources)
    | raised hasked hpack => exact h.asked hscored hrole hasked (.inr (by rw [hpack]))
  | stop reason hnone => exact h

/-- What the loop starts with. -/
theorem kept_of_start {step : Step LoopState Ending} (h : c.start pack budget = step) :
    (∀ s, step = .next s → c.Kept pack budget s ∧ c.Scored s ∧ s.visited = [] ∧ s.pack = pack)
      ∧ ∀ ending, step = .stop ending →
        c.Kept pack budget ending.state ∧ ending.state.pack = pack := by
  subst h
  have hkept : ∀ score, c.Kept pack budget
      { pack := pack, budget := budget, score := score
        seenUrls := (pack.sources.map (·.url)).filter (· ≠ "") } := by
    intro score
    have hurls : ∀ b ∈ pack.sources, b.url ≠ "" → b.url ∈ (pack.sources.map (·.url)).filter (· ≠ "") :=
      fun b hb hurl => List.mem_filter.mpr ⟨List.mem_map_of_mem hb, by simpa using hurl⟩
    exact
      { visitedNodup := List.nodup_nil
        visitedTargets := by simp
        askedNodup := List.nodup_nil
        askedVisited := by simp
        calls := by simp
        cap := rfl
        within := Nat.zero_le _
        sources := ⟨[], by simp, List.nodup_nil, by simp, hurls, by simp⟩ }
  unfold start
  dsimp only
  split
  · exact ⟨fun s h => (by cases h), fun ending h => by cases h; exact ⟨hkept _, rfl⟩⟩
  · split
    · exact ⟨fun s h => (by cases h), fun ending h => by cases h; exact ⟨hkept _, rfl⟩⟩
    · refine ⟨fun s h => ?_, fun ending h => by cases h⟩
      cases h
      exact ⟨hkept _, roleCoverage_score _ _, rfl, rfl⟩

end Collection

/-! ## Sources that repeat another -/

/-- `b` has the URL of `a`, or `a` has none and `b`, without URL too, has its title. -/
def Repeats (a b : ResearchSource) : Prop :=
  if a.url = "" then b.url = "" ∧ b.name = a.name else b.url = a.url

/-- No source behind the initial ones repeats another. -/
def NewOnly (initial result : List ResearchSource) : Prop :=
  ∀ front a back, result = front ++ a :: back → initial.length ≤ front.length →
    ∀ b ∈ front ++ back, ¬Repeats a b

/-- A source without URL that has the title of an initial one without URL. -/
def Clashes (initial : List ResearchSource) (a : ResearchSource) : Prop :=
  a.url = "" ∧ ∃ b ∈ initial, b.url = "" ∧ b.name = a.name

theorem sourceKey_eq_of_repeats {a b : ResearchSource} (h : Repeats a b) :
    sourceKey a = sourceKey b := by
  unfold Repeats at h
  unfold sourceKey
  split at h
  · next hurl => rw [if_pos hurl, if_pos h.1, h.2]
  · next hurl => rw [if_neg hurl, if_neg (h ▸ hurl), h]

/-- **What is appended is new** except for the titles of initial sources without URL. -/
theorem newOnly_append_iff {initial added : List ResearchSource} (hnodup : (added.map sourceKey).Nodup)
    (hapart : ∀ a ∈ added, ∀ b ∈ initial, b.url ≠ "" → sourceKey a ≠ b.url) :
    NewOnly initial (initial ++ added) ↔ ∀ a ∈ added, ¬Clashes initial a := by
  constructor
  · rintro h a ha ⟨hurl, b, hb, hburl, hname⟩
    obtain ⟨front, back, rfl⟩ := List.append_of_mem ha
    refine h (initial ++ front) a back (by simp) (by simp) b ?_ ?_
    · exact List.mem_append_left _ (List.mem_append_left _ hb)
    · rw [Repeats, if_pos hurl]
      exact ⟨hburl, hname⟩
  · intro h front a back heq hle b hb hrepeats
    obtain ⟨front, rfl⟩ : initial <+: front :=
      List.prefix_of_prefix_length_le ⟨added, rfl⟩ ⟨a :: back, heq.symm⟩ hle
    rw [List.append_assoc] at heq
    obtain rfl := List.append_cancel_left heq
    have ha : a ∈ front ++ a :: back := by simp
    have hkey := sourceKey_eq_of_repeats hrepeats
    rw [List.append_assoc] at hb
    rcases List.mem_append.mp hb with hb | hb
    · by_cases hurl : a.url = ""
      · rw [Repeats, if_pos hurl] at hrepeats
        exact h a ha ⟨hurl, b, hb, hrepeats⟩
      · rw [Repeats, if_neg hurl] at hrepeats
        refine hapart a ha b hb (hrepeats ▸ hurl) ?_
        rw [sourceKey, if_neg hurl, hrepeats]
    -- two appended sources have different keys
    · rw [List.map_append, List.map_cons, List.nodup_middle, List.nodup_cons, ← List.map_append]
        at hnodup
      exact hnodup.1 (List.mem_map.mpr ⟨b, hb, hkey.symm⟩)

namespace Collection

variable {c : Collection} {s s' t : LoopState} {pack : ResearchPack} {budget : BudgetTracker}

/-- No hit of the round has no URL and the title of an initial source without URL, unless its key was
seen before. -/
def RoundOk (c : Collection) (initial : List ResearchSource) (s : LoopState) : Prop :=
  ∀ front hit back, c.roundHits s = front ++ hit :: back → Clashes initial hit →
    sourceKey hit ∈ s.seenUrls ∨ ∃ other ∈ front, sourceKey other = sourceKey hit

theorem roundOk_iff {initial : List ResearchSource} :
    c.RoundOk initial s ↔ ∀ a ∈ c.newSources s, ¬Clashes initial a := by
  constructor
  · intro h a ha hclash
    obtain ⟨front, back, heq, hnew, hfirst⟩ := Collecting.mem_fresh_iff.mp ha
    rcases h front a back heq hclash with hseen | ⟨other, hother, hkey⟩
    · exact hnew hseen
    · exact hfirst other hother hkey
  · intro h front hit back heq hclash
    by_contra hnot
    rw [not_or, not_exists] at hnot
    refine h hit (Collecting.mem_fresh_iff.mpr ⟨front, back, heq, hnot.1, fun other hother hkey => ?_⟩)
      hclash
    exact hnot.2 other ⟨hother, hkey⟩

theorem newSources_of_asked {role : String} (h : c.askedRole s = some role) :
    c.newSources s = (fresh sourceKey s.seenUrls (c.hitsFor s role).1).2 := by
  rw [newSources, roundHits, h]

theorem newSources_of_none (h : c.askedRole s = none) : c.newSources s = [] := by
  rw [newSources, roundHits, h]
  rfl

/-- A round that goes on appends its new sources. -/
theorem sources_of_next (h : c.round s = .next s') :
    s'.pack.sources = s.pack.sources ++ c.newSources s := by
  have hends := round_cases c s
  rw [h] at hends
  cases hends with
  | asked hrole hends =>
    cases hends with
    | next hasked hsources hscore => rw [hsources, newSources_of_asked hrole]
  | passed hnone hrole => rw [newSources_of_none hnone, List.append_nil]

/-- So does the last one, if nothing is raised. -/
theorem sources_of_stop {reason : String} (h : c.round s = .stop ⟨s', some reason⟩) :
    s'.pack.sources = s.pack.sources ++ c.newSources s := by
  have hends := round_cases c s
  rw [h] at hends
  cases hends with
  | asked hrole hends =>
    cases hends with
    | stop reason hasked hsources => rw [hsources, newSources_of_asked hrole]
  | stop reason hnone => rw [newSources_of_none hnone, List.append_nil]

/-- **What the rounds append clashes with nothing exactly when no round does.** -/
theorem noClash_iff (initial : List ResearchSource) {reason : String} (hvisits : Visits c.round s t)
    (hstop : c.round t = .stop ⟨s', some reason⟩) :
    ∃ added, s'.pack.sources = s.pack.sources ++ added
      ∧ ((∀ a ∈ added, ¬Clashes initial a) ↔ ∀ u, Visits c.round s u → c.RoundOk initial u) := by
  induction hvisits with
  | refl s =>
    refine ⟨c.newSources s, sources_of_stop hstop, ?_⟩
    simp only [Collecting.visits_iff_of_stop hstop, forall_eq, roundOk_iff]
  | @next s s₁ t hnext hrest ih =>
    obtain ⟨added, hadded, hiff⟩ := ih hstop
    refine ⟨c.newSources s ++ added, ?_, ?_⟩
    · rw [hadded, sources_of_next hnext, List.append_assoc]
    · simp only [Collecting.visits_iff_of_next hnext, List.forall_mem_append, hiff, or_imp, forall_and,
        forall_eq, roundOk_iff]

/-- What a round looks at is what the collector returned. -/
theorem exists_of_mem_roundHits {hit : ResearchSource} (h : hit ∈ c.roundHits s) :
    ∃ queries hits, c.search queries = some hits ∧ hit ∈ hits := by
  unfold roundHits at h
  cases hrole : c.askedRole s with
  | none =>
    rw [hrole] at h
    cases h
  | some role =>
    rw [hrole] at h
    have hrank : hit ∈ rankSourcesForRole
        ((c.search (s.queries ++ [c.queryFor role])).getD []) role := by
      dsimp only [hitsFor, BudgetTracker.trimResults] at h
      split at h
      · dsimp only at h
        split at h <;> exact List.mem_of_mem_take h
      · exact h
    have hmem : hit ∈ (c.search (s.queries ++ [c.queryFor role])).getD [] := by
      unfold rankSourcesForRole at hrank
      dsimp only at hrank
      split at hrank
      · exact hrank
      · exact KeyOrder.mem_sortBy.mp hrank
    cases hsearch : c.search (s.queries ++ [c.queryFor role]) with
    | none =>
      rw [hsearch] at hmem
      cases hmem
    | some hits =>
      rw [hsearch] at hmem
      exact ⟨_, hits, hsearch, hmem⟩

/-- The rounds of a call. -/
def Rounds (c : Collection) (pack : ResearchPack) (budget : BudgetTracker) (t : LoopState) : Prop :=
  ∃ s, c.start pack budget = .next s ∧ Visits c.round s t

/-- **The loop ends**, whatever the collector returns: one round for each target is enough, and one
more to see that none is left. -/
theorem exists_ending (c : Collection) (pack : ResearchPack) (budget : BudgetTracker) :
    ∃ ending, ∀ fuel, c.targets.length < fuel →
      c.extendPackUntilSufficient pack budget fuel = some ending := by
  unfold extendPackUntilSufficient
  cases hstart : c.start pack budget with
  | stop ending => exact ⟨ending, fun _ _ => rfl⟩
  | next s =>
    obtain ⟨hkept, hscored, hvisited, -⟩ := (kept_of_start hstart).1 s rfl
    obtain ⟨ending, hending⟩ : ∃ ending, loop c.round (c.targets.length + 1) s = some ending :=
      Collecting.exists_loop takes_role ⟨hkept, hscored⟩ hkept.visitedNodup hkept.visitedTargets
        (by simp [hvisited])
    exact ⟨ending, fun fuel hfuel => Collecting.loop_of_le hending hfuel⟩

/-- **A call of the loop.** It ends, asks for no role twice and within the calls that are left, and keeps
the initial sources in front; when nothing is raised, its new sources repeat no other source exactly
when every round is `RoundOk`. -/
theorem extendPack_spec (c : Collection) (pack : ResearchPack) (budget : BudgetTracker) :
    ∃ ending, (∀ fuel, c.targets.length < fuel →
        c.extendPackUntilSufficient pack budget fuel = some ending)
      ∧ (ending.state.queries.map (·.role)).Nodup
      ∧ ending.state.queries.length ≤ (budget.maxProviderCalls - budget.callsMade).toNat
      ∧ pack.sources <+: ending.state.pack.sources
      ∧ (ending.stopReason ≠ none → (NewOnly pack.sources ending.state.pack.sources ↔
        ∀ t, c.Rounds pack budget t → c.RoundOk pack.sources t)) := by
  obtain ⟨ending, hending⟩ := exists_ending c pack budget
  have hlast := hending (c.targets.length + 1) (Nat.lt_succ_self _)
  unfold extendPackUntilSufficient at hlast
  cases hstart : c.start pack budget with
  | stop stopped =>
    rw [hstart] at hlast
    obtain rfl := Option.some.inj hlast
    obtain ⟨hkept, hpack⟩ := (kept_of_start hstart).2 stopped rfl
    refine ⟨stopped, hending, hkept.askedNodup, hkept.within, ?_, fun _ => iff_of_true ?_ ?_⟩
    · exact ⟨[], by rw [hpack, List.append_nil]⟩
    · rw [hpack]
      have hnew : NewOnly pack.sources (pack.sources ++ []) :=
        (newOnly_append_iff (by simp) (by simp)).mpr (by simp)
      rwa [List.append_nil] at hnew
    · rintro t ⟨s, hnext, -⟩
      rw [hstart] at hnext
      cases hnext
  | next s =>
    rw [hstart] at hlast
    obtain ⟨hkept, hscored, -, hpack⟩ := (kept_of_start hstart).1 s rfl
    obtain ⟨t, hvisits, hstop⟩ := Collecting.exists_stop_of_loop hlast
    have hkeeps : ∀ s s', c.Kept pack budget s ∧ c.Scored s → c.round s = .next s' →
        c.Kept pack budget s' ∧ c.Scored s' := fun _ _ => kept_of_round
    obtain ⟨hkept, hscored⟩ := Collecting.loop_of_round hkeeps ⟨hkept, hscored⟩ hvisits
    have hend := kept_of_stop hkept hscored hstop
    obtain ⟨added, hsources, hnodup, -, -, hapart⟩ := hend.sources
    refine ⟨ending, hending, hend.askedNodup, hend.within, ⟨added, hsources.symm⟩, fun hreason => ?_⟩
    obtain ⟨reason, hreason⟩ := Option.ne_none_iff_exists'.mp hreason
    obtain ⟨state, stopReason⟩ := ending
    obtain rfl : stopReason = some reason := hreason
    obtain ⟨more, hmore, hiff⟩ := noClash_iff pack.sources hvisits hstop
    rw [hpack] at hmore
    obtain rfl : added = more := List.append_cancel_left (hsources.symm.trans hmore)
    rw [hsources, newOnly_append_iff hnodup hapart, hiff]
    constructor
    · rintro h u ⟨s', hnext, hu⟩
      rw [hstart] at hnext
      cases hnext
      exact h u hu
    · exact fun h u hu => h u ⟨s, hstart, hu⟩

end Collection

/-! ## Two calls -/

/-- A pack with one source of a provider, without URL. -/
def canned : ResearchPack where
  title := "계획"
  sources := [{ title := some "예시", extra := [("provider", .str "mock")] }]
  request := some { topic := "계획" }

/-- A collector that answers every query by one source without URL. -/
def answering (title : String) : Collection where
  buildQuery := fun role => role
  search := fun _ => some [{ title := some title, extra := [("provider", .str "mock")] }]
  primaryRole := "engineering-agent/qa-engineer"
  maxResults := 5
  taskType := none
  sufficiencyTargets := [{ role := "qa-engineer", minSources := 1 }]

def oneCall : BudgetTracker where
  maxProviderCalls := 1
  maxResultsPerRole := 3

/-- A new title is appended. -/
theorem answering_new : ∃ ending,
    (answering "사례").extendPackUntilSufficient canned oneCall 2 = some ending
      ∧ NewOnly canned.sources ending.state.pack.sources := by
  obtain ⟨ending, hends, -, -, -, hiff⟩ := Collection.extendPack_spec (answering "사례") canned oneCall
  have hending := hends 2 (by decide)
  have hreason : ((answering "사례").extendPackUntilSufficient canned oneCall 2).map (·.stopReason)
      = some (some "budget_exhausted") := by decide
  rw [hending] at hreason
  refine ⟨ending, hending, (hiff ?_).mpr fun t _ => ?_⟩
  · have hreason : ending.stopReason = some "budget_exhausted" := Option.some.inj hreason
    rw [hreason]
    exact Option.some_ne_none _
  · rintro front hit back heq ⟨-, b, hb, -, hname⟩
    obtain ⟨queries, hits, hsearch, hhit⟩ := Collection.exists_of_mem_roundHits
      (show hit ∈ (answering "사례").roundHits t by rw [heq]; simp)
    obtain rfl := Option.some.inj hsearch
    obtain rfl := List.mem_singleton.mp hhit
    obtain rfl := List.mem_singleton.mp hb
    exact absurd hname (by decide)

/-- **The title of an initial source is appended again.** -/
theorem answering_repeats : ∃ ending,
    (answering "예시").extendPackUntilSufficient canned oneCall 2 = some ending
      ∧ ending.state.pack.sources.map (fun s => (s.url, s.name)) = [("", "예시"), ("", "예시")]
      ∧ ¬NewOnly canned.sources ending.state.pack.sources := by
  have hsources : ((answering "예시").extendPackUntilSufficient canned oneCall 2).map
      (fun e => e.state.pack.sources.map fun s => (s.url, s.name))
        = some [("", "예시"), ("", "예시")] := by decide
  obtain ⟨ending, hending, hsources⟩ := Option.map_eq_some_iff.mp hsources
  refine ⟨ending, hending, hsources, fun hnew => ?_⟩
  obtain ⟨a, rest, heq, ha, hrest⟩ := List.map_eq_cons_iff.mp hsources
  obtain ⟨b, rest, rfl, hb, hnil⟩ := List.map_eq_cons_iff.mp hrest
  obtain rfl := List.map_eq_nil_iff.mp hnil
  obtain ⟨haurl, haname⟩ := Prod.mk.inj ha
  obtain ⟨hburl, hbname⟩ := Prod.mk.inj hb
  refine hnew [a] b [] heq (Nat.le_refl 1) a (by simp) ?_
  rw [Repeats, if_pos hburl]
  exact ⟨haurl, haname.trans hbname.symm⟩

end ForgeKit.Research
