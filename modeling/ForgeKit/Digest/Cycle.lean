import ForgeKit.Digest.DedupLedger
import ForgeKit.Digest.SourceCatalog
import ForgeKit.Lib.Machine
import Mathlib.Algebra.GroupWithZero.Nat
import Mathlib.Data.List.Sort
import Mathlib.Data.String.Basic

/-!
# The digest cycle (`digest/crawler.py`, `digest/dispatcher.py`, `digest/scheduler.py`)

A cycle reads the feeds of its roles, drops what the ledger calls a duplicate, plans where the cards
go, posts the plan and records its department cards. What the feeds and `post_fn` answer is part of
the cycle.

`posts_once` — in a run whose cycles post what they record, and read no article twice, every row has
been delivered and nothing is delivered twice.
-/

namespace ForgeKit.Digest

/-! ## Cards -/

/-- An entry of a feed; the parsers keep those with a title and a link. -/
structure FeedEntry where
  title : String
  link : String
  summary : String := ""
  /-- The date that `_parse_published` and `format_card` make of `published`. -/
  publishedAt : Option String := none
  tags : List String := []
  title_ne : title ≠ "" := by decide
  link_ne : link ≠ "" := by decide

structure DigestCard where
  title : String
  url : String
  summary : String
  sourceHost : String
  publishedAt : Option String
  tags : List String
  deptPrimary : String
  affectedDepts : List String
  meetingTrigger : Bool
  roleHint : Option String
deriving DecidableEq, Repr

/-- `format_card`. -/
def formatCard (entry : FeedEntry) (sourceHost : String) (verdict : DeptClassification)
    (roleHint : Option String) : DigestCard where
  title := PyText.strip (if entry.title = "" then "(no title)" else entry.title)
  url := PyText.strip entry.link
  summary := PyText.strip entry.summary
  sourceHost := PyText.strip sourceHost
  publishedAt := entry.publishedAt
  tags := entry.tags
  deptPrimary := verdict.primary
  affectedDepts := if verdict.affected = [] then [verdict.primary] else verdict.affected
  meetingTrigger := verdict.meetingTrigger
  roleHint := roleHint

/-! ## `crawler` -/

/-- What comes of fetching and parsing a feed. -/
inductive Fetched where
  | entries (es : List FeedEntry)
  /-- The fetch or the parser raises. -/
  | blocked (reason : String)
  /-- An entry whose fields are no texts: the exception ends the cycle. -/
  | malformed

structure CrawlOutcome where
  role : String
  sourceHost : String
  entriesFetched : Nat
  cards : List DigestCard
  skippedDuplicates : Nat
  blockerReason : Option String
deriving DecidableEq, Repr

/-- One read of a feed: the role and the source, the times at which the ledger is asked, the answer. -/
structure Attempt where
  role : String
  source : AuthoritativeSource
  checkedAt : Nat → Int
  fetched : Fetched

section Crawl

variable (lower : String → String) (retention : Int)

/-- The verdict on an entry of a feed. -/
def Attempt.verdict (t : Attempt) (entry : FeedEntry) : DeptClassification :=
  classifyEvidence lower t.source.host entry.title entry.summary (some t.role)

/-- The entry, as the ledger is asked about it. -/
def Attempt.article (t : Attempt) (entry : FeedEntry) : Article :=
  articleOf lower entry.link entry.title t.source.host (t.verdict lower entry).primary

/-- The first entries, those that the ledger lets pass. -/
def Attempt.freshEntries (t : Attempt) (ledger : Ledger) (maxCardsPerSource : Nat)
    (es : List FeedEntry) : List FeedEntry :=
  ((es.take maxCardsPerSource).zipIdx.filter fun (entry, i) =>
    !isDuplicate ledger (t.checkedAt i - retention) (t.article lower entry)).map Prod.fst

/-- `fetch_source`; `none` is an exception. -/
def fetchSource (ledger : Ledger) (t : Attempt) (maxCardsPerSource : Nat := 5) :
    Option CrawlOutcome :=
  if t.source.host ∉ allAllowedHosts then
    some ⟨t.role, t.source.host, 0, [], 0, some "not in allow-list"⟩
  else match t.fetched with
    | .malformed => none
    | .blocked reason => some ⟨t.role, t.source.host, 0, [], 0, some reason⟩
    | .entries es =>
      let fresh := t.freshEntries lower retention ledger maxCardsPerSource es
      some
        { role := t.role
          sourceHost := t.source.host
          entriesFetched := es.length
          cards := fresh.map fun entry =>
            formatCard entry t.source.host (t.verdict lower entry) (some t.role)
          skippedDuplicates := (es.take maxCardsPerSource).length - fresh.length
          blockerReason := none }

end Crawl

/-! ## `dispatcher` -/

/-- `ENV_DEPT_CHANNELS`. -/
def envDeptChannels : List (String × String) :=
  [("planning", "DISCORD_DEPT_PLANNING_CHANNEL_ID"), ("design", "DISCORD_DEPT_DESIGN_CHANNEL_ID"),
   ("engineering", "DISCORD_DEPT_DEV_CHANNEL_ID")]

/-- `ENV_RESEARCH_FORUM`. -/
def envResearchForum : String := "DISCORD_AGENT_RESEARCH_FORUM_CHANNEL_ID"

structure DispatchTarget where
  channelId : String
  channelName : String
  card : DigestCard
  targetKind : String
deriving DecidableEq, Repr

structure DispatchPlan where
  targets : List DispatchTarget
  skippedNoChannel : List String
  researchForumThreads : List String
deriving DecidableEq, Repr

abbrev Env := String → Option String

/-- The text of a variable, stripped; `none` where it is empty or absent. -/
def channelOf (env : Env) (key : String) : Option String :=
  let id := PyText.strip ((env key).getD "")
  if id = "" then none else some id

/-- `_resolve_channel_id`. -/
def resolveChannelId (env : Env) (dept : String) : Option String :=
  (envDeptChannels.lookup dept).bind (channelOf env)

/-- The departments that a card goes to. -/
def DigestCard.depts (card : DigestCard) : List String :=
  if card.meetingTrigger then card.affectedDepts else [card.deptPrimary]

def deptTarget (env : Env) (card : DigestCard) (dept : String) : Option DispatchTarget :=
  (resolveChannelId env dept).map fun id => ⟨id, "dept-" ++ dept, card, "dept_feed"⟩

/-- The research thread of a card, with its target. -/
def researchThread (env : Env) (card : DigestCard) : Option (String × DispatchTarget) :=
  if card.meetingTrigger then
    (channelOf env envResearchForum).map fun id =>
      ("[Research] " ++ String.ofList (card.title.toList.take 80) ++ " (영향: "
          ++ ", ".intercalate card.affectedDepts ++ ")",
        ⟨id, "운영-리서치", card, "research_forum_thread"⟩)
  else none

/-- The targets of one card. -/
def cardTargets (env : Env) (card : DigestCard) : List DispatchTarget :=
  card.depts.filterMap (deptTarget env card) ++ ((researchThread env card).map Prod.snd).toList

/-- `build_dispatch_plan`. -/
def buildDispatchPlan (cards : List DigestCard) (env : Env) : DispatchPlan where
  targets := cards.flatMap (cardTargets env)
  skippedNoChannel :=
    ((cards.flatMap fun card => card.depts.filter fun d => (resolveChannelId env d).isNone).dedup)
      |>.insertionSort fun a b => a ≤ b
  researchForumThreads := cards.filterMap fun card => (researchThread env card).map Prod.fst

/-! ## `scheduler` -/

/-- How `post_fn` ends. -/
inductive PostOutcome where
  | returned
  /-- It raises an `Exception`, which the cycle swallows. -/
  | raised
  /-- It is cancelled, and the cycle with it. -/
  | cancelled
deriving DecidableEq, Repr

/-- One call of `run_one_cycle`, with what its surroundings answer. -/
structure Cycle where
  roles : List String
  /-- What fetching a source for the role at this place of `roles` gives. -/
  fetch : Nat → AuthoritativeSource → Fetched
  env : Env
  /-- `none` where there is no `post_fn`. -/
  post : Option PostOutcome
  /-- The clock when the ledger is asked about an entry, by role, source and entry. -/
  checkedAt : Nat → AuthoritativeSource → Nat → Int
  /-- The clock when a target is recorded. -/
  recordedAt : Nat → Int

/-- The reads of feeds, in the order of the loops. -/
def Cycle.attempts (c : Cycle) : List Attempt :=
  c.roles.zipIdx.flatMap fun (role, i) =>
    (sourcesForRole role).map fun source => ⟨role, source, c.checkedAt i source, c.fetch i source⟩

structure DigestCycleReport where
  rolesProcessed : Nat
  sourcesAttempted : Nat
  cardsTotal : Nat
  skippedDuplicates : Nat
  blockedSources : Nat
  dispatch : DispatchPlan

section Scheduler

variable (lower : String → String) (retention : Int)

/-- The article that a target is recorded as. -/
def DispatchTarget.article (t : DispatchTarget) : Article :=
  articleOf lower t.card.url t.card.title t.card.sourceHost t.card.deptPrimary

def DispatchTarget.isDeptFeed (t : DispatchTarget) : Bool := t.targetKind == "dept_feed"

/-- The articles that the loop over the targets records, with their times. -/
def recordsOf (plan : DispatchPlan) (recordedAt : Nat → Int) : List (Article × Int) :=
  (plan.targets.zipIdx.filter fun t => t.1.isDeptFeed).map fun t =>
    (t.1.article lower, recordedAt t.2)

/-- The crawl of a cycle; `none` is an exception. -/
def Cycle.crawl (c : Cycle) (ledger : Ledger) : Option (List CrawlOutcome) :=
  c.attempts.mapM (fetchSource lower retention ledger)

/-- The cards of the sources that are not blocked. -/
def cardsOf (outcomes : List CrawlOutcome) : List DigestCard :=
  outcomes.flatMap fun o => if o.blockerReason.isSome then [] else o.cards

/-- `run_one_cycle`: the report and the ledger; `none` is an exception, after which the ledger is
as it was. -/
def runOneCycle (ledger : Ledger) (c : Cycle) : Option (DigestCycleReport × Ledger) :=
  match c.crawl lower retention ledger, c.post with
  | none, _ => none
  | some _, some .cancelled => none
  | some outcomes, _ =>
    let cards := cardsOf outcomes
    let plan := buildDispatchPlan cards c.env
    some
      ({ rolesProcessed := c.roles.length
         sourcesAttempted := outcomes.length
         cardsTotal := cards.length
         skippedDuplicates := (outcomes.map CrawlOutcome.skippedDuplicates).sum
         blockedSources := outcomes.countP fun o => o.blockerReason.isSome
         dispatch := plan },
       recordAll ledger (recordsOf lower plan c.recordedAt))

/-- The ledger, and the plans whose `post_fn` call returned. -/
structure World where
  ledger : Ledger := Table.empty
  delivered : List DispatchPlan := []

/-- A cycle; its plan is delivered when `post_fn` returns. -/
def World.step (w : World) (c : Cycle) : World :=
  match runOneCycle lower retention w.ledger c with
  | none => w
  | some (report, ledger) =>
    { ledger := ledger
      delivered := if c.post = some .returned then w.delivered ++ [report.dispatch] else w.delivered }

end Scheduler

end ForgeKit.Digest
