import ForgeKit.Lib.JsonSorted
import ForgeKit.Lib.KeyOrder
import ForgeKit.Release.AutoMerge

/-!
# Dispatching a request (`messaging/dispatcher.py`, `coding/stack_detector.py`)

A request is classified from its prompt, and its task type names the roles that take part, the one
role that may write, and, from the pool, the runner of every role.

* `dispatch` — the plan of a request
* `evaluateWriteGate_eq_some` — a write is blocked until the operator approves
-/

namespace ForgeKit.Workflow

open Py (Text lit)
open Release (strInt)
open KeyOrder (lexLe sortBy)

/-! ## Stacks -/

/-- `TIERS`. -/
inductive Tier where
  | frontend
  | backend
  | database
  | infra
  | cache
  | queue
  | testing
  | auth
deriving DecidableEq

/-- `StackEntry`. -/
structure StackEntry where
  canonical : Text
  tier : Tier
  aliases : List Text

def stackEntry (canonical : String) (tier : Tier) (names : List String) : StackEntry :=
  ⟨lit canonical, tier, names.map lit⟩

/-- `_LEXICON`. -/
def lexicon : List StackEntry :=
  [stackEntry "Next.js" .frontend ["next.js", "nextjs", "next js"],
    stackEntry "React" .frontend ["react", "리액트"],
    stackEntry "Vue" .frontend ["vue.js", "vuejs", "vue"],
    stackEntry "Svelte" .frontend ["svelte", "sveltekit"],
    stackEntry "Tailwind" .frontend ["tailwind", "tailwindcss"],
    stackEntry "Vite" .frontend ["vite", "vitejs"],
    stackEntry "Angular" .frontend ["angular"],
    stackEntry "NestJS" .backend ["nest.js", "nestjs", "nest js"],
    stackEntry "Express" .backend ["express.js", "expressjs", "express "],
    stackEntry "FastAPI" .backend ["fastapi", "fast api"],
    stackEntry "Django" .backend ["django"],
    stackEntry "Flask" .backend ["flask"],
    stackEntry "Spring Boot" .backend ["spring boot", "springboot", "spring-boot"],
    stackEntry "Rails" .backend ["rails", "ruby on rails"],
    stackEntry "Gin" .backend ["gin ", "gin-gonic"],
    stackEntry "Node.js" .backend ["node.js", "nodejs", "node js"],
    stackEntry "PostgreSQL" .database ["postgresql", "postgres", "psql"],
    stackEntry "MySQL" .database ["mysql", "mariadb"],
    stackEntry "MongoDB" .database ["mongodb", "mongo"],
    stackEntry "SQLite" .database ["sqlite"],
    stackEntry "Prisma" .database ["prisma"],
    stackEntry "TypeORM" .database ["typeorm"],
    stackEntry "DynamoDB" .database ["dynamodb"],
    stackEntry "Docker" .infra ["docker"],
    stackEntry "Docker Compose" .infra ["docker compose", "docker-compose"],
    stackEntry "Kubernetes" .infra ["kubernetes", "k8s"],
    stackEntry "Terraform" .infra ["terraform"],
    stackEntry "GitHub Actions" .infra ["github actions", "github-actions"],
    stackEntry "Vercel" .infra ["vercel"],
    stackEntry "Netlify" .infra ["netlify"],
    stackEntry "AWS" .infra ["aws ", " aws", "amazon web services"],
    stackEntry "Redis" .cache ["redis"],
    stackEntry "Memcached" .cache ["memcached"],
    stackEntry "RabbitMQ" .queue ["rabbitmq"],
    stackEntry "Kafka" .queue ["kafka"],
    stackEntry "SQS" .queue ["sqs ", "amazon sqs"],
    stackEntry "Jest" .testing ["jest"],
    stackEntry "Vitest" .testing ["vitest"],
    stackEntry "pytest" .testing ["pytest"],
    stackEntry "Cypress" .testing ["cypress"],
    stackEntry "Playwright" .testing ["playwright"],
    stackEntry "JWT" .auth ["jwt ", "jwt token", " jwt"],
    stackEntry "OAuth" .auth ["oauth", "oauth2", "oauth 2"],
    stackEntry "Auth0" .auth ["auth0"],
    stackEntry "Clerk" .auth ["clerk"],
    stackEntry "NextAuth" .auth ["nextauth", "next-auth"],
    stackEntry "한국어 프론트" .frontend ["프론트엔드", "프론트"],
    stackEntry "한국어 백엔드" .backend ["백엔드", "백앤드"],
    stackEntry "한국어 데이터베이스" .database ["데이터베이스", "디비 ", " 디비", "디비를", "디비에"],
    stackEntry "한국어 도커" .infra ["도커"],
    stackEntry "한국어 쿠버네티스" .infra ["쿠버네티스"],
    stackEntry "한국어 인증" .auth ["회원가입", "로그인", "소셜 로그인", "인증/인가", "auth/인증"]]

/-- `_EXPLICIT_FULL_STACK_HINTS`. -/
def explicitFullStackHints : List Text :=
  ["풀스택", "fullstack", "full stack", "full-stack", "mvp 풀스택"].map lit

/-- `StackDetection`. -/
structure StackDetection where
  stackNames : List Text
  tiersPresent : List Tier
  mentionedAliases : List (Text × Text)
  explicitFullStackHint : Bool

/-- `_unique_preserve`. -/
def uniquePreserve {α : Type} [DecidableEq α] (l : List α) : List α :=
  l.foldl (fun out a => if a ∈ out then out else out ++ [a]) []

/-- One entry of the loop: the first alias that is in the text, unless the stack was found before. -/
def findStack (lowered : Text) (found : List (StackEntry × Text)) (entry : StackEntry) :
    List (StackEntry × Text) :=
  match entry.aliases.find? fun name => Py.contains lowered (Py.lower name) with
  | none => found
  | some name =>
    if entry.canonical ∈ found.map fun f => f.1.canonical then found
    else found ++ [(entry, Py.strip name)]

/-- `detect_stacks`. -/
def detectStacks (text : Text) : StackDetection :=
  if text = [] then ⟨[], [], [], false⟩
  else
    let lowered := Py.lower text
    let found := lexicon.foldl (findStack lowered) []
    { stackNames := found.map fun f => f.1.canonical
      tiersPresent := uniquePreserve (found.map fun f => f.1.tier)
      mentionedAliases := found.map fun f => (f.1.canonical, f.2)
      explicitFullStackHint :=
        explicitFullStackHints.any fun hint => Py.contains lowered (Py.lower hint) }

/-- `app_tiers`. -/
def appTiers : List Tier := [.frontend, .backend, .database, .cache, .queue, .auth]

/-- `present_app_tiers`. -/
def StackDetection.presentAppTiers (d : StackDetection) : List Tier :=
  appTiers.filter fun tier => tier ∈ d.tiersPresent

/-- `StackDetection.is_full_stack`. -/
def StackDetection.isFullStack (d : StackDetection) : Bool :=
  2 ≤ d.presentAppTiers.length || (d.explicitFullStackHint && 1 ≤ d.presentAppTiers.length)

/-- `StackDetection.is_infra_only`. -/
def StackDetection.isInfraOnly (d : StackDetection) : Bool :=
  d.tiersPresent ≠ [] && d.tiersPresent.all (· = .infra)

/-! ## Task types -/

/-- `TaskType`. -/
inductive TaskType where
  | backendFeature
  | frontendFeature
  | fullStackApp
  | landingPage
  | onboardingFlow
  | visualPolish
  | emailCampaign
  | qaTest
  | platformInfra
  | unknown
deriving DecidableEq

namespace TaskType

/-- `TaskType.value`. -/
def value : TaskType → Text
  | backendFeature => lit "backend-feature"
  | frontendFeature => lit "frontend-feature"
  | fullStackApp => lit "full-stack-app"
  | landingPage => lit "landing-page"
  | onboardingFlow => lit "onboarding-flow"
  | visualPolish => lit "visual-polish"
  | emailCampaign => lit "email-campaign"
  | qaTest => lit "qa-test"
  | platformInfra => lit "platform-infra"
  | unknown => lit "unknown"

/-- `TASK_ROLE_SEQUENCE`. -/
def roleSequence : TaskType → List Text
  | backendFeature =>
    ["tech-lead", "ai-engineer", "product-designer", "backend-engineer", "qa-engineer"].map lit
  | frontendFeature =>
    ["tech-lead", "ai-engineer", "product-designer", "frontend-engineer", "qa-engineer"].map lit
  | landingPage =>
    ["tech-lead", "ai-engineer", "product-designer", "frontend-engineer", "qa-engineer"].map lit
  | onboardingFlow =>
    ["tech-lead", "ai-engineer", "product-designer", "backend-engineer", "frontend-engineer",
      "qa-engineer"].map lit
  | visualPolish => ["tech-lead", "ai-engineer", "product-designer", "frontend-engineer"].map lit
  | emailCampaign =>
    ["tech-lead", "ai-engineer", "product-designer", "frontend-engineer", "qa-engineer"].map lit
  | qaTest =>
    ["tech-lead", "ai-engineer", "product-designer", "qa-engineer", "backend-engineer"].map lit
  | platformInfra =>
    ["tech-lead", "ai-engineer", "product-designer", "backend-engineer", "qa-engineer",
      "devops-engineer"].map lit
  | fullStackApp =>
    ["tech-lead", "ai-engineer", "product-designer", "backend-engineer", "frontend-engineer",
      "devops-engineer", "qa-engineer"].map lit
  | unknown =>
    ["tech-lead", "ai-engineer", "product-designer", "backend-engineer", "frontend-engineer",
      "qa-engineer", "devops-engineer"].map lit

/-- `TASK_EXECUTOR_ROLE`. -/
def executorRole : TaskType → Text
  | backendFeature => lit "backend-engineer"
  | frontendFeature => lit "frontend-engineer"
  | landingPage => lit "frontend-engineer"
  | onboardingFlow => lit "frontend-engineer"
  | visualPolish => lit "frontend-engineer"
  | emailCampaign => lit "frontend-engineer"
  | qaTest => lit "qa-engineer"
  | platformInfra => lit "backend-engineer"
  | fullStackApp => lit "backend-engineer"
  | unknown => lit "tech-lead"

/-- `TASK_REFERENCE_SOURCES`. -/
def referenceSources : TaskType → List Text
  | landingPage => ["Wix Templates", "Awwwards", "Behance", "Pinterest Trends"].map lit
  | onboardingFlow => ["Mobbin", "Page Flows"].map lit
  | visualPolish => ["Pinterest Trends", "Notefolio", "Behance", "Canva Design School"].map lit
  | emailCampaign =>
    ["Really Good Emails", "Meta Ad Library", "TikTok Creative Center", "Google Trends"].map lit
  | _ => []

end TaskType

/-- A line of one of the two tables of weights. -/
abbrev Weights := List (Text × Int)

def weights (l : List (String × Int)) : Weights := l.map fun w => (lit w.1, w.2)

/-- `ROLE_DEFAULT_WEIGHTS`. -/
def roleDefaultWeights : List (Text × Weights) :=
  [(lit "tech-lead", weights [("claude", 9), ("gemini", 7), ("codex", 5), ("ollama", 3)]),
    (lit "ai-engineer", weights [("claude", 9), ("gemini", 7), ("codex", 5), ("ollama", 4)]),
    (lit "backend-engineer", weights [("claude", 9), ("codex", 7), ("gemini", 5), ("ollama", 3)]),
    (lit "frontend-engineer", weights [("claude", 8), ("codex", 8), ("gemini", 5), ("ollama", 3)]),
    (lit "product-designer", weights [("gemini", 9), ("claude", 8), ("codex", 4), ("ollama", 3)]),
    (lit "qa-engineer", weights [("codex", 9), ("claude", 8), ("gemini", 5), ("ollama", 3)]),
    (lit "devops-engineer", weights [("claude", 9), ("codex", 7), ("gemini", 6), ("ollama", 3)])]

/-- `TASK_BONUSES`. -/
def TaskType.bonuses : TaskType → List (Text × Weights)
  | landingPage =>
    [(lit "product-designer", weights [("gemini", 2)]),
      (lit "frontend-engineer", weights [("codex", 1)])]
  | visualPolish =>
    [(lit "product-designer", weights [("gemini", 3)]),
      (lit "frontend-engineer", weights [("gemini", 1)])]
  | onboardingFlow =>
    [(lit "tech-lead", weights [("gemini", 1)]), (lit "product-designer", weights [("gemini", 1)])]
  | emailCampaign =>
    [(lit "product-designer", weights [("gemini", 2)]),
      (lit "frontend-engineer", weights [("codex", 1)])]
  | qaTest => [(lit "qa-engineer", weights [("codex", 2)])]
  | platformInfra =>
    [(lit "backend-engineer", weights [("claude", 1)]), (lit "qa-engineer", weights [("codex", 1)])]
  | backendFeature => [(lit "backend-engineer", weights [("codex", 1)])]
  | _ => []

/-- `_KEYWORD_RULES`. -/
def keywordRules : List (TaskType × List Text) :=
  [(.visualPolish,
      ["polish", "visual ", "리디자인", "redesign", "시각 정리", "visual cleanup"].map lit),
    (.onboardingFlow, ["onboarding", "온보딩", "signup flow", "가입 흐름", "first-run"].map lit),
    (.emailCampaign,
      ["email", "이메일", "campaign", "캠페인", "광고", "ad creative"].map lit),
    (.landingPage, ["landing", "랜딩", "marketing page"].map lit),
    (.qaTest,
      ["regression test", "회귀 테스트", "회귀 시나리오", " qa ", "qa-engineer", "qa engineer",
        "qa test", "qa 시나리오", "qa 자동화", "test plan", "테스트 시나리오", "테스트 케이스",
        "테스트 자동화", "테스트 커버리지"].map lit),
    (.platformInfra, ["infra", "deploy", "ci ", " ci", "terraform", "github action"].map lit),
    (.frontendFeature,
      ["frontend", "ui ", "component", "컴포넌트", "react", "next.js", "vue"].map lit),
    (.backendFeature,
      ["backend", "api ", "schema", "database", "migration", "도메인", "service layer"].map lit)]

/-- `DispatchRequest`. -/
structure DispatchRequest where
  prompt : Text
  taskType : Option TaskType := none
  writeRequested : Bool := false
  userApproved : Bool := false

/-- What the keywords of a prompt say. -/
def classifyByKeyword (prompt : Text) : TaskType :=
  let promptLower := Py.lower prompt
  ((keywordRules.find? fun rule => rule.2.any (Py.contains promptLower)).map Prod.fst).getD .unknown

/-- `Dispatcher.classify`. -/
def DispatchRequest.classify (request : DispatchRequest) : TaskType :=
  match request.taskType with
  | some t => t
  | none =>
    let detection := detectStacks request.prompt
    if detection.isFullStack then .fullStackApp
    else if detection.explicitFullStackHint && request.writeRequested then .fullStackApp
    else if detection.isInfraOnly then .platformInfra
    else classifyByKeyword request.prompt

/-! ## The plan -/

/-- `RoleAssignment`. -/
structure RoleAssignment where
  role : Text
  runnerId : Option Text
  isExecutor : Bool
  score : Int
  rationale : Text

/-- `DispatchPlan`. -/
structure DispatchPlan where
  taskType : TaskType
  roleSequence : List Text
  assignments : List RoleAssignment
  referenceSources : List Text
  writeBlocked : Bool
  writeBlockReason : Option Text
  notes : List Text

/-- `DispatchPlan.executor`. -/
def DispatchPlan.executor (plan : DispatchPlan) : Option RoleAssignment :=
  plan.assignments.find? RoleAssignment.isExecutor

/-- `DispatchPlan.advisors`. -/
def DispatchPlan.advisors (plan : DispatchPlan) : List RoleAssignment :=
  plan.assignments.filter fun a => !a.isExecutor

/-- A runner of the pool that a role may use. -/
structure Candidate where
  runnerId : Text
  score : Int
  rationale : Text

/-- `table.get(k, {})`. -/
def lookupWeights (table : List (Text × Weights)) (k : Text) : Weights := (table.lookup k).getD []

/-- `_format_rationale`, without a ranking. -/
def formatRationale (base bonus : Int) : Text :=
  lit "base=" ++ strInt base ++
    if bonus = 0 then []
    else lit ", task_bonus=" ++ (if 0 ≤ bonus then lit "+" else []) ++ strInt bonus

/-- The candidate of one entry of the default weights. -/
def candidate? (pool : List Text) (roleBonus : Weights) (weight : Text × Int) : Option Candidate :=
  if weight.1 ∉ pool then none
  else
    let bonus := (roleBonus.lookup weight.1).getD 0
    let score := max 0 (weight.2 + bonus)
    if score = 0 then none else some ⟨weight.1, score, formatRationale weight.2 bonus⟩

/-- `(-score, runner_id)` in order. -/
def rankLe (a b : Int × Text) : Bool := decide (a.1 < b.1) || (decide (a.1 = b.1) && lexLe a.2 b.2)

/-- `_score_runners_for_role`. -/
def scoreRunnersForRole (pool : List Text) (baseWeights roleBonus : Weights) : List Candidate :=
  sortBy rankLe (fun c : Candidate => (-c.score, c.runnerId))
    (baseWeights.filterMap (candidate? pool roleBonus))

/-- The assignment of one role. -/
def assign (pool : List Text) (taskType : TaskType) (role : Text) : RoleAssignment :=
  let scored := scoreRunnersForRole pool (lookupWeights roleDefaultWeights role)
    (lookupWeights taskType.bonuses role)
  match scored.head? with
  | some best => ⟨role, some best.runnerId, role = taskType.executorRole, best.score, best.rationale⟩
  | none => ⟨role, none, role = taskType.executorRole, 0, lit "no candidate runner in pool"⟩

/-- The reason of `_evaluate_write_gate`. -/
def writeBlockReason (executorRole : Text) : Text :=
  lit "write is requested for " ++ executorRole ++
    lit " but user_approved=False. Block until the operator confirms."

/-- `_evaluate_write_gate`: the reason of a block. -/
def evaluateWriteGate (request : DispatchRequest) (executorRole : Text) : Option Text :=
  if !request.writeRequested then none
  else if request.userApproved then none
  else some (writeBlockReason executorRole)

/-- `Dispatcher.dispatch`, without a ranking. -/
def dispatch (pool : List Text) (request : DispatchRequest) : DispatchPlan :=
  let taskType := request.classify
  let assignments := taskType.roleSequence.map (assign pool taskType)
  let reason := evaluateWriteGate request taskType.executorRole
  { taskType
    roleSequence := taskType.roleSequence
    assignments
    referenceSources := taskType.referenceSources
    writeBlocked := reason.isSome
    writeBlockReason := reason
    notes :=
      (assignments.filter fun a => a.runnerId.isNone).map
          (fun a => lit "role '" ++ a.role ++ lit "' has no eligible runner in the pool")
        ++ reason.toList }

/-- A write that nobody approved is blocked. -/
theorem evaluateWriteGate_eq_some {request : DispatchRequest} (hwrite : request.writeRequested = true)
    (happroved : request.userApproved = false) (executorRole : Text) :
    evaluateWriteGate request executorRole = some (writeBlockReason executorRole) := by
  simp [evaluateWriteGate, hwrite, happroved]

end ForgeKit.Workflow
