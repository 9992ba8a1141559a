import ForgeKit.Lib.Json

/-!
# The sources of the digest (`digest/source_catalog.py`, `digest/dept_router.py`)

* `roleSourceCatalog` — which sites are read for which role
* `classifyEvidence` — the departments an article concerns

`affected_eq_primary` — an article of a source of the catalog concerns the department of its role
and no other.
-/

namespace ForgeKit.Digest

/-- The kinds of feed in the catalog. -/
inductive FeedKind where
  | rss
  | atom
  | githubRelease
deriving DecidableEq, Repr

/-- One row of the catalog. -/
structure AuthoritativeSource where
  host : String
  feedUrl : String
  kind : FeedKind
deriving DecidableEq, Repr

/-- `ROLE_SOURCE_CATALOG`. -/
def roleSourceCatalog : List (String × List AuthoritativeSource) :=
  [("tech-lead",
     [⟨"infoq.com", "https://feed.infoq.com/architecture-design/", .rss⟩,
      ⟨"github.blog", "https://github.blog/engineering.atom", .atom⟩,
      ⟨"martinfowler.com", "https://martinfowler.com/feed.atom", .atom⟩,
      ⟨"cncf.io", "https://www.cncf.io/feed/", .rss⟩]),
   ("product-designer",
     [⟨"developer.apple.com", "https://developer.apple.com/news/rss/news.rss", .rss⟩,
      ⟨"material.io", "https://material.io/blog/feed.xml", .atom⟩,
      ⟨"w3.org", "https://www.w3.org/blog/news/feed/atom", .atom⟩]),
   ("frontend-engineer",
     [⟨"developer.mozilla.org", "https://developer.mozilla.org/en-US/blog/rss.xml", .atom⟩,
      ⟨"web.dev", "https://web.dev/feed.xml", .atom⟩,
      ⟨"react.dev", "facebook/react", .githubRelease⟩,
      ⟨"typescriptlang.org", "microsoft/TypeScript", .githubRelease⟩,
      ⟨"vuejs.org", "vuejs/core", .githubRelease⟩]),
   ("backend-engineer",
     [⟨"postgresql.org", "https://www.postgresql.org/news/rss.xml", .rss⟩,
      ⟨"owasp.org", "https://owasp.org/news/feed.xml", .rss⟩,
      ⟨"fastapi.tiangolo.com", "tiangolo/fastapi", .githubRelease⟩,
      ⟨"spring.io", "spring-projects/spring-security", .githubRelease⟩,
      ⟨"docs.sqlalchemy.org", "sqlalchemy/sqlalchemy", .githubRelease⟩]),
   ("qa-engineer",
     [⟨"playwright.dev", "microsoft/playwright", .githubRelease⟩,
      ⟨"testing-library.com", "testing-library/dom-testing-library", .githubRelease⟩,
      ⟨"docs.cypress.io", "cypress-io/cypress", .githubRelease⟩,
      ⟨"vitest.dev", "vitest-dev/vitest", .githubRelease⟩]),
   ("ai-engineer",
     [⟨"openai.com", "openai/openai-python", .githubRelease⟩,
      ⟨"huggingface.co", "huggingface/transformers", .githubRelease⟩,
      ⟨"anthropic.com", "anthropics/anthropic-sdk-python", .githubRelease⟩]),
   ("devops-engineer",
     [⟨"docs.docker.com", "docker/docker-ce", .githubRelease⟩,
      ⟨"kubernetes.io", "kubernetes/kubernetes", .githubRelease⟩,
      ⟨"docs.github.com", "https://github.blog/changelog/feed/", .rss⟩,
      ⟨"terraform.io", "hashicorp/terraform", .githubRelease⟩,
      ⟨"prometheus.io", "prometheus/prometheus", .githubRelease⟩])]

/-- `sources_for_role`. -/
def sourcesForRole (role : String) : List AuthoritativeSource :=
  (roleSourceCatalog.lookup role).getD []

/-- `all_allowed_hosts`. -/
def allAllowedHosts : List String :=
  roleSourceCatalog.flatMap fun (_, sources) => sources.map AuthoritativeSource.host

/-- `host_to_roles`. -/
def hostToRoles (host : String) : List String :=
  (roleSourceCatalog.filter fun (_, sources) => sources.any fun src => src.host == host).map Prod.fst

/-! ## `dept_router` -/

/-- `ROLE_TO_DEPT`. -/
def roleToDept : List (String × String) :=
  [("tech-lead", "engineering"), ("backend-engineer", "engineering"),
   ("frontend-engineer", "engineering"), ("qa-engineer", "engineering"),
   ("devops-engineer", "engineering"), ("ai-engineer", "engineering"),
   ("product-designer", "design"), ("planning", "planning")]

/-- `MULTI_DEPT_KEYWORDS`. -/
def multiDeptKeywords : List String :=
  ["architecture", "accessibility", "wcag", "design-system", "design system", "tokens",
   "security advisory", "cve", "breaking change", "migration", "release-notes", "release notes",
   "platform", "infrastructure"]

structure DeptClassification where
  primary : String
  affected : List String
  meetingTrigger : Bool
  rationale : String
deriving DecidableEq, Repr

/-- The departments of some roles, each once, in the order of the roles. -/
def departmentsOf (roles : List String) : List String :=
  roles.foldl (fun departments role =>
    match roleToDept.lookup role with
    | some dept => if dept ∈ departments then departments else departments ++ [dept]
    | none => departments) []

section Router

variable (lower : String → String)

/-- `_detect_multi_dept_signal`. -/
def detectMultiDeptSignal (title summary : String) : Bool :=
  multiDeptKeywords.any (PyText.contains (lower (title ++ " " ++ summary)))

/-- The roles that `classify_evidence` looks at. -/
def rolesFor (host : String) (primaryRole : Option String) : List String :=
  let roles := hostToRoles host
  match primaryRole with
  | some role => if role ≠ "" ∧ role ∉ roles then role :: roles else roles
  | none => roles

/-- The rationale of an article that starts a meeting. -/
def meetingRationale (departments : List String) (primary : String) (multiSignal techLead : Bool) :
    String :=
  " / ".intercalate
    (["primary=" ++ primary]
      ++ (if 2 ≤ departments.length then
          ["depts=[" ++ ", ".intercalate (departments.map fun d => "'" ++ d ++ "'") ++ "]"] else [])
      ++ (if multiSignal then ["multi-dept keyword"] else [])
      ++ (if techLead then ["tech-lead source"] else []))

/-- `classify_evidence`. -/
def classifyEvidence (host title summary : String) (primaryRole : Option String) :
    DeptClassification :=
  let roles := rolesFor host primaryRole
  match departmentsOf roles with
  | [] => ⟨"engineering", ["engineering"], false, "unknown host '" ++ host ++ "' — default engineering"⟩
  | primary :: others =>
    let departments := primary :: others
    let multiSignal := detectMultiDeptSignal lower title summary
    let techLead := decide ("tech-lead" ∈ roles)
    if 2 ≤ departments.length ∨ multiSignal = true ∨ techLead = true then
      ⟨primary, departments, true, meetingRationale departments primary multiSignal techLead⟩
    else ⟨primary, [primary], false, "single dept " ++ primary ++ " (host=" ++ host ++ ")"⟩

end Router

/-! ## Every site belongs to one role -/

/-- A row of the catalog: its site is read for its role only, and the role has a department. -/
def rowIsOfOneRole (role : String) (src : AuthoritativeSource) : Bool :=
  hostToRoles src.host == [role] && (roleToDept.lookup role).isSome && role != ""
    && PyText.strip src.host == src.host

theorem rows_of_one_role :
    (roleSourceCatalog.all fun (role, sources) => sources.all (rowIsOfOneRole role)) = true := by
  decide +kernel

theorem mem_sourcesForRole {role : String} {src : AuthoritativeSource}
    (h : src ∈ sourcesForRole role) : ∃ sources, (role, sources) ∈ roleSourceCatalog ∧ src ∈ sources := by
  unfold sourcesForRole at h
  cases hl : roleSourceCatalog.lookup role with
  | none => simp [hl] at h
  | some sources =>
    rw [hl] at h
    refine ⟨sources, ?_, h⟩
    obtain ⟨l₁, l₂, heq, -⟩ := List.lookup_eq_some_iff.mp hl
    rw [heq]
    simp

theorem row_of_source {role : String} {src : AuthoritativeSource} (h : src ∈ sourcesForRole role) :
    rowIsOfOneRole role src = true := by
  obtain ⟨sources, hmem, hsrc⟩ := mem_sourcesForRole h
  exact List.all_eq_true.mp (List.all_eq_true.mp rows_of_one_role (role, sources) hmem) src hsrc

theorem strip_host {role : String} {src : AuthoritativeSource} (h : src ∈ sourcesForRole role) :
    PyText.strip src.host = src.host := by
  have hrow := row_of_source h
  simp only [rowIsOfOneRole, Bool.and_eq_true, beq_iff_eq] at hrow
  exact hrow.2

theorem host_allowed {role : String} {src : AuthoritativeSource} (h : src ∈ sourcesForRole role) :
    src.host ∈ allAllowedHosts := by
  obtain ⟨sources, hmem, hsrc⟩ := mem_sourcesForRole h
  exact List.mem_flatMap.mpr ⟨(role, sources), hmem, List.mem_map_of_mem hsrc⟩

/-- An article of a source of the catalog concerns one department only. -/
theorem affected_eq_primary {role : String} {src : AuthoritativeSource}
    (h : src ∈ sourcesForRole role) (lower : String → String) (title summary : String) :
    (classifyEvidence lower src.host title summary (some role)).affected
      = [(classifyEvidence lower src.host title summary (some role)).primary] := by
  have hrow := row_of_source h
  simp only [rowIsOfOneRole, Bool.and_eq_true, beq_iff_eq] at hrow
  obtain ⟨⟨⟨hroles, hdept⟩, -⟩, -⟩ := hrow
  obtain ⟨dept, hdept⟩ := Option.isSome_iff_exists.mp hdept
  have hone : rolesFor src.host (some role) = [role] := by simp [rolesFor, hroles]
  have hdepartments : departmentsOf [role] = [dept] := by simp [departmentsOf, hdept]
  unfold classifyEvidence
  simp only [hone, hdepartments]
  split
  · rfl
  · rfl

end ForgeKit.Digest
