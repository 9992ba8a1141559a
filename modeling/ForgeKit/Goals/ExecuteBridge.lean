import ForgeKit.Goals.Packets

/-!
# The execution bridge (`selfimprove.execute_bridge`)

The bridge reads a packet back from its last proposal, asks the gates, and records what happened.
The gates, the bounded mutator and git answer from outside: a `GateAnswer` holds what they say in
one call, with the texts that go into the evidence.

* `parseProposal` — the pattern `[<risk>] <finding> -> <route>`
* `applyApprovedPacket_spec` — what one call records
-/

namespace ForgeKit.Goals

/-! ## Reading a packet back -/

/-- `\s*->\s*(.*)$` matches here: an arrow, and after it no line break before the last character. -/
def arrowAt (t : List Char) : Bool :=
  match t.dropWhile PyText.isSpace with
  | '-' :: '>' :: rest => !(rest.dropWhile PyText.isSpace).dropLast.contains '\n'
  | _ => false

/-- The shortest text without a line break that an arrow follows. -/
def findingOf : List Char → Option (List Char)
  | [] => none
  | c :: cs =>
    if arrowAt (c :: cs) then some []
    else if c = '\n' then none
    else (findingOf cs).map (c :: ·)

/-- The groups `risk` and `finding` of `_PROPOSAL_RE`, stripped. -/
def parseProposal (summary : String) : Option (String × String) :=
  match summary.toList with
  | '[' :: rest =>
    let risk := rest.takeWhile (· ≠ ']')
    match rest.dropWhile (· ≠ ']') with
    | ']' :: t =>
      if risk = [] then none
      else (findingOf (t.dropWhile PyText.isSpace)).map fun finding =>
        (PyText.strip (String.ofList risk), PyText.strip (String.ofList finding))
    | _ => none
  | _ => none

/-- `proposals.get(pid)`: the last proposal with this ref. -/
def lastProposal (g : Goal) (pid : String) : Option EvidenceRecord :=
  g.evidence.reverse.find? fun e => e.kind = .proposal && e.ref = some pid && pid ≠ ""

/-- `(packet_id or "").strip() or None`. -/
def requestedId (packetId : Option String) : Option String :=
  (packetId.map PyText.strip).filter (· ≠ "")

/-- The id that `_resolve_packet` settles on, or its error. -/
def resolveId (g : Goal) (packetId : Option String) : Except String String :=
  match requestedId packetId with
  | some pid =>
    if pid ∈ g.packets then .ok pid
    else .error ("packet '" ++ pid ++ "' 는 이 goal 에 연결돼 있지 않음")
  | none =>
    match g.packets.reverse.find? fun cand => (lastProposal g cand).isSome with
    | some pid => .ok pid
    | none => .error "실행할 proposal evidence 가 있는 packet 을 찾지 못함"

/-- `_resolve_packet`. -/
def resolvePacket (g : Goal) (packetId : Option String) :
    Except String (String × RepoImprovementPacket) := do
  if g.packets = [] then
    throw "연결된 packet 없음 — tick 이 제안한 packet 이 있어야 실행 가능"
  let pid ← resolveId g packetId
  match lastProposal g pid with
  | none => throw ("packet " ++ pid ++ " 의 proposal evidence 가 없어 내용을 복원할 수 없음")
  | some ev =>
    match parseProposal ev.summary with
    | none => throw ("packet " ++ pid ++ " 의 proposal 형식을 해석할 수 없음: '" ++ ev.summary ++ "'")
    | some (risk, finding) =>
      return (pid, { finding, risk :=
        if risk ∈ ["safe", "risky", "blocked"] then risk else classifyRisk finding "" })

/-! ## The gates -/

/-- What the gates, the mutator and git answer in one call. -/
structure GateAnswer where
  /-- The chain, the runtime gate and the validation all let the packet through. -/
  authorized : Bool := true
  reasons : List String := []
  executor : String := "backend-engineer"
  author : String := ""
  actionClass : String := "safe"
  approval : String := ""
  relPath : String := ""
  /-- The refusal of the bounded write; `none` is a verified write. -/
  writeRefused : Option String := none
  /-- The commit, or what git said. -/
  commit : Except String String := .ok ""
  vaultNote : Option String := none

/-- The outcomes of the bridge that an attempt can have. -/
inductive ExecuteOutcome where
  | executed
  | blocked
  | error
deriving DecidableEq, Repr

/-- One attempt: its outcome, the goal that is saved, and whether the mutator was called. -/
structure Attempt where
  outcome : ExecuteOutcome
  packetId : String := ""
  saved : Option Goal := none
  mutatorCalled : Bool := false

/-- The execution record of a run and the verification record after it. -/
def recordRun (g : Goal) (pid execSummary verifySummary now : String) : Goal :=
  (g.addEvidence .execution execSummary (some pid) now).addEvidence .verification verifySummary
    (some pid) now

/-- The records of a run whose bounded write was committed as `sha`. -/
def recordRealRun (g : Goal) (pid finding approver : String) (a : GateAnswer) (sha now : String) :
    Goal :=
  recordRun g pid
    ("safe-class 실제 실행 — packet " ++ pid ++ ": " ++ finding ++ " [executor=" ++ a.executor
      ++ " author=" ++ a.author ++ " approver=" ++ approver ++ " approval=" ++ a.approval
      ++ " file=" ++ a.relPath ++ " commit=" ++ sha
      ++ "] (BoundedMutator 검증 + git -C 커밋, push 안 함)")
    ("실행 검증 통과 — bounded write 재읽기 검증 + 3-gate(chain/decision-lane/validate) 통과, commit="
      ++ sha ++ ", action_class=" ++ a.actionClass ++ ", approval=" ++ a.approval) now

/-- `_apply_real_execution`. -/
def applyRealExecution (g : Goal) (pid finding approver : String) (a : GateAnswer) (now : String) :
    Attempt :=
  match a.writeRefused with
  | some refused =>
    let reason := if refused ≠ "" then refused else "bounded write 미검증"
    { outcome := .blocked, packetId := pid, mutatorCalled := true
      saved := some (g.addEvidence .decision
        ("apply 거부 — packet " ++ pid ++ ": " ++ reason ++ " (rollback, 커밋 안 함)") (some pid) now) }
  | none =>
    match a.commit with
    | .error cerr =>
      { outcome := .blocked, packetId := pid, mutatorCalled := true
        saved := some (g.addEvidence .decision
          ("apply 커밋 실패 — packet " ++ pid ++ ": " ++ cerr ++ " (rollback)") (some pid) now) }
    | .ok sha =>
      let g := recordRealRun g pid finding approver a sha now
      { outcome := .executed, packetId := pid, mutatorCalled := true
        saved := some (match a.vaultNote with
          | some note =>
            g.addEvidence .verification ("vault evidence note 기록 — " ++ note) (some pid) now
          | none => g) }

/-- A goal that waits for approval goes back to active on an authorized run. -/
def reassertActive (g : Goal) (now : String) : Goal :=
  if g.status = .awaitingApproval ∧ Transitions.canTransition g.status .active = true then
    g.withStatus .active now
  else g

/-- `execute_approved_packet`; `apply` says that a mutator and a repository came with the call. -/
def executeApprovedPacket (g : Goal) (packetId : Option String) (apply : Bool) (approver : String)
    (a : GateAnswer) (now : String) : Attempt :=
  match resolvePacket g packetId with
  | .error _ => { outcome := .error }
  | .ok (pid, pkt) =>
    if a.authorized = false then
      { outcome := .blocked, packetId := pid
        saved := some (g.addEvidence .decision
          ("execute 거부 — packet " ++ pid ++ " (" ++ pkt.risk ++ "): "
            ++ String.ofList (("; ".intercalate a.reasons).toList.take 200)) (some pid) now) }
    else
      let g := reassertActive g now
      if apply = true ∧ pkt.risk = "safe" then
        applyRealExecution g pid pkt.finding approver a now
      else
        let g := recordRun g pid
          ("safe-class 실행 인가 — packet " ++ pid ++ ": " ++ pkt.finding ++ " [executor=" ++ a.executor
            ++ " author=" ++ a.author ++ " approver=" ++ approver ++ " approval=" ++ a.approval
            ++ "] (실제 파일 mutation 은 BoundedMutator 게이트 — 본 단계는 인가+검증 기록)")
          ("실행 게이트 재검증 통과 — chain(can_execute)+decision-lane(authorize)+"
            ++ "validate_execution 모두 통과, action_class=" ++ a.actionClass ++ ", approval="
            ++ a.approval) now
        { outcome := .executed, packetId := pid, saved := some g }

/-- `apply_approved_packet`. -/
def applyApprovedPacket (g : Goal) (packetId : String) (approver : String) (a : GateAnswer)
    (now : String) : Attempt :=
  executeApprovedPacket g (some packetId) true approver a now

/-! ## What a call records -/

theorem lastProposal_some {g : Goal} {pid : String} {ev : EvidenceRecord}
    (h : lastProposal g pid = some ev) : pid ∈ packetRefs g .proposal := by
  have hp := List.find?_some h
  have hmem := List.mem_of_find?_eq_some h
  simp only [Bool.and_eq_true, decide_eq_true_eq] at hp
  exact mem_refsOf.mpr ⟨ev, List.mem_reverse.mp hmem, hp.1.1, hp.1.2, hp.2⟩

/-- A packet that resolves is linked and proposed; a stripped id resolves to itself. -/
theorem resolvePacket_ok {g : Goal} {packetId : Option String} {pid : String}
    {pkt : RepoImprovementPacket} (h : resolvePacket g packetId = .ok (pid, pkt)) :
    pid ∈ g.packets ∧ pid ∈ packetRefs g .proposal
      ∧ ∀ p, packetId = some p → PyText.strip p = p → p ≠ "" → pid = p := by
  simp only [resolvePacket, bind, Except.bind, throw, throwThe, MonadExceptOf.throw, pure,
    Except.pure] at h
  by_cases hp : g.packets = []
  · rw [if_pos hp] at h; cases h
  · rw [if_neg hp] at h
    cases hid : resolveId g packetId with
    | error e => rw [hid] at h; cases h
    | ok pid' =>
      simp only [hid] at h
      cases hlast : lastProposal g pid' with
      | none => rw [hlast] at h; cases h
      | some ev =>
        simp only [hlast] at h
        have hpid : pid' = pid := by
          split at h
          · cases h
          · cases h; rfl
        subst hpid
        refine ⟨?_, lastProposal_some hlast, ?_⟩
        · unfold resolveId at hid
          split at hid
          · split at hid
            · next hmem => cases hid; exact hmem
            · cases hid
          · split at hid
            · next hfind =>
              cases hid
              exact List.mem_reverse.mp (List.mem_of_find?_eq_some hfind)
            · cases hid
        · rintro p rfl hstrip hne
          have hreq : requestedId (some p) = some p := by
            simp [requestedId, hstrip, Option.filter, hne]
          rw [resolveId, hreq] at hid
          simp only at hid
          split at hid
          · cases hid; rfl
          · cases hid

/-- The records of one attempt on a packet: a refusal, or a run and its verifications. -/
inductive AttemptRecords (pid : String) : List EvidenceRecord → Prop
  | refused (ts summary : String) : AttemptRecords pid [⟨ts, .decision, summary, some pid⟩]
  | executed (ts summary : String) (rest : List EvidenceRecord)
      (hrest : ∀ e ∈ rest, e.kind = .verification) :
      AttemptRecords pid (⟨ts, .execution, summary, some pid⟩ :: rest)

/-- What one attempt may do to a goal: nothing, or records on a linked and proposed packet. -/
structure Attempted (g : Goal) (pid : String) (g' : Goal) : Prop where
  linked : pid ∈ g.packets
  proposed : pid ∈ packetRefs g .proposal
  fields : g' = { g with
    status := g'.status, evidence := g'.evidence, updatedAt := g'.updatedAt }
  status : g'.status = g.status ∨ g.status = .awaitingApproval ∧ g'.status = .active
  records : ∃ added, g'.evidence = g.evidence ++ added ∧ AttemptRecords pid added

theorem reassertActive_spec (g : Goal) (now : String) :
    ∃ status updatedAt, reassertActive g now = { g with status, updatedAt }
      ∧ (status = g.status ∨ g.status = .awaitingApproval ∧ status = .active) := by
  unfold reassertActive
  split
  · next h => exact ⟨.active, now, rfl, .inr ⟨h.1, rfl⟩⟩
  · exact ⟨g.status, g.updatedAt, rfl, .inl rfl⟩

/-- The records of a run; one more verification after them is still the records of a run. -/
theorem recordRun_spec (g : Goal) (pid execSummary verifySummary now : String) :
    ∃ added, recordRun g pid execSummary verifySummary now
        = { g with evidence := g.evidence ++ added, updatedAt := now }
      ∧ AttemptRecords pid added
      ∧ ∀ e : EvidenceRecord, e.kind = .verification → AttemptRecords pid (added ++ [e]) := by
  refine ⟨[⟨now, .execution, execSummary, some pid⟩, ⟨now, .verification, verifySummary, some pid⟩],
    ?_, .executed now execSummary _ (by simp), fun e he => .executed now execSummary _ (by simp [he])⟩
  simp [recordRun, Goal.addEvidence]

theorem applyRealExecution_spec (g : Goal) (pid finding approver : String) (a : GateAnswer)
    (now : String) :
    (applyRealExecution g pid finding approver a now).packetId = pid
      ∧ ∃ g' added, (applyRealExecution g pid finding approver a now).saved = some g'
        ∧ g' = { g with evidence := g.evidence ++ added, updatedAt := now }
        ∧ AttemptRecords pid added := by
  unfold applyRealExecution
  cases a.writeRefused with
  | some refused => exact ⟨rfl, _, _, rfl, rfl, .refused now _⟩
  | none =>
    cases a.commit with
    | error cerr => exact ⟨rfl, _, _, rfl, rfl, .refused now _⟩
    | ok sha =>
      refine ⟨rfl, ?_⟩
      cases a.vaultNote with
      | none =>
        obtain ⟨added, hrun, hrecords, -⟩ := recordRun_spec g pid _ _ now
        exact ⟨_, added, rfl, hrun, hrecords⟩
      | some note =>
        obtain ⟨added, hrun, -, hmore⟩ : ∃ added, recordRealRun g pid finding approver a sha now
            = { g with evidence := g.evidence ++ added, updatedAt := now } ∧ _ :=
          recordRun_spec g pid _ _ now
        refine ⟨_, _, rfl, ?_,
          hmore ⟨now, .verification, "vault evidence note 기록 — " ++ note, some pid⟩ rfl⟩
        simp only [hrun, Goal.addEvidence, List.append_assoc]

/--
**What one call does to a goal.** Either the packet does not resolve and nothing happens, or the
goal that is saved carries one more attempt on a linked packet. The mutator is called in the
second case only.
-/
theorem applyApprovedPacket_spec (g : Goal) (packetId approver : String) (a : GateAnswer)
    (now : String) :
    ((applyApprovedPacket g packetId approver a now).saved = none
        ∧ (applyApprovedPacket g packetId approver a now).mutatorCalled = false)
      ∨ ∃ g' pid, (applyApprovedPacket g packetId approver a now).saved = some g'
        ∧ (applyApprovedPacket g packetId approver a now).packetId = pid
        ∧ Attempted g pid g' ∧ (PyText.strip packetId = packetId → packetId ≠ "" → pid = packetId) := by
  unfold applyApprovedPacket executeApprovedPacket
  cases hr : resolvePacket g (some packetId) with
  | error e => exact .inl ⟨rfl, rfl⟩
  | ok r =>
    obtain ⟨pid, pkt⟩ := r
    obtain ⟨hlinked, hproposed, hsame⟩ := resolvePacket_ok hr
    refine .inr ?_
    simp only
    by_cases ha : a.authorized = false
    · rw [if_pos ha]
      exact ⟨_, pid, rfl, rfl,
        ⟨hlinked, hproposed, rfl, .inl rfl, _, rfl, .refused now _⟩, hsame packetId rfl⟩
    · rw [if_neg ha]
      obtain ⟨status, updatedAt, hg, hstatus⟩ := reassertActive_spec g now
      rw [hg]
      by_cases hs : True ∧ pkt.risk = "safe"
      · rw [if_pos (by simpa using hs)]
        obtain ⟨hpid, g', added, hsaved, hfields, hrecords⟩ :=
          applyRealExecution_spec { g with status, updatedAt } pid pkt.finding approver a now
        refine ⟨g', pid, hsaved, hpid, ⟨hlinked, hproposed, ?_, ?_, added, ?_, hrecords⟩,
          hsame packetId rfl⟩
        · rw [hfields]
        · rw [hfields]; exact hstatus
        · rw [hfields]
      · rw [if_neg (by simpa using hs)]
        obtain ⟨added, hrun, hrecords, -⟩ := recordRun_spec { g with status, updatedAt } pid _ _ now
        refine ⟨_, pid, rfl, rfl, ⟨hlinked, hproposed, ?_, ?_, added, ?_, hrecords⟩,
          hsame packetId rfl⟩
        · rw [hrun]
        · rw [hrun]; exact hstatus
        · rw [hrun]

end ForgeKit.Goals
