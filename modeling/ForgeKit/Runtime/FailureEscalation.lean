import ForgeKit.Lib.JsonRoundTrip
import ForgeKit.Lib.LastEntries
import ForgeKit.Lib.Machine
import ForgeKit.Lib.Table

/-!
# Repeated failures (`forgekit_runtime/lifecycle/failure_escalation.py`)

Failures are counted by a key that is made of their kind, reason and scope. From the threshold on
each one is written to a ledger, which keeps its last records.

* `count_recordFailure` — the count of a failure is the number of calls with its key
* `ledger_run` — what the ledger holds after a run of calls
* `visible_and_separate_iff` — when every repeated failure stays visible and separate
* `merged_and_evicted` — two failures with one key, and a failure that is no longer in the ledger
-/

namespace ForgeKit.Escalation

open Py (Text lit)
open JsonText (decimal)
open LastEntries
open Machine

/-! ## Signatures -/

/-- `s.split()`. -/
def words (t : Text) : List Text := (t.splitOnP Py.isSpace).filter (· ≠ [])

/-- `FailureSignature`. -/
structure FailureSignature where
  kind : Text
  reason : Text
  scope : Text := []
deriving DecidableEq

section

variable (lower : Text → Text)

/-- The words of a part, in lower case. -/
def wordsOf (p : Text) : List Text := words (lower (Py.strip p))

/-- `FailureSignature.key`; `lower` is `str.lower`. -/
def FailureSignature.key (s : FailureSignature) : Text :=
  (lit ":").intercalate (([s.kind, s.reason, s.scope].filter fun p => Py.strip p ≠ []).map fun p =>
    (lit "-").intercalate (wordsOf lower p))

/-- Two texts are equal up to case and blanks. -/
def SameText (a b : Text) : Prop :=
  (Py.strip a = [] ↔ Py.strip b = []) ∧ wordsOf lower a = wordsOf lower b

instance (a b : Text) : Decidable (SameText lower a b) := inferInstanceAs (Decidable (_ ∧ _))

/-- Kind, reason and scope of two signatures are equal up to case and blanks. -/
def FailureSignature.Same (a b : FailureSignature) : Prop :=
  SameText lower a.kind b.kind ∧ SameText lower a.reason b.reason ∧ SameText lower a.scope b.scope

instance (a b : FailureSignature) : Decidable (a.Same lower b) :=
  inferInstanceAs (Decidable (_ ∧ _ ∧ _))

end

/-! ## Reports -/

/-- A row of the remedy table: why, alternatives, next step, and whether the operator is needed. -/
structure Remedy where
  whyFailing : Text
  alternatives : List Text
  nextStep : Text
  needsOperator : Bool

/-- `_REMEDIES`. -/
def remedies : List (Text × Remedy) :=
  [(lit "renderer",
      ⟨lit "터미널이 true raster(tgp/sixel)를 지원하지 않아 fallback 으로 반복 렌더됨",
        [lit "iTerm2 / WezTerm / Kitty 에서 실행",
          lit "Python 3.10+ console env(.venv-console) 사용",
          lit "FORGEKIT_AVATAR=portrait|mark 로 고정"],
        lit "권장 터미널에서 `/render` 로 true-raster 여부 확인", false⟩),
    (lit "import",
      ⟨lit "필수 라이브러리 import 가 반복 실패(버전/설치 문제 가능)",
        [lit "`pip install -e '.[console]'` 재설치", lit "Python 3.10+ 인터프리터 사용",
          lit "의존성 버전 점검"],
        lit "import 대상/버전 확인 후 재설치하고 `/render` 로 재검증", true⟩),
    (lit "dependency",
      ⟨lit "외부 의존성/권한이 반복적으로 충족되지 않음",
        [lit "자격/토큰/권한 재확인", lit "네트워크·엔드포인트 접근성 확인",
          lit "최소 권한으로 재시도"],
        lit "필요한 자격/권한을 operator 에게 요청", true⟩),
    (lit "policy",
      ⟨lit "정책 게이트가 같은 이유로 반복 차단",
        [lit "요청 범위를 정책 허용 범위로 축소", lit "필요한 승인/권한 카드 요청",
          lit "정책 근거 문서 재확인"],
        lit "승인 매트릭스에 따라 operator 승인/결정 요청", true⟩),
    (lit "status-surface",
      ⟨lit "상태 surface(runtime/doctor/operator)가 반복적으로 unavailable",
        [lit "runtime 기동 여부 확인", lit "repo-root/DB 경로 확인",
          lit "yule_engineering 설치 확인"],
        lit "`/doctor` 로 환경 점검 후 runtime 재기동", true⟩),
    (lit "command",
      ⟨lit "같은 명령이 같은 이유로 반복 실패",
        [lit "명령 인자/대상 재확인", lit "선행 상태(`/status`,`/doctor`) 점검",
          lit "대체 명령 경로 사용"],
        lit "실패 원인을 좁히고 operator 에게 공유", true⟩)]

/-- `_DEFAULT_REMEDY`. -/
def defaultRemedy : Remedy :=
  ⟨lit "같은 실패가 임계값 이상 반복됨",
    [lit "입력/환경 재확인", lit "선행 조건 점검", lit "대안 경로 시도"],
    lit "원인을 좁혀 operator 에게 보고", true⟩

/-- `EscalationReport`. -/
structure EscalationReport where
  signatureKey : Text
  kind : Text
  count : Nat
  threshold : Nat
  symptom : Text
  evidence : List Text
  attemptedFixes : List Text
  whyFailing : Text
  alternatives : List Text
  nextStep : Text
  needsOperator : Bool
deriving DecidableEq

/-- A record of the ledger. -/
structure LedgerRecord extends EscalationReport where
  recordedAt : Text
deriving DecidableEq

/-- A record of the operator inbox. -/
structure InboxRecord extends LedgerRecord where
  requestType : Text
  title : Text
deriving DecidableEq

/-- The surfaces that a report reaches. -/
inductive Surface where
  | ledger
  | operatorInbox
  | consoleAlert
  | notification
  | troubleshootingLedger
deriving DecidableEq

def Surface.name : Surface → Text
  | ledger => lit "ledger"
  | operatorInbox => lit "operator_inbox"
  | consoleAlert => lit "console_alert"
  | notification => lit "notification"
  | troubleshootingLedger => lit "troubleshooting_ledger"

/-- `EscalationOutcome`. -/
structure EscalationOutcome where
  escalated : Bool
  advisory : Text
  count : Nat
  threshold : Nat
  report : Option EscalationReport := none
  surfaces : List Surface := []
deriving DecidableEq

/-- `_Occurrence`, under its key. -/
structure Occurrence where
  key : Text
  kind : Text
  reason : Text
  scope : Text
  count : Nat := 0
  symptoms : List Text := []
  evidence : List Text := []
  attempts : List Text := []
  alternatives : List Text := []

/-! ## The escalator -/

/-- The arguments of `record_failure`, with whether a notification is dispatched and whether the
troubleshooting ledger takes the report. -/
structure Call where
  signature : FailureSignature
  symptom : Text := []
  evidence : Text := []
  attemptedFix : Text := []
  alternatives : List Text := []
  timestamp : Text := []
  notified : Bool := false
  bridged : Bool := false

/-- `DEFAULT_THRESHOLD` and `MAX_THRESHOLD` around `threshold`. -/
abbrev Threshold := {n : Nat // 1 ≤ n ∧ n ≤ 5}

/-- `max(1, min(MAX_THRESHOLD, n))`. -/
def clampThreshold (n : Int) : Threshold :=
  ⟨(max 1 (min 5 n)).toNat, by omega⟩

/-- `_append_json`, on the records of a file. -/
def appendJson {α : Type} (records : List α) (entry : α) : List α :=
  lastEntries 200 (records ++ [entry])

/-- What a `FailureEscalator` knows and has written. -/
structure Escalator where
  occ : Table Text Occurrence Occurrence.key
  ledger : List LedgerRecord
  inbox : List InboxRecord

/-- Nothing has failed, and both files are empty. -/
def Escalator.empty : Escalator := ⟨Table.empty, [], []⟩

section

variable (lower : Text → Text) (threshold : Threshold)

/-- The occurrence of a call's key, once the call is counted. -/
def Escalator.occurrence (fe : Escalator) (call : Call) : Occurrence :=
  let key := call.signature.key lower
  let occ := (fe.occ.find? key).getD
    { key := key, kind := call.signature.kind, reason := call.signature.reason
      scope := call.signature.scope }
  { occ with
    count := occ.count + 1
    symptoms := occ.symptoms ++ [call.symptom].filter (· ≠ [])
    evidence := occ.evidence ++ [call.evidence].filter (· ≠ [])
    attempts := occ.attempts ++ [call.attemptedFix].filter (· ≠ [])
    alternatives := occ.alternatives ++ call.alternatives.filter (· ≠ []) }

/-- `_build_report`. -/
def buildReport (occ : Occurrence) : EscalationReport :=
  let remedy := (remedies.lookup occ.kind).getD defaultRemedy
  { signatureKey := occ.key, kind := occ.kind, count := occ.count, threshold := threshold
    symptom := occ.symptoms.getLast?.getD (if occ.reason = [] then occ.key else occ.reason)
    evidence := occ.evidence.eraseDups, attemptedFixes := occ.attempts.eraseDups
    whyFailing := remedy.whyFailing
    alternatives := (occ.alternatives ++ remedy.alternatives).eraseDups
    nextStep := remedy.nextStep, needsOperator := remedy.needsOperator }

/-- The inbox entry of a record. -/
def inboxRecord (record : LedgerRecord) : InboxRecord :=
  { record with
    requestType := if record.needsOperator then lit "DECISION" else lit "INFO"
    title := lit "반복 실패: " ++ record.signatureKey }

/-- The surfaces of a report, once both files are written. -/
def surfacesOf (call : Call) : List Surface :=
  [.ledger, .operatorInbox, .consoleAlert] ++ (if call.notified then [.notification] else []) ++
    if call.bridged then [.troubleshootingLedger] else []

/-- `record_failure`, where the writes to both files succeed. -/
def Escalator.recordFailure (fe : Escalator) (call : Call) : EscalationOutcome × Escalator :=
  let occ := fe.occurrence lower call
  let table := fe.occ.upsert occ
  let progress := decimal occ.count ++ lit "/" ++ decimal threshold
  if occ.count < threshold then
    ({ escalated := false
       advisory := lit "[dim]↻ " ++ occ.key ++ lit " 반복 " ++ progress ++
        lit " — 아직 시도 중 (임계값 도달 시 자동 에스컬레이션)[/dim]"
       count := occ.count, threshold := threshold },
      { fe with occ := table })
  else
    let report := buildReport threshold occ
    let record : LedgerRecord := { report with recordedAt := call.timestamp }
    let surfaces := surfacesOf call
    ({ escalated := true
       advisory := lit "⚠ " ++ occ.key ++ lit " " ++ progress ++ lit "회 — 에스컬레이션 (" ++
        (lit ", ").intercalate (surfaces.map Surface.name) ++ lit ")"
       count := occ.count, threshold := threshold, report := some report, surfaces := surfaces },
      { occ := table, ledger := appendJson fe.ledger record
        inbox := appendJson fe.inbox (inboxRecord record) })

/-- The state after a call. -/
def Escalator.next (fe : Escalator) (call : Call) : Escalator :=
  (fe.recordFailure lower threshold call).2

/-- `_occ[key].count`. -/
def Escalator.countOf (fe : Escalator) (key : Text) : Nat :=
  ((fe.occ.find? key).map Occurrence.count).getD 0

/-! ## One call -/

variable {lower threshold}

theorem FailureSignature.key_of_same {a b : FailureSignature} (h : a.Same lower b) :
    a.key lower = b.key lower := by
  obtain ⟨⟨hkind, hkind'⟩, ⟨hreason, hreason'⟩, ⟨hscope, hscope'⟩⟩ := h
  rw [FailureSignature.key, FailureSignature.key]
  simp only [List.filter_cons, List.filter_nil, decide_not, hkind, hreason, hscope]
  split <;> split <;> split <;> simp only [List.map_cons, List.map_nil, hkind', hreason', hscope']

@[simp] theorem Escalator.key_occurrence (fe : Escalator) (call : Call) :
    (fe.occurrence lower call).key = call.signature.key lower := by
  cases hfind : fe.occ.find? (call.signature.key lower) with
  | none => rw [occurrence, hfind]; rfl
  | some occ =>
    rw [occurrence, hfind]
    show occ.key = _
    exact Table.find?_key hfind

theorem Escalator.count_occurrence (fe : Escalator) (call : Call) :
    (fe.occurrence lower call).count = fe.countOf (call.signature.key lower) + 1 := by
  rw [occurrence, countOf]
  cases fe.occ.find? (call.signature.key lower) <;> rfl

/-- What a report is known by in the ledger. -/
def LedgerRecord.mark (r : LedgerRecord) : Text × Nat := (r.signatureKey, r.count)

theorem Escalator.occ_next (fe : Escalator) (call : Call) :
    (fe.next lower threshold call).occ = fe.occ.upsert (fe.occurrence lower call) := by
  rw [next, recordFailure]
  dsimp only
  split <;> rfl

/-- A call counts its key, and no other. -/
theorem Escalator.countOf_next (fe : Escalator) (call : Call) (key : Text) :
    (fe.next lower threshold call).countOf key
      = fe.countOf key + if call.signature.key lower = key then 1 else 0 := by
  rw [countOf, occ_next, Table.find?_upsert, key_occurrence]
  split
  · next hkey =>
    rw [Option.map_some, Option.getD_some, count_occurrence, hkey]
  · rfl

theorem Escalator.count_recordFailure (fe : Escalator) (call : Call) :
    (fe.recordFailure lower threshold call).1.count
      = fe.countOf (call.signature.key lower) + 1 := by
  rw [← count_occurrence, recordFailure]
  dsimp only
  split <;> rfl

/-- From the threshold on, a call writes a record. -/
theorem Escalator.marks_next (fe : Escalator) (call : Call) :
    (fe.next lower threshold call).ledger.map LedgerRecord.mark
      = if threshold ≤ fe.countOf (call.signature.key lower) + 1 then
          appendJson (fe.ledger.map LedgerRecord.mark)
            (call.signature.key lower, fe.countOf (call.signature.key lower) + 1)
        else fe.ledger.map LedgerRecord.mark := by
  rw [← count_occurrence, next, recordFailure]
  dsimp only
  by_cases hlt : (fe.occurrence lower call).count < threshold
  · rw [if_pos hlt, if_neg (not_le.mpr hlt)]
  · rw [if_neg hlt, if_pos (not_lt.mp hlt), appendJson, appendJson, map_lastEntries, List.map_append,
      ← key_occurrence]
    rfl

/-! ## A run of calls -/

variable (lower threshold)

/-- The keys of the calls. -/
def keys (calls : List Call) : List Text := calls.map fun call => call.signature.key lower

/-- The records that calls write after calls with the keys `seen`, by key and count. -/
def escalations (seen : List Text) : List Call → List (Text × Nat)
  | [] => []
  | call :: rest =>
    let key := call.signature.key lower
    (if threshold ≤ seen.count key + 1 then [(key, seen.count key + 1)] else []) ++
      escalations (seen ++ [key]) rest

variable {lower threshold}

theorem escalations_append (seen : List Text) (calls later : List Call) :
    escalations lower threshold seen (calls ++ later)
      = escalations lower threshold seen calls ++
        escalations lower threshold (seen ++ keys lower calls) later := by
  induction calls generalizing seen with
  | nil => rw [keys, List.map_nil, List.append_nil]; rfl
  | cons call calls ih =>
    rw [List.cons_append, escalations, escalations]
    rw [ih, List.append_assoc, List.append_assoc]
    rfl

theorem fst_mem_of_mem_escalations {seen : List Text} {calls : List Call} {e : Text × Nat}
    (h : e ∈ escalations lower threshold seen calls) : e.1 ∈ keys lower calls := by
  induction calls generalizing seen with
  | nil => cases h
  | cons call calls ih =>
    rw [escalations] at h
    rcases List.mem_append.mp h with h | h
    · split at h
      · rw [List.mem_singleton.mp h]
        exact List.mem_cons_self
      · cases h
    · exact List.mem_cons_of_mem _ (ih h)

/-- The state is what the calls with the keys `seen` have left, whose records were `written`. -/
structure Escalator.After (lower : Text → Text) (threshold : Threshold) (seen : List Text)
    (written : List (Text × Nat)) (fe : Escalator) : Prop where
  counts : ∀ key, fe.countOf key = seen.count key
  ledger : fe.ledger.map LedgerRecord.mark = lastEntries 200 written

theorem Escalator.After.next {seen : List Text} {written : List (Text × Nat)} {fe : Escalator}
    (h : fe.After lower threshold seen written) (call : Call) :
    (fe.next lower threshold call).After lower threshold (seen ++ [call.signature.key lower])
      (written ++ escalations lower threshold seen [call]) where
  counts key := by
    rw [countOf_next, h.counts, List.count_append, List.count_singleton]
    congr 1
    simp only [beq_iff_eq]
  ledger := by
    rw [marks_next, h.counts, h.ledger, escalations, escalations, List.append_nil]
    split
    · exact lastEntries_concat ..
    · rw [List.append_nil]

theorem Escalator.After.run {seen : List Text} {written : List (Text × Nat)} {fe : Escalator}
    (h : fe.After lower threshold seen written) (calls : List Call) :
    (Machine.run (Escalator.next lower threshold) fe calls).After lower threshold
      (seen ++ keys lower calls) (written ++ escalations lower threshold seen calls) := by
  induction calls generalizing seen written fe with
  | nil =>
    rw [keys, List.map_nil, List.append_nil, escalations, List.append_nil]
    exact h
  | cons call calls ih =>
    have hrun := ih (h.next call)
    rw [List.append_assoc, List.append_assoc] at hrun
    rw [run_cons]
    have hsplit : escalations lower threshold seen (call :: calls)
        = escalations lower threshold seen [call] ++
          escalations lower threshold (seen ++ [call.signature.key lower]) calls :=
      escalations_append seen [call] calls
    rw [hsplit]
    exact hrun

/-- What a run of calls from nothing leaves. -/
theorem after_run (calls : List Call) :
    (run (Escalator.next lower threshold) Escalator.empty calls).After lower threshold
      (keys lower calls) (escalations lower threshold [] calls) := by
  have hempty : Escalator.empty.After lower threshold [] [] := ⟨fun _ => rfl, rfl⟩
  exact hempty.run calls

/-! ## Visible and separate -/

variable (lower threshold)

/-- `read_escalations`. -/
def Escalator.readEscalations (fe : Escalator) : List LedgerRecord := fe.ledger

/-- The count of each failure is the number of the calls that are equal to it. -/
def Separate (calls : List Call) : Prop :=
  ∀ call ∈ calls,
    (run (Escalator.next lower threshold) Escalator.empty calls).countOf (call.signature.key lower)
      = calls.countP fun c => c.signature.Same lower call.signature

/-- Each failure whose count has reached the threshold is in the ledger, with its latest count. -/
def Visible (calls : List Call) : Prop :=
  let fe := run (Escalator.next lower threshold) Escalator.empty calls
  ∀ call ∈ calls, threshold ≤ fe.countOf (call.signature.key lower) →
    ∃ record ∈ fe.readEscalations, record.signatureKey = call.signature.key lower ∧
      record.count = fe.countOf (call.signature.key lower)

/-- Failures with one key are equal up to case and blanks. -/
def KeysApart (calls : List Call) : Prop :=
  ∀ a ∈ calls, ∀ b ∈ calls, a.signature.key lower = b.signature.key lower →
    a.signature.Same lower b.signature

/-- Once a failure that has reached the threshold is not seen again, less than 200 records are
written for others. -/
def FewLater (calls : List Call) : Prop :=
  ∀ before call after, calls = before ++ call :: after →
    call.signature.key lower ∉ keys lower after →
    threshold ≤ (keys lower before).count (call.signature.key lower) + 1 →
    (escalations lower threshold (keys lower (before ++ [call])) after).length < 200

variable {lower threshold}

/-- A predicate that holds as often as a weaker one holds wherever that one does. -/
theorem of_countP_eq {α : Type} {p q : α → Bool} (hpq : ∀ x, p x = true → q x = true) {xs : List α}
    (h : xs.countP q = xs.countP p) : ∀ x ∈ xs, q x = true → p x = true := by
  induction xs with
  | nil => simp
  | cons x xs ih =>
    have hle : xs.countP p ≤ xs.countP q := List.countP_mono_left fun y _ hy => hpq y hy
    rw [List.countP_cons, List.countP_cons] at h
    intro y hy hqy
    cases hp : p x with
    | true =>
      rw [hp, hpq x hp] at h
      rcases List.mem_cons.mp hy with rfl | hy
      · exact hp
      · exact ih (by omega) y hy hqy
    | false =>
      cases hq : q x with
      | true =>
        rw [hp, hq] at h
        simp only [if_true, Bool.false_eq_true, if_false] at h
        omega
      | false =>
        rw [hp, hq] at h
        rcases List.mem_cons.mp hy with rfl | hy
        · rw [hq] at hqy
          cases hqy
        · exact ih (by omega) y hy hqy

theorem separate_iff (calls : List Call) : Separate lower threshold calls ↔ KeysApart lower calls := by
  have hcount : ∀ key, (run (Escalator.next lower threshold) Escalator.empty calls).countOf key
      = calls.countP fun c => c.signature.key lower = key := by
    intro key
    rw [(after_run calls).counts, keys, List.count, List.countP_map]
    refine List.countP_congr fun c _ => ?_
    simp
  constructor
  · intro h a ha b hb hkey
    have hb := h b hb
    rw [hcount] at hb
    have hsame := of_countP_eq (fun c hc => decide_eq_true
      (FailureSignature.key_of_same (of_decide_eq_true hc))) hb a ha (decide_eq_true hkey)
    exact of_decide_eq_true hsame
  · intro h call hcall
    rw [hcount]
    refine List.countP_congr fun c hc => ?_
    simp only [decide_eq_true_eq]
    exact ⟨h c hc call hcall, FailureSignature.key_of_same⟩

/-- The last call with the key. -/
theorem exists_last {calls : List Call} {key : Text} (h : key ∈ keys lower calls) :
    ∃ before call after, calls = before ++ call :: after ∧ call.signature.key lower = key ∧
      key ∉ keys lower after := by
  induction calls with
  | nil => cases h
  | cons c calls ih =>
    by_cases hlater : key ∈ keys lower calls
    · obtain ⟨before, call, after, rfl, hkey, hafter⟩ := ih hlater
      exact ⟨c :: before, call, after, rfl, hkey, hafter⟩
    · rcases List.mem_cons.mp h with rfl | h
      · exact ⟨[], c, calls, rfl, rfl, hlater⟩
      · exact absurd h hlater

theorem count_keys_split {before after : List Call} {call : Call}
    (hafter : call.signature.key lower ∉ keys lower after) :
    (keys lower (before ++ call :: after)).count (call.signature.key lower)
      = (keys lower before).count (call.signature.key lower) + 1 := by
  rw [keys, List.map_append, List.map_cons, List.count_append, List.count_cons_self]
  have hzero : (keys lower after).count (call.signature.key lower) = 0 :=
    List.count_eq_zero.mpr hafter
  show (keys lower before).count _ + ((keys lower after).count _ + 1) = _
  rw [hzero]

/-- The record of the last call of a failure is kept until 200 others follow it. -/
theorem mark_mem_iff {before after : List Call} {call : Call}
    (hafter : call.signature.key lower ∉ keys lower after)
    (hreached : threshold ≤ (keys lower before).count (call.signature.key lower) + 1) :
    (call.signature.key lower, (keys lower before).count (call.signature.key lower) + 1) ∈
        lastEntries 200 (escalations lower threshold [] (before ++ call :: after))
      ↔ (escalations lower threshold (keys lower (before ++ [call])) after).length < 200 := by
  rw [escalations_append, List.nil_append, escalations, if_pos hreached, List.singleton_append,
    mem_lastEntries_iff, keys, keys, List.map_append]
  · rfl
  · exact fun hmem => hafter (fst_mem_of_mem_escalations hmem)

theorem visible_iff (calls : List Call) : Visible lower threshold calls ↔ FewLater lower threshold calls := by
  have hafter : (run (Escalator.next lower threshold) Escalator.empty calls).After lower threshold
      (keys lower calls) (escalations lower threshold [] calls) := after_run calls
  have hrecord : ∀ key n, (∃ record ∈ (run (Escalator.next lower threshold) Escalator.empty
      calls).readEscalations, record.signatureKey = key ∧ record.count = n) ↔
        (key, n) ∈ lastEntries 200 (escalations lower threshold [] calls) := by
    intro key n
    rw [← hafter.ledger, List.mem_map]
    simp only [LedgerRecord.mark, Prod.mk.injEq]
    rfl
  constructor
  · intro h before call after hcalls hlast hreached
    have hcount := hafter.counts (call.signature.key lower)
    rw [hcalls, count_keys_split hlast, ← hcalls] at hcount
    have hmem := (hrecord _ _).mp (h call (by simp [hcalls]) (by rw [hcount]; exact hreached))
    rw [hcount, hcalls] at hmem
    exact (mark_mem_iff hlast hreached).mp hmem
  · intro h call hcall hreached
    obtain ⟨before, last, after, hcalls, hkey, hlast⟩ :=
      exists_last (List.mem_map_of_mem (f := fun c : Call => c.signature.key lower) hcall)
    rw [← hkey] at hlast hreached ⊢
    have hcount := hafter.counts (last.signature.key lower)
    rw [hcalls, count_keys_split hlast, ← hcalls] at hcount
    rw [hrecord, hcount]
    rw [hcount] at hreached
    have hfew := h before last after hcalls hlast hreached
    rw [hcalls]
    exact (mark_mem_iff hlast hreached).mpr hfew

variable (lower threshold)

/--
**Every repeated failure stays visible and separate exactly when** no two failures that differ beyond
case and blanks have one key, and less than 200 records follow the last one of each.
-/
theorem visible_and_separate_iff (calls : List Call) :
    Separate lower threshold calls ∧ Visible lower threshold calls ↔
      KeysApart lower calls ∧ FewLater lower threshold calls := by
  rw [separate_iff, visible_iff]

end

/-! ## Runs that lose a failure -/

def pushDenied : Call where
  signature := ⟨lit "policy", lit "deny:push", []⟩

def denyPush : Call where
  signature := ⟨lit "policy:deny", lit "push", []⟩

/-- **Two failures are counted as one, and a failure leaves the ledger** after 200 records of
another. -/
theorem merged_and_evicted :
    ¬ Separate Py.lower ⟨3, by decide⟩ [pushDenied, denyPush] ∧
      ¬ Visible Py.lower ⟨1, by decide⟩ (pushDenied ::
        List.replicate 200 { signature := ⟨lit "renderer", lit "halfcell", []⟩ }) := by
  constructor
  · rw [separate_iff]
    intro h
    exact absurd (h pushDenied (by simp) denyPush (by simp) (by decide)) (by decide)
  · rw [visible_iff]
    intro h
    have hlength := h [] pushDenied _ rfl (by decide +kernel) (by decide)
    exact absurd hlength (by decide +kernel)

end ForgeKit.Escalation
