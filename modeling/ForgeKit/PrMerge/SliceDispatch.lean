import Mathlib.Data.List.TakeDrop
import ForgeKit.Lib.Machine
import ForgeKit.PrMerge.Continuation

/-!
# Dispatching the slices of a backlog (`dispatch_next_coding_slice`)

A call takes the first slice off the backlog, persists the new `extra` and only then hands the
slice over. The callbacks belong to the caller, and each of them may raise: a call that raises in
`persist_extra` leaves the session as it was, and a call that raises in `enqueue_slice` does not.
Nothing counts the merges, so a merged session gives out a slice on each call.

* `merged_dispatch` — one call on a merged session
* `handed_run` — what any sequence of calls has handed over, and what is left
-/

namespace ForgeKit

namespace PrMerge

/-- How a callback that may be missing behaves in one call. -/
inductive Callback where
  | absent
  | returns
  | raises
deriving DecidableEq, Repr

/-- One call of `dispatch_next_coding_slice`, with the clock and how its callbacks end. -/
structure DispatchCall where
  now : String
  persistRaises : Bool := false
  enqueueSlice : Callback := .returns
  onSessionDone : Callback := .absent

/-- The persisted `extra` of a session, and what its callbacks were given. -/
structure SliceSession where
  extra : Dict Json
  /-- The slices that `enqueue_slice` took without raising, in the order of the calls. -/
  handed : List (Dict Json) := []
  /-- How often `on_session_done` returned. -/
  doneCalls : Nat := 0

/-- `dispatch_next_coding_slice`. A call that raises keeps what it did before. -/
def dispatchNextCodingSlice (s : SliceSession) (c : DispatchCall) : SliceSession :=
  match decideNextSlice s.extra c.now with
  | none => s
  | some decision =>
    if decision.action = .skippedNotMerged then s
    else if decision.extraUpdates ≠ [] ∧ c.persistRaises = true then s
    else
      let persisted := { s with
        extra := if decision.extraUpdates ≠ [] then decision.extraUpdates else s.extra }
      match decision.action, decision.sliceSpec with
      | .dispatchSlice, some slice =>
        if c.enqueueSlice = .returns then { persisted with handed := s.handed ++ [slice] }
        else persisted
      | .sessionDone, _ =>
        if c.onSessionDone = .returns then { persisted with doneCalls := s.doneCalls + 1 }
        else persisted
      | _, _ => persisted

/-! ## One call -/

/-- A merged session with these slices left; its audit can be appended to. -/
structure Merged (slices : List (Dict Json)) (extra : Dict Json) : Prop where
  stage : (extra.getJson stageKey).eqStr Stage.prMerged.value = true
  backlog : backlogOf extra = some slices
  audit : ∃ audit, auditOf extra = some audit

theorem filterMap_obj?_map_obj (slices : List (Dict Json)) :
    (slices.map Json.obj).filterMap Json.obj? = slices := by
  induction slices with
  | nil => rfl
  | cons slice slices ih => rw [List.map_cons, List.filterMap_cons, ih]; rfl

/-- An audit entry on an `extra` that only has a new backlog. -/
theorem Merged.withAudit {slices : List (Dict Json)} {extra : Dict Json} (h : Merged slices extra)
    (rest : List (Dict Json)) (between entry : Dict Json)
    (hbacklog : between.getJson codingBacklogKey = .arr (rest.map Json.obj))
    (hother : ∀ key, key = stageKey ∨ key = auditKey →
      between.getJson key = extra.getJson key) :
    ∃ extra', PrMerge.withAudit between entry = some extra' ∧ extra' ≠ [] ∧ Merged rest extra' := by
  obtain ⟨audit, haudit⟩ := h.audit
  have hbetween : auditOf between = some audit := by
    rw [auditOf, hother _ (.inr rfl)]
    exact haudit
  have hok : PrMerge.withAudit between entry
      = some (between.set auditKey (.arr (audit ++ [.obj entry]))) := by
    rw [PrMerge.withAudit, hbetween, Option.map_some]
  obtain ⟨audit', -, hafter, hkeys⟩ := withAudit_spec hok
  refine ⟨_, hok, ?_, ?_, ?_, _, hafter⟩
  · intro hnil
    have hget := Dict.getJson_set_self between auditKey (.arr (audit ++ [.obj entry]))
    rw [hnil] at hget
    cases hget
  · rw [hkeys _ (by decide), hother _ (.inl rfl)]
    exact h.stage
  · rw [backlogOf, hkeys _ (by decide), hbacklog, Json.items?_arr, Option.map_some,
      filterMap_obj?_map_obj]

/-- The decision for a merged session. -/
def mergedDecision (slices : List (Dict Json)) (extraUpdates : Dict Json) : NextSliceDecision :=
  match slices with
  | [] => { action := .sessionDone, extraUpdates }
  | slice :: rest =>
    { action := .dispatchSlice, sliceSpec := some slice, remainingBacklog := rest.length
      extraUpdates }

theorem decideNextSlice_merged {slices : List (Dict Json)} {extra : Dict Json}
    (h : Merged slices extra) (now : String) :
    ∃ extra', extra' ≠ [] ∧ Merged slices.tail extra'
      ∧ decideNextSlice extra now = some (mergedDecision slices extra') := by
  unfold decideNextSlice
  rw [h.stage, h.backlog]
  cases slices with
  | nil =>
    obtain ⟨extra', hok, hne, hmerged⟩ := h.withAudit []
      ((extra.set codingBacklogKey (.arr [])).set sessionCompletedReasonKey
        (.str "backlog_empty_after_merge"))
      [("event", .str "session_done_after_merge"),
        ("reason", .str "backlog_empty_after_merge"), ("at", .str now)]
      (by simp [Dict.getJson_set, codingBacklogKey, sessionCompletedReasonKey])
      (by rintro key (rfl | rfl) <;>
        simp [Dict.getJson_set, codingBacklogKey, sessionCompletedReasonKey, stageKey, auditKey])
    exact ⟨extra', hne, hmerged, by simp [hok, mergedDecision]⟩
  | cons slice rest =>
    obtain ⟨extra', hok, hne, hmerged⟩ := h.withAudit rest
      (extra.set codingBacklogKey (.arr (rest.map Json.obj)))
      [("event", .str "next_slice_dispatched"),
        ("slice_summary", .str ((slice.getJson "summary").orElse
          ((slice.getJson "title").orElse (.str ""))).toStr),
        ("remaining_backlog", .int rest.length), ("at", .str now)]
      (by simp)
      (by rintro key (rfl | rfl) <;>
        simp [Dict.getJson_set, codingBacklogKey, stageKey, auditKey])
    exact ⟨extra', hne, hmerged, by simp [hok, mergedDecision]⟩

/-- **One call on a merged session.** -/
theorem merged_dispatch {slices : List (Dict Json)} {s : SliceSession} (h : Merged slices s.extra)
    (c : DispatchCall) :
    Merged (if c.persistRaises = true then slices else slices.tail)
        (dispatchNextCodingSlice s c).extra
      ∧ (dispatchNextCodingSlice s c).handed = s.handed
        ++ (if c.persistRaises = false ∧ c.enqueueSlice = .returns then slices.head?.toList
          else []) := by
  obtain ⟨extra', hne, hmerged, hdecide⟩ := decideNextSlice_merged h c.now
  unfold dispatchNextCodingSlice
  rw [hdecide]
  cases hp : c.persistRaises with
  | true => cases slices <;> simpa [mergedDecision, hne] using h
  | false =>
    cases slices with
    | nil =>
      by_cases hd : c.onSessionDone = .returns <;>
        simpa [mergedDecision, hne, hd] using hmerged
    | cons slice rest =>
      by_cases he : c.enqueueSlice = .returns <;>
        simpa [mergedDecision, hne, he] using hmerged

/-! ## Any sequence of calls -/

/-- The calls whose `persist_extra` returned. -/
def persisted (calls : List DispatchCall) : List DispatchCall :=
  calls.filter fun c => !c.persistRaises

/-- **What a sequence of calls does to a merged session, in closed form.** -/
theorem run_merged {slices : List (Dict Json)} {s : SliceSession} (h : Merged slices s.extra)
    (calls : List DispatchCall) :
    Merged (slices.drop (persisted calls).length)
        (Machine.run dispatchNextCodingSlice s calls).extra
      ∧ (Machine.run dispatchNextCodingSlice s calls).handed = s.handed
        ++ ((slices.zip (persisted calls)).filter fun p => p.2.enqueueSlice = .returns).map
          Prod.fst := by
  induction calls generalizing slices s with
  | nil => simpa [persisted] using h
  | cons c calls ih =>
    obtain ⟨hmerged, hhanded⟩ := merged_dispatch h c
    obtain ⟨hrest, hrun⟩ := ih hmerged
    rw [Machine.run_cons, hrun, hhanded]
    cases hp : c.persistRaises with
    | true =>
      have hskip : persisted (c :: calls) = persisted calls := by simp [persisted, hp]
      rw [hskip]
      simpa [hp] using hrest
    | false =>
      have hpop : persisted (c :: calls) = c :: persisted calls := by simp [persisted, hp]
      rw [hpop]
      refine ⟨by simpa [hp] using hrest, ?_⟩
      cases slices with
      | nil => simp
      | cons slice rest => by_cases he : c.enqueueSlice = .returns <;> simp [he]

theorem map_fst_zip_eq_take {α β : Type} (xs : List α) (ys : List β) :
    (xs.zip ys).map Prod.fst = xs.take ys.length := by
  induction xs generalizing ys with
  | nil => simp
  | cons x xs ih =>
    cases ys with
    | nil => rfl
    | cons y ys => rw [List.zip_cons_cons, List.map_cons, ih, List.length_cons, List.take_succ_cons]

/--
**Slices go out in backlog order, each at most once.**

Any sequence of calls on a merged session, whatever its callbacks do: what is left is the backlog
without as many slices as `persist_extra` has returned, and what was handed over is picked, in
order, from those it lost. If `enqueue_slice` returned whenever it was called, nothing is lost.
-/
theorem handed_run {slices : List (Dict Json)} {extra : Dict Json} (h : Merged slices extra)
    (calls : List DispatchCall) :
    let s := Machine.run dispatchNextCodingSlice { extra } calls
    let popped := (persisted calls).length
    backlogOf s.extra = some (slices.drop popped)
      ∧ s.handed.Sublist (slices.take popped)
      ∧ ((∀ c ∈ calls, c.persistRaises = false → c.enqueueSlice = .returns) →
        s.handed = slices.take popped) := by
  intro s popped
  obtain ⟨hmerged, hhanded⟩ := run_merged (s := { extra }) h calls
  have hzip : (slices.zip (persisted calls)).map Prod.fst = slices.take popped :=
    map_fst_zip_eq_take _ _
  rw [List.nil_append] at hhanded
  refine ⟨hmerged.backlog, ?_, fun hreturns => ?_⟩
  · rw [hhanded, ← hzip]
    exact List.filter_sublist.map _
  · have hall : ((slices.zip (persisted calls)).filter fun p => p.2.enqueueSlice = .returns)
        = slices.zip (persisted calls) := by
      refine List.filter_eq_self.mpr fun p hp => ?_
      obtain ⟨hmem, hpersist⟩ := List.mem_filter.mp (List.of_mem_zip hp).2
      simpa using hreturns p.2 hmem (by simpa using hpersist)
    rw [hhanded, hall, hzip]

/-- A session whose pull request is merged, with two slices left. -/
def mergedExtra : Dict Json :=
  [(stageKey, .str "pr_merged"),
   (codingBacklogKey, .arr [.obj [("summary", .str "search-ui")],
                            .obj [("summary", .str "blog-api")]])]

theorem merged_mergedExtra :
    Merged [[("summary", .str "search-ui")], [("summary", .str "blog-api")]] mergedExtra where
  stage := by decide +kernel
  backlog := rfl
  audit := ⟨[], rfl⟩

/-- The first call fails to persist and is repeated; both slices go out. -/
theorem handed_run_mergedExtra :
    (Machine.run dispatchNextCodingSlice { extra := mergedExtra }
      [{ now := "10:00", persistRaises := true }, { now := "10:01" }, { now := "10:02" }]).handed
        = [[("summary", .str "search-ui")], [("summary", .str "blog-api")]] :=
  (handed_run merged_mergedExtra _).2.2 (by simp)

/-- One merge, two calls: two slices. -/
theorem two_slices_of_one_merge :
    ¬∀ calls, (Machine.run dispatchNextCodingSlice { extra := mergedExtra } calls).handed.length
      ≤ 1 := by
  intro h
  have htwo : (Machine.run dispatchNextCodingSlice { extra := mergedExtra }
      [{ now := "10:00" }, { now := "10:01" }]).handed.length = 2 := by decide +kernel
  have hle := h [{ now := "10:00" }, { now := "10:01" }]
  omega

end PrMerge

end ForgeKit
