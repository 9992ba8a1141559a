import Mathlib.Data.String.Basic
import ForgeKit.Lib.Json
import ForgeKit.Lib.LastEntries

/-!
# The markers of dispatched follow-ups (`discussion_followup.py`)

A session keeps one bucket a turn, with a marker for each role and kind that was dispatched. When
there are more than 32 buckets, those with the smallest turn ids go, by the order of texts.

* `stamp_spec` — the buckets after a stamp
* `followup_marker_iff` — when the buckets that stay are the most recently stamped ones, the new one
  among them
-/

namespace ForgeKit

namespace Followup

/-- `DISCUSSION_FOLLOWUP_EXTRA_KEY`. -/
def extraKey : String := "discussion_followup"

/-- What a `dict` makes of one entry of a list. -/
def pair? : Json → Option (String × Json)
  | .arr [.str k, v] => some (k, v)
  | .obj [(k, _), (k', _)] => some (k, .str k')
  | .str s =>
    match s.toList with
    | [c, c'] => some (String.singleton c, .str (String.singleton c'))
    | _ => none
  | _ => none

/-- `dict(v or {})`; `none` is an exception, or a key that is no text. -/
def dictOf (v : Json) : Option (Dict Json) :=
  if v.truthy = false then some []
  else
    match v with
    | .obj d => some d
    | .arr xs => (xs.mapM pair?).map (Dict.update [])
    | _ => none

/-- The arguments of `stamp_followup_marker`. -/
structure StampArgs where
  turnId : String
  role : Option String
  kind : String
  jobId : String
  whenIso : String

/-- `f"{role or ''}:{kind}"`. -/
def markerKey (role : Option String) (kind : String) : String := role.getD "" ++ ":" ++ kind

/-- The marker of a stamp. -/
def StampArgs.marker (a : StampArgs) : Json :=
  .obj [("job_id", .str a.jobId), ("dispatched_at", .str a.whenIso), ("kind", .str a.kind),
    ("role", (a.role.map Json.str).getD .null)]

/-- The turn ids to drop: the smallest ones beyond 32. -/
def staleTurns (byTurn : Dict Json) : List String :=
  ((byTurn.map Prod.fst).insertionSort (· ≤ ·)).take (byTurn.length - 32)

/-- The block under the key of the follow-ups. -/
def blockOf (extra : Dict Json) : Dict Json := ((extra.getJson extraKey).obj?).getD []

/-- `stamp_followup_marker`. -/
def stampFollowupMarker (extra : Dict Json) (a : StampArgs) : Option (Dict Json) := do
  let block := blockOf extra
  let byTurn ← dictOf (block.getJson "by_turn")
  let bucket ← dictOf (byTurn.getJson a.turnId)
  let byTurn := byTurn.set a.turnId (.obj (bucket.set (markerKey a.role a.kind) a.marker))
  let byTurn :=
    if byTurn.length > 32 then byTurn.filter fun e => e.1 ∉ staleTurns byTurn else byTurn
  return extra.set extraKey
    (.obj ((block.set "by_turn" (.obj byTurn)).set "last_dispatched_at" (.str a.whenIso)))

/-- A bucket with every marker as a mapping. -/
def markersOf (bucket : Dict Json) : Dict (Dict Json) := bucket.map fun e => (e.1, e.2.obj?.getD [])

/-- `_read_marker`. -/
def readMarker (extra : Dict Json) (turnId : String) : Dict (Dict Json) :=
  match (extra.getJson extraKey).obj? with
  | none => []
  | some base =>
    match (base.getJson "by_turn").obj? with
    | none => []
    | some byTurn =>
      match (byTurn.getJson turnId).obj? with
      | none => []
      | some bucket => markersOf bucket

/-- `_already_dispatched`. -/
def alreadyDispatched (extra : Dict Json) (turnId : String) (role : Option String) (kind : String) :
    Bool :=
  match (readMarker extra turnId).get? (markerKey role kind) with
  | none => false
  | some entry => if entry = [] then false else (entry.getJson "job_id").truthy

/-! ## What a stamp writes -/

/-- The buckets of a session. -/
def buckets (extra : Dict Json) : Dict Json := (dictOf ((blockOf extra).getJson "by_turn")).getD []

def turnIds (extra : Dict Json) : List String := (buckets extra).map Prod.fst

/-- The turn ids in the order in which they were last stamped, after one more stamp. -/
def restamped (order : List String) (turnId : String) : List String := order.erase turnId ++ [turnId]

variable {extra extra' : Dict Json} {a : StampArgs}

theorem dictOf_obj (d : Dict Json) : dictOf (.obj d) = some d := by
  unfold dictOf
  cases d <;> rfl

/-- The buckets after a stamp: the bucket of the turn with its new marker, without the stale ones. -/
theorem stamp_spec (h : stampFollowupMarker extra a = some extra') :
    ∃ bucket : Dict Json,
      let written := (buckets extra).set a.turnId (.obj (bucket.set (markerKey a.role a.kind) a.marker))
      ((extra'.getJson extraKey).obj?.getD []).getJson "by_turn"
          = .obj (written.filter fun e => e.1 ∉ staleTurns written)
        ∧ (extra'.getJson extraKey).obj?.isSome := by
  unfold stampFollowupMarker at h
  simp only [Option.bind_eq_bind, Option.bind_eq_some_iff, Option.pure_def, Option.some.injEq] at h
  obtain ⟨byTurn, hbyTurn, bucket, -, rfl⟩ := h
  have hbuckets : buckets extra = byTurn := by rw [buckets, hbyTurn, Option.getD_some]
  refine ⟨bucket, ?_⟩
  rw [hbuckets, Dict.getJson_set_self]
  dsimp only [Json.obj?, Option.getD_some]
  rw [Dict.getJson_set_ne _ _ (by decide), Dict.getJson_set_self]
  refine ⟨?_, rfl⟩
  split
  · rfl
  · next hfew =>
    have hnone : ∀ d : Dict Json, ¬d.length > 32 → staleTurns d = [] := by
      intro d hd
      rw [staleTurns, Nat.sub_eq_zero_of_le (not_lt.mp hd), List.take_zero]
    rw [hnone _ hfew]
    simp

/-- The keys that stay are those with the greatest ids. -/
theorem map_fst_kept {d : Dict Json} (hnodup : (d.map Prod.fst).Nodup) :
    ((d.filter fun e => e.1 ∉ staleTurns d).map Prod.fst).Perm
      (LastEntries.lastEntries 32 ((d.map Prod.fst).insertionSort (· ≤ ·))) := by
  have hperm := List.perm_insertionSort (· ≤ ·) (d.map Prod.fst)
  have hfilter : (d.filter fun e => e.1 ∉ staleTurns d).map Prod.fst
      = (d.map Prod.fst).filter (· ∉ staleTurns d) := by
    rw [List.filter_map]
    rfl
  rw [hfilter]
  refine (hperm.symm.filter _).trans ?_
  unfold staleTurns LastEntries.lastEntries
  rw [List.length_insertionSort, List.length_map]
  have hsorted : ((d.map Prod.fst).insertionSort (· ≤ ·)).Nodup := hperm.nodup_iff.mpr hnodup
  generalize (d.map Prod.fst).insertionSort (· ≤ ·) = sorted at hsorted ⊢
  generalize d.length - 32 = m
  rw [← List.take_append_drop m sorted, List.nodup_append] at hsorted
  have hsplit : sorted.filter (· ∉ sorted.take m)
      = (sorted.take m).filter (· ∉ sorted.take m) ++ (sorted.drop m).filter (· ∉ sorted.take m) := by
    rw [← List.filter_append, List.take_append_drop]
  have hfirst : (sorted.take m).filter (· ∉ sorted.take m) = [] := by
    simp
  have hlast : (sorted.drop m).filter (· ∉ sorted.take m) = sorted.drop m :=
    List.filter_eq_self.mpr fun x hx => decide_eq_true fun hmem => hsorted.2.2 x hmem x hx rfl
  rw [hsplit, hfirst, hlast, List.nil_append]

/-- Writing a bucket stamps its turn. -/
theorem map_fst_set_perm {order : List String} {d : Dict Json} (horder : order.Perm (d.map Prod.fst))
    (k : String) (v : Json) : (restamped order k).Perm ((d.set k v).map Prod.fst) := by
  unfold restamped
  rw [Dict.map_fst_set]
  refine List.perm_append_comm.trans ?_
  split
  · next hmem =>
    exact (List.perm_cons_erase (horder.mem_iff.mpr hmem)).symm.trans horder
  · next hmem =>
    rw [List.erase_of_not_mem fun h => hmem (horder.mem_iff.mp h)]
    exact (List.perm_append_comm.trans (horder.append_right _))

theorem get?_markersOf (bucket : Dict Json) (k : String) :
    (markersOf bucket).get? k = (bucket.get? k).map fun v => v.obj?.getD [] := by
  unfold markersOf
  induction bucket with
  | nil => rfl
  | cons entry bucket ih =>
    obtain ⟨k', v'⟩ := entry
    rw [List.map_cons, Dict.get?, Dict.get?]
    by_cases hk : k' = k
    · rw [if_pos hk, if_pos hk, Option.map_some]
    · rw [if_neg hk, if_neg hk, ih]

/--
**When a stamped marker is remembered.** For every session, every stamp with a job id that goes
through and every order in which the turns of the session were stamped before: the marker is found
again, and the buckets that stay are the 32 most recently stamped ones, exactly when every turn that
was stamped before those has a smaller id than each of them.
-/
theorem followup_marker_iff (extra extra' : Dict Json) (a : StampArgs) (hjob : a.jobId ≠ "")
    (h : stampFollowupMarker extra a = some extra') (order : List String)
    (horder : order.Perm (turnIds extra)) (hnodup : (turnIds extra).Nodup) :
    (alreadyDispatched extra' a.turnId a.role a.kind = true ∧ (turnIds extra').length ≤ 32
      ∧ (turnIds extra').Perm (LastEntries.lastEntries 32 (restamped order a.turnId)))
      ↔ ∀ old ∈ (restamped order a.turnId).take ((restamped order a.turnId).length - 32),
        ∀ recent ∈ LastEntries.lastEntries 32 (restamped order a.turnId), old < recent := by
  obtain ⟨bucket, hwritten, hsome⟩ := stamp_spec h
  set written := (buckets extra).set a.turnId (.obj (bucket.set (markerKey a.role a.kind) a.marker))
    with hdef
  have hperm : (restamped order a.turnId).Perm (written.map Prod.fst) :=
    map_fst_set_perm horder _ _
  have hkeys : (written.map Prod.fst).Nodup := by
    rw [hdef, Dict.map_fst_set]
    split
    · exact hnodup
    · next hmem =>
      rw [List.nodup_append]
      refine ⟨hnodup, List.nodup_singleton _, ?_⟩
      rintro x hx y hy rfl
      exact hmem (List.mem_singleton.mp hy ▸ hx)
  have hstamped : (restamped order a.turnId).Nodup := hperm.nodup_iff.mpr hkeys
  have hids : turnIds extra' = (written.filter fun e => e.1 ∉ staleTurns written).map Prod.fst := by
    unfold turnIds buckets blockOf
    rw [hwritten, dictOf_obj, Option.getD_some]
  have hsort : (written.map Prod.fst).insertionSort (· ≤ ·)
      = (restamped order a.turnId).insertionSort (· ≤ ·) :=
    List.Perm.eq_of_pairwise' (List.pairwise_insertionSort _ _) (List.pairwise_insertionSort _ _)
      (((List.perm_insertionSort _ _).trans hperm.symm).trans (List.perm_insertionSort _ _).symm)
  have hgreatest : (turnIds extra').Perm
      (LastEntries.lastEntries 32 ((restamped order a.turnId).insertionSort (· ≤ ·))) := by
    rw [hids, ← hsort]
    exact map_fst_kept hkeys
  have hlength : (turnIds extra').length ≤ 32 := by
    rw [hgreatest.length_eq, LastEntries.length_lastEntries]
    exact Nat.min_le_left _ _
  rw [← LastEntries.perm_greatest_iff hstamped]
  constructor
  · exact fun hall => hgreatest.symm.trans hall.2.2
  · intro hlast
    have hrecent := hgreatest.trans hlast
    refine ⟨?_, hlength, hrecent⟩
    have hmem : a.turnId ∈ turnIds extra' := by
      refine hrecent.mem_iff.mpr ?_
      exact (LastEntries.mem_lastEntries_iff List.not_mem_nil).mpr (by decide)
    have hfresh : a.turnId ∉ staleTurns written := by
      rw [hids, List.mem_map] at hmem
      obtain ⟨e, he, hid⟩ := hmem
      rw [← hid]
      exact of_decide_eq_true (List.mem_filter.mp he).2
    have hbucket : Dict.get? (written.filter fun e => e.1 ∉ staleTurns written) a.turnId
        = some (.obj (bucket.set (markerKey a.role a.kind) a.marker)) := by
      rw [Dict.get?_filter written (fun k => k ∉ staleTurns written), if_pos (by simpa using hfresh),
        hdef, Dict.get?_set_self]
    obtain ⟨base, hbase⟩ := Option.isSome_iff_exists.mp hsome
    rw [hbase, Option.getD_some] at hwritten
    have hread : readMarker extra' a.turnId
        = markersOf (bucket.set (markerKey a.role a.kind) a.marker) := by
      unfold readMarker
      rw [hbase]
      dsimp only
      rw [hwritten]
      dsimp only [Json.obj?]
      rw [Dict.getJson, hbucket, Option.getD_some]
    unfold alreadyDispatched
    rw [hread, get?_markersOf, Dict.get?_set_self, Option.map_some]
    simpa [StampArgs.marker, Json.obj?, Dict.getJson, Dict.get?, Json.truthy] using hjob

/-- The turns before the thousandth, the oldest first. -/
def oldTurns : List String := (List.range 32).map fun n => toString (968 + n)

/-- A session with 32 turns, each with a role that was dispatched. -/
def fullSession : Dict Json :=
  [(extraKey, .obj [("by_turn", .obj (oldTurns.map fun turn =>
    (turn, .obj [("qa:role_take", .obj [("job_id", .str "job-1")])])))])]

/-- A stamp for a turn. -/
def sampleStamp (turnId : String) : StampArgs where
  turnId := turnId
  role := some "qa"
  kind := "role_take"
  jobId := "job-2"
  whenIso := "2025-01-01T00:00:00+00:00"

theorem turnIds_fullSession : turnIds fullSession = oldTurns := by decide +kernel

/-- A turn that comes again is remembered. -/
theorem repeated_turn_is_remembered :
    ∃ extra', stampFollowupMarker fullSession (sampleStamp "999") = some extra'
      ∧ alreadyDispatched extra' "999" (some "qa") "role_take" = true ∧ (turnIds extra').length ≤ 32
        ∧ (turnIds extra').Perm (LastEntries.lastEntries 32 (restamped oldTurns "999")) := by
  obtain ⟨extra', h⟩ := Option.isSome_iff_exists.mp
    (by decide +kernel : (stampFollowupMarker fullSession (sampleStamp "999")).isSome = true)
  refine ⟨extra', h, (followup_marker_iff fullSession extra' (sampleStamp "999") (by decide) h oldTurns
    (by rw [turnIds_fullSession]) (by rw [turnIds_fullSession]; decide +kernel)).mpr ?_⟩
  intro old hold
  have hnone : (restamped oldTurns "999").take ((restamped oldTurns "999").length - 32) = [] := by
    decide +kernel
  have hempty : old ∈ ([] : List String) := hnone ▸ hold
  cases hempty

/-- **The marker of the thousandth turn is dropped as it is stamped**, since its id is the smallest as
a text. -/
theorem thousandth_turn_is_forgotten :
    (stampFollowupMarker fullSession (sampleStamp "1000")).map (fun extra' =>
        (alreadyDispatched extra' "1000" (some "qa") "role_take", turnIds extra'))
      = some (false, oldTurns) := by
  decide +kernel

end Followup

end ForgeKit
