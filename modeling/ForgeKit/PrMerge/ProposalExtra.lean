import ForgeKit.Approval.PrMergeReply

/-!
# The proposal of a merge card as a payload (`pr_approval.py`)

`to_extra` writes a proposal under the keys of a mapping and lets the free keys of the proposal
overwrite them; `from_extra` reads the keys back and keeps the others.

* `proposalFromExtra_toExtra` — what comes back of a proposal whose free keys are no names of fields
* `round_trip_iff` — the proposals that come back as they were
-/

namespace ForgeKit

namespace PRMergeProposal

open PrMergeReply (proposalKeys proposalFromExtra)

/-- The fields as `to_extra` writes them; the summary is not among them. -/
def namedExtra (p : PRMergeProposal) : Dict Json :=
  [("repo", .str p.repo),
   ("pr_number", .int p.prNumber),
   ("pr_title", .str p.prTitle),
   ("pr_url", .str p.prUrl),
   ("head_sha", .str p.headSha),
   ("base_branch", .str p.baseBranch),
   ("draft", .bool p.draft),
   ("mergeable_state", .str p.mergeableState),
   ("scope_labels", .arr (p.scopeLabels.map Json.str)),
   ("risk", .str p.risk),
   ("check_runs_summary", .str p.checkRunsSummary),
   ("branch_protection_summary", .str p.branchProtectionSummary),
   ("body_excerpt", .str p.bodyExcerpt),
   ("requested_by", .str p.requestedBy)]

/-- `to_extra`: of the free keys only two are held back. -/
def toExtra (p : PRMergeProposal) : Dict Json :=
  p.namedExtra.update (p.extra.filter fun e => e.1 ∉ ["repo", "pr_number"])

/-- No free key is the name of a field. -/
def FreeKeys (p : PRMergeProposal) : Prop := ∀ e ∈ p.extra, e.1 ∉ proposalKeys

variable {p : PRMergeProposal}

theorem mem_proposalKeys_of_named {k : String} (h : k ∈ p.namedExtra.map Prod.fst) :
    k ∈ proposalKeys := by
  have hnames : p.namedExtra.map Prod.fst = proposalKeys.filter (· ≠ "summary_md") := by
    simp only [namedExtra, List.map_cons, List.map_nil]
    decide
  rw [hnames] at h
  exact List.mem_of_mem_filter h

/-- With free keys of its own a proposal is written as its fields and those keys. -/
theorem toExtra_eq (hkeys : (p.extra.map Prod.fst).Nodup) (hfree : p.FreeKeys) :
    p.toExtra = p.namedExtra ++ p.extra := by
  have hkept : (p.extra.filter fun e => e.1 ∉ ["repo", "pr_number"]) = p.extra := by
    refine List.filter_eq_self.mpr fun e he => ?_
    have hname := hfree e he
    have htwo : ∀ k ∈ ["repo", "pr_number"], k ∈ proposalKeys := by decide
    exact decide_eq_true fun hmem => hname (htwo _ hmem)
  unfold toExtra
  rw [hkept]
  refine Dict.update_of_disjoint hkeys fun k hk hmem => ?_
  obtain ⟨e, he, rfl⟩ := List.mem_map.mp hk
  exact hfree e he (mem_proposalKeys_of_named hmem)

theorem map_toStr (labels : List String) : (labels.map Json.str).map Json.toStr = labels := by
  rw [List.map_map]
  exact List.map_id labels

/--
**What comes back of a proposal whose free keys are no names of fields.** The summary is lost, and an
empty merge state or risk comes back as its default.
-/
theorem proposalFromExtra_toExtra (hkeys : (p.extra.map Prod.fst).Nodup) (hfree : p.FreeKeys) :
    proposalFromExtra p.toExtra = some { p with
      mergeableState := if p.mergeableState = "" then "unknown" else p.mergeableState
      summaryMd := ""
      risk := if p.risk = "" then "UNKNOWN" else p.risk } := by
  have hget : ∀ k v, p.namedExtra.get? k = some v → p.toExtra.get? k = some v := by
    intro k v h
    rw [toExtra_eq hkeys hfree, Dict.get?_append, h]
    rfl
  have hsummary : p.toExtra.get? "summary_md" = none := by
    rw [toExtra_eq hkeys hfree, Dict.get?_append]
    have hfields : p.namedExtra.get? "summary_md" = none := by rfl
    rw [hfields, Option.none_or, Dict.get?_eq_none_iff]
    intro hmem
    obtain ⟨e, he, hk⟩ := List.mem_map.mp hmem
    exact hfree e he (hk ▸ by decide)
  have hextra : (p.toExtra.filter fun e => !proposalKeys.contains e.1) = p.extra := by
    rw [toExtra_eq hkeys hfree, List.filter_append]
    have hnone : (p.namedExtra.filter fun e => !proposalKeys.contains e.1) = [] := by
      refine List.filter_eq_nil_iff.mpr fun e he => ?_
      simpa using mem_proposalKeys_of_named (List.mem_map_of_mem he)
    have hall : (p.extra.filter fun e => !proposalKeys.contains e.1) = p.extra :=
      List.filter_eq_self.mpr fun e he => by simpa using hfree e he
    rw [hnone, hall, List.nil_append]
  have hnumber : ((p.toExtra.getJson "pr_number").orElse (.int 0)).toInt? = some p.prNumber := by
    rw [Dict.getJson, hget "pr_number" _ rfl, Option.getD_some]
    unfold Json.orElse
    by_cases hzero : p.prNumber = 0
    · rw [if_neg (by simp [Json.truthy, hzero]), hzero]
      rfl
    · rw [if_pos (by simp [Json.truthy, hzero])]
      rfl
  have hlabels : (p.toExtra.getJson "scope_labels").items? = some (p.scopeLabels.map Json.str) := by
    rw [Dict.getJson, hget "scope_labels" _ rfl, Option.getD_some, Json.items?_arr]
  have hdraft : (p.toExtra.getJson "draft").truthy = p.draft := by
    rw [Dict.getJson, hget "draft" _ rfl]
    rfl
  have hlost : p.toExtra.strOr "summary_md" "" = "" := by
    unfold Dict.strOr Dict.getJson
    rw [hsummary]
    rfl
  unfold proposalFromExtra
  simp only [hnumber, hlabels, map_toStr, hextra, hdraft, hlost, Option.bind_eq_bind,
    Option.bind_some, Dict.strOr_str_self (hget "repo" _ rfl),
    Dict.strOr_str_self (hget "pr_title" _ rfl), Dict.strOr_str_self (hget "pr_url" _ rfl),
    Dict.strOr_str_self (hget "head_sha" _ rfl), Dict.strOr_str_self (hget "base_branch" _ rfl),
    Dict.strOr_str (hget "mergeable_state" _ rfl), Dict.strOr_str (hget "risk" _ rfl),
    Dict.strOr_str_self (hget "check_runs_summary" _ rfl),
    Dict.strOr_str_self (hget "branch_protection_summary" _ rfl),
    Dict.strOr_str_self (hget "body_excerpt" _ rfl), Dict.strOr_str_self (hget "requested_by" _ rfl)]

/-- What is read back has free keys only. -/
theorem freeKeys_of_read {payload : Dict Json} (h : proposalFromExtra payload = some p) :
    p.FreeKeys := by
  unfold proposalFromExtra at h
  simp only [Option.bind_eq_bind, Option.bind_eq_some_iff, Option.some.injEq] at h
  obtain ⟨prNumber, -, scopeLabels, -, rfl⟩ := h
  intro e he
  simpa using (List.mem_filter.mp he).2

/--
**The proposals that come back as they were.** For every proposal, with any free keys: reading back
what was written gives the proposal again exactly when its summary is empty, its merge state and its
risk are not, and none of its free keys is the name of a field.
-/
theorem round_trip_iff (p : PRMergeProposal) (hkeys : (p.extra.map Prod.fst).Nodup) :
    proposalFromExtra p.toExtra = some p
      ↔ p.summaryMd = "" ∧ p.mergeableState ≠ "" ∧ p.risk ≠ "" ∧ p.FreeKeys := by
  constructor
  · intro h
    have hfree := freeKeys_of_read h
    have heq := Option.some.inj (h.symm.trans (proposalFromExtra_toExtra hkeys hfree))
    refine ⟨congrArg summaryMd heq, ?_, ?_, hfree⟩
    · intro hempty
      have hstate := congrArg mergeableState heq
      dsimp only at hstate
      rw [if_pos hempty, hempty] at hstate
      revert hstate
      decide
    · intro hempty
      have hrisk := congrArg risk heq
      dsimp only at hrisk
      rw [if_pos hempty, hempty] at hrisk
      revert hrisk
      decide
  · rintro ⟨hsummary, hstate, hrisk, hfree⟩
    rw [proposalFromExtra_toExtra hkeys hfree, if_neg hstate, if_neg hrisk, ← hsummary]

/-- A proposal with a summary and some free keys. -/
def sampleProposal (summaryMd : String) (extra : Dict Json) : PRMergeProposal where
  repo := "yule/forgekit"
  prNumber := 7
  prUrl := "/pull/7"
  headSha := "c0ffee"
  baseBranch := "main"
  draft := true
  mergeableState := "clean"
  summaryMd := summaryMd
  extra := extra

theorem round_trip_of_sample : proposalFromExtra (sampleProposal "" [("slice", .int 2)]).toExtra
    = some (sampleProposal "" [("slice", .int 2)]) :=
  (round_trip_iff (sampleProposal "" [("slice", .int 2)]) (by decide)).mpr
    ⟨by decide, by decide, by decide, by unfold FreeKeys; decide +kernel⟩

/-- **The summary is lost, and a free key can change the sha and the draft flag.** -/
theorem round_trip_changes_fields :
    (proposalFromExtra (sampleProposal "merge me" []).toExtra).map summaryMd = some ""
      ∧ (proposalFromExtra (sampleProposal "" [("head_sha", .str "0ddba11"), ("draft", .bool false)]).toExtra).map
          (fun p => (p.headSha, p.draft)) = some ("0ddba11", false) := by
  decide +kernel

end PRMergeProposal

end ForgeKit
