import ForgeKit.Goals.ApprovalSplit

/-!
# A packet through its proposal (`goal_tick`, `execute_bridge`, `planning`)

A packet is written into the evidence as `[<risk>] <finding> -> <route>`. The bridge reads it back
with a pattern whose finding is as short as can be and has no line break in it; the planner reads the
tag of the first proposal, the bridge that of the last one.

* `findingOf_eq_some_iff` — the text that the pattern takes for the finding
* `proposal_round_trip_iff` — which packets come back
-/

namespace ForgeKit.Goals

/-! ## The pattern -/

/-- The finding ends at the first arrow, before any line break. -/
theorem findingOf_eq_some_iff {s finding : List Char} :
    findingOf s = some finding ↔ '\n' ∉ finding ∧ ∃ rest, s = finding ++ rest ∧ arrowAt rest = true
      ∧ ∀ front back, finding = front ++ back → back ≠ [] → arrowAt (back ++ rest) = false := by
  induction s generalizing finding with
  | nil =>
    refine iff_of_false nofun ?_
    rintro ⟨-, rest, hs, harrow, -⟩
    rw [(List.append_eq_nil_iff.mp hs.symm).2] at harrow
    cases harrow
  | cons c cs ih =>
    rw [findingOf]
    by_cases harrow : arrowAt (c :: cs) = true
    · rw [if_pos harrow]
      constructor
      · intro h
        cases h
        refine ⟨by simp, c :: cs, rfl, harrow, ?_⟩
        intro front back hnil hne
        exact absurd (List.append_eq_nil_iff.mp hnil.symm).2 hne
      · rintro ⟨-, rest, hs, -, hfirst⟩
        cases finding with
        | nil => rfl
        | cons d finding =>
          -- an arrow before the first character comes first
          have hnone := hfirst [] (d :: finding) rfl (List.cons_ne_nil _ _)
          rw [← hs, harrow] at hnone
          cases hnone
    · rw [if_neg harrow]
      by_cases hbreak : c = '\n'
      · rw [if_pos hbreak]
        refine iff_of_false nofun ?_
        rintro ⟨hno, rest, hs, hrest, -⟩
        cases finding with
        | nil => exact harrow (by rw [hs]; exact hrest)
        | cons d finding =>
          obtain ⟨rfl, -⟩ := List.cons.inj hs
          exact hno (hbreak ▸ List.mem_cons_self)
      · rw [if_neg hbreak]
        constructor
        · intro h
          obtain ⟨finding', hfinding, rfl⟩ := Option.map_eq_some_iff.mp h
          obtain ⟨hno, rest, rfl, hrest, hfirst⟩ := ih.mp hfinding
          refine ⟨by simp [hno, Ne.symm hbreak], rest, rfl, hrest, ?_⟩
          intro front back hsplit hne
          cases front with
          | nil =>
            rw [List.nil_append] at hsplit
            rw [← hsplit]
            exact Bool.eq_false_iff.mpr harrow
          | cons d front => exact hfirst front back (List.cons.inj hsplit).2 hne
        · rintro ⟨hno, rest, hs, hrest, hfirst⟩
          cases finding with
          | nil => exact absurd (by rw [hs]; exact hrest) harrow
          | cons d finding =>
            obtain ⟨rfl, hsplit⟩ := List.cons.inj hs
            have hcs := ih.mpr ⟨fun h => hno (List.mem_cons_of_mem _ h), rest, hsplit, hrest,
              fun front back hsplit hne => hfirst (c :: front) back (by rw [hsplit]; rfl) hne⟩
            rw [hcs]
            rfl

/-- An arrow with no line break after it. -/
theorem arrowAt_of_no_break {rest : List Char} (h : '\n' ∉ rest) :
    arrowAt ('-' :: '>' :: rest) = true := by
  have hdrop : '\n' ∉ (rest.dropWhile PyText.isSpace).dropLast := fun hmem =>
    h ((List.dropWhile_sublist _).subset ((List.dropLast_sublist _).subset hmem))
  rw [arrowAt, List.dropWhile_cons_of_neg (by decide)]
  simpa using hdrop

/-- White space before an arrow belongs to the pattern. -/
theorem arrowAt_blank (rest : List Char) : arrowAt (' ' :: rest) = arrowAt rest := by
  rw [arrowAt, arrowAt, List.dropWhile_cons_of_pos (by decide)]

/-! ## Stripped texts -/

section

variable {s : String}

theorem toList_strip (s : String) : (PyText.strip s).toList = Trim.trim PyText.isSpace s.toList :=
  String.toList_ofList

theorem dropWhile_of_strip (h : PyText.strip s = s) :
    s.toList.dropWhile PyText.isSpace = s.toList := by
  rw [← h, toList_strip, Trim.dropWhile_trim]

/-- What is left of the end of a stripped text starts with something else than white space. -/
theorem dropWhile_back_ne_nil {front back : List Char} (h : PyText.strip s = s)
    (hsplit : s.toList = front ++ back) (hne : back ≠ []) :
    back.dropWhile PyText.isSpace ≠ [] := by
  intro hnil
  have hlast : s.toList.getLast? = some (back.getLast hne) := by
    rw [hsplit, List.getLast?_append_of_ne_nil _ hne, List.getLast?_eq_some_getLast hne]
  rw [← h, toList_strip] at hlast
  have hkept := Trim.not_of_getLast?_trim hlast
  have hdropped := List.dropWhile_eq_nil_iff.mp hnil _ (List.getLast_mem hne)
  rw [hkept] at hdropped
  cases hdropped

/-- No arrow starts in the end of a stripped text that has none. -/
theorem arrowAt_back {front back rest : List Char} (h : PyText.strip s = s)
    (harrow : ¬ "->".toList <:+: s.toList) (hsplit : s.toList = front ++ back) (hne : back ≠ []) :
    arrowAt (back ++ ' ' :: rest) = false := by
  have hback := dropWhile_back_ne_nil h hsplit hne
  have hsuffix : back.dropWhile PyText.isSpace <:+: s.toList :=
    ((List.dropWhile_suffix _).trans ⟨front, hsplit.symm⟩).isInfix
  have hdrop : (back ++ ' ' :: rest).dropWhile PyText.isSpace
      = back.dropWhile PyText.isSpace ++ ' ' :: rest := by
    rw [List.dropWhile_append, if_neg (by simpa using hback)]
  rw [arrowAt, hdrop]
  match hshape : back.dropWhile PyText.isSpace, hback with
  | [c], _ => by_cases hc : c = '-' <;> simp [hc]
  | c :: d :: more, _ =>
    rw [hshape] at hsuffix
    -- a dash and an angle here would be an arrow of the text
    have hno : ¬ (c = '-' ∧ d = '>') := by
      rintro ⟨rfl, rfl⟩
      exact harrow ((List.prefix_append ['-', '>'] more).isInfix.trans hsuffix)
    simp only [List.cons_append]
    split
    · next heq => exact absurd ⟨(List.cons.inj heq).1, (List.cons.inj (List.cons.inj heq).2).1⟩ hno
    · rfl

end

/-! ## What the pattern takes -/

/-- The text between the tag and the route of a proposal. -/
def routeText (p : RepoImprovementPacket) : List Char := '-' :: '>' :: ' ' :: (routePacket p).toList

theorem routePacket_no_break (p : RepoImprovementPacket) : '\n' ∉ (routePacket p).toList := by
  unfold routePacket
  split
  · decide
  · split <;> decide

theorem arrowAt_routeText (p : RepoImprovementPacket) : arrowAt (routeText p) = true :=
  arrowAt_of_no_break (by simp [routePacket_no_break p])

/-- The text that the pattern searches for the finding, and what the tag leaves of a proposal. -/
def searched (p : RepoImprovementPacket) : List Char :=
  (' ' :: (p.finding.toList ++ ' ' :: routeText p)).dropWhile PyText.isSpace

theorem searched_eq {p : RepoImprovementPacket} (h : PyText.strip p.finding = p.finding) :
    searched p = if p.finding.toList = [] then routeText p
      else p.finding.toList ++ ' ' :: routeText p := by
  have hself := dropWhile_of_strip h
  rw [searched, List.dropWhile_cons_of_pos (by decide), List.dropWhile_append, hself]
  by_cases hnil : p.finding.toList = []
  · rw [if_pos (by simp [hnil]), if_pos hnil, List.dropWhile_cons_of_pos (by decide)]
    exact List.dropWhile_cons_of_neg (by decide)
  · rw [if_neg (by simpa using hnil), if_neg hnil]

theorem proposalSummary_toList (p : RepoImprovementPacket) :
    (proposalSummary p).toList
      = '[' :: (p.risk.toList ++ ']' :: ' ' :: (p.finding.toList ++ ' ' :: routeText p)) := by
  simp [proposalSummary, routeText, String.toList_append]

/-- A risk that can be written between brackets and read back. -/
theorem risk_tag {risk : String} (h : risk ∈ ["safe", "risky", "blocked"]) :
    risk.toList ≠ [] ∧ ']' ∉ risk.toList ∧ PyText.strip risk = risk
      ∧ PyText.lower (PyText.strip risk) = risk := by
  simp only [List.mem_cons, List.not_mem_nil, or_false] at h
  rcases h with rfl | rfl | rfl <;> decide

/-- The groups of the pattern on a proposal: its risk, and what is found in the text after it. -/
theorem parseProposal_summary {p : RepoImprovementPacket}
    (hrisk : p.risk ∈ ["safe", "risky", "blocked"]) :
    parseProposal (proposalSummary p)
      = (findingOf (searched p)).map fun finding => (p.risk, PyText.strip (String.ofList finding)) := by
  obtain ⟨hne, hbracket, hstrip, -⟩ := risk_tag hrisk
  have hclosed : ∀ c ∈ p.risk.toList, decide (c ≠ ']') = true := by
    intro c hc
    simpa using fun he : c = ']' => hbracket (he ▸ hc)
  unfold parseProposal
  rw [proposalSummary_toList]
  simp only
  rw [List.takeWhile_append_of_pos hclosed, List.dropWhile_append_of_pos hclosed,
    List.takeWhile_cons_of_neg (by simp), List.dropWhile_cons_of_neg (by simp), List.append_nil]
  simp only
  rw [if_neg hne, String.ofList_toList, hstrip]
  rfl

/-- A beginning of the same text that strips to the finding has all of the finding in it. -/
theorem prefix_of_strip {p : RepoImprovementPacket} {finding rest more : List Char}
    (hsplit : p.finding.toList ++ more = finding ++ rest)
    (hstrip : PyText.strip (String.ofList finding) = p.finding) :
    ∃ w, finding = p.finding.toList ++ w := by
  have hsub : p.finding.toList.length ≤ finding.length := by
    rw [← hstrip, toList_strip, String.toList_ofList]
    exact ((List.rdropWhile_prefix _ _).sublist.trans (List.dropWhile_sublist _)).length_le
  obtain ⟨w, hw⟩ := List.prefix_of_prefix_length_le ⟨more, hsplit⟩ (List.prefix_append finding rest) hsub
  exact ⟨w, hw.symm⟩

/-- **The finding comes back when it has no arrow and no line break, and only then.** -/
theorem findingOf_searched_iff {p : RepoImprovementPacket}
    (h : PyText.strip p.finding = p.finding) :
    (∃ finding, findingOf (searched p) = some finding
        ∧ PyText.strip (String.ofList finding) = p.finding)
      ↔ '\n' ∉ p.finding.toList ∧ ¬ "->".toList <:+: p.finding.toList := by
  rw [searched_eq h]
  by_cases hnil : p.finding.toList = []
  · rw [if_pos hnil, hnil]
    refine iff_of_true ⟨[], ?_, ?_⟩ (by decide)
    · rw [findingOf_eq_some_iff]
      refine ⟨by simp, routeText p, rfl, arrowAt_routeText p, ?_⟩
      intro front back hsplit hne
      exact absurd (List.append_eq_nil_iff.mp hsplit.symm).2 hne
    · rw [← String.toList_inj, hnil]
      rfl
  · rw [if_neg hnil]
    constructor
    · rintro ⟨finding, hfinding, hstrip⟩
      obtain ⟨hno, rest, hrest, -, hfirst⟩ := findingOf_eq_some_iff.mp hfinding
      obtain ⟨w, rfl⟩ := prefix_of_strip hrest hstrip
      rw [List.append_assoc, List.append_cancel_left_eq] at hrest
      have hbreak : '\n' ∉ p.finding.toList := fun hm => hno (List.mem_append_left _ hm)
      refine ⟨hbreak, ?_⟩
      rintro ⟨front, back, hsplit⟩
      -- the pattern would have stopped at this arrow
      have hstop := hfirst front ('-' :: '>' :: (back ++ w)) (by simp [← hsplit]) (by simp)
      have harrow : arrowAt ('-' :: '>' :: (back ++ w) ++ rest) = true := by
        rw [List.cons_append, List.cons_append, List.append_assoc, ← hrest]
        refine arrowAt_of_no_break ?_
        rw [List.mem_append, not_or]
        refine ⟨fun hm => hbreak ?_, by simp [routeText, routePacket_no_break p]⟩
        rw [← hsplit]
        exact List.mem_append_right _ hm
      rw [harrow] at hstop
      cases hstop
    · rintro ⟨hno, harrow⟩
      refine ⟨p.finding.toList, ?_, by rw [String.ofList_toList, h]⟩
      rw [findingOf_eq_some_iff]
      refine ⟨hno, ' ' :: routeText p, rfl, by rw [arrowAt_blank]; exact arrowAt_routeText p, ?_⟩
      intro front back hsplit hne
      exact arrowAt_back h harrow hsplit hne

/-! ## The round trip -/

/-- What the link of one packet leaves reads back as that packet. -/
def RoundTrips (g : Goal) (p : RepoImprovementPacket) (now : String) : Prop :=
  ∃ r, linkPackets g [p] now = .ok r
    ∧ (∃ pkt, resolvePacket r.goal (some (packetId p)) = .ok (packetId p, pkt)
        ∧ pkt.finding = p.finding ∧ pkt.risk = p.risk)
    ∧ proposalRisk r.goal (packetId p) = p.risk

/-- The last proposal of the packet is the new one. -/
theorem lastProposal_linkedGoal (g : Goal) (p : RepoImprovementPacket) (now updatedAt : String) :
    lastProposal (linkedGoal g [p] now updatedAt) (packetId p) = some (proposalOf now p) := by
  simp [lastProposal, proposalOf, packetId_ne_empty p]

/-- What the bridge reads of the packet. -/
theorem resolvePacket_linkedGoal {g : Goal} {p : RepoImprovementPacket} {now updatedAt : String}
    (hrisk : p.risk ∈ ["safe", "risky", "blocked"]) (pkt : RepoImprovementPacket) :
    resolvePacket (linkedGoal g [p] now updatedAt) (some (packetId p)) = .ok (packetId p, pkt)
      ↔ ∃ finding, findingOf (searched p) = some finding
        ∧ pkt = { finding := PyText.strip (String.ofList finding), risk := p.risk } := by
  have hlinked : packetId p ∈ (linkedGoal g [p] now updatedAt).packets := by
    rw [linkedGoal_packets]
    exact mem_linkIds.mpr (.inr (by simp))
  have hrequest : requestedId (some (packetId p)) = some (packetId p) := by
    simp [requestedId, packetId_strip, Option.filter, packetId_ne_empty]
  have hid : resolveId (linkedGoal g [p] now updatedAt) (some (packetId p)) = .ok (packetId p) := by
    rw [resolveId, hrequest]
    exact if_pos hlinked
  simp only [resolvePacket, List.ne_nil_of_mem hlinked, hid, lastProposal_linkedGoal, bind,
    Except.bind, if_false, pure, Except.pure]
  rw [show (proposalOf now p).summary = proposalSummary p from rfl, parseProposal_summary hrisk]
  cases findingOf (searched p) with
  | none => simp [throw, throwThe, MonadExceptOf.throw]
  | some finding => simp [hrisk, eq_comm]

/-- The planner reads the first tag that there is. -/
theorem proposalRisk_linkedGoal {g : Goal} {p : RepoImprovementPacket} {now updatedAt : String}
    (hrisk : p.risk ∈ ["safe", "risky", "blocked"]) :
    proposalRisk (linkedGoal g [p] now updatedAt) (packetId p)
      = (proposalTag g.evidence (packetId p)).getD p.risk := by
  obtain ⟨-, hbracket, -, hlower⟩ := risk_tag hrisk
  have hnew : proposalTag [proposalOf now p] (packetId p) = some p.risk := by
    have htag := tagOf_of_toList (proposalSummary_toList p) hbracket
    rw [String.ofList_toList, hlower] at htag
    simp [proposalTag, proposalOf, htag]
  rw [proposalRisk, linkedGoal_evidence, proposalTag_append, List.map_cons, List.map_nil, hnew]
  cases proposalTag g.evidence (packetId p) <;> rfl

/--
**When a packet comes back from its proposal.** The finding has no arrow and no line break in it,
and no earlier proposal of the packet in this goal has another tag.
-/
theorem proposal_round_trip_iff (g : Goal) (p : RepoImprovementPacket) (now : String)
    (hfinding : PyText.strip p.finding = p.finding)
    (hrisk : p.risk ∈ ["safe", "risky", "blocked"]) :
    RoundTrips g p now ↔
      '\n' ∉ p.finding.toList ∧ ¬ "->".toList <:+: p.finding.toList
        ∧ ∀ tag, proposalTag g.evidence (packetId p) = some tag → tag = p.risk := by
  obtain ⟨r, updatedAt, hlink, hgoal⟩ := linkPackets_spec g [p] now
  have hresolve : (∃ pkt, resolvePacket r.goal (some (packetId p)) = .ok (packetId p, pkt)
        ∧ pkt.finding = p.finding ∧ pkt.risk = p.risk)
      ↔ ∃ finding, findingOf (searched p) = some finding
        ∧ PyText.strip (String.ofList finding) = p.finding := by
    simp only [hgoal, resolvePacket_linkedGoal hrisk]
    constructor
    · rintro ⟨_, ⟨finding, hfound, rfl⟩, hsame, -⟩
      exact ⟨finding, hfound, hsame⟩
    · rintro ⟨finding, hfound, hsame⟩
      exact ⟨_, ⟨finding, hfound, rfl⟩, hsame, rfl⟩
  have htag : proposalRisk r.goal (packetId p) = p.risk
      ↔ ∀ tag, proposalTag g.evidence (packetId p) = some tag → tag = p.risk := by
    rw [hgoal, proposalRisk_linkedGoal hrisk]
    cases proposalTag g.evidence (packetId p) <;> simp
  rw [← and_assoc, ← findingOf_searched_iff hfinding, ← hresolve, ← htag]
  simp only [RoundTrips, hlink, Except.ok.injEq, exists_eq_left']

theorem proposal_round_trip_todo :
    PyText.strip todoPacket.finding = todoPacket.finding
      ∧ todoPacket.risk ∈ ["safe", "risky", "blocked"]
      ∧ RoundTrips openGoal todoPacket "t1" :=
  ⟨by decide, by decide, (proposal_round_trip_iff openGoal todoPacket "t1" (by decide)
    (by decide)).mpr ⟨by decide, by decide, nofun⟩⟩

/-- A finding about a rename, as the repository's own notes write one. -/
def renamePacket : RepoImprovementPacket :=
  { finding := "rename agents -> forgekit", affectedArea := "docs" }

/-- The bridge reads back `rename agents`. -/
theorem proposal_cut_at_arrow :
    ¬ ∀ (g : Goal) (p : RepoImprovementPacket) (now : String), PyText.strip p.finding = p.finding →
        p.risk ∈ ["safe", "risky", "blocked"] → RoundTrips g p now := by
  intro h
  obtain ⟨r, hlink, ⟨pkt, hpkt, hfinding, -⟩, -⟩ :=
    h openGoal renamePacket "t1" (by decide) (by decide)
  obtain ⟨r', updatedAt, hlink', hgoal⟩ := linkPackets_spec openGoal [renamePacket] "t1"
  obtain rfl : r' = r := Except.ok.inj (hlink'.symm.trans hlink)
  rw [hgoal, resolvePacket_linkedGoal (by decide)] at hpkt
  obtain ⟨finding, hfound, rfl⟩ := hpkt
  have hcut : findingOf (searched renamePacket) = some "rename agents".toList := by decide
  rw [hcut, Option.some.injEq] at hfound
  subst hfound
  exact absurd hfinding (by decide)

end ForgeKit.Goals
