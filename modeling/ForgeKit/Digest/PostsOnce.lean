import ForgeKit.Digest.Cycle

/-!
# The digest posts an article once (`digest/scheduler.py`)

`posts_once` — in a run whose cycles post what they record, and read no article twice, every row has
been delivered and nothing is delivered twice.
-/

namespace ForgeKit.Digest

/-! ## Where the targets of a cycle come from -/

section Targets

variable {lower : String → String} {retention : Int} {ledger : Ledger} {env : Env}

theorem map_fst_filter_zipIdx {α : Type*} (p : α → Bool) (l : List α) (n : Nat) :
    ((l.zipIdx n).filter fun t => p t.1).map Prod.fst = l.filter p := by
  induction l generalizing n with
  | nil => rfl
  | cons a l ih =>
    rw [List.zipIdx_cons, List.filter_cons, List.filter_cons]
    split
    · rw [List.map_cons, ih]
    · exact ih (n + 1)

/-- The card of an entry. -/
def Attempt.card (lower : String → String) (t : Attempt) (entry : FeedEntry) : DigestCard :=
  formatCard entry t.source.host (t.verdict lower entry) (some t.role)

/-- The card goes to the department of the verdict, and to no other. -/
theorem depts_card {t : Attempt} (ht : t.source ∈ sourcesForRole t.role) (entry : FeedEntry) :
    (t.card lower entry).depts = [(t.verdict lower entry).primary] := by
  have haffected := affected_eq_primary ht lower entry.title entry.summary
  have hcard : (t.card lower entry).affectedDepts = [(t.verdict lower entry).primary] := by
    unfold Attempt.card formatCard Attempt.verdict
    simp [haffected]
  unfold DigestCard.depts
  rw [hcard]
  split
  · rfl
  · rfl

theorem article_card {t : Attempt} (hlower : lower "" = "") (ht : t.source ∈ sourcesForRole t.role)
    (entry : FeedEntry) :
    articleOf lower (t.card lower entry).url (t.card lower entry).title
        (t.card lower entry).sourceHost (t.card lower entry).deptPrimary
      = t.article lower entry := by
  have htitle : (t.card lower entry).title = PyText.strip entry.title := by
    unfold Attempt.card formatCard
    rw [if_neg entry.title_ne]
  have hhost : (t.card lower entry).sourceHost = t.source.host := strip_host ht
  have hurl : (t.card lower entry).url = PyText.strip entry.link := rfl
  rw [htitle, hhost, hurl, articleOf, canonicalUrl_strip lower hlower,
    titleNormalised_strip lower hlower]
  rfl

variable (lower env) in
/-- The department targets of a card: the one of its department, if that has a channel. -/
theorem deptFeeds_card {t : Attempt} (ht : t.source ∈ sourcesForRole t.role) (entry : FeedEntry) :
    (cardTargets env (t.card lower entry)).filter DispatchTarget.isDeptFeed
      = (deptTarget env (t.card lower entry) (t.verdict lower entry).primary).toList := by
  have hdept : ∀ target ∈ (deptTarget env (t.card lower entry) (t.verdict lower entry).primary).toList,
      target.isDeptFeed = true := by
    intro target htarget
    obtain ⟨id, -, rfl⟩ := Option.map_eq_some_iff.mp (Option.mem_toList.mp htarget)
    rfl
  have hthread : ((researchThread env (t.card lower entry)).map Prod.snd).toList.filter
      DispatchTarget.isDeptFeed = [] := by
    rw [List.filter_eq_nil_iff]
    intro target htarget
    obtain ⟨thread, hthread, rfl⟩ := Option.map_eq_some_iff.mp (Option.mem_toList.mp htarget)
    unfold researchThread at hthread
    split at hthread
    · obtain ⟨id, -, rfl⟩ := Option.map_eq_some_iff.mp hthread
      simp [DispatchTarget.isDeptFeed]
    · cases hthread
  unfold cardTargets
  rw [List.filter_append, hthread, List.append_nil, depts_card ht]
  rw [List.filterMap_cons, List.filterMap_nil]
  cases htarget : deptTarget env (t.card lower entry) (t.verdict lower entry).primary with
  | none => rfl
  | some target =>
    rw [htarget] at hdept
    exact List.filter_eq_self.mpr hdept

/-- An entry of a read that the ledger lets pass, of a department with a channel. -/
def Attempt.articles (lower : String → String) (retention : Int) (env : Env) (ledger : Ledger)
    (t : Attempt) : List Article :=
  match t.fetched with
  | .entries es =>
    ((t.freshEntries lower retention ledger 5 es).filter fun entry =>
        (resolveChannelId env (t.verdict lower entry).primary).isSome).map (t.article lower)
  | _ => []

/-- What a cycle has to post, if no feed ends it: the new articles of departments with a channel. -/
def Cycle.articles (lower : String → String) (retention : Int) (c : Cycle) (ledger : Ledger) :
    List Article :=
  if c.attempts.any fun t => t.fetched matches .malformed then []
  else c.attempts.flatMap (Attempt.articles lower retention c.env ledger)

/-- What is said of the department targets of some cards: their articles, and their channels. -/
def PlansArticles (lower : String → String) (env : Env) (cards : List DigestCard)
    (articles : List Article) : Prop :=
  ((buildDispatchPlan cards env).targets.filter DispatchTarget.isDeptFeed).map
      (DispatchTarget.article lower) = articles
    ∧ ∀ target ∈ (buildDispatchPlan cards env).targets, target.isDeptFeed = true →
        target.channelName = "dept-" ++ (target.article lower).dept

theorem PlansArticles.append {cards cards' : List DigestCard} {articles articles' : List Article}
    (h : PlansArticles lower env cards articles) (h' : PlansArticles lower env cards' articles') :
    PlansArticles lower env (cards ++ cards') (articles ++ articles') := by
  have htargets : (buildDispatchPlan (cards ++ cards') env).targets
      = (buildDispatchPlan cards env).targets ++ (buildDispatchPlan cards' env).targets :=
    List.flatMap_append
  constructor
  · rw [htargets, List.filter_append, List.map_append, h.1, h'.1]
  · intro target htarget
    rw [htargets] at htarget
    rcases List.mem_append.mp htarget with hleft | hright
    · exact h.2 target hleft
    · exact h'.2 target hright

theorem plansArticles_nil : PlansArticles lower env [] [] := ⟨rfl, nofun⟩

variable (env) in
/-- One entry that the ledger lets pass. -/
theorem plansArticles_entry {t : Attempt} (hlower : lower "" = "")
    (ht : t.source ∈ sourcesForRole t.role) (entry : FeedEntry) :
    PlansArticles lower env [t.card lower entry]
      (if (resolveChannelId env (t.verdict lower entry).primary).isSome then
        [t.article lower entry] else []) := by
  have htargets : (buildDispatchPlan [t.card lower entry] env).targets
      = cardTargets env (t.card lower entry) := List.flatMap_singleton ..
  have hfeeds := deptFeeds_card lower env ht entry
  rw [← htargets] at hfeeds
  cases hid : resolveChannelId env (t.verdict lower entry).primary with
  | none =>
    rw [deptTarget, hid] at hfeeds
    refine ⟨by rw [hfeeds]; rfl, ?_⟩
    intro target hmem hkind
    have hin := List.mem_filter.mpr ⟨hmem, hkind⟩
    rw [hfeeds] at hin
    cases hin
  | some id =>
    rw [deptTarget, hid] at hfeeds
    refine ⟨by rw [hfeeds, if_pos Option.isSome_some]; exact congrArg (· :: []) (article_card hlower ht entry), ?_⟩
    intro target hmem hkind
    have hin := List.mem_filter.mpr ⟨hmem, hkind⟩
    rw [hfeeds] at hin
    rw [List.mem_singleton.mp hin]
    rfl

variable (env) in
/-- The entries of a read that the ledger lets pass. -/
theorem plansArticles_entries {t : Attempt} (hlower : lower "" = "")
    (ht : t.source ∈ sourcesForRole t.role) (es : List FeedEntry) :
    PlansArticles lower env (es.map (t.card lower))
      ((es.filter fun entry => (resolveChannelId env (t.verdict lower entry).primary).isSome).map
        (t.article lower)) := by
  induction es with
  | nil => exact plansArticles_nil
  | cons entry es ih =>
    have happend := (plansArticles_entry env hlower ht entry).append ih
    rw [List.map_cons, List.filter_cons]
    split
    · next hchannel =>
      rw [if_pos hchannel] at happend
      exact happend
    · next hchannel =>
      rw [if_neg hchannel] at happend
      exact happend

variable (env) in
/-- One read. -/
theorem plansArticles_fetch {t : Attempt} {o : CrawlOutcome} (hlower : lower "" = "")
    (ht : t.source ∈ sourcesForRole t.role) (h : fetchSource lower retention ledger t = some o) :
    (t.fetched matches .malformed) = false
      ∧ PlansArticles lower env (cardsOf [o]) (t.articles lower retention env ledger) := by
  unfold fetchSource at h
  rw [if_neg (not_not_intro (host_allowed ht))] at h
  unfold Attempt.articles
  cases hf : t.fetched with
  | malformed =>
    rw [hf] at h
    cases h
  | blocked reason =>
    rw [hf] at h
    cases h
    exact ⟨rfl, plansArticles_nil⟩
  | entries es =>
    rw [hf] at h
    cases h
    refine ⟨rfl, ?_⟩
    rw [cardsOf, List.flatMap_singleton]
    exact plansArticles_entries env hlower ht (t.freshEntries lower retention ledger 5 es)

variable (env) in
/-- All reads of a cycle. -/
theorem plansArticles_crawl {ts : List Attempt} {outcomes : List CrawlOutcome} (hlower : lower "" = "")
    (hts : ∀ t ∈ ts, t.source ∈ sourcesForRole t.role)
    (h : ts.mapM (fetchSource lower retention ledger) = some outcomes) :
    (ts.any fun t => t.fetched matches .malformed) = false
      ∧ PlansArticles lower env (cardsOf outcomes)
          (ts.flatMap (Attempt.articles lower retention env ledger)) := by
  induction ts generalizing outcomes with
  | nil =>
    cases h
    exact ⟨rfl, plansArticles_nil⟩
  | cons t ts ih =>
    rw [List.mapM_cons] at h
    obtain ⟨o, ho, h⟩ := Option.bind_eq_some_iff.mp h
    obtain ⟨os, hos, h⟩ := Option.bind_eq_some_iff.mp h
    cases h
    obtain ⟨hwell, hplan⟩ := plansArticles_fetch env hlower (hts t List.mem_cons_self) ho
    obtain ⟨hwells, hplans⟩ := ih (fun t' ht' => hts t' (List.mem_cons_of_mem _ ht')) hos
    have hcards : cardsOf (o :: os) = cardsOf [o] ++ cardsOf os := by simp [cardsOf]
    refine ⟨by rw [List.any_cons, hwell, hwells]; rfl, ?_⟩
    rw [hcards, List.flatMap_cons]
    exact hplan.append hplans

theorem source_of_attempt {c : Cycle} {t : Attempt} (h : t ∈ c.attempts) :
    t.source ∈ sourcesForRole t.role := by
  obtain ⟨⟨role, i⟩, -, ht⟩ := List.mem_flatMap.mp h
  obtain ⟨source, hsource, rfl⟩ := List.mem_map.mp ht
  exact hsource

/-- The department targets of a cycle are the articles that it has to post. -/
theorem plansArticles_cycle {c : Cycle} {outcomes : List CrawlOutcome} (hlower : lower "" = "")
    (h : c.crawl lower retention ledger = some outcomes) :
    PlansArticles lower c.env (cardsOf outcomes) (c.articles lower retention ledger) := by
  obtain ⟨hwell, hplans⟩ := plansArticles_crawl c.env hlower
    (fun t => source_of_attempt) h
  unfold Cycle.articles
  rw [if_neg (by rw [hwell]; exact Bool.false_ne_true)]
  exact hplans

/-- An article that a cycle has to post is no duplicate, at some time of the cycle. -/
theorem fresh_of_mem_articles {c : Cycle} {a : Article} (h : a ∈ c.articles lower retention ledger) :
    ∃ i source j, isDuplicate ledger (c.checkedAt i source j - retention) a = false := by
  unfold Cycle.articles at h
  split at h
  · cases h
  · obtain ⟨t, ht, ha⟩ := List.mem_flatMap.mp h
    obtain ⟨⟨role, i⟩, -, ht⟩ := List.mem_flatMap.mp ht
    obtain ⟨source, -, rfl⟩ := List.mem_map.mp ht
    unfold Attempt.articles at ha
    split at ha
    · obtain ⟨entry, hentry, rfl⟩ := List.mem_map.mp ha
      obtain ⟨⟨entry', j⟩, hfresh, rfl⟩ := List.mem_map.mp (List.mem_of_mem_filter hentry)
      have hnot := (List.mem_filter.mp hfresh).2
      exact ⟨i, source, j, by simpa using hnot⟩
    · cases ha

end Targets

/-! ## What the digest promises -/

/-- The department targets of the plans that were delivered. -/
def World.deptFeeds (w : World) : List DispatchTarget :=
  (w.delivered.flatMap DispatchPlan.targets).filter DispatchTarget.isDeptFeed

section Promise

variable (lower : String → String) (retention : Int)

/-- Two targets are not the same article for one department. -/
def NotRepeated (t u : DispatchTarget) : Prop :=
  t.channelName = u.channelName →
    canonicalUrl lower t.card.url ≠ canonicalUrl lower u.card.url
      ∧ ¬ (t.card.sourceHost = u.card.sourceHost
          ∧ titleNormalised lower t.card.title = titleNormalised lower u.card.title)

/-- Every row was delivered to its department, and no department was given an article twice. -/
structure Honest (w : World) : Prop where
  recorded : ∀ r ∈ w.ledger.rows, ∃ plan ∈ w.delivered, ∃ t ∈ plan.targets,
    t.targetKind = "dept_feed" ∧ t.channelName = "dept-" ++ r.dept
      ∧ r.urlHash = hashUrl lower t.card.url ∧ r.titleHash = hashTitle lower t.card.title
      ∧ r.host = t.card.sourceHost
  once : w.deptFeeds.Pairwise (NotRepeated lower)

/-- The clock of the cycle stays within the retention from `start` on. -/
structure Cycle.Within (start : Int) (c : Cycle) : Prop where
  recordedAt : ∀ i, start ≤ c.recordedAt i
  checkedAt : ∀ i source j, c.checkedAt i source j < start + retention

/-- A cycle whose post does not return has nothing to post, and a cycle whose post returns has no
article to post twice. -/
def PostsApart (w : World) (c : Cycle) : Prop :=
  match c.post with
  | some .returned => (c.articles lower retention w.ledger).Pairwise Apart
  | some .cancelled => True
  | some .raised | none => c.articles lower retention w.ledger = []

instance (w : World) (c : Cycle) : Decidable (PostsApart lower retention w c) := by
  unfold PostsApart
  split <;> infer_instance

/-- What holds between the ledger and the delivered targets. -/
structure Inv (start : Int) (w : World) : Prop where
  named : ∀ t ∈ w.deptFeeds, t.channelName = "dept-" ++ (t.article lower).dept
  hasRow : ∀ t ∈ w.deptFeeds, ∃ r ∈ w.ledger.rows, r.Of (t.article lower)
  delivered : ∀ r ∈ w.ledger.rows, ∃ t ∈ w.deptFeeds, r.Of (t.article lower)
  recent : ∀ r ∈ w.ledger.rows, start ≤ r.postedAt
  distinct : (w.deptFeeds.map (DispatchTarget.article lower)).Pairwise Distinct

end Promise

section Run

variable {lower : String → String} {retention start : Int} {w : World} {c : Cycle}

theorem Inv.honest (h : Inv lower start w) : Honest lower w := by
  constructor
  · intro r hr
    obtain ⟨t, ht, hof⟩ := h.delivered r hr
    obtain ⟨hmem, hkind⟩ := List.mem_filter.mp ht
    obtain ⟨plan, hplan, htarget⟩ := List.mem_flatMap.mp hmem
    have hname := h.named t ht
    have hdept : r.dept = (t.article lower).dept := by rw [hof]; rfl
    refine ⟨plan, hplan, t, htarget, beq_iff_eq.mp hkind, by rw [hname, hdept], ?_, ?_, ?_⟩
    · rw [hof]; rfl
    · rw [hof]; rfl
    · rw [hof]; rfl
  · refine (List.pairwise_map.mp h.distinct).imp_of_mem ?_
    intro t u ht hu hdistinct hchannel
    rw [h.named t ht, h.named u hu] at hchannel
    exact hdistinct (String.append_right_inj _ |>.mp hchannel)

theorem inv_empty : Inv lower start {} :=
  ⟨nofun, nofun, nofun, nofun, List.Pairwise.nil⟩

variable (lower) in
/-- The articles of the department targets are what the loop records. -/
theorem map_fst_recordsOf (plan : DispatchPlan) (recordedAt : Nat → Int) :
    (recordsOf lower plan recordedAt).map Prod.fst
      = (plan.targets.filter DispatchTarget.isDeptFeed).map (DispatchTarget.article lower) := by
  rw [recordsOf, List.map_map, ← map_fst_filter_zipIdx DispatchTarget.isDeptFeed plan.targets 0,
    List.map_map]
  rfl

theorem start_le_of_mem_recordsOf {plan : DispatchPlan} {a : Article × Int}
    (hwithin : c.Within retention start) (h : a ∈ recordsOf lower plan c.recordedAt) :
    start ≤ a.2 := by
  obtain ⟨t, -, rfl⟩ := List.mem_map.mp h
  exact hwithin.recordedAt t.2

section Posted

variable {outcomes : List CrawlOutcome} {plan : DispatchPlan}

/-- What a cycle has to post is new to the ledger. -/
theorem cutoff_of_mem_articles {a : Article} (hwithin : c.Within retention start)
    (h : a ∈ c.articles lower retention w.ledger) :
    ∃ cutoff < start, isDuplicate w.ledger cutoff a = false := by
  obtain ⟨i, source, j, hfresh⟩ := fresh_of_mem_articles h
  have hchecked := hwithin.checkedAt i source j
  exact ⟨_, by omega, hfresh⟩

/-- The rows after a cycle that has no article to post twice. -/
theorem recordAll_cycle (hinv : Inv lower start w) (hwithin : c.Within retention start)
    (hplan : (plan.targets.filter DispatchTarget.isDeptFeed).map (DispatchTarget.article lower)
      = c.articles lower retention w.ledger)
    (hapart : (c.articles lower retention w.ledger).Pairwise Apart) :
    (recordAll w.ledger (recordsOf lower plan c.recordedAt)).rows
      = w.ledger.rows ++ (recordsOf lower plan c.recordedAt).map fun a => a.1.row a.2 := by
  have hfst := (map_fst_recordsOf lower plan c.recordedAt).trans hplan
  refine recordAll_rows ?_ (hfst.symm ▸ hapart)
  intro a ha
  have hmem : a.1 ∈ c.articles lower retention w.ledger := hfst ▸ List.mem_map_of_mem ha
  obtain ⟨cutoff, hcutoff, hfresh⟩ := cutoff_of_mem_articles hwithin hmem
  exact find?_of_fresh hfresh (fun r hr => lt_of_lt_of_le hcutoff (hinv.recent r hr)) a.2

/-- A plan that is delivered keeps the invariant. -/
theorem Inv.deliver (hinv : Inv lower start w) (hwithin : c.Within retention start)
    (hplan : (plan.targets.filter DispatchTarget.isDeptFeed).map (DispatchTarget.article lower)
      = c.articles lower retention w.ledger)
    (hnamed : ∀ target ∈ plan.targets, target.isDeptFeed = true →
      target.channelName = "dept-" ++ (target.article lower).dept)
    (hapart : (c.articles lower retention w.ledger).Pairwise Apart) :
    Inv lower start
      { ledger := recordAll w.ledger (recordsOf lower plan c.recordedAt)
        delivered := w.delivered ++ [plan] } := by
  have hrows := recordAll_cycle hinv hwithin hplan hapart
  have hfst := map_fst_recordsOf lower plan c.recordedAt
  have hfeeds : World.deptFeeds
      { ledger := recordAll w.ledger (recordsOf lower plan c.recordedAt)
        delivered := w.delivered ++ [plan] }
      = w.deptFeeds ++ plan.targets.filter DispatchTarget.isDeptFeed := by
    simp [World.deptFeeds]
  constructor
  · intro t ht
    rw [hfeeds] at ht
    rcases List.mem_append.mp ht with hold | hnew
    · exact hinv.named t hold
    · exact hnamed t (List.mem_of_mem_filter hnew) (List.mem_filter.mp hnew).2
  · intro t ht
    rw [hfeeds] at ht
    rw [hrows]
    rcases List.mem_append.mp ht with hold | hnew
    · obtain ⟨r, hr, hof⟩ := hinv.hasRow t hold
      exact ⟨r, List.mem_append_left _ hr, hof⟩
    · have hmem : t.article lower ∈ (recordsOf lower plan c.recordedAt).map Prod.fst :=
        hfst ▸ List.mem_map_of_mem hnew
      obtain ⟨a, ha, heq⟩ := List.mem_map.mp hmem
      refine ⟨a.1.row a.2, List.mem_append_right _ (List.mem_map_of_mem ha), ?_⟩
      rw [← heq]
      rfl
  · intro r hr
    rw [hrows] at hr
    rw [hfeeds]
    rcases List.mem_append.mp hr with hold | hnew
    · obtain ⟨t, ht, hof⟩ := hinv.delivered r hold
      exact ⟨t, List.mem_append_left _ ht, hof⟩
    · obtain ⟨a, ha, rfl⟩ := List.mem_map.mp hnew
      have hmem : a.1 ∈ (plan.targets.filter DispatchTarget.isDeptFeed).map
          (DispatchTarget.article lower) := hfst ▸ List.mem_map_of_mem ha
      obtain ⟨t, ht, heq⟩ := List.mem_map.mp hmem
      refine ⟨t, List.mem_append_right _ ht, ?_⟩
      rw [heq]
      rfl
  · intro r hr
    rw [hrows] at hr
    rcases List.mem_append.mp hr with hold | hnew
    · exact hinv.recent r hold
    · obtain ⟨a, ha, rfl⟩ := List.mem_map.mp hnew
      exact start_le_of_mem_recordsOf hwithin ha
  · rw [hfeeds, List.map_append, hplan, List.pairwise_append]
    refine ⟨hinv.distinct, hapart.imp Apart.distinct, ?_⟩
    intro a ha b hb
    obtain ⟨t, ht, rfl⟩ := List.mem_map.mp ha
    obtain ⟨r, hr, hof⟩ := hinv.hasRow t ht
    obtain ⟨cutoff, hcutoff, hfresh⟩ := cutoff_of_mem_articles hwithin hb
    exact distinct_of_fresh hfresh hr hof (lt_of_lt_of_le hcutoff (hinv.recent r hr))

end Posted

/-- A cycle that has nothing to post records nothing. -/
theorem step_of_articles_nil {outcomes : List CrawlOutcome} (hlower : lower "" = "")
    (hcrawl : c.crawl lower retention w.ledger = some outcomes)
    (hnil : c.articles lower retention w.ledger = []) (hpost : c.post ≠ some .returned) :
    w.step lower retention c = w := by
  obtain ⟨hplan, -⟩ := plansArticles_cycle hlower hcrawl
  have hrecords : recordsOf lower (buildDispatchPlan (cardsOf outcomes) c.env) c.recordedAt = [] := by
    rw [← List.map_eq_nil_iff (f := Prod.fst), map_fst_recordsOf, hplan, hnil]
  unfold World.step runOneCycle
  rw [hcrawl]
  cases hp : c.post with
  | none => simp [hrecords, recordAll]
  | some outcome =>
    cases outcome with
    | returned => exact absurd hp hpost
    | raised => simp [hrecords, recordAll]
    | cancelled => rfl

theorem Inv.step (hlower : lower "" = "") (hinv : Inv lower start w)
    (hwithin : c.Within retention start) (hguard : PostsApart lower retention w c) :
    Inv lower start (w.step lower retention c) := by
  cases hcrawl : c.crawl lower retention w.ledger with
  | none =>
    unfold World.step runOneCycle
    rw [hcrawl]
    exact hinv
  | some outcomes =>
    unfold PostsApart at hguard
    cases hpost : c.post with
    | none =>
      rw [hpost] at hguard
      rw [step_of_articles_nil hlower hcrawl hguard (by simp [hpost])]
      exact hinv
    | some outcome =>
      rw [hpost] at hguard
      cases outcome with
      | returned =>
        obtain ⟨hplan, hnamed⟩ := plansArticles_cycle hlower hcrawl
        unfold World.step runOneCycle
        rw [hcrawl, hpost]
        exact hinv.deliver hwithin hplan hnamed hguard
      | raised =>
        rw [step_of_articles_nil hlower hcrawl hguard (by simp [hpost])]
        exact hinv
      | cancelled =>
        unfold World.step runOneCycle
        rw [hcrawl, hpost]
        exact hinv

/--
In every run whose cycles have nothing to post where the post does not return, and no article to post
twice where it does, the ledger holds what was delivered, and nothing is delivered twice.
-/
theorem posts_once {cycles : List Cycle} (hlower : lower "" = "")
    (hwithin : ∀ c ∈ cycles, c.Within retention start)
    (hguard : Machine.EachStep (World.step lower retention) (PostsApart lower retention) {} cycles) :
    Machine.Always (World.step lower retention) (Honest lower) {} cycles := by
  have hinv : Machine.Always (World.step lower retention) (Inv lower start) {} cycles :=
    Machine.always_of_guard (A := fun c => c.Within retention start)
      (fun _ _ hw hi hg => hi.step hlower hw hg) inv_empty hwithin hguard
  rw [Machine.always_iff_prefix] at hinv ⊢
  exact fun pre hpre => (hinv pre hpre).honest

end Run

/-! ## Cycles of one feed -/

/-- A cycle of the designer's sources, of which one answers. -/
def sampleCycle (es : List FeedEntry) (post : PostOutcome) : Cycle where
  roles := ["product-designer"]
  fetch _ source := if source.host = "material.io" then .entries es else .blocked "http URLError"
  env key := if key = "DISCORD_DEPT_DESIGN_CHANNEL_ID" then some "100" else none
  post := some post
  checkedAt _ _ _ := 0
  recordedAt _ := 0

/-- An entry, and the same page under another title and with a tracking parameter. -/
def sampleEntry : FeedEntry where
  title := "New tokens"
  link := "https://material.io/blog/tokens"

def sampleEntryAgain : FeedEntry where
  title := "New tokens, updated"
  link := "https://material.io/blog/tokens?utm_source=feed"

/-- The clock of the sample cycles stands still. -/
theorem sampleCycle_within (es : List FeedEntry) (post : PostOutcome) :
    (sampleCycle es post).Within 14 0 :=
  ⟨fun _ => le_refl 0, fun _ _ _ => show (0 : Int) < 0 + 14 by decide⟩

theorem two_cycles_post_once :
    Machine.Always (World.step PyText.lower 14) (Honest PyText.lower) {}
      [sampleCycle [sampleEntry] .returned, sampleCycle [sampleEntryAgain] .returned] := by
  have hwithin : ∀ c ∈ [sampleCycle [sampleEntry] .returned,
      sampleCycle [sampleEntryAgain] .returned], c.Within 14 0 := by
    intro c hc
    rcases List.mem_pair.mp hc with rfl | rfl
    · exact sampleCycle_within _ _
    · exact sampleCycle_within _ _
  exact posts_once (by decide) hwithin (by decide +kernel)

/-- What the world is after one cycle. -/
theorem honest_of_always {c : Cycle}
    (h : Machine.Always (World.step PyText.lower 14) (Honest PyText.lower) {} [c]) :
    Honest PyText.lower (World.step PyText.lower 14 {} c) := h.2

/-- A post that fails is recorded all the same, and a page that a feed names twice is posted twice. -/
theorem failed_and_repeated_posts :
    ¬ Machine.Always (World.step PyText.lower 14) (Honest PyText.lower) {}
        [sampleCycle [sampleEntry] .raised]
      ∧ ¬ Machine.Always (World.step PyText.lower 14) (Honest PyText.lower) {}
          [sampleCycle [sampleEntry, sampleEntryAgain] .returned] := by
  refine ⟨fun h => ?_, fun h => ?_⟩
  · have hhonest := honest_of_always h
    have hrows : (World.step PyText.lower 14 {} (sampleCycle [sampleEntry] .raised)).ledger.rows ≠ [] := by
      decide +kernel
    have hnone : (World.step PyText.lower 14 {} (sampleCycle [sampleEntry] .raised)).delivered = [] := by
      decide +kernel
    obtain ⟨r, hr⟩ := List.exists_mem_of_ne_nil _ hrows
    obtain ⟨plan, hplan, -⟩ := hhonest.recorded r hr
    rw [hnone] at hplan
    cases hplan
  · let pageOf (t : DispatchTarget) := (t.channelName, canonicalUrl PyText.lower t.card.url)
    have hpages : (World.step PyText.lower 14 {}
        (sampleCycle [sampleEntry, sampleEntryAgain] .returned)).deptFeeds.map pageOf
          = [("dept-design", "https://material.io/blog/tokens"),
             ("dept-design", "https://material.io/blog/tokens")] := by
      decide +kernel
    have hapart := List.pairwise_map (f := pageOf) (R := fun p q => p.1 = q.1 → p.2 ≠ q.2) |>.mpr
      ((honest_of_always h).once.imp fun hrepeated hchannel => (hrepeated hchannel).1)
    rw [hpages] at hapart
    simp at hapart

end ForgeKit.Digest
