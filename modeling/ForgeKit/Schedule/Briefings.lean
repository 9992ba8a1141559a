import ForgeKit.Lib.Machine
import ForgeKit.Schedule.Preparation

/-!
# The daily briefing loop (`_legacy.py`, `scheduling.py`)

Each scan asks for the slots between the last scan and now and sends them one after the other. The
slots of a batch are given up together when one of the sends raises, and the last scan moves all the
same.

* `batch_eq` — a batch posts the slots before the first that raises
* `posted_iff` — a briefing whose own snapshot and sends succeed is posted exactly once exactly when
  the scan in whose window it falls gets to it
-/

namespace ForgeKit

namespace Schedule

/-! ## One slot -/

/-- What a briefing is named by: its plan date and its type. -/
abbrev BriefingId := ℤ × BriefingType

def DueSlot.briefingId (d : DueSlot) : BriefingId := (d.planDate, d.slot.briefingType)

/-- What the calls made for one slot give. -/
structure SlotOutcome where
  /-- `load_plan_today_snapshot` has a snapshot. -/
  loaded : Bool
  /-- The message that the snapshot is being made is sent without an exception. -/
  ackSends : Bool
  /-- `ensure_snapshot` gives a snapshot. -/
  ensured : Bool
  /-- The briefing is sent without an exception. -/
  sends : Bool
deriving DecidableEq, Repr

inductive Delivery where
  | posted
  /-- `continue`. -/
  | skipped
  /-- The exception of the send is raised again. -/
  | raised
deriving DecidableEq, Repr

/-- The body of the loop over the due slots, for a slot that has not been sent. -/
def SlotOutcome.deliver (o : SlotOutcome) : Delivery :=
  if !o.loaded && !o.ackSends then .skipped
  else if !o.loaded && !o.ensured then .skipped
  else if o.sends then .posted
  else .raised

/-! ## The loop -/

/-- A scan, with what its calls give. -/
structure BriefingScan where
  time : ℤ
  /-- `_resolve_messageable_channel`: none where it raises, else `resolved_channel_id`. -/
  channel : Option (Option ℕ)
  /-- The marks that the cache no longer returns. -/
  expired : ℕ × BriefingId → Bool
  outcome : BriefingId → SlotOutcome

/-- What `_run_daily_briefing_loop` keeps, the marks of the cache, and a record of the posts. -/
structure BriefingLoop where
  lastScan : ℤ
  marks : List (ℕ × BriefingId)
  posted : List BriefingId

/-- `_has_briefing_been_sent_async`. -/
def hasBriefingBeenSent (marks : List (ℕ × BriefingId)) (expired : ℕ × BriefingId → Bool)
    (channelId : Option ℕ) (id : BriefingId) : Bool :=
  match channelId with
  | none => false
  | some channel => decide ((channel, id) ∈ marks) && !expired (channel, id)

/-- `_mark_briefings_sent`, for one briefing. -/
def markBriefingSent (marks : List (ℕ × BriefingId)) (channelId : Option ℕ) (id : BriefingId) :
    List (ℕ × BriefingId) :=
  match channelId with
  | none => marks
  | some channel => marks ++ [(channel, id)]

namespace BriefingLoop

/-- The loop over the due slots of `_send_due_briefings`. -/
def batch (scan : BriefingScan) (channelId : Option ℕ) (s : BriefingLoop) :
    List DueSlot → BriefingLoop
  | [] => s
  | d :: ds =>
    if hasBriefingBeenSent s.marks scan.expired channelId d.briefingId then batch scan channelId s ds
    else
      match (scan.outcome d.briefingId).deliver with
      | .posted =>
        batch scan channelId
          { s with marks := markBriefingSent s.marks channelId d.briefingId
                   posted := s.posted ++ [d.briefingId] } ds
      | .skipped => batch scan channelId s ds
      | .raised => s

/-- `_send_due_briefings`. `hasChannel` says that a daily channel is configured. -/
def sendDueBriefings (zones : Zones) (profile : DayProfile) (hasChannel : Bool) (s : BriefingLoop)
    (scan : BriefingScan) : BriefingLoop :=
  if !hasChannel then s
  else if scan.time ≤ s.lastScan then s
  else
    match scan.channel with
    | none => s
    | some channelId =>
      s.batch scan channelId (collectDueBriefingSlots zones profile s.lastScan scan.time)

/-- One turn of the loop: the last scan moves whatever became of the batch. -/
def scan (zones : Zones) (profile : DayProfile) (hasChannel : Bool) (s : BriefingLoop)
    (scan : BriefingScan) : BriefingLoop :=
  { s.sendDueBriefings zones profile hasChannel scan with lastScan := scan.time }

/-- The loop before its first scan, with the marks that are in the cache. -/
def start (now : ℤ) (marks : List (ℕ × BriefingId)) : BriefingLoop := ⟨now, marks, []⟩

end BriefingLoop

/-! ## One batch -/

variable {scan : BriefingScan} {channelId : Option ℕ}

theorem hasBriefingBeenSent_mark {marks : List (ℕ × BriefingId)} {expired : ℕ × BriefingId → Bool}
    {id id' : BriefingId} (h : id' ≠ id) :
    hasBriefingBeenSent (markBriefingSent marks channelId id) expired channelId id'
      = hasBriefingBeenSent marks expired channelId id' := by
  cases channelId with
  | none => rfl
  | some channel =>
    have hmem : (channel, id') ∈ marks ++ [(channel, id)] ↔ (channel, id') ∈ marks := by
      simp [h]
    show (decide ((channel, id') ∈ marks ++ [(channel, id)]) && _) = (decide ((channel, id') ∈ marks) && _)
    rw [decide_eq_decide.mpr hmem]

/-- The slot has not been sent and its send raises. -/
def Blocks (scan : BriefingScan) (channelId : Option ℕ) (marks : List (ℕ × BriefingId))
    (d : DueSlot) : Bool :=
  !hasBriefingBeenSent marks scan.expired channelId d.briefingId
    && decide ((scan.outcome d.briefingId).deliver = .raised)

/-- The slot has not been sent and its send goes well. -/
def Posts (scan : BriefingScan) (channelId : Option ℕ) (marks : List (ℕ × BriefingId))
    (d : DueSlot) : Bool :=
  !hasBriefingBeenSent marks scan.expired channelId d.briefingId
    && decide ((scan.outcome d.briefingId).deliver = .posted)

/-- What a batch posts: the slots before the first that raises. -/
def batchPosts (scan : BriefingScan) (channelId : Option ℕ) (marks : List (ℕ × BriefingId))
    (ds : List DueSlot) : List BriefingId :=
  ((ds.takeWhile fun d => !Blocks scan channelId marks d).filter (Posts scan channelId marks)).map
    DueSlot.briefingId

variable (scan channelId) in
/-- **A batch posts the slots before the first that raises.** The marks may be those from before some
other slots were posted. -/
theorem batch_eq (marks : List (ℕ × BriefingId)) {ds : List DueSlot} {s : BriefingLoop}
    (hnodup : (ds.map DueSlot.briefingId).Nodup)
    (hmarks : ∀ d ∈ ds, hasBriefingBeenSent s.marks scan.expired channelId d.briefingId
      = hasBriefingBeenSent marks scan.expired channelId d.briefingId) :
    (s.batch scan channelId ds).posted = s.posted ++ batchPosts scan channelId marks ds
      ∧ ∀ key ∈ (s.batch scan channelId ds).marks,
        key ∈ s.marks ∨ key.2 ∈ ds.map DueSlot.briefingId := by
  induction ds generalizing s with
  | nil => exact ⟨(List.append_nil _).symm, fun key hkey => .inl hkey⟩
  | cons d ds ih =>
    obtain ⟨hnotin, hnodup⟩ := List.nodup_cons.mp hnodup
    have hd := hmarks d List.mem_cons_self
    have hrest := fun d' hd' => hmarks d' (List.mem_cons_of_mem d hd')
    have hlater : ∀ {key : ℕ × BriefingId} {t : BriefingLoop},
        key ∈ t.marks ∨ key.2 ∈ ds.map DueSlot.briefingId →
          key ∈ t.marks ∨ key.2 ∈ (d :: ds).map DueSlot.briefingId :=
      fun h => h.imp_right (List.mem_cons_of_mem _)
    unfold BriefingLoop.batch batchPosts
    by_cases hsent : hasBriefingBeenSent marks scan.expired channelId d.briefingId = true
    · obtain ⟨hposted, hkeys⟩ := ih hnodup hrest
      rw [if_pos (hd.trans hsent), List.takeWhile_cons_of_pos (by simp [Blocks, hsent]),
        List.filter_cons_of_neg (by simp [Posts, hsent])]
      exact ⟨hposted, fun key hkey => hlater (hkeys key hkey)⟩
    · rw [if_neg (by rwa [hd])]
      rw [Bool.not_eq_true] at hsent
      cases hdeliver : (scan.outcome d.briefingId).deliver with
      | posted =>
        have hne : ∀ d' ∈ ds, d'.briefingId ≠ d.briefingId := fun d' hd' h =>
          hnotin (h ▸ List.mem_map_of_mem hd')
        obtain ⟨hposted, hkeys⟩ := ih
          (s := { s with marks := markBriefingSent s.marks channelId d.briefingId
                         posted := s.posted ++ [d.briefingId] }) hnodup
          fun d' hd' => (hasBriefingBeenSent_mark (hne d' hd')).trans (hrest d' hd')
        rw [List.takeWhile_cons_of_pos (by simp [Blocks, hdeliver]),
          List.filter_cons_of_pos (by simp [Posts, hsent, hdeliver])]
        refine ⟨by rw [hposted]; exact List.append_assoc _ _ _, fun key hkey => ?_⟩
        rcases hkeys key hkey with hkey | hkey
        · cases channelId with
          | none => exact .inl hkey
          | some channel =>
            rcases List.mem_append.mp hkey with hkey | hkey
            · exact .inl hkey
            · exact .inr (by rw [List.mem_singleton.mp hkey]; exact List.mem_cons_self)
        · exact .inr (List.mem_cons_of_mem _ hkey)
      | skipped =>
        obtain ⟨hposted, hkeys⟩ := ih hnodup hrest
        rw [List.takeWhile_cons_of_pos (by simp [Blocks, hdeliver]),
          List.filter_cons_of_neg (by simp [Posts, hdeliver])]
        exact ⟨hposted, fun key hkey => hlater (hkeys key hkey)⟩
      | raised =>
        rw [List.takeWhile_cons_of_neg (by simp [Blocks, hsent, hdeliver])]
        exact ⟨(List.append_nil _).symm, fun key hkey => .inl hkey⟩

theorem marks_subset_batch (ds : List DueSlot) (s : BriefingLoop) :
    s.marks ⊆ (s.batch scan channelId ds).marks := by
  induction ds generalizing s with
  | nil => exact List.Subset.refl _
  | cons d ds ih =>
    unfold BriefingLoop.batch
    split
    · exact ih s
    · split
      · refine List.Subset.trans ?_ (ih _)
        cases channelId with
        | none => exact List.Subset.refl _
        | some channel => exact List.subset_append_left _ _
      · exact ih s
      · exact List.Subset.refl _

/-! ## The slots of one scan -/

/-- The slot that a briefing belongs to. -/
def dueSlot (profile : DayProfile) (id : BriefingId) : DueSlot :=
  ⟨⟨id.2, combine id.1 (profile.timeOf id.2)⟩, id.1⟩

variable {zones : Zones} {profile : DayProfile}

/-- The instant that a briefing is to be sent at. -/
def sendInstant (zones : Zones) (profile : DayProfile) (id : BriefingId) : ℤ :=
  zones.instant (dueSlot profile id).slot.sendAt

theorem collectDueBriefingSlots_perm {lastScan scanTime : ℤ} (h : lastScan < scanTime) :
    (collectDueBriefingSlots zones profile lastScan scanTime).Perm
      ((((ScanWindows.daysBetween (zones.dateOf lastScan) (zones.dateOf scanTime)).flatMap fun planDate =>
        [BriefingType.morning, .workStart, .lunch, .evening].map fun briefingType =>
          (planDate, briefingType)).filter fun id =>
            ScanWindows.InWindow (lastScan, scanTime) (sendInstant zones profile id)).map
        (dueSlot profile)) := by
  unfold collectDueBriefingSlots
  rw [if_neg (not_le.mpr h)]
  refine (List.perm_insertionSort _ _).trans (List.Perm.of_eq ?_)
  rw [List.filter_flatMap, List.map_flatMap]
  refine congrArg (List.flatMap · _) (funext fun planDate => ?_)
  unfold DayProfile.briefingSchedule
  rw [List.filter_map, List.filter_map, List.map_map, List.map_map]
  rfl

theorem mem_dueSlots {lastScan scanTime : ℤ} (h : lastScan < scanTime) {d : DueSlot} :
    d ∈ collectDueBriefingSlots zones profile lastScan scanTime
      ↔ d = dueSlot profile d.briefingId
        ∧ ScanWindows.InWindow (lastScan, scanTime) (sendInstant zones profile d.briefingId)
        ∧ zones.dateOf lastScan ≤ d.planDate ∧ d.planDate ≤ zones.dateOf scanTime := by
  rw [(collectDueBriefingSlots_perm h).mem_iff, List.mem_map]
  simp only [List.mem_filter, List.mem_flatMap, ScanWindows.mem_daysBetween, decide_eq_true_eq]
  constructor
  · rintro ⟨id, ⟨⟨planDate, hdate, hid⟩, hin⟩, rfl⟩
    obtain ⟨briefingType, -, rfl⟩ := List.mem_map.mp hid
    exact ⟨rfl, hin, hdate⟩
  · rintro ⟨hd, hin, hdate⟩
    refine ⟨d.briefingId, ⟨⟨d.planDate, hdate, ?_⟩, hin⟩, hd.symm⟩
    exact List.mem_map.mpr ⟨d.slot.briefingType, by cases d.slot.briefingType <;> simp, rfl⟩

variable (zones profile) in
theorem nodup_dueSlots (lastScan scanTime : ℤ) :
    ((collectDueBriefingSlots zones profile lastScan scanTime).map DueSlot.briefingId).Nodup := by
  by_cases h : lastScan < scanTime
  · refine (((collectDueBriefingSlots_perm h).map _).nodup_iff).mpr ?_
    rw [List.map_map]
    show (List.map id _).Nodup
    rw [List.map_id]
    refine List.Nodup.filter _ (List.nodup_flatMap.mpr ⟨fun planDate _ => ?_, ?_⟩)
    · exact List.Nodup.map (fun _ _ h => congrArg Prod.snd h) (by decide)
    · refine (ScanWindows.nodup_daysBetween _ _).imp fun {date date'} hne id hid hid' => ?_
      obtain ⟨_, -, rfl⟩ := List.mem_map.mp hid
      obtain ⟨_, -, heq⟩ := List.mem_map.mp hid'
      exact hne (congrArg Prod.fst heq).symm
  · unfold collectDueBriefingSlots
    rw [if_pos (not_lt.mp h)]
    exact List.nodup_nil

/-- The batch of a scan gets to the slot of a briefing that has not been sent: no slot before it
raises. -/
def GetsTo (zones : Zones) (profile : DayProfile) (hasChannel : Bool) (marks : List (ℕ × BriefingId))
    (id : BriefingId) (w : ℤ × BriefingScan) : Prop :=
  hasChannel = true ∧ ∃ channelId, w.2.channel = some channelId
    ∧ hasBriefingBeenSent marks w.2.expired channelId id = false
      ∧ dueSlot profile id ∈ (collectDueBriefingSlots zones profile w.1 w.2.time).takeWhile
        fun d => !Blocks w.2 channelId marks d

/-- What a scan posts when the marks are those from before its slots were posted. -/
def scanPosts (zones : Zones) (profile : DayProfile) (hasChannel : Bool)
    (marks : List (ℕ × BriefingId)) (w : ℤ × BriefingScan) : List BriefingId :=
  match hasChannel, w.2.channel with
  | true, some channelId =>
    batchPosts w.2 channelId marks (collectDueBriefingSlots zones profile w.1 w.2.time)
  | _, _ => []

variable {hasChannel : Bool} {marks : List (ℕ × BriefingId)}

theorem nodup_batchPosts (lastScan scanTime : ℤ) :
    (batchPosts scan channelId marks
      (collectDueBriefingSlots zones profile lastScan scanTime)).Nodup := by
  refine (nodup_dueSlots zones profile lastScan scanTime).sublist ?_
  exact ((List.filter_sublist).trans (List.takeWhile_sublist _)).map _

theorem mem_batchPosts {lastScan scanTime : ℤ} (h : lastScan < scanTime) {id : BriefingId} :
    id ∈ batchPosts scan channelId marks (collectDueBriefingSlots zones profile lastScan scanTime)
      ↔ dueSlot profile id ∈ (collectDueBriefingSlots zones profile lastScan scanTime).takeWhile
          (fun d => !Blocks scan channelId marks d)
        ∧ hasBriefingBeenSent marks scan.expired channelId id = false
        ∧ (scan.outcome id).deliver = .posted := by
  unfold batchPosts Posts
  rw [List.mem_map]
  simp only [List.mem_filter, Bool.and_eq_true, Bool.not_eq_true', decide_eq_true_eq]
  constructor
  · rintro ⟨d, ⟨hd, hsent, hdeliver⟩, rfl⟩
    have hdue := (mem_dueSlots h).mp ((List.takeWhile_sublist _).subset hd)
    exact ⟨hdue.1 ▸ hd, hsent, hdeliver⟩
  · rintro ⟨hd, hsent, hdeliver⟩
    exact ⟨dueSlot profile id, ⟨hd, hsent, hdeliver⟩, rfl⟩

theorem mem_scanPosts {w : ℤ × BriefingScan} (h : w.1 < w.2.time) {id : BriefingId} :
    id ∈ scanPosts zones profile hasChannel marks w
      ↔ GetsTo zones profile hasChannel marks id w ∧ (w.2.outcome id).deliver = .posted := by
  unfold scanPosts GetsTo
  split
  · next channelId hchannel =>
    rw [mem_batchPosts h, hchannel]
    constructor
    · rintro ⟨hd, hsent, hdeliver⟩
      exact ⟨⟨rfl, channelId, rfl, hsent, hd⟩, hdeliver⟩
    · rintro ⟨⟨-, _, hsame, hsent, hd⟩, hdeliver⟩
      obtain rfl := Option.some.inj hsame
      exact ⟨hd, hsent, hdeliver⟩
  · next hnot =>
    constructor
    · rintro ⟨⟩
    · rintro ⟨⟨rfl, channelId, hchannel, -⟩, -⟩
      exact absurd hchannel (hnot channelId rfl)

theorem nodup_scanPosts (w : ℤ × BriefingScan) :
    (scanPosts zones profile hasChannel marks w).Nodup := by
  unfold scanPosts
  split
  · exact nodup_batchPosts _ _
  · exact List.nodup_nil

/-- A scan posts nothing that is not in its window. -/
theorem inWindow_of_mem_scanPosts {w : ℤ × BriefingScan} (h : w.1 < w.2.time) {id : BriefingId}
    (hid : id ∈ scanPosts zones profile hasChannel marks w) :
    ScanWindows.InWindow (w.1, w.2.time) (sendInstant zones profile id) := by
  obtain ⟨⟨-, _, -, -, hd⟩, -⟩ := (mem_scanPosts h).mp hid
  exact ((mem_dueSlots h).mp ((List.takeWhile_sublist _).subset hd)).2.1

/-! ## Every run -/

/-- The marks since the start of the run are of briefings that were due before the last scan. -/
structure Recent (zones : Zones) (profile : DayProfile) (marks : List (ℕ × BriefingId))
    (s : BriefingLoop) : Prop where
  kept : marks ⊆ s.marks
  past : ∀ key ∈ s.marks, key ∈ marks ∨ sendInstant zones profile key.2 ≤ s.lastScan

variable {s : BriefingLoop}

/-- The marks since the start of the run say nothing about a slot that lies ahead. -/
theorem hasBriefingBeenSent_recent (h : Recent zones profile marks s)
    {expired : ℕ × BriefingId → Bool} {id : BriefingId}
    (hid : s.lastScan < sendInstant zones profile id) :
    hasBriefingBeenSent s.marks expired channelId id
      = hasBriefingBeenSent marks expired channelId id := by
  cases channelId with
  | none => rfl
  | some channel =>
    have hmem : (channel, id) ∈ s.marks ↔ (channel, id) ∈ marks :=
      ⟨fun hkey => (h.past _ hkey).resolve_right (not_le.mpr hid), fun hkey => h.kept hkey⟩
    show (decide ((channel, id) ∈ s.marks) && _) = (decide ((channel, id) ∈ marks) && _)
    rw [decide_eq_decide.mpr hmem]

variable (hasChannel) in
/-- **What one scan does.** -/
theorem scan_spec (h : Recent zones profile marks s) (hlater : s.lastScan < scan.time) :
    (s.scan zones profile hasChannel scan).posted
        = s.posted ++ scanPosts zones profile hasChannel marks (s.lastScan, scan)
      ∧ Recent zones profile marks (s.scan zones profile hasChannel scan) := by
  have hsame : Recent zones profile marks { s with lastScan := scan.time } :=
    ⟨h.kept, fun key hkey => (h.past key hkey).imp_right fun hle => hle.trans hlater.le⟩
  unfold BriefingLoop.scan BriefingLoop.sendDueBriefings scanPosts
  cases hasChannel with
  | false => exact ⟨(List.append_nil _).symm, hsame⟩
  | true =>
    rw [if_neg (by decide), if_neg (not_le.mpr hlater)]
    cases scan.channel with
    | none => exact ⟨(List.append_nil _).symm, hsame⟩
    | some channelId =>
      have hdue := fun d : DueSlot => (@mem_dueSlots zones profile _ _ hlater d).mp
      obtain ⟨hposted, hmarks⟩ := batch_eq scan channelId marks
        (nodup_dueSlots zones profile s.lastScan scan.time)
        fun d hd => hasBriefingBeenSent_recent h (hdue d hd).2.1.1
      refine ⟨hposted, ⟨List.Subset.trans h.kept (marks_subset_batch _ s), fun key hkey => ?_⟩⟩
      rcases hmarks key hkey with hkey | hkey
      · exact hsame.past key hkey
      · obtain ⟨d, hd, hid⟩ := List.mem_map.mp hkey
        exact .inr (hid ▸ (hdue d hd).2.1.2)

/-- What the scans of a run post of a briefing. -/
theorem count_posted (scans : List BriefingScan)
    (horder : (s.lastScan :: scans.map BriefingScan.time).Pairwise (· < ·))
    (h : Recent zones profile marks s) (id : BriefingId) :
    (Machine.run (BriefingLoop.scan zones profile hasChannel) s scans).posted.count id
      = s.posted.count id + ((ScanWindows.turns BriefingScan.time s.lastScan scans).map fun w =>
        (scanPosts zones profile hasChannel marks w).count id).sum := by
  induction scans generalizing s with
  | nil => simp
  | cons scan scans ih =>
    obtain ⟨hfirst, hrest⟩ := List.pairwise_cons.mp horder
    obtain ⟨hposted, hrecent⟩ := scan_spec hasChannel h
      (hfirst scan.time List.mem_cons_self)
    rw [Machine.run_cons, ih (s := s.scan zones profile hasChannel scan) hrest hrecent, hposted,
      List.count_append, Nat.add_assoc, ScanWindows.turns_cons, List.map_cons, List.sum_cons]
    rfl

/-- The own snapshot and sends of a briefing succeed. -/
def Succeeds (scans : List BriefingScan) (id : BriefingId) : Prop :=
  ∀ scan ∈ scans, (scan.outcome id).deliver = .posted

instance (scans : List BriefingScan) (id : BriefingId) : Decidable (Succeeds scans id) :=
  inferInstanceAs (Decidable (∀ scan ∈ scans, _))

/-- Some scan of a run gets to a briefing. -/
def Reached (zones : Zones) (profile : DayProfile) (hasChannel : Bool)
    (marks : List (ℕ × BriefingId)) (first : ℤ) (scans : List BriefingScan) (id : BriefingId) : Prop :=
  ∃ w ∈ ScanWindows.turns BriefingScan.time first scans,
    GetsTo zones profile hasChannel marks id w

/-- The posts of a briefing come from the scan in whose window it falls. -/
theorem count_posted_start {first : ℤ} {scans : List BriefingScan}
    (horder : (first :: scans.map BriefingScan.time).Pairwise (· < ·)) {id : BriefingId}
    {w : ℤ × BriefingScan} (hw : w ∈ ScanWindows.turns BriefingScan.time first scans)
    (hin : ScanWindows.InWindow (w.1, w.2.time) (sendInstant zones profile id)) :
    (Machine.run (BriefingLoop.scan zones profile hasChannel) (.start first marks) scans).posted.count
      id = (scanPosts zones profile hasChannel marks w).count id := by
  have hrecent : Recent zones profile marks (.start first marks) :=
    ⟨List.Subset.refl _, fun key hkey => .inl hkey⟩
  rw [count_posted scans horder hrecent]
  show List.count id [] + _ = _
  rw [List.count_nil, Nat.zero_add]
  refine ScanWindows.sum_turns horder (fun w' hw' hnot => ?_) hw hin
  rw [List.count_eq_zero]
  exact fun hid => hnot (inWindow_of_mem_scanPosts (ScanWindows.lt_of_mem_turns horder hw') hid)

/--
**A failing briefing and the others.** In a run of scans a briefing whose time lies between the first
and the last is posted at most once. When its own snapshot and sends succeed it is posted exactly
once, exactly when some scan gets to it: a channel is configured and found, it was not marked before
the run, the scan in whose window it falls looks at its plan date, and no slot that is due before it
in that scan raises.
-/
theorem posted_iff (zones : Zones) (profile : DayProfile) (hasChannel : Bool)
    (marks : List (ℕ × BriefingId)) (first : ℤ) (scans : List BriefingScan)
    (horder : (first :: scans.map BriefingScan.time).Pairwise (· < ·)) (id : BriefingId)
    (hfirst : first < sendInstant zones profile id)
    (hlast : sendInstant zones profile id ≤ ScanWindows.last first (scans.map BriefingScan.time)) :
    let posts := (Machine.run (BriefingLoop.scan zones profile hasChannel) (.start first marks)
      scans).posted.count id
    (posts ≤ 1 ∧ (Succeeds scans id → posts = 1))
      ↔ (Succeeds scans id → Reached zones profile hasChannel marks first scans id) := by
  intro posts
  obtain ⟨w, hw, hin⟩ := ScanWindows.exists_turn hfirst hlast
  have hposts : posts = (scanPosts zones profile hasChannel marks w).count id :=
    count_posted_start horder hw hin
  have hlt := ScanWindows.lt_of_mem_turns horder hw
  rw [hposts]
  constructor
  · rintro ⟨-, hone⟩ hsucceeds
    have hmem : id ∈ scanPosts zones profile hasChannel marks w :=
      List.count_pos_iff.mp (by rw [hone hsucceeds]; exact Nat.one_pos)
    exact ⟨w, hw, ((mem_scanPosts hlt).mp hmem).1⟩
  · intro hreached
    refine ⟨List.nodup_iff_count_le_one.mp (nodup_scanPosts w) id, fun hsucceeds => ?_⟩
    obtain ⟨w', hw', hgets⟩ := hreached hsucceeds
    have hlt' := ScanWindows.lt_of_mem_turns horder hw'
    have hmem' : id ∈ scanPosts zones profile hasChannel marks w' :=
      (mem_scanPosts hlt').mpr ⟨hgets, hsucceeds w'.2 (ScanWindows.mem_of_mem_turns hw')⟩
    have hone' : (scanPosts zones profile hasChannel marks w').count id = 1 :=
      List.count_eq_one_of_mem (nodup_scanPosts w') hmem'
    rw [← count_posted_start horder hw hin,
      count_posted_start horder hw' (inWindow_of_mem_scanPosts hlt' hmem'), hone']

/-! ## A profile that wakes and starts work at nine -/

def homeProfile : DayProfile := ⟨minutes 540, minutes 540, minutes 780, minutes 1080⟩

/-- The send of the morning briefing raises, everything else goes well. -/
def morningRaises (id : BriefingId) : SlotOutcome := ⟨true, true, true, id.2 ≠ .morning⟩

/-- A scan at a minute of day 0, with a channel that is found. -/
def briefingScanAt (minute : ℤ) : BriefingScan :=
  ⟨minutes minute, some (some 7), fun _ => false, morningRaises⟩

/-- The lunch briefing is alone in its scan. -/
theorem lunch_is_posted_once :
    (Machine.run (BriefingLoop.scan (oneZone 0) homeProfile true) (.start (minutes 539) [])
      ([540, 780].map briefingScanAt)).posted.count (0, .lunch) = 1 :=
  ((posted_iff (oneZone 0) homeProfile true [] (minutes 539) ([540, 780].map briefingScanAt)
    (by decide) (0, .lunch) (by decide) (by decide)).mpr fun _ =>
      ⟨(minutes 540, briefingScanAt 780), List.mem_cons_of_mem _ List.mem_cons_self, rfl, some 7, rfl,
        by decide, by decide⟩).2 (by decide)

/-- **The briefing at the start of work is lost with the morning briefing.** -/
theorem work_start_is_lost :
    let id : BriefingId := (0, .workStart)
    let scans := [540, 541, 780].map briefingScanAt
    minutes 539 < sendInstant (oneZone 0) homeProfile id
      ∧ sendInstant (oneZone 0) homeProfile id ≤ minutes 780
      ∧ Succeeds scans id
      ∧ (Machine.run (BriefingLoop.scan (oneZone 0) homeProfile true) (.start (minutes 539) [])
        scans).posted = [(0, .lunch)] := by
  decide

end Schedule

end ForgeKit
