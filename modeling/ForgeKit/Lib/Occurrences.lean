import Mathlib.Data.List.Infix

/-!
# Where a text can occur

An occurrence in a text that is put together starts in one of the parts. A part that a key neither
occurs in nor runs into can be left out of the search, and a replacement by such a part brings no
occurrence. A text is compared as a function shows it, item by item.

* `infix_append_iff` — an occurrence starts in the front or is in the rest
* `infix_append_of_apart` — a front that is apart from the key can be left out
* `infix_of_infix_replaceAll`, `not_infix_replaceAll` — what is found after a replacement
* `count_replaceAll_lt` — a replacement that loses separators
* `infix_intercalate_iff` — an occurrence of joined words in joined words
-/

namespace Occurrences

variable {α : Type*}

/-- The needle occurs from a position of the front on; it may run into the rest. -/
def StartsIn (needle front rest : List α) : Prop :=
  ∃ a b, front = a ++ b ∧ b ≠ [] ∧ needle <+: b ++ rest

/-- **An occurrence starts in the front or is in the rest.** -/
theorem infix_append_iff {needle front rest : List α} :
    needle <:+: front ++ rest ↔ StartsIn needle front rest ∨ needle <:+: rest := by
  constructor
  · rintro ⟨u, v, heq⟩
    rw [List.append_assoc] at heq
    rcases List.append_eq_append_iff.mp heq with ⟨m, hfront, hm⟩ | ⟨m, hu, hm⟩
    · cases m with
      | nil => exact .inr ⟨[], v, by simpa using hm⟩
      | cons c m => exact .inl ⟨u, c :: m, hfront, List.cons_ne_nil _ _, ⟨v, hm⟩⟩
    · exact .inr ⟨m, v, by rw [hm, List.append_assoc]⟩
  · rintro (⟨a, b, rfl, -, hfront⟩ | hrest)
    · rw [List.append_assoc]
      exact hfront.isInfix.trans (List.suffix_append _ _).isInfix
    · exact hrest.trans (List.suffix_append _ _).isInfix

/-- What has no separator in it and starts a line is the start of the line's text. -/
theorem prefix_of_line {needle line rest : List α} {sep : α} (hsep : sep ∉ needle)
    (h : needle <+: line ++ sep :: rest) : needle <+: line := by
  rcases List.prefix_or_prefix_of_prefix h (List.prefix_append _ _) with hline | ⟨t, rfl⟩
  · exact hline
  · cases t with
    | nil =>
      rw [List.append_nil]
    | cons c t =>
      obtain rfl := (List.cons_prefix_cons.mp ((List.prefix_append_right_inj line).mp h)).1
      exact absurd (by simp) hsep

/-- A needle that the start of the rest is not in does not run into it. -/
theorem startsIn_iff_infix {needle front rest : List α} {sep : α} (hne : needle ≠ [])
    (hsep : sep ∉ needle) : StartsIn needle front (sep :: rest) ↔ needle <:+: front := by
  constructor
  · rintro ⟨a, b, rfl, -, hfront⟩
    exact (prefix_of_line hsep hfront).isInfix.trans (List.suffix_append _ _).isInfix
  · rintro ⟨u, v, rfl⟩
    refine ⟨u, needle ++ v, List.append_assoc _ _ _, by simp [hne], ?_⟩
    rw [List.append_assoc]
    exact List.prefix_append _ _

section Apart

variable [DecidableEq α]

/-- At no position of the text the key occurs, or starts and runs out of the text. -/
def apart (key text : List α) : Bool :=
  text.tails.all fun b => decide (b = []) || (!key.isPrefixOf b && !b.isPrefixOf key)

theorem apart_iff {key text : List α} :
    apart key text = true ↔ ∀ a b, text = a ++ b → b ≠ [] → ¬ key <+: b ∧ ¬ b <+: key := by
  simp only [apart, List.all_eq_true, List.mem_tails, Bool.or_eq_true, decide_eq_true_eq,
    Bool.and_eq_true, Bool.not_eq_true', ← Bool.not_eq_true, List.isPrefixOf_iff_prefix]
  constructor
  · rintro h a b rfl hne
    exact (h b (List.suffix_append _ _)).resolve_left hne
  · rintro h b ⟨a, rfl⟩
    exact or_iff_not_imp_left.mpr (h a b rfl)

theorem apart_append {key a b : List α} (ha : apart key a = true) (hb : apart key b = true) :
    apart key (a ++ b) = true := by
  rw [apart_iff] at *
  intro u v heq hne
  rcases List.append_eq_append_iff.mp heq with ⟨m, hu, rfl⟩ | ⟨m, rfl, rfl⟩
  · exact hb m v rfl hne
  · cases m with
    | nil => exact hb [] b rfl (by simpa using hne)
    | cons c m =>
      obtain ⟨hkey, htext⟩ := ha u (c :: m) rfl (List.cons_ne_nil _ _)
      constructor
      · intro hfront
        rcases List.prefix_or_prefix_of_prefix hfront (List.prefix_append _ _) with hm | hm
        · exact hkey hm
        · exact htext hm
      · exact fun hfront => htext ((List.prefix_append _ _).trans hfront)

theorem apart_flatMap {β : Type*} {key : List α} {f : β → List α} {parts : List β}
    (h : ∀ part ∈ parts, apart key (f part) = true) : apart key (parts.flatMap f) = true := by
  induction parts with
  | nil => rfl
  | cons part parts ih =>
    rw [List.flatMap_cons]
    exact apart_append (h part List.mem_cons_self)
      (ih fun p hp => h p (List.mem_cons_of_mem _ hp))

/-- A line that the key does not occur in, ended by what the key does not have. -/
theorem apart_line {key line : List α} {sep : α} (hsep : sep ∉ key) (h : ¬ key <:+: line) :
    apart key (line ++ [sep]) = true := by
  rw [apart_iff]
  intro a b heq hne
  obtain ⟨b, c, rfl⟩ := List.eq_nil_or_concat b |>.resolve_left hne
  rw [List.concat_eq_append, ← List.append_assoc] at heq
  obtain ⟨rfl, hc⟩ := List.append_inj' heq rfl
  obtain rfl := List.singleton_inj.mp hc
  constructor
  · intro hfront
    rw [List.concat_eq_append] at hfront
    exact h ((prefix_of_line hsep hfront).isInfix.trans (List.suffix_append _ _).isInfix)
  · exact fun hfront => hsep (hfront.subset (by simp))

theorem not_startsIn_of_apart {key value front rest : List α} (h : apart key front = true) :
    ¬ StartsIn (key ++ value) front rest := by
  rintro ⟨a, b, heq, hne, hfront⟩
  obtain ⟨hkey, htext⟩ := apart_iff.mp h a b heq hne
  have hrest := (List.prefix_append _ _).trans hfront
  rcases List.prefix_or_prefix_of_prefix hrest (List.prefix_append _ _) with hb | hb
  · exact hkey hb
  · exact htext hb

/-- **A front that is apart from the key can be left out.** -/
theorem infix_append_of_apart {key value front rest : List α} (h : apart key front = true) :
    key ++ value <:+: front ++ rest ↔ key ++ value <:+: rest := by
  rw [infix_append_iff, or_iff_right (not_startsIn_of_apart h)]

end Apart

section Replacing

variable {β : Type*} [DecidableEq β]

/-- Neither does the key start in the text or before it and run into it. -/
def detached (key text : List β) : Bool :=
  apart key text && key.tail.tails.all fun b =>
    decide (b = []) || (!b.isPrefixOf text && !text.isPrefixOf b)

theorem detached_iff {key text : List β} :
    detached key text = true ↔ apart key text = true ∧ ∀ b, b <:+ key.tail → b ≠ [] →
      ¬ b <+: text ∧ ¬ text <+: b := by
  simp only [detached, Bool.and_eq_true, List.all_eq_true, List.mem_tails, Bool.or_eq_true,
    decide_eq_true_eq, Bool.not_eq_true', ← Bool.not_eq_true, List.isPrefixOf_iff_prefix]
  refine and_congr_right fun _ => forall_congr' fun b => forall_congr' fun _ => ?_
  rw [or_iff_not_imp_left]

/-! ## Replacing -/

/-- `new` in the place of each occurrence of `old` in what `f` shows of the text, from the left on;
the first items are skipped. -/
def replaceFrom (f : α → β) (old : List β) (new : List α) : ℕ → List α → List α
  | _, [] => []
  | skip + 1, _ :: t => replaceFrom f old new skip t
  | 0, c :: t =>
    if old.isPrefixOf ((c :: t).map f) then new ++ replaceFrom f old new (old.length - 1) t
    else c :: replaceFrom f old new 0 t

def replaceAll (f : α → β) (old : List β) (new : List α) (t : List α) : List α :=
  replaceFrom f old new 0 t

variable {f : α → β} {old : List β} {new : List α}

theorem replaceFrom_eq (skip : ℕ) (t : List α) :
    replaceFrom f old new skip t = replaceAll f old new (t.drop skip) := by
  induction skip generalizing t with
  | zero => rfl
  | succ skip ih =>
    cases t with
    | nil => rfl
    | cons c t => exact ih t

@[simp] theorem replaceAll_nil : replaceAll f old new [] = [] := rfl

theorem replaceAll_hit (hold : old ≠ []) {m : List α} (hm : m.map f = old) (t : List α) :
    replaceAll f old new (m ++ t) = new ++ replaceAll f old new t := by
  cases m with
  | nil => exact absurd hm.symm hold
  | cons c m =>
    have hstart : old.isPrefixOf ((c :: (m ++ t)).map f) = true := by
      rw [List.isPrefixOf_iff_prefix, ← List.cons_append, List.map_append, hm]
      exact List.prefix_append _ _
    rw [replaceAll, List.cons_append, replaceFrom, if_pos hstart, replaceFrom_eq, ← hm,
      List.length_map, List.length_cons, Nat.add_sub_cancel, List.drop_left]

theorem replaceAll_miss {c : α} {t : List α} (h : ¬ old <+: (c :: t).map f) :
    replaceAll f old new (c :: t) = c :: replaceAll f old new t := by
  rw [replaceAll, replaceFrom, if_neg (by rwa [List.isPrefixOf_iff_prefix])]
  rfl

/-- What a replacement does, occurrence by occurrence. -/
theorem replaceAll_induction (hold : old ≠ []) {P : List α → Prop} (nil : P [])
    (hit : ∀ m t, m.map f = old → P t → P (m ++ t))
    (miss : ∀ c t, ¬ old <+: (c :: t).map f → P t → P (c :: t)) (t : List α) : P t := by
  induction h : t.length using Nat.strong_induction_on generalizing t with
  | _ n ih =>
    subst h
    cases t with
    | nil => exact nil
    | cons c t =>
      by_cases hstart : old <+: (c :: t).map f
      · obtain ⟨v, hv⟩ := hstart
        obtain ⟨m, r, hmr, hm, -⟩ := List.map_eq_append_iff.mp hv.symm
        have hpos : 0 < m.length := by
          rw [← List.length_map f, hm]
          exact List.length_pos_of_ne_nil hold
        rw [hmr]
        refine hit m r hm (ih _ ?_ r rfl)
        rw [hmr, List.length_append]
        omega
      · exact miss c t hstart (ih _ (Nat.lt_succ_self _) t rfl)

/-- Where all occurrences are spelled as `new`, nothing changes. -/
theorem replaceAll_eq_self (hold : old ≠ []) {t : List α}
    (h : ∀ m, m <:+: t → m.map f = old → m = new) : replaceAll f old new t = t := by
  induction t using replaceAll_induction (f := f) hold with
  | nil => rfl
  | hit m t hm ih =>
    rw [replaceAll_hit hold hm, ih fun n hn => h n (hn.trans (List.suffix_append _ _).isInfix),
      h m (List.prefix_append _ _).isInfix hm]
  | miss c t hmiss ih =>
    rw [replaceAll_miss hmiss, ih fun n hn => h n (hn.trans (List.suffix_cons _ _).isInfix)]

theorem mem_replaceAll (hold : old ≠ []) {t : List α} {a : α} (h : a ∈ replaceAll f old new t) :
    a ∈ new ∨ a ∈ t := by
  induction t using replaceAll_induction (f := f) hold with
  | nil => exact .inr h
  | hit m t hm ih =>
    rw [replaceAll_hit hold hm, List.mem_append] at h
    rcases h with h | h
    · exact .inl h
    · exact (ih h).imp_right (List.mem_append_right _)
  | miss c t hmiss ih =>
    rw [replaceAll_miss hmiss, List.mem_cons] at h
    rcases h with rfl | h
    · exact .inr List.mem_cons_self
    · exact (ih h).imp_right (List.mem_cons_of_mem _)

/-- An item that no occurrence has cuts the text. -/
theorem replaceAll_cut (hold : old ≠ []) {sep : α} (hsep : f sep ∉ old) (x y : List α) :
    replaceAll f old new (x ++ sep :: y) = replaceAll f old new x ++ sep :: replaceAll f old new y := by
  induction x using replaceAll_induction (f := f) hold with
  | nil =>
    refine replaceAll_miss fun h => hsep ?_
    obtain ⟨b, old, rfl⟩ := List.exists_cons_of_ne_nil hold
    rw [List.map_cons] at h
    rw [(List.cons_prefix_cons.mp h).1]
    exact List.mem_cons_self
  | hit m x hm ih => rw [List.append_assoc, replaceAll_hit hold hm, replaceAll_hit hold hm, ih,
      List.append_assoc]
  | miss c x hmiss ih =>
    have hmiss' : ¬ old <+: (c :: (x ++ sep :: y)).map f := by
      intro h
      rw [← List.cons_append, List.map_append, List.map_cons] at h
      exact hmiss (prefix_of_line hsep h)
    rw [List.cons_append, replaceAll_miss hmiss', replaceAll_miss hmiss, ih, List.cons_append]

/-! ### What is found in the result -/

section Views

variable {γ : Type*} [DecidableEq γ] {g : α → γ} {key : List γ}

/-- What can only go on before `new` does not run into it. -/
theorem prefix_of_prefix_replaceAll (hold : old ≠ []) (h : detached key (new.map g) = true)
    {t : List α} {b : List γ} (hb : b <:+ key.tail) (hstart : b <+: (replaceAll f old new t).map g) :
    b <+: t.map g := by
  induction t using replaceAll_induction (f := f) hold generalizing b with
  | nil => exact hstart
  | hit m t hm ih =>
    rw [replaceAll_hit hold hm, List.map_append] at hstart
    cases b with
    | nil => exact List.nil_prefix
    | cons c b =>
      obtain ⟨hfront, hback⟩ := (detached_iff.mp h).2 _ hb (List.cons_ne_nil _ _)
      rcases List.prefix_or_prefix_of_prefix hstart (List.prefix_append _ _) with h | h
      · exact absurd h hfront
      · exact absurd h hback
  | miss c t hmiss ih =>
    rw [replaceAll_miss hmiss, List.map_cons] at hstart
    cases b with
    | nil => exact List.nil_prefix
    | cons d b =>
      obtain ⟨rfl, hrest⟩ := List.cons_prefix_cons.mp hstart
      exact List.cons_prefix_cons.mpr ⟨rfl, ih ((List.suffix_cons _ _).trans hb) hrest⟩

/-- A replacement by what the key is detached from brings no occurrence of the key. -/
theorem infix_of_infix_replaceAll (hold : old ≠ []) (hkey : key ≠ [])
    (h : detached key (new.map g) = true) {t : List α}
    (hin : key <:+: (replaceAll f old new t).map g) : key <:+: t.map g := by
  induction t using replaceAll_induction (f := f) hold with
  | nil => exact hin
  | hit m t hm ih =>
    rw [replaceAll_hit hold hm, List.map_append, ← List.append_nil key,
      infix_append_of_apart (detached_iff.mp h).1, List.append_nil] at hin
    rw [List.map_append]
    exact (ih hin).trans (List.suffix_append _ _).isInfix
  | miss c t hmiss ih =>
    rw [replaceAll_miss hmiss, List.map_cons, List.infix_cons_iff] at hin
    rw [List.map_cons, List.infix_cons_iff]
    refine hin.imp (fun hstart => ?_) ih
    obtain ⟨d, key, rfl⟩ := List.exists_cons_of_ne_nil hkey
    obtain ⟨rfl, hrest⟩ := List.cons_prefix_cons.mp hstart
    exact List.cons_prefix_cons.mpr ⟨rfl, prefix_of_prefix_replaceAll hold h List.suffix_rfl hrest⟩

/-- **What is replaced is not left**: neither `old` nor what shows it in another view. -/
theorem not_infix_replaceAll (hold : old ≠ []) (hkey : key ≠ [])
    (h : detached key (new.map g) = true)
    (hshows : ∀ t : List α, key <+: t.map g → old <+: t.map f) (t : List α) :
    ¬ key <:+: (replaceAll f old new t).map g := by
  induction t using replaceAll_induction (f := f) hold with
  | nil =>
    intro hin
    exact hkey (List.infix_nil.mp hin)
  | hit m t hm ih =>
    rw [replaceAll_hit hold hm, List.map_append, ← List.append_nil key,
      infix_append_of_apart (detached_iff.mp h).1, List.append_nil]
    exact ih
  | miss c t hmiss ih =>
    rw [replaceAll_miss hmiss, List.map_cons, List.infix_cons_iff, not_or]
    refine ⟨fun hstart => hmiss (hshows _ ?_), ih⟩
    obtain ⟨d, key, rfl⟩ := List.exists_cons_of_ne_nil hkey
    obtain ⟨rfl, hrest⟩ := List.cons_prefix_cons.mp hstart
    exact List.cons_prefix_cons.mpr ⟨rfl, prefix_of_prefix_replaceAll hold h List.suffix_rfl hrest⟩

end Views

/-! ### Several replacements -/

/-- Each rule in its turn. -/
def replaceEach (f : α → β) (rules : List (List β × List α)) (t : List α) : List α :=
  rules.foldl (fun t rule => replaceAll f rule.1 rule.2 t) t

@[simp] theorem replaceEach_nil (t : List α) : replaceEach f [] t = t := rfl

@[simp] theorem replaceEach_cons (rule : List β × List α) (rules : List (List β × List α))
    (t : List α) :
    replaceEach f (rule :: rules) t = replaceEach f rules (replaceAll f rule.1 rule.2 t) := rfl

theorem replaceEach_induction {P : List α → Prop} {rules : List (List β × List α)} {t : List α}
    (start : P t) (step : ∀ rule ∈ rules, ∀ t, P t → P (replaceAll f rule.1 rule.2 t)) :
    P (replaceEach f rules t) := by
  induction rules generalizing t with
  | nil => exact start
  | cons rule rules ih =>
    exact ih (step rule List.mem_cons_self t start)
      fun r hr => step r (List.mem_cons_of_mem _ hr)

/-- A rule takes a key away, and none brings it back. -/
theorem not_infix_replaceEach {γ : Type*} [DecidableEq γ] {g : α → γ} {key : List γ}
    (hkey : key ≠ []) {rules : List (List β × List α)}
    (hrules : ∀ rule ∈ rules, rule.1 ≠ [] ∧ detached key (rule.2.map g) = true)
    (h : ∃ rule ∈ rules, ∀ t : List α, key <+: t.map g → rule.1 <+: t.map f) (t : List α) :
    ¬ key <:+: (replaceEach f rules t).map g := by
  induction rules generalizing t with
  | nil =>
    obtain ⟨_, hnil, -⟩ := h
    cases hnil
  | cons rule rules ih =>
    have hrest := fun r hr => hrules r (List.mem_cons_of_mem _ hr)
    obtain ⟨hold, hdetached⟩ := hrules rule List.mem_cons_self
    obtain ⟨r, hr, hshows⟩ := h
    rw [replaceEach_cons]
    rcases List.mem_cons.mp hr with rfl | hr
    · refine replaceEach_induction (P := fun t => ¬ key <:+: t.map g)
        (not_infix_replaceAll hold hkey hdetached hshows t) fun r hr t ht hin => ht ?_
      exact infix_of_infix_replaceAll (hrest r hr).1 hkey (hrest r hr).2 hin
    · exact ih hrest ⟨r, hr, hshows⟩ _

/-! ### Counting -/

section Counting

variable [BEq α]

theorem count_replaceAll_le (hold : old ≠ []) {sep : α}
    (h : ∀ m : List α, m.map f = old → new.count sep ≤ m.count sep) (t : List α) :
    (replaceAll f old new t).count sep ≤ t.count sep := by
  induction t using replaceAll_induction (f := f) hold with
  | nil => exact le_rfl
  | hit m t hm ih =>
    rw [replaceAll_hit hold hm, List.count_append, List.count_append]
    exact Nat.add_le_add (h m hm) ih
  | miss c t hmiss ih =>
    rw [replaceAll_miss hmiss, List.count_cons, List.count_cons]
    exact Nat.add_le_add_right ih _

/-- A replacement that loses separators loses some when it is made. -/
theorem count_replaceAll_lt (hold : old ≠ []) {sep : α}
    (h : ∀ m : List α, m.map f = old → new.count sep < m.count sep) {t : List α}
    (hin : old <:+: t.map f) : (replaceAll f old new t).count sep < t.count sep := by
  have hle := count_replaceAll_le hold (fun m hm => (h m hm).le)
  induction t using replaceAll_induction (f := f) hold with
  | nil => exact absurd (List.infix_nil.mp hin) hold
  | hit m t hm ih =>
    rw [replaceAll_hit hold hm, List.count_append, List.count_append]
    exact Nat.add_lt_add_of_lt_of_le (h m hm) (hle t)
  | miss c t hmiss ih =>
    rw [replaceAll_miss hmiss, List.count_cons, List.count_cons]
    refine Nat.add_lt_add_right (ih ?_) _
    rw [List.map_cons, List.infix_cons_iff] at hin
    exact hin.resolve_left hmiss

end Counting

end Replacing

/-! ## Words -/

section Words

variable {α : Type*} {sep : α} {words : List (List α)}

theorem intercalate_cons_cons (a b : List α) (words : List (List α)) :
    [sep].intercalate (a :: b :: words) = a ++ sep :: [sep].intercalate (b :: words) := by
  rw [List.intercalate_cons_cons, List.append_assoc]
  rfl

theorem intercalate_append {a b : List (List α)} (ha : a ≠ []) (hb : b ≠ []) :
    [sep].intercalate (a ++ b) = [sep].intercalate a ++ sep :: [sep].intercalate b := by
  induction a with
  | nil => exact absurd rfl ha
  | cons x a ih =>
    cases a with
    | nil =>
      obtain ⟨y, b, rfl⟩ := List.exists_cons_of_ne_nil hb
      rw [List.singleton_append, intercalate_cons_cons, List.intercalate_singleton]
    | cons y a =>
      rw [List.cons_append, List.cons_append, intercalate_cons_cons, ← List.cons_append,
        ih (List.cons_ne_nil _ _), intercalate_cons_cons, List.append_assoc, List.cons_append]

/-- A text without the separator that occurs in joined words occurs in one of them. -/
theorem exists_of_infix_intercalate {key : List α} (hkey : key ≠ []) (hsep : sep ∉ key)
    (h : key <:+: [sep].intercalate words) : ∃ word ∈ words, key <:+: word := by
  induction words with
  | nil => exact absurd (List.infix_nil.mp h) hkey
  | cons word words ih =>
    cases words with
    | nil =>
      rw [List.intercalate_singleton] at h
      exact ⟨word, List.mem_cons_self, h⟩
    | cons next words =>
      rw [intercalate_cons_cons, infix_append_iff, startsIn_iff_infix hkey hsep] at h
      rcases h with h | h
      · exact ⟨word, List.mem_cons_self, h⟩
      · rcases List.infix_cons_iff.mp h with hstart | hrest
        · obtain ⟨c, key, rfl⟩ := List.exists_cons_of_ne_nil hkey
          rw [List.cons_prefix_cons] at hstart
          exact absurd (hstart.1 ▸ List.mem_cons_self) hsep
        · obtain ⟨w, hw, hin⟩ := ih hrest
          exact ⟨w, List.mem_cons_of_mem _ hw, hin⟩

theorem infix_intercalate_of_mem {word : List α} (h : word ∈ words) :
    word <:+: [sep].intercalate words := by
  induction words with
  | nil => cases h
  | cons w words ih =>
    cases words with
    | nil =>
      rw [List.mem_singleton.mp h, List.intercalate_singleton]
    | cons next words =>
      rw [intercalate_cons_cons]
      rcases List.mem_cons.mp h with rfl | h
      · exact (List.prefix_append _ _).isInfix
      · exact (ih h).trans ((List.suffix_cons _ _).trans (List.suffix_append _ _)).isInfix

theorem count_intercalate [BEq α] [LawfulBEq α] (hwords : ∀ word ∈ words, sep ∉ word) :
    ([sep].intercalate words).count sep = words.length - 1 := by
  induction words with
  | nil => rfl
  | cons word words ih =>
    have hword := List.count_eq_zero.mpr (hwords word List.mem_cons_self)
    cases words with
    | nil => rw [List.intercalate_singleton, hword]; rfl
    | cons next words =>
      rw [intercalate_cons_cons, List.count_append, hword, List.count_cons_self,
        ih fun w hw => hwords w (List.mem_cons_of_mem _ hw)]
      simp

variable [DecidableEq α]

theorem splitOn_append_cons (a b : List α) :
    (a ++ sep :: b).splitOn sep = a.splitOn sep ++ b.splitOn sep := by
  rw [List.splitOn_eq_splitOnP, List.splitOn_eq_splitOnP, List.splitOn_eq_splitOnP,
    List.splitOnP_append_cons a b (by simp)]

theorem splitOn_of_not_mem {a : List α} (h : sep ∉ a) : a.splitOn sep = [a] := by
  rw [List.splitOn_eq_splitOnP]
  refine List.splitOnP_eq_singleton fun c hc => ?_
  simpa using fun he : c = sep => h (he ▸ hc)

theorem splitOn_ne_nil (t : List α) : t.splitOn sep ≠ [] := by
  rw [List.splitOn_eq_splitOnP]
  exact List.splitOnP_ne_nil _ _

theorem not_mem_of_mem_splitOn {t word : List α} (h : word ∈ t.splitOn sep) : sep ∉ word := by
  by_cases hmem : sep ∈ t
  · induction hn : t.length using Nat.strong_induction_on generalizing t with
    | _ n ih =>
      obtain ⟨a, b, rfl, ha⟩ := List.eq_append_cons_of_mem hmem
      rw [splitOn_append_cons, splitOn_of_not_mem ha, List.singleton_append, List.mem_cons] at h
      rcases h with rfl | h
      · exact ha
      · by_cases hb : sep ∈ b
        · refine ih b.length ?_ h hb rfl
          rw [← hn, List.length_append, List.length_cons]
          omega
        · rw [splitOn_of_not_mem hb, List.mem_singleton] at h
          rwa [h]
  · rw [splitOn_of_not_mem hmem, List.mem_singleton] at h
    rwa [h]

/-- What a text ends in is in its last word. -/
theorem splitOn_append_last (t : List α) {last : List α} (h : sep ∉ last) :
    ∃ l a, (t ++ last).splitOn sep = l ++ [a] ∧ last <:+ a := by
  induction hn : t.length using Nat.strong_induction_on generalizing t with
  | _ n ih =>
    by_cases hmem : sep ∈ t
    · obtain ⟨x, y, rfl, -⟩ := List.eq_append_cons_of_mem hmem
      obtain ⟨l, a, hl, ha⟩ := ih y.length
        (by rw [← hn, List.length_append, List.length_cons]; omega) y rfl
      refine ⟨x.splitOn sep ++ l, a, ?_, ha⟩
      rw [List.append_assoc, List.cons_append, splitOn_append_cons, hl, List.append_assoc]
    · refine ⟨[], t ++ last, ?_, List.suffix_append _ _⟩
      rw [List.nil_append]
      exact splitOn_of_not_mem fun hin => (List.mem_append.mp hin).elim hmem h

theorem splitOn_append_first (t : List α) {first : List α} (h : sep ∉ first) :
    ∃ b r, (first ++ t).splitOn sep = b :: r ∧ first <+: b := by
  by_cases hmem : sep ∈ t
  · obtain ⟨x, y, rfl, hx⟩ := List.eq_append_cons_of_mem hmem
    refine ⟨first ++ x, y.splitOn sep, ?_, List.prefix_append _ _⟩
    rw [← List.append_assoc, splitOn_append_cons, splitOn_of_not_mem fun hin =>
      (List.mem_append.mp hin).elim h hx]
    rfl
  · refine ⟨first ++ t, [], splitOn_of_not_mem fun hin => ?_, List.prefix_append _ _⟩
    exact (List.mem_append.mp hin).elim h hmem

/-- Some words that follow each other: the first ends and the last starts in a certain way. -/
def Window (first : List α) (mid : List (List α)) (last : List α) (words : List (List α)) : Prop :=
  ∃ l a b r, words = l ++ a :: (mid ++ b :: r) ∧ first <:+ a ∧ last <+: b

/-- **An occurrence of joined words in joined words.** -/
theorem infix_intercalate_iff {first last : List α} {mid : List (List α)} (hfirst : sep ∉ first)
    (hmid : ∀ m ∈ mid, sep ∉ m) (hlast : sep ∉ last) (hwords : ∀ word ∈ words, sep ∉ word) :
    [sep].intercalate (first :: (mid ++ [last])) <:+: [sep].intercalate words ↔
      Window first mid last words := by
  have hjoin : ∀ (x : List α) (y : List (List α)), y ≠ [] →
      [sep].intercalate (x :: y) = x ++ sep :: [sep].intercalate y := by
    intro x y hy
    obtain ⟨z, y, rfl⟩ := List.exists_cons_of_ne_nil hy
    exact intercalate_cons_cons x z y
  have hsplit : ∀ v : List α, ([sep].intercalate (mid ++ [last]) ++ v).splitOn sep
      = mid ++ (last ++ v).splitOn sep := by
    intro v
    clear hfirst
    induction mid with
    | nil => rw [List.nil_append, List.nil_append, List.intercalate_singleton]
    | cons m mid ih =>
      rw [List.cons_append, hjoin m _ (by simp), List.append_assoc, List.cons_append,
        splitOn_append_cons, splitOn_of_not_mem (hmid m List.mem_cons_self),
        ih fun n hn => hmid n (List.mem_cons_of_mem _ hn)]
      rfl
  constructor
  · rintro ⟨u, v, huv⟩
    rw [hjoin first _ (by simp), List.append_assoc, List.append_assoc, List.cons_append,
      ← List.append_assoc u] at huv
    have hne : words ≠ [] := by
      rintro rfl
      rw [List.intercalate_nil] at huv
      simp at huv
    have hback := List.splitOn_intercalate sep hwords hne
    rw [← huv, splitOn_append_cons, hsplit] at hback
    obtain ⟨l, a, hl, ha⟩ := splitOn_append_last u hfirst
    obtain ⟨b, r, hr, hb⟩ := splitOn_append_first v hlast
    rw [hl, hr] at hback
    exact ⟨l, a, b, r, by rw [← hback]; simp, ha, hb⟩
  · rintro ⟨l, a, b, r, rfl, ⟨x, rfl⟩, ⟨y, rfl⟩⟩
    have hmiddle : ∀ rest : List (List α), [sep].intercalate (mid ++ [last])
        <+: [sep].intercalate (mid ++ (last ++ y) :: rest) := by
      intro rest
      clear hmid hsplit hwords
      induction mid with
      | nil =>
        cases rest with
        | nil =>
          rw [List.nil_append, List.nil_append, List.intercalate_singleton,
            List.intercalate_singleton]
          exact List.prefix_append _ _
        | cons z rest =>
          rw [List.nil_append, List.nil_append, List.intercalate_singleton, intercalate_cons_cons,
            List.append_assoc]
          exact List.prefix_append _ _
      | cons m mid ih =>
        rw [List.cons_append, List.cons_append, hjoin m _ (by simp), hjoin m _ (by simp)]
        exact (List.prefix_append_right_inj m).mpr (List.cons_prefix_cons.mpr ⟨rfl, ih⟩)
    have hcore : [sep].intercalate (first :: (mid ++ [last]))
        <:+: [sep].intercalate ((x ++ first) :: (mid ++ (last ++ y) :: r)) := by
      rw [hjoin first _ (by simp), hjoin (x ++ first) _ (by simp), List.append_assoc]
      refine List.IsInfix.trans (List.IsPrefix.isInfix ?_) (List.suffix_append x _).isInfix
      exact (List.prefix_append_right_inj first).mpr
        (List.cons_prefix_cons.mpr ⟨rfl, hmiddle r⟩)
    cases l with
    | nil => exact hcore
    | cons z l =>
      rw [intercalate_append (List.cons_ne_nil _ _) (List.cons_ne_nil _ _)]
      exact hcore.trans ((List.suffix_cons _ _).trans (List.suffix_append _ _)).isInfix

end Words

end Occurrences
