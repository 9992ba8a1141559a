import ForgeKit.Lib.JsonRoundTrip
import Mathlib.Data.List.Lex
import Mathlib.Data.List.Sort

/-!
# JSON text with sorted keys

`json.dumps(v, ensure_ascii=False, sort_keys=True)` writes the members of every object in the order
of their keys. A reader that looks members up by key cannot tell.

* `loads_dumpsSorted` — what is written is read back, with its keys sorted
* `JsonDict.lookup_sorted` — what a key holds afterwards
* `encode_dumpsSorted` — when the text has an encoding
* `Value.sortKeys_sortKeys` — sorting twice
* `JsonDict.without_sorted_set` — a key that is set and taken away again
-/

namespace JsonText

open Py (Text CodePoint)

/-! ## Sorting -/

/-- The members, in the order of their keys. -/
def byKey (d : List (Text × Value)) : List (Text × Value) := d.insertionSort fun a b => a.1 ≤ b.1

mutual

def Value.sortKeys : Value → Value
  | .arr vs => .arr (sortElems vs)
  | .obj d => .obj (byKey (sortMembers d))
  | v => v

def sortElems : List Value → List Value
  | [] => []
  | v :: vs => v.sortKeys :: sortElems vs

def sortMembers : List (Text × Value) → List (Text × Value)
  | [] => []
  | (k, v) :: d => (k, v.sortKeys) :: sortMembers d

end

/-- `json.dumps(v, ensure_ascii=False, sort_keys=True)`. -/
def dumpsSorted (v : Value) : Text := dumps v.sortKeys

theorem perm_byKey (d : List (Text × Value)) : (byKey d).Perm d := List.perm_insertionSort _ d

theorem sortElems_eq_map (vs : List Value) : sortElems vs = vs.map Value.sortKeys := by
  induction vs with
  | nil => rfl
  | cons v vs ih => rw [sortElems, ih, List.map_cons]

theorem keys_sortMembers (d : List (Text × Value)) :
    (sortMembers d).map Prod.fst = d.map Prod.fst := by
  induction d with
  | nil => rfl
  | cons m d ih => rw [sortMembers, List.map_cons, ih, List.map_cons]

theorem lookup_sortMembers (d : List (Text × Value)) (k : Text) :
    (sortMembers d).lookup k = (d.lookup k).map Value.sortKeys := by
  induction d with
  | nil => rfl
  | cons m d ih =>
    rw [sortMembers, List.lookup_cons, List.lookup_cons, ih]
    cases k == m.1 <;> rfl

/-! ## Sorted values are valid -/

theorem validMembers_iff {d : List (Text × Value)} : validMembers d ↔ ∀ m ∈ d, m.2.Valid := by
  induction d with
  | nil => exact ⟨fun _ _ h => absurd h (List.not_mem_nil), fun _ => trivial⟩
  | cons m d ih =>
    rw [List.forall_mem_cons, ← ih]
    exact Iff.rfl

theorem valid_byKey {d : List (Text × Value)} (h : (Value.obj d).Valid) :
    (Value.obj (byKey d)).Valid := by
  refine ⟨((perm_byKey d).map Prod.fst).nodup_iff.mpr h.1, validMembers_iff.mpr ?_⟩
  intro m hm
  exact validMembers_iff.mp h.2 m ((perm_byKey d).mem_iff.mp hm)

mutual

theorem Value.valid_sortKeys : ∀ v : Value, v.Valid → v.sortKeys.Valid
  | .null, _ | .bool _, _ | .num _, _ | .str _, _ => trivial
  | .arr vs, h => validElems_sortElems vs h
  | .obj d, h => valid_byKey ⟨(keys_sortMembers d).symm ▸ h.1, validMembers_sortMembers d h.2⟩

theorem validElems_sortElems : ∀ vs : List Value, validElems vs → validElems (sortElems vs)
  | [], _ => trivial
  | v :: vs, h => ⟨v.valid_sortKeys h.1, validElems_sortElems vs h.2⟩

theorem validMembers_sortMembers :
    ∀ d : List (Text × Value), validMembers d → validMembers (sortMembers d)
  | [], _ => trivial
  | (_, v) :: d, h => ⟨v.valid_sortKeys h.1, validMembers_sortMembers d h.2⟩

end

/-- **What is written is read back**, with its keys sorted. -/
theorem loads_dumpsSorted {v : Value} (h : v.Valid) : loads (dumpsSorted v) = some v.sortKeys :=
  loads_dumps (v.valid_sortKeys h)

/-! ## Looking up -/

theorem lookup_eq_some_iff {β : Type} {d : List (Text × β)} (hd : (d.map Prod.fst).Nodup) {k : Text}
    {v : β} : d.lookup k = some v ↔ (k, v) ∈ d := by
  induction d with
  | nil => simp
  | cons m d ih =>
    obtain ⟨hm, hd⟩ := List.nodup_cons.mp hd
    rw [List.lookup_cons]
    by_cases hk : k = m.1
    · subst hk
      have hnot : (m.1, v) ∉ d := fun h => hm (List.mem_map.mpr ⟨(m.1, v), h, rfl⟩)
      simp [Prod.ext_iff, eq_comm, hnot]
    · have hne : (k, v) ≠ m := fun h => hk (congrArg Prod.fst h)
      rw [beq_false_of_ne hk, List.mem_cons]
      simp [hne, ih hd]

theorem lookup_byKey {d : List (Text × Value)} (hd : (d.map Prod.fst).Nodup) (k : Text) :
    (byKey d).lookup k = d.lookup k := by
  have hsorted : ((byKey d).map Prod.fst).Nodup := ((perm_byKey d).map Prod.fst).nodup_iff.mpr hd
  refine Option.ext fun v => ?_
  rw [lookup_eq_some_iff hsorted, lookup_eq_some_iff hd, (perm_byKey d).mem_iff]

/-- The dict, as it is read back. -/
def JsonDict.sorted (d : JsonDict) : JsonDict where
  members := byKey (sortMembers d.members)
  valid := Value.valid_sortKeys (.obj d.members) d.valid

/-- **A key holds what it held**, with its keys sorted. -/
theorem JsonDict.lookup_sorted (d : JsonDict) (k : Text) :
    d.sorted.members.lookup k = (d.members.lookup k).map Value.sortKeys := by
  have hd : ((sortMembers d.members).map Prod.fst).Nodup := by
    rw [keys_sortMembers]
    exact d.valid.1
  show (byKey (sortMembers d.members)).lookup k = _
  rw [lookup_byKey hd, lookup_sortMembers]

/-! ## The texts of a value -/

mutual

/-- The strings and the keys. -/
def Value.texts : Value → List Text
  | .str t => [t]
  | .arr vs => elemTexts vs
  | .obj d => memberTexts d
  | _ => []

def elemTexts : List Value → List Text
  | [] => []
  | v :: vs => v.texts ++ elemTexts vs

def memberTexts : List (Text × Value) → List Text
  | [] => []
  | (k, v) :: d => k :: (v.texts ++ memberTexts d)

end

theorem memberTexts_eq_flatMap (d : List (Text × Value)) :
    memberTexts d = d.flatMap fun m => m.1 :: m.2.texts := by
  induction d with
  | nil => rfl
  | cons m d ih => rw [memberTexts, ih, List.flatMap_cons, List.cons_append]

mutual

theorem Value.texts_sortKeys_perm : ∀ v : Value, v.sortKeys.texts.Perm v.texts
  | .null | .bool _ | .num _ | .str _ => .refl _
  | .arr vs => elemTexts_sortElems_perm vs
  | .obj d => by
    show (memberTexts (byKey (sortMembers d))).Perm (memberTexts d)
    refine .trans ?_ (memberTexts_sortMembers_perm d)
    rw [memberTexts_eq_flatMap, memberTexts_eq_flatMap]
    exact (perm_byKey _).flatMap_right _

theorem elemTexts_sortElems_perm : ∀ vs : List Value, (elemTexts (sortElems vs)).Perm (elemTexts vs)
  | [] => .refl _
  | v :: vs => v.texts_sortKeys_perm.append (elemTexts_sortElems_perm vs)

theorem memberTexts_sortMembers_perm :
    ∀ d : List (Text × Value), (memberTexts (sortMembers d)).Perm (memberTexts d)
  | [] => .refl _
  | (k, v) :: d => (v.texts_sortKeys_perm.append (memberTexts_sortMembers_perm d)).cons k

end

mutual

theorem Value.mem_texts_of_mem_tokens {t : Text} :
    ∀ v : Value, Token.str t ∈ v.tokens → t ∈ v.texts
  | .null, h | .bool true, h | .bool false, h | .num _, h => by simp [Value.tokens] at h
  | .str u, h => by simpa [Value.tokens, Value.texts] using h
  | .arr vs, h => mem_elemTexts_of_mem_tokens vs (by simpa [Value.tokens] using h)
  | .obj d, h => mem_memberTexts_of_mem_tokens d (by simpa [Value.tokens] using h)

theorem mem_elemTexts_of_mem_tokens {t : Text} :
    ∀ vs : List Value, Token.str t ∈ elemTokens vs → t ∈ elemTexts vs
  | [], h => by simp [elemTokens] at h
  | [v], h => List.mem_append_left _ (v.mem_texts_of_mem_tokens h)
  | v :: w :: vs, h => by
    have h : Token.str t ∈ v.tokens ∨ Token.str t ∈ elemTokens (w :: vs) := by
      simpa [elemTokens] using h
    rcases h with h | h
    · exact List.mem_append_left _ (v.mem_texts_of_mem_tokens h)
    · exact List.mem_append_right _ (mem_elemTexts_of_mem_tokens (w :: vs) h)

theorem mem_memberTexts_of_mem_tokens {t : Text} :
    ∀ d : List (Text × Value), Token.str t ∈ memberTokens d → t ∈ memberTexts d
  | [], h => by simp [memberTokens] at h
  | [(k, v)], h => by
    have h : t = k ∨ Token.str t ∈ v.tokens := by simpa [memberTokens] using h
    rcases h with rfl | h
    · exact List.mem_cons_self
    · exact List.mem_cons_of_mem _ (List.mem_append_left _ (v.mem_texts_of_mem_tokens h))
  | (k, v) :: m :: d, h => by
    have h : t = k ∨ Token.str t ∈ v.tokens ∨ Token.str t ∈ memberTokens (m :: d) := by
      simpa [memberTokens] using h
    rcases h with rfl | h | h
    · exact List.mem_cons_self
    · exact List.mem_cons_of_mem _ (List.mem_append_left _ (v.mem_texts_of_mem_tokens h))
    · exact List.mem_cons_of_mem _
        (List.mem_append_right _ (mem_memberTexts_of_mem_tokens (m :: d) h))

end

/-! ## When the text has an encoding -/

/-- `t.encode()` raises nothing. -/
def Encodable (t : Text) : Prop := ∀ c ∈ t, Py.isSurrogate c = false

instance (t : Text) : Decidable (Encodable t) := inferInstanceAs (Decidable (∀ c ∈ t, _))

theorem isSurrogate_of_lt {c : CodePoint} (h : c.val < 0x80) : Py.isSurrogate c = false := by
  have hvalid : c.val.isValidChar := .inl (by omega)
  simp [Py.isSurrogate, Py.toChar?, hvalid]

theorem Encodable.append {t u : Text} (ht : Encodable t) (hu : Encodable u) : Encodable (t ++ u) := by
  intro c hc
  rcases List.mem_append.mp hc with hc | hc
  · exact ht c hc
  · exact hu c hc

theorem encodable_of_ascii {t : Text} (h : t.all (fun c => decide (c.val < 0x80)) = true) :
    Encodable t :=
  fun c hc => isSurrogate_of_lt (of_decide_eq_true (List.all_eq_true.mp h c hc))

theorem encodable_of_all {ts : List Text}
    (h : (ts.all fun t => t.all fun c => !Py.isSurrogate c) = true) : ∀ t ∈ ts, Encodable t := by
  intro t ht c hc
  have hc := List.all_eq_true.mp (List.all_eq_true.mp h t ht) c hc
  simpa using hc

theorem isSurrogate_of_mem_escapeChar {c d : CodePoint} (hc : Py.isSurrogate c = false)
    (h : d ∈ escapeChar c) : Py.isSurrogate d = false := by
  have hhex : ∀ n, n < 16 → (hexDigit n).val < 0x80 := by decide
  unfold escapeChar at h
  split_ifs at h with hq h8 h9 h10 h12 h13 h32
  · rcases List.mem_cons.mp h with rfl | h
    · exact isSurrogate_of_lt (by decide)
    · obtain rfl := List.mem_singleton.mp h
      exact hc
  · exact encodable_of_ascii (by decide) d h
  · exact encodable_of_ascii (by decide) d h
  · exact encodable_of_ascii (by decide) d h
  · exact encodable_of_ascii (by decide) d h
  · exact encodable_of_ascii (by decide) d h
  · rcases List.mem_append.mp h with h | h
    · exact encodable_of_ascii (by decide) d h
    · simp only [List.mem_cons, List.not_mem_nil, or_false] at h
      rcases h with rfl | rfl <;> exact isSurrogate_of_lt (hhex _ (by omega))
  · obtain rfl := List.mem_singleton.mp h
    exact hc

theorem lt_of_isWordChar {c : CodePoint} (h : isWordChar c = true) : c.val < 0x80 := by
  rw [isWordChar, Bool.or_eq_true] at h
  rcases h with h | h
  · simp only [isDigit, Bool.and_eq_true, decide_eq_true_eq] at h
    omega
  · have hall : (Py.lit "+-.EINaefilnrstuy").all (fun d => decide (d.val < 0x80)) = true := by decide
    exact of_decide_eq_true (List.all_eq_true.mp hall c (of_decide_eq_true h))

theorem encodable_textOf {ts : List Token} {b : Bool} (h : Readable b ts)
    (hstr : ∀ t, .str t ∈ ts → Encodable t) : Encodable (textOf ts) := by
  induction ts generalizing b with
  | nil => exact fun c hc => absurd hc (List.not_mem_nil)
  | cons tok ts ih =>
    have htail : Encodable (textOf ts) := by
      cases tok with
      | word w => exact ih h.2.2 fun t ht => hstr t (List.mem_cons_of_mem _ ht)
      | _ => exact ih (b := false) h fun t ht => hstr t (List.mem_cons_of_mem _ ht)
    intro c hc
    rw [textOf, List.flatMap_cons] at hc
    rcases List.mem_append.mp hc with hhere | hlater
    · cases tok with
      | word w => exact isSurrogate_of_lt (lt_of_isWordChar (List.all_eq_true.mp h.2.1.2 c hhere))
      | str t =>
        rcases List.mem_cons.mp hhere with rfl | hin
        · exact isSurrogate_of_lt (by decide)
        · rcases List.mem_append.mp hin with hin | hin
          · obtain ⟨d, hd, hcd⟩ := List.mem_flatMap.mp hin
            exact isSurrogate_of_mem_escapeChar (hstr t List.mem_cons_self d hd) hcd
          · obtain rfl := List.mem_singleton.mp hin
            exact isSurrogate_of_lt (by decide)
      | _ => exact encodable_of_ascii (by decide) c hhere
    · exact htail c hlater

/-- **The text has an encoding** when the strings and the keys have one. -/
theorem encode_dumpsSorted {v : Value} (h : ∀ t ∈ v.texts, Encodable t) :
    (Py.encode (dumpsSorted v)).isSome = true := by
  refine Py.encode_isSome_iff.mpr (encodable_textOf (readable_value _) fun t ht => ?_)
  exact h t (v.texts_sortKeys_perm.mem_iff.mp (v.sortKeys.mem_texts_of_mem_tokens ht))

/-! ## Sorted twice -/

theorem sortMembers_eq_self {d : List (Text × Value)} (h : ∀ m ∈ d, m.2.sortKeys = m.2) :
    sortMembers d = d := by
  induction d with
  | nil => rfl
  | cons m d ih =>
    rw [sortMembers, ih fun m hm => h m (List.mem_cons_of_mem _ hm), h m List.mem_cons_self]

theorem byKey_byKey (d : List (Text × Value)) : byKey (byKey d) = byKey d :=
  (List.pairwise_insertionSort _ d).insertionSort_eq

mutual

/-- **Sorting the keys twice is sorting them once.** -/
theorem Value.sortKeys_sortKeys : ∀ v : Value, v.sortKeys.sortKeys = v.sortKeys
  | .null | .bool _ | .num _ | .str _ => rfl
  | .arr vs => congrArg Value.arr (sortElems_sortElems vs)
  | .obj d => by
    have hfixed : ∀ m ∈ byKey (sortMembers d), m.2.sortKeys = m.2 := fun m hm =>
      sortKeys_of_mem_sortMembers d m ((perm_byKey _).mem_iff.mp hm)
    show Value.obj (byKey (sortMembers (byKey (sortMembers d)))) = .obj (byKey (sortMembers d))
    rw [sortMembers_eq_self hfixed, byKey_byKey]

theorem sortElems_sortElems : ∀ vs : List Value, sortElems (sortElems vs) = sortElems vs
  | [] => rfl
  | v :: vs => by
    rw [sortElems, sortElems, v.sortKeys_sortKeys, sortElems_sortElems vs]

theorem sortKeys_of_mem_sortMembers :
    ∀ (d : List (Text × Value)), ∀ m ∈ sortMembers d, m.2.sortKeys = m.2
  | [], _, h => absurd h List.not_mem_nil
  | (k, v) :: d, m, h => by
    rcases List.mem_cons.mp h with rfl | h
    · exact v.sortKeys_sortKeys
    · exact sortKeys_of_mem_sortMembers d m h

end

theorem JsonDict.ext {d e : JsonDict} (h : d.members = e.members) : d = e := by
  cases d
  cases e
  cases h
  rfl

theorem JsonDict.sorted_sorted (d : JsonDict) : d.sorted.sorted = d.sorted := by
  have h := Value.sortKeys_sortKeys (.obj d.members)
  exact JsonDict.ext (Value.obj.inj h)

/-! ## A key more and a key less -/

/-- `d[k] = v`. -/
def JsonDict.set (d : JsonDict) (k : Text) (v : Document) : JsonDict where
  members := setKey d.members k v.1
  valid := valid_setKey d.valid v.2

/-- The dict without a key. -/
def JsonDict.without (d : JsonDict) (k : Text) : JsonDict where
  members := d.members.filter fun m => m.1 ≠ k
  valid := ⟨(List.filter_sublist.map _).nodup d.valid.1,
    validMembers_iff.mpr fun m hm => validMembers_iff.mp d.valid.2 m (List.mem_filter.mp hm).1⟩

theorem eq_of_perm_byKey {d e : List (Text × Value)} (hd : (d.map Prod.fst).Nodup)
    (hdk : d.Pairwise fun a b => a.1 ≤ b.1) (hek : e.Pairwise fun a b => a.1 ≤ b.1)
    (h : d.Perm e) : d = e := by
  refine List.Perm.eq_of_pairwise (fun a b ha hb hab hba => ?_) hdk hek h
  have hkey : a.1 = b.1 := le_antisymm hab hba
  have hb : b ∈ d := h.mem_iff.mpr hb
  exact List.inj_on_of_nodup_map hd ha hb hkey

theorem pairwise_byKey (d : List (Text × Value)) : (byKey d).Pairwise fun a b => a.1 ≤ b.1 :=
  List.pairwise_insertionSort _ d

theorem sortMembers_append (d e : List (Text × Value)) :
    sortMembers (d ++ e) = sortMembers d ++ sortMembers e := by
  induction d with
  | nil => rfl
  | cons m d ih => exact congrArg ((m.1, m.2.sortKeys) :: ·) ih

/-- **A key that is set and taken away again** leaves the dict as it was, also when its keys are
sorted in between. -/
theorem JsonDict.without_sorted_set {d : JsonDict} {k : Text} (h : k ∉ d.members.map Prod.fst)
    (v : Document) : (d.set k v).sorted.without k = d.sorted := by
  refine JsonDict.ext (eq_of_perm_byKey ?_ ?_ (pairwise_byKey _) ?_)
  · exact ((d.set k v).sorted.without k).valid.1
  · exact (pairwise_byKey _).filter _
  · have hset : sortMembers (setKey d.members k v.1)
        = sortMembers d.members ++ [(k, v.1.sortKeys)] := by
      rw [setKey_of_notMem h, sortMembers_append]
      rfl
    have hkeep : (sortMembers d.members).filter (fun m => decide (m.1 ≠ k)) = sortMembers d.members := by
      refine List.filter_eq_self.mpr fun m hm => decide_eq_true ?_
      rintro rfl
      exact h (keys_sortMembers d.members ▸ List.mem_map_of_mem hm)
    have hset' : ((d.set k v).sorted.without k).members.Perm (sortMembers d.members) := by
      refine ((perm_byKey _).filter _).trans (.of_eq ?_)
      show (sortMembers (setKey d.members k v.1)).filter (fun m => decide (m.1 ≠ k)) = _
      rw [hset, List.filter_append, hkeep]
      simp
    exact hset'.trans (perm_byKey _).symm

theorem lookup_setKey (d : List (Text × Value)) (k k' : Text) (v : Value) :
    (setKey d k v).lookup k' = if k' = k then some v else d.lookup k' := by
  induction d with
  | nil =>
    rw [setKey, List.lookup_cons]
    split
    · next h => rw [if_pos (eq_of_beq h)]
    · next h => rw [if_neg fun heq => by simp [heq] at h]
  | cons m d ih =>
    obtain ⟨k₀, v₀⟩ := m
    rw [setKey]
    by_cases hk : k₀ = k
    · subst hk
      rw [if_pos rfl, List.lookup_cons, List.lookup_cons]
      by_cases hk' : k' = k₀
      · simp [hk']
      · rw [beq_false_of_ne hk', if_neg hk']
    · rw [if_neg hk, List.lookup_cons, List.lookup_cons, ih]
      by_cases hk' : k' = k₀
      · subst hk'
        simp only [beq_self_eq_true, if_neg hk]
      · rw [beq_false_of_ne hk']

end JsonText
