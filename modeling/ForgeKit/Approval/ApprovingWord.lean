import Mathlib.Data.List.Infix
import ForgeKit.Approval.PrMergeReply
import ForgeKit.Lib.TextSearch

/-!
# The word in an approving reply (`approval_reply.py`, `pr_approval.py`)

A short reply approves when a phrase stands anywhere in it, also inside a longer word. Which
characters belong to a word is a parameter.

* `parseApprovalIntent_approve_iff` — the texts that are read as an approval
* `approval_has_word_iff` — the texts for which an approval rests on a phrase that stands on its own
-/

namespace ForgeKit

namespace ApprovalReply

open PrMergeReply (PRMergeReplyIntent parsePrMergeReplyIntent revisePhrases)

/-- A phrase at a position, with no letter or digit right before or behind it. -/
def wordTest (alnum : Char → Bool) (phrase : String) : TextSearch.Test := fun before cs =>
  phrase.toList.isPrefixOf cs && !before.any alnum
    && !(cs.drop phrase.toList.length).head?.any alnum

/-- The phrase stands on its own somewhere in the text. -/
def hasWord (alnum : Char → Bool) (phrase text : String) : Bool :=
  TextSearch.search (wordTest alnum phrase) none text.toList

/-- An approval as it should be: an approving phrase stands on its own in the normalized text, and no
phrase of rejection or delay is in it. -/
structure ApprovesInWords (alnum : Char → Bool) (text : String) : Prop where
  word : ∃ phrase ∈ approvePhrases, hasWord alnum phrase (normalize text) = true
  unrefused : ∀ phrase ∈ rejectPhrases ++ holdPhrases, PyText.contains (normalize text) phrase = false

/-- The kinds of texts that cannot be approved without a word of approval: one is there, no approving
phrase is there at all, a phrase of rejection or delay is there, or the text is too long. -/
def ApprovalHasWord (alnum : Char → Bool) (text : String) : Prop :=
  (∃ phrase ∈ approvePhrases, hasWord alnum phrase (normalize text) = true)
    ∨ (∀ phrase ∈ approvePhrases, PyText.contains (normalize text) phrase = false)
    ∨ (∃ phrase ∈ rejectPhrases ++ holdPhrases, PyText.contains (normalize text) phrase = true)
    ∨ 40 < (normalize text).length

variable {alnum : Char → Bool} {text phrase : String}

theorem wordTest_iff {before : Option Char} {cs : List Char} :
    wordTest alnum phrase before cs = true
      ↔ ∃ tail, cs = phrase.toList ++ tail ∧ before.any alnum = false
        ∧ tail.head?.any alnum = false := by
  unfold wordTest
  rw [Bool.and_eq_true, Bool.and_eq_true, List.isPrefixOf_iff_prefix, Bool.not_eq_true',
    Bool.not_eq_true']
  constructor
  · rintro ⟨⟨⟨tail, rfl⟩, hbefore⟩, hafter⟩
    rw [List.drop_left] at hafter
    exact ⟨tail, rfl, hbefore, hafter⟩
  · rintro ⟨tail, rfl, hbefore, hafter⟩
    rw [List.drop_left]
    exact ⟨⟨List.prefix_append _ _, hbefore⟩, hafter⟩

/-- A phrase that stands on its own: what is before it does not end in a letter or digit, and what is
behind it does not start with one. -/
theorem hasWord_iff :
    hasWord alnum phrase text = true
      ↔ ∃ front tail, text.toList = front ++ phrase.toList ++ tail
        ∧ front.getLast?.any alnum = false ∧ tail.head?.any alnum = false := by
  unfold hasWord
  rw [TextSearch.search_iff]
  simp only [wordTest_iff, Option.or_none]
  constructor
  · rintro ⟨front, -, htext, tail, rfl, hbefore, hafter⟩
    exact ⟨front, tail, by rw [htext, List.append_assoc], hbefore, hafter⟩
  · rintro ⟨front, tail, htext, hbefore, hafter⟩
    exact ⟨front, phrase.toList ++ tail, by rw [htext, List.append_assoc], tail, rfl, hbefore, hafter⟩

/-- The whole text is a word of itself. -/
theorem hasWord_self : hasWord alnum text text = true :=
  hasWord_iff.mpr ⟨[], [], by simp, rfl, rfl⟩

/-- **The texts that are read as an approval.** -/
theorem parseApprovalIntent_approve_iff :
    parseApprovalIntent text = .approve
      ↔ (∀ phrase ∈ rejectPhrases ++ holdPhrases, PyText.contains (normalize text) phrase = false)
        ∧ (normalize text ∈ approvePhrases
          ∨ (∃ phrase ∈ approvePhrases, PyText.contains (normalize text) phrase = true)
            ∧ (normalize text).length ≤ 40) := by
  have hnone : ∀ phrases : List String, ¬phrases.any (PyText.contains (normalize text)) = true
      ↔ ∀ phrase ∈ phrases, PyText.contains (normalize text) phrase = false := by
    intro phrases
    rw [Bool.not_eq_true, List.any_eq_false]
    simp only [Bool.not_eq_true]
  unfold parseApprovalIntent
  dsimp only
  simp only [List.mem_append, or_imp, forall_and]
  by_cases hempty : normalize text = ""
  · -- no phrase is in an empty text
    have hnotin : ∀ phrase ∈ approvePhrases, PyText.contains "" phrase = false := by decide +kernel
    rw [if_pos hempty, hempty]
    simp only [reduceCtorEq, false_iff, not_and, not_or]
    refine fun _ => ⟨by decide, fun ⟨phrase, hphrase, hcontains⟩ => ?_⟩
    rw [hnotin phrase hphrase] at hcontains
    cases hcontains
  · rw [if_neg hempty]
    by_cases hreject : rejectPhrases.any (PyText.contains (normalize text)) = true
    · rw [if_pos hreject]
      simp only [reduceCtorEq, false_iff, not_and]
      exact fun h => absurd hreject ((hnone _).mpr h.1)
    · rw [if_neg hreject]
      by_cases hhold : holdPhrases.any (PyText.contains (normalize text)) = true
      · rw [if_pos hhold]
        simp only [reduceCtorEq, false_iff, not_and]
        exact fun h => absurd hhold ((hnone _).mpr h.2)
      · rw [if_neg hhold]
        rw [and_iff_right ⟨(hnone _).mp hreject, (hnone _).mp hhold⟩]
        by_cases hexact : approvePhrases.contains (normalize text) = true
        · rw [if_pos hexact]
          simp only [true_iff]
          exact .inl (List.contains_iff_mem.mp hexact)
        · have hnotexact : normalize text ∉ approvePhrases := fun h =>
            hexact (List.contains_iff_mem.mpr h)
          rw [if_neg hexact]
          simp only [hnotexact, false_or, ite_eq_left_iff, reduceCtorEq, imp_false, not_not,
            Bool.and_eq_true, List.any_eq_true, decide_eq_true_iff]

/-- An approval of a merge card is an approval that asks for no revision. -/
theorem parsePrMergeReplyIntent_approve_iff :
    parsePrMergeReplyIntent text = .approve
      ↔ (∀ phrase ∈ revisePhrases, PyText.contains (normalize text) phrase = false)
        ∧ parseApprovalIntent text = .approve := by
  unfold parsePrMergeReplyIntent
  by_cases hrevise : revisePhrases.any (PyText.contains (normalize text)) = true
  · rw [if_pos hrevise]
    obtain ⟨phrase, hphrase, hcontains⟩ := List.any_eq_true.mp hrevise
    simp only [reduceCtorEq, false_iff, not_and]
    intro hnone
    rw [hnone phrase hphrase] at hcontains
    cases hcontains
  · rw [if_neg hrevise]
    have hnone : ∀ phrase ∈ revisePhrases, PyText.contains (normalize text) phrase = false := by
      simpa using hrevise
    rw [and_iff_right hnone]
    cases parseApprovalIntent text <;> simp [PRMergeReplyIntent.ofBase]

theorem approvesInWords_iff (happrove : parseApprovalIntent text = .approve) :
    ApprovesInWords alnum text ↔ ApprovalHasWord alnum text := by
  obtain ⟨hunrefused, hphrase⟩ := parseApprovalIntent_approve_iff.mp happrove
  constructor
  · exact fun h => .inl h.word
  · rintro (hword | hnone | ⟨phrase, hmem, hcontains⟩ | hlong)
    · exact ⟨hword, hunrefused⟩
    · obtain hexact | ⟨⟨phrase, hmem, hcontains⟩, -⟩ := hphrase
      · exact ⟨⟨_, hexact, hasWord_self⟩, hunrefused⟩
      · rw [hnone phrase hmem] at hcontains
        cases hcontains
    · rw [hunrefused phrase hmem] at hcontains
      cases hcontains
    · obtain hexact | ⟨-, hshort⟩ := hphrase
      · exact ⟨⟨_, hexact, hasWord_self⟩, hunrefused⟩
      · exact absurd hshort (not_le.mpr hlong)

/-- A text that is not approved has a word of approval, no approving phrase, a phrase of rejection or
delay, or is long. -/
theorem approvalHasWord_of_not_approve (h : parseApprovalIntent text ≠ .approve) :
    ApprovalHasWord alnum text := by
  by_cases hrefused : ∃ phrase ∈ rejectPhrases ++ holdPhrases,
      PyText.contains (normalize text) phrase = true
  · exact .inr (.inr (.inl hrefused))
  · by_cases hlong : 40 < (normalize text).length
    · exact .inr (.inr (.inr hlong))
    · refine .inr (.inl fun phrase hmem => ?_)
      rw [← Bool.not_eq_true]
      intro hcontains
      refine h (parseApprovalIntent_approve_iff.mpr ⟨?_, .inr ⟨⟨phrase, hmem, hcontains⟩,
        not_lt.mp hlong⟩⟩)
      intro phrase' hmem'
      rw [← Bool.not_eq_true]
      exact fun hcontains' => hrefused ⟨phrase', hmem', hcontains'⟩

/--
**When an approval rests on a word of approval.** For every reply text, and every notion of letters
and digits: an approval of `parse_approval_intent` has an approving phrase that stands on its own and
no phrase of rejection or delay, exactly when the text is of one of the four kinds; and an approval of
`parse_pr_merge_reply_intent`, exactly when it is of one of them or asks for a revision.
-/
theorem approval_has_word_iff (alnum : Char → Bool) (text : String) :
    ((parseApprovalIntent text = .approve → ApprovesInWords alnum text)
        ↔ ApprovalHasWord alnum text)
      ∧ ((parsePrMergeReplyIntent text = .approve → ApprovesInWords alnum text)
        ↔ ApprovalHasWord alnum text
          ∨ ∃ phrase ∈ revisePhrases, PyText.contains (normalize text) phrase = true) := by
  have hbase : (parseApprovalIntent text = .approve → ApprovesInWords alnum text)
      ↔ ApprovalHasWord alnum text := by
    by_cases happrove : parseApprovalIntent text = .approve
    · rw [← approvesInWords_iff happrove]
      exact ⟨fun h => h happrove, fun h _ => h⟩
    · exact ⟨fun _ => approvalHasWord_of_not_approve happrove, fun _ h => absurd h happrove⟩
  refine ⟨hbase, ?_⟩
  rw [parsePrMergeReplyIntent_approve_iff]
  by_cases hrevise : ∃ phrase ∈ revisePhrases, PyText.contains (normalize text) phrase = true
  · refine ⟨fun _ => .inr hrevise, fun _ happrove => ?_⟩
    obtain ⟨phrase, hmem, hcontains⟩ := hrevise
    rw [happrove.1 phrase hmem] at hcontains
    cases hcontains
  · have hnone : ∀ phrase ∈ revisePhrases, PyText.contains (normalize text) phrase = false := by
      intro phrase hmem
      rw [← Bool.not_eq_true]
      exact fun hcontains => hrevise ⟨phrase, hmem, hcontains⟩
    rw [and_iff_right hnone, hbase]
    simp only [hrevise, or_false]

/-- **A reply about something broken approves**, since there is an `ok` in it. -/
theorem broken_is_approved :
    parseApprovalIntent "This is broken" = .approve
      ∧ parsePrMergeReplyIntent "This is broken" = .approve
      ∧ ¬ApprovesInWords Char.isAlphanum "This is broken" := by
  refine ⟨by decide +kernel, by decide +kernel, fun h => ?_⟩
  have hnone : ∀ phrase ∈ approvePhrases,
      hasWord Char.isAlphanum phrase (normalize "This is broken") = false := by decide +kernel
  obtain ⟨phrase, hmem, hword⟩ := h.word
  rw [hnone phrase hmem] at hword
  cases hword

end ApprovalReply

end ForgeKit
