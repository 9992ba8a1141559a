import ForgeKit.Lib.JsonLines

/-!
# Messages in chunks (`yule_discord/ui/formatter.py`)

A message over the limit of a channel is sent in chunks. Lines are packed into a chunk while they fit;
a line over the limit is cut into slices of its own.

* `fits_splitDiscordMessage`, `content_splitDiscordMessage` — no chunk is over the limit, and nothing
  but line breaks is lost
* `delivers_iff` — when no chunk is empty
-/

namespace ForgeKit.Discord

open Py (Text CodePoint lit newline joinLines isSpace)
open JsonText (isLineBreak splitlines splitlinesFrom)

/-! ## The splitter -/

/-- `line[offset : offset + limit]` for the offsets of `range(0, len(line), limit)`. -/
def slices (limit : Nat) (line : Text) : List Text :=
  (List.range ((line.length + limit - 1) / limit)).map fun i => (line.drop (i * limit)).take limit

/-- The chunks that are finished and the lines that wait. -/
structure Splitter where
  chunks : List Text := []
  currentLines : List Text := []
  currentLength : Nat := 0

namespace Splitter

/-- `_flush`. -/
def flush (s : Splitter) : Splitter :=
  if s.currentLines = [] then s
  else { chunks := s.chunks ++ [joinLines s.currentLines], currentLines := [], currentLength := 0 }

/-- The body of the loop over the lines. -/
def addLine (limit : Nat) (s : Splitter) (line : Text) : Splitter :=
  if limit < line.length then
    let s := s.flush
    { s with chunks := s.chunks ++ slices limit line }
  else
    let addedLength := line.length + if s.currentLines = [] then 0 else 1
    if s.currentLines ≠ [] ∧ limit < s.currentLength + addedLength then
      { s.flush with currentLines := [line], currentLength := line.length }
    else
      { s with
        currentLines := s.currentLines ++ [line], currentLength := s.currentLength + addedLength }

/-- The splitter after some lines. -/
def run (limit : Nat) (lines : List Text) : Splitter := lines.foldl (addLine limit) {}

end Splitter

/-- `split_discord_message`. -/
def splitDiscordMessage (message : Text) (limit : Int) : List Text :=
  if limit ≤ 0 then [message]
  else if message.length ≤ limit then [message]
  else (Splitter.run limit.toNat (splitlines message)).flush.chunks

/-! ## Slices -/

theorem flatten_slices {limit : Nat} (hlimit : 0 < limit) (line : Text) :
    (slices limit line).flatten = line := by
  have htake : ∀ k, ((List.range k).map fun i => (line.drop (i * limit)).take limit).flatten
      = line.take (k * limit) := by
    intro k
    induction k with
    | zero => simp
    | succ k ih =>
      rw [List.range_succ, List.map_append, List.flatten_append, ih, Nat.succ_mul, List.take_add]
      simp
  unfold slices
  rw [htake, List.take_of_length_le]
  have hdiv := Nat.lt_div_mul_add (a := line.length + limit - 1) hlimit
  omega

theorem length_of_mem_slices {limit : Nat} (hlimit : 0 < limit) {line chunk : Text}
    (h : chunk ∈ slices limit line) : chunk ≠ [] ∧ chunk.length ≤ limit := by
  obtain ⟨i, hi, rfl⟩ := List.mem_map.mp h
  rw [List.mem_range, Nat.lt_div_iff_mul_lt hlimit] at hi
  refine ⟨List.ne_nil_of_length_pos ?_, List.length_take_le _ _⟩
  rw [List.length_take, List.length_drop]
  have hmul := Nat.mul_comm limit i
  omega

/-! ## Lines in a chunk -/

theorem length_joinLines_concat {lines : List Text} (h : lines ≠ []) (line : Text) :
    (joinLines (lines ++ [line])).length = (joinLines lines).length + 1 + line.length := by
  obtain ⟨init, last, rfl⟩ := lines.eq_nil_or_concat'.resolve_left h
  rw [Py.joinLines_concat, Py.joinLines_concat, List.flatMap_append, List.flatMap_singleton]
  simp only [List.length_append, List.length_singleton]
  omega

/-- Only one empty line joins to an empty chunk. -/
theorem joinLines_eq_nil_iff {lines : List Text} (h : lines ≠ []) :
    joinLines lines = [] ↔ lines = [[]] := by
  obtain ⟨init, last, rfl⟩ := lines.eq_nil_or_concat'.resolve_left h
  rw [Py.joinLines_concat, List.append_eq_nil_iff]
  cases init with
  | nil => simp
  | cons line init => simp

theorem length_le_joinLines {line : Text} {lines : List Text} :
    line.length ≤ (joinLines (line :: lines)).length := by
  cases lines with
  | nil => simp [joinLines, List.intercalate_singleton]
  | cons next lines => simp [joinLines, List.intercalate_cons_cons]

/-- The characters that are no line breaks. -/
def unbroken (t : Text) : Text := t.filter (!isLineBreak ·)

@[simp] theorem unbroken_append (t u : Text) : unbroken (t ++ u) = unbroken t ++ unbroken u :=
  List.filter_append _ _

@[simp] theorem unbroken_newline (t : Text) : unbroken (newline :: t) = unbroken t :=
  List.filter_cons_of_neg (by decide)

theorem unbroken_joinLines (lines : List Text) : unbroken (joinLines lines) = unbroken lines.flatten := by
  rcases lines.eq_nil_or_concat' with rfl | ⟨init, last, rfl⟩
  · rfl
  · have hinit : unbroken (init.flatMap (· ++ [newline])) = unbroken init.flatten := by
      induction init with
      | nil => rfl
      | cons line init ih => simp [List.flatMap_cons, ih]
    rw [Py.joinLines_concat, unbroken_append, hinit]
    simp

/-- The lines of a text hold what is no line break in it. -/
theorem flatten_splitlinesFrom (acc : Text) (afterReturn : Bool) (t : Text) :
    (splitlinesFrom acc afterReturn t).flatten = acc.reverse ++ unbroken t := by
  induction t generalizing acc afterReturn with
  | nil =>
    rw [splitlinesFrom]
    split
    · next h => rw [h]; rfl
    · simp [unbroken]
  | cons c t ih =>
    rw [splitlinesFrom]
    split
    · next h => rw [ih, h.1]; rfl
    · split
      · next hbreak => simp [ih, unbroken, hbreak]
      · next hbreak => simp [ih, unbroken, hbreak]

theorem flatten_splitlines (t : Text) : (splitlines t).flatten = unbroken t :=
  flatten_splitlinesFrom [] false t

theorem unbroken_unbroken (t : Text) : unbroken (unbroken t) = unbroken t := by
  simp [unbroken]

/-! ## One line -/

namespace Splitter

variable {limit : Nat} {s : Splitter} {line chunk : Text} {front : List Text}

@[simp] theorem currentLines_flush : s.flush.currentLines = [] := by
  unfold flush
  split
  · next h => exact h
  · rfl

theorem chunks_flush :
    s.flush.chunks = s.chunks ++ if s.currentLines = [] then [] else [joinLines s.currentLines] := by
  unfold flush
  split
  · exact (List.append_nil _).symm
  · rfl

theorem mem_chunks_flush : chunk ∈ s.flush.chunks ↔
    chunk ∈ s.chunks ∨ (s.currentLines ≠ [] ∧ chunk = joinLines s.currentLines) := by
  rw [chunks_flush, List.mem_append]
  split
  · next h => simp [h]
  · next h => simp [h]

/-- **One line**: it is sliced, it opens a chunk, or it is put with the lines that wait. -/
theorem addLine_cases (limit : Nat) (s : Splitter) (line : Text) :
    (limit < line.length
      ∧ s.addLine limit line = { s.flush with chunks := s.flush.chunks ++ slices limit line })
      ∨ (line.length ≤ limit ∧ s.currentLines ≠ [] ∧ limit < s.currentLength + 1 + line.length
        ∧ s.addLine limit line
          = { s.flush with currentLines := [line], currentLength := line.length })
      ∨ (line.length ≤ limit
        ∧ (s.currentLines = [] ∨ s.currentLength + 1 + line.length ≤ limit)
        ∧ s.addLine limit line = { s with
          currentLines := s.currentLines ++ [line]
          currentLength := s.currentLength + (line.length + if s.currentLines = [] then 0 else 1) }) := by
  unfold addLine
  dsimp only
  split
  · next hlong => exact .inl ⟨hlong, rfl⟩
  · next hlong =>
    rw [Nat.not_lt] at hlong
    by_cases hnil : s.currentLines = []
    · rw [if_neg fun h => h.1 hnil]
      exact .inr (.inr ⟨hlong, .inl hnil, rfl⟩)
    · rw [if_neg hnil]
      split
      · next hfull =>
        exact .inr (.inl ⟨hlong, hnil, by omega, rfl⟩)
      · next hfull =>
        refine .inr (.inr ⟨hlong, .inr ?_, rfl⟩)
        have hfits : ¬limit < s.currentLength + (line.length + 1) := fun h => hfull ⟨hnil, h⟩
        omega

theorem run_concat : run limit (front ++ [line]) = (run limit front).addLine limit line :=
  List.foldl_concat _ _ _ _

end Splitter

/-! ## Where a chunk opens -/

variable {limit : Nat} {front : List Text} {first next line : Text} {rest : List Text}

/-- A line behind `front` opens a chunk: nothing waits there, or what waits has no room for it. -/
inductive Opens (limit : Nat) : List Text → Text → Prop
  | start (next : Text) : Opens limit [] next
  | afterLong {front : List Text} {line : Text} (hlong : limit < line.length) (next : Text) :
      Opens limit (front ++ [line]) next
  | afterFull {front : List Text} {first next : Text} {rest : List Text} (hopens : Opens limit front first)
      (hfits : (joinLines (first :: rest)).length ≤ limit)
      (hfull : limit < (joinLines (first :: rest)).length + 1 + next.length) :
      Opens limit (front ++ first :: rest) next

/-- The lines that wait are the end of what was read, and open a chunk there. -/
structure Packs (limit : Nat) (front : List Text) (s : Splitter) : Prop where
  length : s.currentLength = (joinLines s.currentLines).length
  fits : s.currentLength ≤ limit
  ofNil : s.currentLines = [] → ∀ next, Opens limit front next
  ofCons : ∀ first rest, s.currentLines = first :: rest →
    ∃ before, front = before ++ first :: rest ∧ Opens limit before first

theorem Packs.opens {s : Splitter} (h : Packs limit front s) {next : Text}
    (hfull : s.currentLines = [] ∨ limit < s.currentLength + 1 + next.length) :
    Opens limit front next := by
  cases hlines : s.currentLines with
  | nil => exact h.ofNil hlines next
  | cons first rest =>
    obtain ⟨before, rfl, hopens⟩ := h.ofCons first rest hlines
    have hlength := h.length
    have hfits := h.fits
    have hover := hfull.resolve_left (by simp [hlines])
    rw [hlines] at hlength
    exact .afterFull hopens (by omega) (by omega)

theorem Packs.addLine {s : Splitter} (h : Packs limit front s) (line : Text) :
    Packs limit (front ++ [line]) (s.addLine limit line) := by
  rcases Splitter.addLine_cases limit s line with ⟨hlong, heq⟩ | ⟨hline, hne, hfull, heq⟩ |
    ⟨hline, hfits, heq⟩
  · rw [heq]
    have hlength : s.flush.currentLength = 0 := by
      unfold Splitter.flush
      split
      · next hnil => rw [h.length, hnil]; rfl
      · rfl
    refine ⟨?_, ?_, fun _ => .afterLong hlong, fun first rest hlines => ?_⟩
    · simp [hlength, joinLines]
    · simp [hlength]
    · simp at hlines
  · rw [heq]
    refine ⟨?_, hline, fun hlines => absurd hlines (List.cons_ne_nil _ _),
      fun first rest hlines => ?_⟩
    · simp [joinLines, List.intercalate_singleton]
    · obtain ⟨rfl, rfl⟩ := List.cons.inj hlines
      exact ⟨front, rfl, h.opens (.inr hfull)⟩
  · rw [heq]
    cases hlines : s.currentLines with
    | nil =>
      have hlength : s.currentLength = 0 := by rw [h.length, hlines]; rfl
      refine ⟨?_, ?_, fun hnil => absurd hnil (List.cons_ne_nil _ _), fun first rest hcons => ?_⟩
      · simp [hlength, joinLines, List.intercalate_singleton]
      · simpa [hlength] using hline
      · obtain ⟨rfl, rfl⟩ := List.cons.inj hcons
        exact ⟨front, rfl, h.ofNil hlines line⟩
    | cons first rest =>
      have hne : s.currentLines ≠ [] := by simp [hlines]
      have hroom := hfits.resolve_left hne
      have hlength := h.length
      rw [hlines] at hlength
      refine ⟨?_, ?_, fun hnil => absurd hnil (List.cons_ne_nil _ _), fun first' rest' hcons => ?_⟩
      · dsimp only
        rw [length_joinLines_concat (List.cons_ne_nil _ _), if_neg (List.cons_ne_nil _ _), hlength]
        omega
      · dsimp only
        rw [if_neg (List.cons_ne_nil _ _)]
        omega
      · obtain ⟨before, rfl, hopens⟩ := h.ofCons first rest hlines
        obtain ⟨rfl, rfl⟩ := List.cons.inj hcons
        exact ⟨before, by simp, hopens⟩

theorem packs_run (limit : Nat) (lines : List Text) : Packs limit lines (Splitter.run limit lines) := by
  induction lines using List.reverseRecOn with
  | nil =>
    exact ⟨rfl, Nat.zero_le _, fun _ => .start, fun first rest hlines => absurd hlines (by simp [Splitter.run])⟩
  | append_singleton front line ih =>
    rw [Splitter.run_concat]
    exact ih.addLine line

/-- A line that opens a chunk waits there with the lines that fit behind it. -/
theorem currentLines_run (hopens : (Splitter.run limit front).currentLines = []
      ∨ limit < (Splitter.run limit front).currentLength + 1 + first.length)
    (hfits : (joinLines (first :: rest)).length ≤ limit) :
    (Splitter.run limit (front ++ first :: rest)).currentLines = first :: rest := by
  induction rest using List.reverseRecOn with
  | nil =>
    have hfirst : first.length ≤ limit := length_le_joinLines.trans hfits
    rw [Splitter.run_concat]
    rcases Splitter.addLine_cases limit (Splitter.run limit front) first with ⟨hlong, -⟩ |
      ⟨-, -, -, heq⟩ | ⟨-, hroom, heq⟩
    · omega
    · rw [heq]
    · have hnil : (Splitter.run limit front).currentLines = [] := by
        rcases hopens with h | h
        · exact h
        · exact hroom.resolve_right (by omega)
      rw [heq]
      dsimp only
      rw [hnil]
      rfl
  | append_singleton rest line ih =>
    rw [← List.cons_append, length_joinLines_concat (List.cons_ne_nil _ _)] at hfits
    have hlines := ih (by omega)
    have hlength := (packs_run limit (front ++ first :: rest)).length
    rw [hlines] at hlength
    rw [← List.cons_append, ← List.append_assoc, Splitter.run_concat]
    rcases Splitter.addLine_cases limit (Splitter.run limit (front ++ first :: rest)) line with
      ⟨hlong, -⟩ | ⟨-, -, hfull, -⟩ | ⟨-, -, heq⟩
    · omega
    · omega
    · rw [heq]
      dsimp only
      rw [hlines]

/-- **`Opens` says where a chunk opens.** -/
theorem opens_iff : Opens limit front next ↔
    (Splitter.run limit front).currentLines = []
      ∨ limit < (Splitter.run limit front).currentLength + 1 + next.length := by
  constructor
  · intro h
    induction h with
    | start next => exact .inl rfl
    | @afterLong front line hlong next =>
      left
      rw [Splitter.run_concat]
      rcases Splitter.addLine_cases limit (Splitter.run limit front) line with ⟨-, heq⟩ |
        ⟨hline, -⟩ | ⟨hline, -⟩
      · rw [heq]
        exact Splitter.currentLines_flush
      · omega
      · omega
    | @afterFull front first next rest hopens hfits hfull ih =>
      right
      rw [(packs_run limit _).length, currentLines_run ih hfits]
      exact hfull
  · exact (packs_run limit front).opens

/-! ## Empty chunks -/

/-- One empty line waits exactly when it was the last line, and opened its chunk. -/
theorem currentLines_eq_blank_iff : (Splitter.run limit front).currentLines = [[]] ↔
    ∃ before, front = before ++ [[]] ∧ Opens limit before [] := by
  constructor
  · exact (packs_run limit front).ofCons [] []
  · rintro ⟨before, rfl, hopens⟩
    exact currentLines_run (opens_iff.mp hopens) (Nat.zero_le _)

theorem nil_notMem_slices (hlimit : 0 < limit) : [] ∉ slices limit line :=
  fun h => (length_of_mem_slices hlimit h).1 rfl

theorem nil_mem_flush_iff {s : Splitter} :
    [] ∈ s.flush.chunks ↔ [] ∈ s.chunks ∨ s.currentLines = [[]] := by
  rw [Splitter.mem_chunks_flush]
  by_cases hnil : s.currentLines = []
  · simp [hnil]
  · rw [eq_comm, joinLines_eq_nil_iff hnil]
    simp [hnil]

/-- A line makes an empty chunk out of one empty line when it has no room behind it. -/
theorem nil_mem_addLine_iff (hlimit : 0 < limit) :
    [] ∈ ((Splitter.run limit front).addLine limit line).chunks ↔
      [] ∈ (Splitter.run limit front).chunks
        ∨ (Splitter.run limit front).currentLines = [[]] ∧ limit ≤ line.length := by
  have hlength := (packs_run limit front).length
  rcases Splitter.addLine_cases limit (Splitter.run limit front) line with ⟨hlong, heq⟩ |
    ⟨-, -, hfull, heq⟩ | ⟨hline, hroom, heq⟩
  · rw [heq]
    dsimp only
    rw [List.mem_append, nil_mem_flush_iff, or_iff_left (nil_notMem_slices hlimit),
      and_iff_left hlong.le]
  · rw [heq]
    dsimp only
    rw [nil_mem_flush_iff]
    refine or_congr_right (and_iff_left_of_imp fun hblank => ?_).symm
    rw [hblank] at hlength
    have hzero : (joinLines [[]]).length = 0 := rfl
    omega
  · rw [heq]
    dsimp only
    refine (or_iff_left ?_).symm
    rintro ⟨hblank, hfull⟩
    have hfits := hroom.resolve_left (by simp [hblank])
    omega

theorem nil_mem_run_iff (hlimit : 0 < limit) : [] ∈ (Splitter.run limit front).chunks ↔
    ∃ before next after, front = before ++ [] :: next :: after ∧ Opens limit before []
      ∧ limit ≤ next.length := by
  induction front using List.reverseRecOn with
  | nil => simp [Splitter.run]
  | append_singleton front line ih =>
    rw [Splitter.run_concat, nil_mem_addLine_iff hlimit, ih, currentLines_eq_blank_iff]
    constructor
    · rintro (⟨before, next, after, rfl, hopens, hfull⟩ | ⟨⟨before, rfl, hopens⟩, hfull⟩)
      · exact ⟨before, next, after ++ [line], by simp, hopens, hfull⟩
      · exact ⟨before, line, [], by simp, hopens, hfull⟩
    · rintro ⟨before, next, after, heq, hopens, hfull⟩
      rcases after.eq_nil_or_concat' with rfl | ⟨after, last, rfl⟩
      · have hsplit : front ++ [line] = (before ++ [[]]) ++ [next] := by simp [heq]
        obtain ⟨rfl, hnext⟩ := List.append_inj' hsplit rfl
        obtain rfl := List.singleton_inj.mp hnext
        exact .inr ⟨⟨before, rfl, hopens⟩, hfull⟩
      · have hsplit : front ++ [line] = (before ++ [] :: next :: after) ++ [last] := by simp [heq]
        obtain ⟨rfl, -⟩ := List.append_inj' hsplit rfl
        exact .inl ⟨before, next, after, rfl, hopens, hfull⟩

/-- An empty line opens a chunk and stays alone in it: it is the last line, or the next line fills a
chunk by itself. -/
def BlankAlone (limit : Nat) (lines : List Text) : Prop :=
  ∃ before after, lines = before ++ [] :: after ∧ Opens limit before []
    ∧ ∀ next, after.head? = some next → limit ≤ next.length

/-- **A chunk is empty exactly when an empty line stays alone.** -/
theorem nil_mem_chunks_iff (hlimit : 0 < limit) {lines : List Text} :
    [] ∈ (Splitter.run limit lines).flush.chunks ↔ BlankAlone limit lines := by
  rw [nil_mem_flush_iff, nil_mem_run_iff hlimit, currentLines_eq_blank_iff]
  constructor
  · rintro (⟨before, next, after, rfl, hopens, hfull⟩ | ⟨before, rfl, hopens⟩)
    · refine ⟨before, next :: after, rfl, hopens, fun next' hnext => ?_⟩
      rwa [← Option.some.inj hnext]
    · exact ⟨before, [], rfl, hopens, fun next hnext => by cases hnext⟩
  · rintro ⟨before, after, rfl, hopens, hfull⟩
    cases after with
    | nil => exact .inr ⟨before, rfl, hopens⟩
    | cons next after => exact .inl ⟨before, next, after, rfl, hopens, hfull next rfl⟩

/-! ## What is sent -/

/-- What a run keeps: the sizes, and every character that is no line break. -/
structure Keeps (limit : Nat) (front : List Text) (s : Splitter) : Prop where
  fits : ∀ chunk ∈ s.chunks, chunk.length ≤ limit
  content : unbroken (s.chunks.flatten ++ s.currentLines.flatten) = unbroken front.flatten

theorem content_flush {s : Splitter} :
    unbroken s.flush.chunks.flatten = unbroken (s.chunks.flatten ++ s.currentLines.flatten) := by
  rw [Splitter.chunks_flush, List.flatten_append, unbroken_append, unbroken_append]
  split
  · next h => rw [h]
  · rw [List.flatten_singleton, unbroken_joinLines]

theorem fits_flush {s : Splitter} (hpacks : Packs limit front s) (h : Keeps limit front s) :
    ∀ chunk ∈ s.flush.chunks, chunk.length ≤ limit := by
  intro chunk hchunk
  rcases Splitter.mem_chunks_flush.mp hchunk with hchunk | ⟨-, rfl⟩
  · exact h.fits chunk hchunk
  · exact hpacks.length.symm.le.trans hpacks.fits

theorem Keeps.addLine {s : Splitter} (hlimit : 0 < limit) (hpacks : Packs limit front s)
    (h : Keeps limit front s) (line : Text) : Keeps limit (front ++ [line]) (s.addLine limit line) := by
  have hfront : unbroken (front ++ [line]).flatten = unbroken s.flush.chunks.flatten ++ unbroken line := by
    rw [List.flatten_append, unbroken_append, ← h.content, ← content_flush, List.flatten_singleton]
  rcases Splitter.addLine_cases limit s line with ⟨hlong, heq⟩ | ⟨-, -, -, heq⟩ | ⟨-, -, heq⟩
  · rw [heq]
    refine ⟨fun chunk hchunk => ?_, ?_⟩
    · rcases List.mem_append.mp hchunk with hchunk | hchunk
      · exact fits_flush hpacks h chunk hchunk
      · exact (length_of_mem_slices hlimit hchunk).2
    · rw [hfront]
      simp [flatten_slices hlimit]
  · rw [heq]
    refine ⟨fits_flush hpacks h, ?_⟩
    rw [hfront]
    simp
  · rw [heq]
    refine ⟨h.fits, ?_⟩
    rw [hfront, content_flush]
    simp

theorem keeps_run (hlimit : 0 < limit) (lines : List Text) :
    Keeps limit lines (Splitter.run limit lines) := by
  induction lines using List.reverseRecOn with
  | nil => exact ⟨fun chunk hchunk => absurd hchunk (by simp [Splitter.run]), rfl⟩
  | append_singleton front line ih =>
    rw [Splitter.run_concat]
    exact ih.addLine hlimit (packs_run limit front) line

variable {message : Text} {limit : Int}

/-- **No chunk is over the limit.** -/
theorem fits_splitDiscordMessage (hlimit : 1 ≤ limit) :
    ∀ chunk ∈ splitDiscordMessage message limit, chunk.length ≤ limit := by
  intro chunk hchunk
  unfold splitDiscordMessage at hchunk
  rw [if_neg (by omega)] at hchunk
  split at hchunk
  · next hshort =>
    rw [List.mem_singleton.mp hchunk]
    exact hshort
  · have hfits := fits_flush (packs_run limit.toNat _) (keeps_run (by omega) _) chunk hchunk
    omega

/-- **Nothing but line breaks is lost.** -/
theorem content_splitDiscordMessage (hlimit : 1 ≤ limit) :
    unbroken (splitDiscordMessage message limit).flatten = unbroken message := by
  unfold splitDiscordMessage
  rw [if_neg (by omega)]
  split
  · rw [List.flatten_singleton]
  · rw [content_flush, (keeps_run (by omega) _).content, flatten_splitlines, unbroken_unbroken]

/-- Every chunk can be sent, and the chunks hold the message. -/
structure Delivers (message : Text) (limit : Int) : Prop where
  sizes : ∀ chunk ∈ splitDiscordMessage message limit, 1 ≤ chunk.length ∧ chunk.length ≤ limit
  content : unbroken (splitDiscordMessage message limit).flatten = unbroken message

/-- **When a message is delivered.** It fits as a whole, or no empty line stays alone in a chunk;
the limit and the content are kept in any case. -/
theorem delivers_iff (hlimit : 1 ≤ limit) (hvisible : ∃ c ∈ message, isSpace c = false) :
    (∀ chunk ∈ splitDiscordMessage message limit, chunk.length ≤ limit)
      ∧ unbroken (splitDiscordMessage message limit).flatten = unbroken message
      ∧ (Delivers message limit ↔
        message.length ≤ limit ∨ ¬BlankAlone limit.toNat (splitlines message)) := by
  refine ⟨fits_splitDiscordMessage hlimit, content_splitDiscordMessage hlimit, ?_⟩
  have hsizes : Delivers message limit ↔ [] ∉ splitDiscordMessage message limit := by
    constructor
    · intro h hnil
      exact absurd (h.sizes [] hnil).1 (by simp)
    · intro h
      refine ⟨fun chunk hchunk => ⟨?_, fits_splitDiscordMessage hlimit chunk hchunk⟩,
        content_splitDiscordMessage hlimit⟩
      exact List.length_pos_iff.mpr fun hnil => h (hnil ▸ hchunk)
  rw [hsizes]
  unfold splitDiscordMessage
  rw [if_neg (by omega)]
  split
  · next hshort =>
    obtain ⟨c, hc, -⟩ := hvisible
    refine iff_of_true (fun hnil => ?_) (.inl hshort)
    rw [← List.mem_singleton.mp hnil] at hc
    cases hc
  · next hshort => rw [nil_mem_chunks_iff (by omega), or_iff_right hshort]

/-- An empty line between two lines is sent with them. -/
theorem inner_blank_delivers : Delivers (lit "ab\n\ncd") 4 := by
  refine (delivers_iff (by decide) ⟨Py.ofChar 'a', by simp [lit], rfl⟩).2.2.mpr (.inr ?_)
  rw [← nil_mem_chunks_iff (by decide)]
  decide

/-- **An empty line at the end of a message is sent as an empty chunk.** -/
theorem trailing_blank_is_sent :
    splitDiscordMessage (lit "full\n\n") 4 = [lit "full", []] ∧ ¬Delivers (lit "full\n\n") 4 := by
  have hsplit : splitDiscordMessage (lit "full\n\n") 4 = [lit "full", []] := by decide
  refine ⟨hsplit, fun h => ?_⟩
  have hsize := (h.sizes [] (by rw [hsplit]; simp)).1
  exact absurd hsize (by decide)

end ForgeKit.Discord
