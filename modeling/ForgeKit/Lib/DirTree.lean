import Mathlib.Data.List.Infix

/-!
# Directory trees

A listing holds the entries of a directory, each with its name, and the listings of its
subdirectories. A path is read name by name from the root.

* `files` — every file, with its path
* `through_of_mem_files` — the path of a file leads through an entry of the directory
* `not_below_of_ne` — no path through one entry is below a path through another
-/

/-- The entries of a directory; `α` is what is known of a file. -/
inductive Listing (ν α : Type*) where
  | nil
  | file (name : ν) (info : α) (rest : Listing ν α)
  | dir (name : ν) (entries rest : Listing ν α)

namespace Listing

variable {ν α : Type*}

/-- The names in this directory. -/
def names : Listing ν α → List ν
  | nil => []
  | file name _ rest => name :: rest.names
  | dir name _ rest => name :: rest.names

/-- No directory holds two entries of one name. -/
def WellFormed : Listing ν α → Prop
  | nil => True
  | file name _ rest => name ∉ rest.names ∧ rest.WellFormed
  | dir name entries rest => name ∉ rest.names ∧ entries.WellFormed ∧ rest.WellFormed

/-- The files of a directory at `under`, with their paths. -/
def files (under : List ν) : Listing ν α → List (List ν × α)
  | nil => []
  | file name info rest => (under ++ [name], info) :: files under rest
  | dir name entries rest => files (under ++ [name]) entries ++ files under rest

/-! ## Where the paths lead -/

/-- A path leads through an entry of the directory at `under`. -/
def Through (under : List ν) (l : Listing ν α) (p : List ν) : Prop :=
  ∃ name ∈ l.names, ∃ q, p = under ++ name :: q

variable {under p q : List ν} {name : ν} {info : α} {entries rest l : Listing ν α}

theorem Through.file (h : Through under rest p) : Through under (file name info rest) p := by
  obtain ⟨n, hn, q, rfl⟩ := h
  exact ⟨n, List.mem_cons_of_mem _ hn, q, rfl⟩

theorem Through.dir (h : Through under rest p) : Through under (dir name entries rest) p := by
  obtain ⟨n, hn, q, rfl⟩ := h
  exact ⟨n, List.mem_cons_of_mem _ hn, q, rfl⟩

/-- A path through a subdirectory leads through the entry of the subdirectory. -/
theorem Through.down (h : Through (under ++ [name]) entries p) :
    Through under (Listing.dir name entries rest) p := by
  obtain ⟨n, -, q, rfl⟩ := h
  exact ⟨name, List.mem_cons_self, n :: q, by simp⟩

theorem through_of_mem_files {f : List ν × α} (h : f ∈ l.files under) : Through under l f.1 := by
  induction l generalizing under with
  | nil => cases h
  | file name info rest ih =>
    rcases List.mem_cons.mp h with rfl | h
    · exact ⟨name, List.mem_cons_self, [], rfl⟩
    · exact (ih h).file
  | dir name entries rest ihe ihr =>
    rcases List.mem_append.mp h with h | h
    · exact (ihe h).down
    · exact (ihr h).dir

/-- No path through one entry is below a path through another. -/
theorem not_below_of_ne (hname : name ∉ l.names) (hp : Through under l p) (q : List ν) :
    ¬ p <+: under ++ name :: q ∧ ¬ under ++ name :: q <+: p := by
  obtain ⟨n, hn, r, rfl⟩ := hp
  have hne : n ≠ name := fun he => hname (he ▸ hn)
  constructor
  · intro h
    rw [List.prefix_append_right_inj, List.cons_prefix_cons] at h
    exact hne h.1
  · intro h
    rw [List.prefix_append_right_inj, List.cons_prefix_cons] at h
    exact hne h.1.symm

theorem below_of_mem_files {f : List ν × α} (h : f ∈ l.files under) : under <+: f.1 := by
  obtain ⟨n, -, q, hq⟩ := through_of_mem_files h
  exact ⟨n :: q, hq.symm⟩

/-- What is known of the files does not depend on where the directory stands. -/
theorem map_snd_files (p q : List ν) (l : Listing ν α) :
    (l.files p).map Prod.snd = (l.files q).map Prod.snd := by
  induction l generalizing p q with
  | nil => rfl
  | file name info rest ih => simp [files, ih p q]
  | dir name entries rest ihe ihr =>
    simp [files, ihe (p ++ [name]) (q ++ [name]), ihr p q]

end Listing

/-- A directory tree, in which no directory holds two entries of one name. -/
structure DirTree (ν α : Type*) where
  entries : Listing ν α
  wellFormed : entries.WellFormed

/-- Every file of the tree, with its path. -/
def DirTree.files {ν α : Type*} (t : DirTree ν α) : List (List ν × α) := t.entries.files []
