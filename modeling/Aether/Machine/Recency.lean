import Mathlib

/-! Tables in the order of use.

The key that was used last is in front. A full table that admits another key gives up its last
one, which is the one used least recently (`Recent.least`). -/
namespace Aether.Machine

variable {κ ν : Type}

/-- The table without a key. -/
def without [DecidableEq κ] (key : κ) (table : List (κ × ν)) : List (κ × ν) := table.filter fun entry => entry.1 ≠ key

/-- What a table keeps of its keys when it admits another. -/
def makeRoom (capacity : Nat) (table : List (κ × ν)) : List (κ × ν) :=
  if table.length < capacity then table else table.dropLast

/-- The key that it gives up then. -/
def givenUp (capacity : Nat) (table : List (κ × ν)) : Option κ :=
  if table.length < capacity then none else table.getLast?.map (·.1)

/-- There is room for one more. -/
theorem length_makeRoom {capacity : Nat} (hcapacity : 0 < capacity) {table : List (κ × ν)}
    (h : table.length ≤ capacity) : (makeRoom capacity table).length < capacity := by
  rw [makeRoom]
  split
  · assumption
  · rw [List.length_dropLast]
    omega

/-- What is given up is the last key of a full table. -/
theorem givenUp_eq_some {capacity : Nat} {table : List (κ × ν)} {key : κ} (h : givenUp capacity table = some key) :
    capacity ≤ table.length ∧ ∃ last, table.getLast? = some last ∧ last.1 = key := by
  rw [givenUp] at h
  split at h
  case isTrue => cases h
  case isFalse hfull => exact ⟨Nat.not_lt.mp hfull, Option.map_eq_some_iff.mp h⟩

section
variable [DecidableEq κ]

/-- Taking a key out takes out nothing else. -/
theorem lookup_without (k key : κ) (table : List (κ × ν)) :
    (without key table).lookup k = if k = key then none else table.lookup k := by
  induction table with
  | nil => simp [without]
  | cons entry table ih =>
    rw [without] at ih
    rw [without, List.filter_cons]
    by_cases hsame : entry.1 = key
    · rw [if_neg (by simpa using hsame), ih, List.lookup_cons]
      by_cases hk : k = key
      · rw [if_pos hk, if_pos hk]
      · have hne : (k == entry.1) = false := by
          rw [hsame]
          exact beq_eq_false_iff_ne.mpr hk
        rw [if_neg hk, if_neg hk, hne]
    · rw [if_pos (by simpa using hsame), List.lookup_cons, List.lookup_cons, ih]
      cases hk : k == entry.1 with
      | true =>
        have hne : k ≠ key := by
          rw [beq_iff_eq.mp hk]
          exact hsame
        rw [if_neg hne, if_neg hne]
      | false => rfl

theorem ne_of_mem_without {key : κ} {table : List (κ × ν)} {entry : κ × ν} (h : entry ∈ without key table) :
    entry.1 ≠ key := of_decide_eq_true (List.mem_filter.mp h).2

theorem lookup_isSome_of_mem {table : List (κ × ν)} {entry : κ × ν} (h : entry ∈ table) :
    (table.lookup entry.1).isSome := by
  by_contra hnone
  have hmissing := List.lookup_eq_none_iff.mp (Option.not_isSome_iff_eq_none.mp hnone) entry h
  simp at hmissing

theorem length_without_lt {key : κ} {table : List (κ × ν)} {value : ν} (h : table.lookup key = some value) :
    (without key table).length < table.length := by
  induction table with
  | nil => cases h
  | cons entry table ih =>
    rw [without, List.filter_cons]
    by_cases hsame : entry.1 = key
    · rw [if_neg (by simpa using hsame), List.length_cons]
      exact Nat.lt_succ_of_le (List.length_filter_le ..)
    · have hne : (key == entry.1) = false := beq_eq_false_iff_ne.mpr fun heq => hsame heq.symm
      rw [List.lookup_cons, hne] at h
      rw [if_pos (by simpa using hsame), List.length_cons, List.length_cons]
      exact Nat.succ_lt_succ (ih h)

theorem lookup_of_notMem {key : κ} {table : List (κ × ν)} (h : key ∉ table.map (·.1)) : table.lookup key = none := by
  rw [List.lookup_eq_none_iff]
  intro entry hentry
  rw [bne_iff_ne]
  intro heq
  exact h (heq ▸ List.mem_map_of_mem hentry)

/-- What a table keeps is what it does not give up. -/
theorem lookup_makeRoom {capacity : Nat} {table : List (κ × ν)} (hnodup : (table.map (·.1)).Nodup) (key : κ) :
    (makeRoom capacity table).lookup key = if givenUp capacity table = some key then none else table.lookup key := by
  rw [makeRoom, givenUp]
  split
  case isTrue => rfl
  case isFalse =>
    cases hlast : table.getLast? with
    | none =>
      rw [List.getLast?_eq_none_iff.mp hlast]
      rfl
    | some last =>
      obtain ⟨front, rfl⟩ := List.getLast?_eq_some_iff.mp hlast
      have hsome : some last.1 = some key ↔ last.1 = key := Option.some_inj
      simp only [List.dropLast_concat, Option.map_some, hsome]
      rw [List.map_append, List.nodup_append] at hnodup
      by_cases hkey : last.1 = key
      · rw [if_pos hkey]
        apply lookup_of_notMem
        intro hmem
        exact hnodup.2.2 key hmem last.1 (by simp) hkey.symm
      · have hne : (key == last.1) = false := beq_eq_false_iff_ne.mpr fun heq => hkey heq.symm
        rw [if_neg hkey, List.lookup_append, List.lookup_cons, hne]
        simp

theorem without_sublist (key : κ) (table : List (κ × ν)) : (without key table).Sublist table := List.filter_sublist

end

/-- The table is in the order of use. -/
def Recent (used : κ → Nat) (table : List (κ × ν)) : Prop := table.Pairwise fun a b => used b.1 < used a.1

variable {used used' : κ → Nat} {table : List (κ × ν)}

theorem Recent.nodup (h : Recent used table) : (table.map (·.1)).Nodup := by
  rw [List.Nodup, List.pairwise_map]
  exact h.imp fun hless heq => by rw [heq] at hless; exact Nat.lt_irrefl _ hless

theorem Recent.sublist {kept : List (κ × ν)} (h : Recent used table) (hkept : kept.Sublist table) : Recent used kept :=
  List.Pairwise.sublist hkept h

theorem makeRoom_sublist (capacity : Nat) (table : List (κ × ν)) : (makeRoom capacity table).Sublist table := by
  rw [makeRoom]
  split
  · exact List.Sublist.refl _
  · exact List.dropLast_sublist _

theorem Recent.congr (h : Recent used table) (hsame : ∀ entry ∈ table, used' entry.1 = used entry.1) :
    Recent used' table :=
  h.imp_of_mem fun {a b} ha hb hless => by rw [hsame a ha, hsame b hb]; exact hless

/-- A key that is used now goes in front of those used before. -/
theorem Recent.use (h : Recent used table) (key : κ) (value : ν)
    (hsame : ∀ entry ∈ table, used' entry.1 = used entry.1) (hnow : ∀ entry ∈ table, used entry.1 < used' key) :
    Recent used' ((key, value) :: table) := by
  rw [Recent, List.pairwise_cons]
  refine ⟨fun entry hentry => ?_, ?_⟩
  · rw [hsame entry hentry]
    exact hnow entry hentry
  · exact h.congr hsame

/-- The last key is the one used least recently. -/
theorem Recent.least (h : Recent used table) {last : κ × ν} (hlast : table.getLast? = some last) :
    ∀ entry ∈ table, used last.1 ≤ used entry.1 := by
  obtain ⟨front, rfl⟩ := List.getLast?_eq_some_iff.mp hlast
  intro entry hentry
  rcases List.mem_append.mp hentry with hfront | hsame
  · exact Nat.le_of_lt ((List.pairwise_append.mp h).2.2 entry hfront last (List.mem_singleton_self _))
  · rw [List.mem_singleton.mp hsame]

end Aether.Machine
