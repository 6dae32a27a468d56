import Mathlib.Order.Lattice
import Mathlib.Data.List.Basic

/-! Ordered maps.

A map is the list of its entries, in the order of their keys. What a caller does with the
part of a map below or above a key is said by cutting the list there. -/
namespace Aether.Rust

section Filter
variable {α : Type} {p : α → Bool} {below above : List α}

theorem filter_none {l : List α} (h : ∀ x ∈ l, p x = false) : l.filter p = [] := by
  rw [List.filter_eq_nil_iff]
  intro x hx hp
  rw [h x hx] at hp
  cases hp

/-- The part below is all that passes. -/
theorem filter_cut (hbelow : ∀ x ∈ below, p x = true) (habove : ∀ x ∈ above, p x = false) :
    (below ++ above).filter p = below := by
  rw [List.filter_append, List.filter_eq_self.mpr hbelow, filter_none habove, List.append_nil]

/-- The part above is all that passes. -/
theorem filter_cut_above (hbelow : ∀ x ∈ below, p x = false) (habove : ∀ x ∈ above, p x = true) :
    (below ++ above).filter p = above := by
  rw [List.filter_append, filter_none hbelow, List.filter_eq_self.mpr habove, List.nil_append]

end Filter

structure BTreeMap (κ ν : Type) [LinearOrder κ] where
  entries : List (κ × ν)
  sorted : entries.Pairwise (fun x y => x.1 < y.1)

namespace BTreeMap
variable {κ ν : Type} [LinearOrder κ]

def empty : BTreeMap κ ν := ⟨[], List.Pairwise.nil⟩

def len (m : BTreeMap κ ν) : Nat := m.entries.length

theorem sorted_filter (m : BTreeMap κ ν) (p : κ × ν → Bool) :
    (m.entries.filter p).Pairwise (fun x y => x.1 < y.1) := m.sorted.filter p

def remove (k : κ) (m : BTreeMap κ ν) : BTreeMap κ ν := ⟨m.entries.filter (fun x => x.1 != k), m.sorted_filter _⟩

/-- An entry that has the key is replaced. -/
def insert (k : κ) (v : ν) (m : BTreeMap κ ν) : BTreeMap κ ν where
  entries := m.entries.filter (fun x => x.1 < k) ++ (k, v) :: m.entries.filter (fun x => k < x.1)
  sorted := by
    rw [List.pairwise_append, List.pairwise_cons]
    have hlow {x : κ × ν} (h : x ∈ m.entries.filter (fun x => x.1 < k)) : x.1 < k := by
      simpa using (List.mem_filter.mp h).2
    have hhigh {x : κ × ν} (h : x ∈ m.entries.filter (fun x => k < x.1)) : k < x.1 := by
      simpa using (List.mem_filter.mp h).2
    refine ⟨m.sorted_filter _, ⟨fun y hy => hhigh hy, m.sorted_filter _⟩, ?_⟩
    intro x hx y hy
    rcases List.mem_cons.mp hy with rfl | hy
    · exact hlow hx
    · exact (hlow hx).trans (hhigh hy)

def ofList (entries : List (κ × ν)) : BTreeMap κ ν := entries.foldl (fun m x => m.insert x.1 x.2) empty

def first (m : BTreeMap κ ν) : Option (κ × ν) := m.entries.head?

def popFirst (m : BTreeMap κ ν) : BTreeMap κ ν := ⟨m.entries.tail, m.sorted.tail⟩

/-- `range(..=k)` -/
def rangeTo (k : κ) (m : BTreeMap κ ν) : List (κ × ν) := m.entries.filter (fun x => x.1 ≤ k)

/-- `range(k..)` -/
def rangeFrom (k : κ) (m : BTreeMap κ ν) : List (κ × ν) := m.entries.filter (fun x => k ≤ x.1)

theorem mem_insert {m : BTreeMap κ ν} {k : κ} {v : ν} {x : κ × ν} :
    x ∈ (m.insert k v).entries ↔ x = (k, v) ∨ x ∈ m.entries ∧ x.1 ≠ k := by
  simp only [insert, List.mem_append, List.mem_cons, List.mem_filter, decide_eq_true_eq]
  constructor
  · intro h
    rcases h with h | h | h
    · exact .inr ⟨h.1, h.2.ne⟩
    · exact .inl h
    · exact .inr ⟨h.1, h.2.ne'⟩
  · intro h
    rcases h with h | ⟨hx, hne⟩
    · exact .inr (.inl h)
    · rcases lt_or_gt_of_ne hne with hlt | hgt
      · exact .inl ⟨hx, hlt⟩
      · exact .inr (.inr ⟨hx, hgt⟩)

/-! ### Maps that are cut at a key -/

section Cut
variable {below above : List (κ × ν)} {k : κ}

theorem insert_cut {m : BTreeMap κ ν} (v : ν) (hm : m.entries = below ++ above) (hbelow : ∀ x ∈ below, x.1 < k)
    (habove : ∀ x ∈ above, k < x.1) : (m.insert k v).entries = below ++ (k, v) :: above := by
  have hlow : m.entries.filter (fun x => x.1 < k) = below := by
    rw [hm]
    apply filter_cut
    · intro x hx
      exact decide_eq_true (hbelow x hx)
    · intro x hx
      exact decide_eq_false (not_lt.mpr (habove x hx).le)
  have hhigh : m.entries.filter (fun x => k < x.1) = above := by
    rw [hm]
    apply filter_cut_above
    · intro x hx
      exact decide_eq_false (not_lt.mpr (hbelow x hx).le)
    · intro x hx
      exact decide_eq_true (habove x hx)
  show m.entries.filter _ ++ (k, v) :: m.entries.filter _ = _
  rw [hlow, hhigh]

theorem below_lt {m : BTreeMap κ ν} {v : ν} (hm : m.entries = below ++ (k, v) :: above) : ∀ x ∈ below, x.1 < k := by
  intro x hx
  have hs := m.sorted
  rw [hm, List.pairwise_append] at hs
  exact hs.2.2 x hx _ (List.mem_cons_self ..)

theorem lt_above {m : BTreeMap κ ν} {v : ν} (hm : m.entries = below ++ (k, v) :: above) : ∀ x ∈ above, k < x.1 := by
  have hs := m.sorted
  rw [hm, List.pairwise_append, List.pairwise_cons] at hs
  exact hs.2.1.1

theorem remove_cut {m : BTreeMap κ ν} {v : ν} (hm : m.entries = below ++ (k, v) :: above) :
    (m.remove k).entries = below ++ above := by
  have hlow : below.filter (fun x => x.1 != k) = below := by
    apply List.filter_eq_self.mpr
    intro x hx
    exact bne_iff_ne.mpr (below_lt hm x hx).ne
  have hhigh : above.filter (fun x => x.1 != k) = above := by
    apply List.filter_eq_self.mpr
    intro x hx
    exact bne_iff_ne.mpr (lt_above hm x hx).ne'
  show m.entries.filter _ = _
  rw [hm, List.filter_append, List.filter_cons_of_neg (by simp), hlow, hhigh]

theorem replace_cut {m : BTreeMap κ ν} {v : ν} (w : ν) (hm : m.entries = below ++ (k, v) :: above) :
    (m.insert k w).entries = below ++ (k, w) :: above := by
  have hlow : m.entries.filter (fun x => x.1 < k) = below := by
    rw [hm]
    apply filter_cut
    · intro x hx
      exact decide_eq_true (below_lt hm x hx)
    · intro x hx
      rcases List.mem_cons.mp hx with rfl | hx
      · exact decide_eq_false (lt_irrefl _)
      · exact decide_eq_false (not_lt.mpr (lt_above hm x hx).le)
  have hhigh : m.entries.filter (fun x => k < x.1) = above := by
    rw [hm, List.append_cons]
    apply filter_cut_above
    · intro x hx
      rcases List.mem_append.mp hx with hx | hx
      · exact decide_eq_false (not_lt.mpr (below_lt hm x hx).le)
      · rw [List.mem_singleton.mp hx]
        exact decide_eq_false (lt_irrefl _)
    · intro x hx
      exact decide_eq_true (lt_above hm x hx)
  show m.entries.filter _ ++ (k, w) :: m.entries.filter _ = _
  rw [hlow, hhigh]

theorem rangeTo_cut {m : BTreeMap κ ν} (hm : m.entries = below ++ above) (hbelow : ∀ x ∈ below, x.1 ≤ k)
    (habove : ∀ x ∈ above, k < x.1) : m.rangeTo k = below := by
  rw [rangeTo, hm]
  apply filter_cut
  · intro x hx
    exact decide_eq_true (hbelow x hx)
  · intro x hx
    exact decide_eq_false (not_le.mpr (habove x hx))

theorem rangeFrom_cut {m : BTreeMap κ ν} (hm : m.entries = below ++ above) (hbelow : ∀ x ∈ below, x.1 < k)
    (habove : ∀ x ∈ above, k ≤ x.1) : m.rangeFrom k = above := by
  rw [rangeFrom, hm]
  apply filter_cut_above
  · intro x hx
    exact decide_eq_false (not_le.mpr (hbelow x hx))
  · intro x hx
    exact decide_eq_true (habove x hx)

/-- Every map is cut at every key. -/
theorem cut_at (m : BTreeMap κ ν) (k : κ) : m.entries = m.entries.filter (fun x => x.1 < k) ++ m.rangeFrom k := by
  have hcut (l : List (κ × ν)) (hs : l.Pairwise (fun x y => x.1 < y.1)) :
      l = l.filter (fun x => x.1 < k) ++ l.filter (fun x => k ≤ x.1) := by
    induction l with
    | nil => rfl
    | cons x rest ih =>
      obtain ⟨hx, hrest⟩ := List.pairwise_cons.mp hs
      by_cases hlt : x.1 < k
      · rw [List.filter_cons_of_pos (by simpa using hlt), List.filter_cons_of_neg (by simpa using hlt),
          List.cons_append,
          ← ih hrest]
      · have hle : k ≤ x.1 := not_lt.mp hlt
        have hnone : rest.filter (fun x => x.1 < k) = [] := by
          apply filter_none
          intro y hy
          exact decide_eq_false (not_lt.mpr (hle.trans (hx y hy).le))
        have hall : rest.filter (fun x => k ≤ x.1) = rest := by
          apply List.filter_eq_self.mpr
          intro y hy
          exact decide_eq_true (hle.trans (hx y hy).le)
        rw [List.filter_cons_of_neg (by simpa using hlt), List.filter_cons_of_pos (by simpa using hle), hnone, hall,
          List.nil_append]
  exact hcut m.entries m.sorted

end Cut

/-- A sorted list is taken over as it is. -/
theorem entries_ofList {l : List (κ × ν)} (h : l.Pairwise (fun x y => x.1 < y.1)) : (ofList l).entries = l := by
  have hfold (rest : List (κ × ν)) (m : BTreeMap κ ν) (hs : (m.entries ++ rest).Pairwise (fun x y => x.1 < y.1)) :
      (rest.foldl (fun m x => m.insert x.1 x.2) m).entries = m.entries ++ rest := by
    induction rest generalizing m with
    | nil => rw [List.foldl_nil, List.append_nil]
    | cons x rest ih =>
      have hbelow : ∀ y ∈ m.entries, y.1 < x.1 := fun y hy =>
        (List.pairwise_append.mp hs).2.2 y hy x (List.mem_cons_self ..)
      have hins : (m.insert x.1 x.2).entries = m.entries ++ [x] :=
        insert_cut x.2 (List.append_nil _).symm hbelow (fun y hy => absurd hy List.not_mem_nil)
      rw [List.foldl_cons, ih _ (by rw [hins, List.append_assoc]; exact hs), hins, List.append_assoc,
        List.singleton_append]
  exact hfold l empty (by exact h)

end BTreeMap
end Aether.Rust
