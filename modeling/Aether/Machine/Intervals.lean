import Mathlib.Order.MinMax
import Mathlib.Data.List.Basic

/-! Sets as lists of intervals.

A half-open interval is the pair of its ends. A list is separated when its intervals come in
order and no two of them touch: then it has no more of them than it needs. `cover` adds an
interval to such a list and merges what touches it. -/
namespace Aether.Intervals

variable {α : Type} [LinearOrder α]

structure Separated (l : List (α × α)) : Prop where
  ordered : ∀ r ∈ l, r.1 ≤ r.2
  apart : l.Pairwise (fun x y => x.2 < y.1)

/-- The points of the intervals. -/
def Covers (l : List (α × α)) (x : α) : Prop := ∃ r ∈ l, r.1 ≤ x ∧ x < r.2

def cover (a b : α) : List (α × α) → List (α × α)
  | [] => [(a, b)]
  | (s, e) :: rest =>
    if e < a then (s, e) :: cover a b rest
    else if b < s then (a, b) :: (s, e) :: rest
    else cover (min a s) (max b e) rest

/-! ### Separated lists -/

theorem separated_nil : Separated ([] : List (α × α)) :=
  ⟨fun _ h => absurd h List.not_mem_nil, List.Pairwise.nil⟩

theorem separated_cons {s e : α} {rest : List (α × α)} :
    Separated ((s, e) :: rest) ↔ s ≤ e ∧ (∀ r ∈ rest, e < r.1) ∧ Separated rest := by
  constructor
  · intro h
    obtain ⟨hlt, hrest⟩ := List.pairwise_cons.mp h.apart
    exact ⟨h.ordered _ (List.mem_cons_self ..), hlt, fun r hr => h.ordered r (List.mem_cons_of_mem _ hr), hrest⟩
  · intro h
    obtain ⟨hse, hlt, hrest⟩ := h
    refine ⟨?_, List.pairwise_cons.mpr ⟨hlt, hrest.apart⟩⟩
    intro r hr
    rcases List.mem_cons.mp hr with rfl | hr
    · exact hse
    · exact hrest.ordered r hr

theorem Separated.sublist {l m : List (α × α)} (hm : Separated m) (h : l.Sublist m) : Separated l :=
  ⟨fun r hr => hm.ordered r (h.subset hr), hm.apart.sublist h⟩

theorem Separated.of_append {l m : List (α × α)} (h : Separated (l ++ m)) : Separated l ∧ Separated m := by
  exact ⟨h.sublist (List.sublist_append_left l m), h.sublist (List.sublist_append_right l m)⟩

theorem Separated.lt_of_append {l m : List (α × α)} (h : Separated (l ++ m)) {r t : α × α} (hr : r ∈ l) (ht : t ∈ m) :
    r.2 < t.1 := (List.pairwise_append.mp h.apart).2.2 r hr t ht

/-- The starts of separated intervals ascend. -/
theorem Separated.starts {l : List (α × α)} (h : Separated l) : l.Pairwise (fun x y => x.1 < y.1) := by
  apply h.apart.imp_of_mem
  intro x y hx _ hxy
  exact (h.ordered x hx).trans_lt hxy

/-! ### Adding an interval -/

/-- An interval that ends before the others comes in front of them. -/
theorem cover_front {a b : α} {l : List (α × α)} (hab : a ≤ b) (hl : Separated l) (h : ∀ r ∈ l, b < r.1) :
    cover a b l = (a, b) :: l := by
  cases l with
  | nil => rfl
  | cons r rest =>
    obtain ⟨s, e⟩ := r
    have hbs : b < s := h _ (List.mem_cons_self ..)
    have hse : s ≤ e := (separated_cons.mp hl).1
    rw [cover, if_neg (not_lt.mpr (hab.trans (hbs.le.trans hse))), if_pos hbs]

/-- Intervals that end before it are left as they are. -/
theorem cover_append {a b : α} {l m : List (α × α)} (h : ∀ r ∈ l, r.2 < a) : cover a b (l ++ m) = l ++ cover a b m := by
  induction l with
  | nil => rfl
  | cons r rest ih =>
    obtain ⟨s, e⟩ := r
    rw [List.cons_append, cover, if_pos (h _ (List.mem_cons_self ..)), ih (fun r hr => h r (List.mem_cons_of_mem _ hr)),
      List.cons_append]

theorem cover_touching {a b s e : α} {rest : List (α × α)} (hea : a ≤ e) (hsb : s ≤ b) :
    cover a b ((s, e) :: rest) = cover (min a s) (max b e) rest := by
  rw [cover, if_neg (not_lt.mpr hea), if_neg (not_lt.mpr hsb)]

theorem length_cover_le (a b : α) (l : List (α × α)) : (cover a b l).length ≤ l.length + 1 := by
  induction l generalizing a b with
  | nil => exact Nat.le_refl _
  | cons r rest ih =>
    obtain ⟨s, e⟩ := r
    rw [cover]
    split
    · rw [List.length_cons, List.length_cons]
      have := ih a b
      omega
    · split
      · exact Nat.le_refl _
      · rw [List.length_cons]
        have := ih (min a s) (max b e)
        omega

theorem lt_cover {a b c : α} {l : List (α × α)} (hca : c < a) (h : ∀ r ∈ l, c < r.1) : ∀ r ∈ cover a b l, c < r.1 := by
  induction l generalizing a b with
  | nil =>
    intro r hr
    rw [List.mem_singleton.mp hr]
    exact hca
  | cons t rest ih =>
    obtain ⟨s, e⟩ := t
    have hs : c < s := h _ (List.mem_cons_self ..)
    have hrest : ∀ r ∈ rest, c < r.1 := fun r hr => h r (List.mem_cons_of_mem _ hr)
    rw [cover]
    split
    · intro r hr
      rcases List.mem_cons.mp hr with rfl | hr
      · exact hs
      · exact ih hca hrest r hr
    · split
      · intro r hr
        rcases List.mem_cons.mp hr with rfl | hr
        · exact hca
        · exact h r hr
      · exact ih (lt_min hca hs) hrest

theorem Separated.cover {a b : α} {l : List (α × α)} (hab : a ≤ b) (h : Separated l) : Separated (cover a b l) := by
  induction l generalizing a b with
  | nil => exact separated_cons.mpr ⟨hab, fun _ hr => absurd hr List.not_mem_nil, separated_nil⟩
  | cons r rest ih =>
    obtain ⟨s, e⟩ := r
    obtain ⟨hse, hlt, hrest⟩ := separated_cons.mp h
    rw [Intervals.cover]
    split
    · rename_i hea
      exact separated_cons.mpr ⟨hse, lt_cover hea hlt, ih hab hrest⟩
    · split
      · rename_i hbs
        refine separated_cons.mpr ⟨hab, ?_, h⟩
        intro r hr
        rcases List.mem_cons.mp hr with rfl | hr
        · exact hbs
        · exact (hbs.trans_le hse).trans (hlt r hr)
      · exact ih ((min_le_left _ _).trans (hab.trans (le_max_left _ _))) hrest

/-! ### The points -/

theorem not_covers_nil {x : α} : ¬ Covers ([] : List (α × α)) x := by
  intro h
  obtain ⟨r, hr, _⟩ := h
  cases hr

theorem covers_cons {s e x : α} {rest : List (α × α)} : Covers ((s, e) :: rest) x ↔ s ≤ x ∧ x < e ∨ Covers rest x := by
  simp [Covers]

theorem Covers.of_sublist {l m : List (α × α)} {x : α} (h : Covers l x) (hs : l.Sublist m) : Covers m x := by
  obtain ⟨r, hr, hx⟩ := h
  exact ⟨r, hs.subset hr, hx⟩

/-- Two intervals that touch are one. -/
theorem mem_union {a b s e x : α} (hea : a ≤ e) (hsb : s ≤ b) :
    (min a s ≤ x ∧ x < max b e) ↔ (a ≤ x ∧ x < b) ∨ s ≤ x ∧ x < e := by
  rw [min_le_iff, lt_max_iff]
  constructor
  · intro h
    obtain ⟨hlow, hhigh⟩ := h
    by_cases hxb : x < b
    · by_cases hax : a ≤ x
      · exact .inl ⟨hax, hxb⟩
      · exact .inr ⟨hlow.resolve_left hax, (not_le.mp hax).trans_le hea⟩
    · exact .inr ⟨hsb.trans (not_lt.mp hxb), hhigh.resolve_left hxb⟩
  · intro h
    rcases h with ⟨hlow, hhigh⟩ | ⟨hlow, hhigh⟩
    · exact ⟨.inl hlow, .inl hhigh⟩
    · exact ⟨.inr hlow, .inr hhigh⟩

theorem covers_cover {a b x : α} {l : List (α × α)} : Covers (cover a b l) x ↔ (a ≤ x ∧ x < b) ∨ Covers l x := by
  induction l generalizing a b with
  | nil =>
    rw [cover, covers_cons]
  | cons r rest ih =>
    obtain ⟨s, e⟩ := r
    rw [cover]
    split
    · rw [covers_cons, covers_cons, ih, or_left_comm]
    · rename_i hea
      split
      · rw [covers_cons]
      · rename_i hbs
        rw [ih, covers_cons, mem_union (not_lt.mp hea) (not_lt.mp hbs), or_assoc]

/-- Every end that was there is reached. -/
theorem reach_cover {a b : α} {l : List (α × α)} {r : α × α} (hr : r ∈ l) : ∃ t ∈ cover a b l, r.2 ≤ t.2 := by
  have hnew (c d : α) (m : List (α × α)) : ∃ t ∈ cover c d m, d ≤ t.2 := by
    induction m generalizing c d with
    | nil => exact ⟨(c, d), List.mem_singleton.mpr rfl, le_refl d⟩
    | cons t rest ih =>
      obtain ⟨s, e⟩ := t
      rw [cover]
      split
      · obtain ⟨t, ht, hle⟩ := ih c d
        exact ⟨t, List.mem_cons_of_mem _ ht, hle⟩
      · split
        · exact ⟨(c, d), List.mem_cons_self .., le_refl d⟩
        · obtain ⟨t, ht, hle⟩ := ih (min c s) (max d e)
          exact ⟨t, ht, (le_max_left _ _).trans hle⟩
  induction l generalizing a b with
  | nil => cases hr
  | cons t rest ih =>
    obtain ⟨s, e⟩ := t
    rw [cover]
    split
    · rcases List.mem_cons.mp hr with rfl | hr
      · exact ⟨(s, e), List.mem_cons_self .., le_refl e⟩
      · obtain ⟨t, ht, hle⟩ := ih (a := a) (b := b) hr
        exact ⟨t, List.mem_cons_of_mem _ ht, hle⟩
    · split
      · exact ⟨r, List.mem_cons_of_mem _ hr, le_refl r.2⟩
      · rcases List.mem_cons.mp hr with rfl | hr
        · obtain ⟨t, ht, hle⟩ := hnew (min a s) (max b e) rest
          exact ⟨t, ht, (le_max_right _ _).trans hle⟩
        · exact ih hr

/-- The last end is the greatest. -/
theorem Separated.le_last {l : List (α × α)} (h : Separated l) {r t : α × α} (ht : l.getLast? = some t) (hr : r ∈ l) :
    r.2 ≤ t.2 := by
  obtain ⟨front, rfl⟩ := List.getLast?_eq_some_iff.mp ht
  rcases List.mem_append.mp hr with hr | hr
  · exact (h.lt_of_append hr (List.mem_singleton.mpr rfl)).le.trans (h.ordered t (by simp))
  · rw [List.mem_singleton.mp hr]

end Aether.Intervals
