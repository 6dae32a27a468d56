import Mathlib.Data.List.Infix
import Mathlib.Data.List.Nodup

/-! Vectors that take every value once.

A loop that pushes what its vector does not contain leaves the values in the order of their
first places (`collectNew`). Where some of the elements are passed over, the values that are left are all
of them, in the same order, exactly if every element that is passed over is represented by
another one (`collectTaken_eq_iff`). -/
namespace Aether.Rust

section
variable {α : Type} [DecidableEq α]

/-- `if !v.contains(&a) { v.push(a) }`. -/
def pushNew (v : List α) (a : α) : List α := if a ∈ v then v else v ++ [a]

def collectNew (xs : List α) : List α := xs.foldl pushNew []

theorem collectNew_concat (xs : List α) (a : α) : collectNew (xs ++ [a]) = pushNew (collectNew xs) a := by
  rw [collectNew, List.foldl_append]
  rfl

theorem prefix_pushNew (v : List α) (a : α) : v <+: pushNew v a := by
  rw [pushNew]
  split
  · exact List.prefix_refl v
  · exact List.prefix_append v [a]

@[simp] theorem mem_pushNew {v : List α} {a b : α} : b ∈ pushNew v a ↔ b ∈ v ∨ b = a := by
  rw [pushNew]
  split
  · rename_i ha
    refine ⟨.inl, ?_⟩
    intro h
    obtain h | rfl := h
    · exact h
    · exact ha
  · rw [List.mem_append, List.mem_singleton]

@[simp] theorem mem_collectNew {xs : List α} {a : α} : a ∈ collectNew xs ↔ a ∈ xs := by
  induction xs using List.reverseRecOn with
  | nil => rfl
  | append_singleton xs b ih => rw [collectNew_concat, mem_pushNew, ih, List.mem_append, List.mem_singleton]

theorem nodup_collectNew (xs : List α) : (collectNew xs).Nodup := by
  induction xs using List.reverseRecOn with
  | nil => exact List.nodup_nil
  | append_singleton xs a ih =>
    rw [collectNew_concat, pushNew]
    split
    · exact ih
    · rename_i ha
      rw [← List.concat_eq_append]
      exact ih.concat ha

theorem collectNew_prefix (xs ys : List α) : collectNew xs <+: collectNew (xs ++ ys) := by
  induction ys using List.reverseRecOn with
  | nil => rw [List.append_nil]
  | append_singleton ys a ih =>
    rw [← List.append_assoc, collectNew_concat]
    exact ih.trans (prefix_pushNew _ a)

/-- What comes next is a value that was not there. -/
theorem next_of_collectNew {xs front back : List α} {a : α} (h : front ++ a :: back = collectNew xs) :
    a ∈ xs ∧ a ∉ front := by
  have hnodup := nodup_collectNew xs
  rw [← h] at hnodup
  refine ⟨?_, fun hmem => (List.nodup_append.mp hnodup).2.2 a hmem a (List.mem_cons_self ..) rfl⟩
  rw [← mem_collectNew, ← h]
  exact List.mem_append_right _ (List.mem_cons_self ..)

theorem collectNew_map {β : Type} [DecidableEq β] {f : α → β} (hf : Function.Injective f) (xs : List α) :
    collectNew (xs.map f) = (collectNew xs).map f := by
  induction xs using List.reverseRecOn with
  | nil => rfl
  | append_singleton xs a ih =>
    rw [List.map_append, List.map_singleton, collectNew_concat, collectNew_concat, ih, pushNew, pushNew]
    by_cases ha : a ∈ collectNew xs
    · rw [if_pos ha, if_pos (List.mem_map_of_mem ha)]
    · rw [if_neg ha, if_neg (fun hmem => ha ((List.mem_map_of_injective hf).mp hmem)), List.map_append,
        List.map_singleton]

end

theorem prefix_of_notMem {α : Type} {xs front back : List α} {a : α} (h : xs <+: front ++ a :: back) (ha : a ∉ xs) :
    xs <+: front := by
  obtain hlen | hlen := Nat.lt_or_ge front.length xs.length
  · have hfront : front ++ [a] <+: xs := by
      apply List.prefix_of_prefix_length_le _ h
      · rw [List.length_append, List.length_singleton]
        omega
      · exact ⟨back, by rw [List.append_assoc, List.singleton_append]⟩
    exact absurd (hfront.subset (List.mem_append_right _ (List.mem_singleton.mpr rfl))) ha
  · exact List.prefix_of_prefix_length_le h (List.prefix_append ..) hlen

/-- The first of the elements that are as wanted. -/
theorem exists_first {α : Type} {xs : List α} {want : α → Prop} (h : ∃ a ∈ xs, want a) :
    ∃ front a back, xs = front ++ a :: back ∧ want a ∧ ∀ b ∈ front, ¬ want b := by
  induction xs with
  | nil =>
    obtain ⟨a, ha, -⟩ := h
    cases ha
  | cons x xs ih =>
    by_cases hx : want x
    · exact ⟨[], x, xs, rfl, hx, fun b hb => absurd hb List.not_mem_nil⟩
    · obtain ⟨a, ha, hwant⟩ := h
      obtain rfl | ha := List.mem_cons.mp ha
      · exact absurd hwant hx
      · obtain ⟨front, b, back, heq, hb, hnone⟩ := ih ⟨a, ha, hwant⟩
        refine ⟨x :: front, b, back, by rw [heq]; rfl, hb, ?_⟩
        intro c hc
        obtain rfl | hc := List.mem_cons.mp hc
        · exact hx
        · exact hnone c hc

/-! ### Elements that are passed over -/

section
variable {ι α : Type} [DecidableEq α] (p : ι → Bool) (f : ι → α)

/-- An element that is passed over comes with one of the same value that is not, and every value that is
taken in front of that one is there already. -/
def Represented (xs : List ι) : Prop :=
  ∀ front i back, xs = front ++ i :: back → p i = false →
    ∃ front' j back', xs = front' ++ j :: back' ∧ p j = true ∧ f j = f i ∧
      ∀ k ∈ front', p k = true → f k ∈ (front ++ [i]).map f

/-- The values that are taken from the elements that are not passed over. -/
def collectTaken (xs : List ι) : List α := collectNew ((xs.filter p).map f)

variable {p f}

theorem mem_collectTaken {xs : List ι} {a : α} : a ∈ collectTaken p f xs ↔ ∃ i ∈ xs, p i = true ∧ f i = a := by
  rw [collectTaken, mem_collectNew, List.mem_map]
  exact exists_congr fun i => by rw [List.mem_filter, and_assoc]

theorem collectTaken_concat (xs : List ι) (i : ι) :
    collectTaken p f (xs ++ [i]) = if p i then pushNew (collectTaken p f xs) (f i) else collectTaken p f xs := by
  rw [collectTaken, List.filter_append, List.map_append]
  split
  · rename_i hi
    rw [List.filter_cons_of_pos hi, List.filter_nil, List.map_singleton, collectNew_concat]
    rfl
  · rename_i hi
    rw [List.filter_cons_of_neg hi, List.filter_nil, List.map_nil, List.append_nil]
    rfl

theorem collectTaken_prefix (xs ys : List ι) : collectTaken p f xs <+: collectTaken p f (xs ++ ys) := by
  rw [collectTaken, collectTaken, List.filter_append, List.map_append]
  exact collectNew_prefix ..

/-- If the next value of a part is not taken, no other value is taken before it. -/
theorem Represented.next {xs q back : List ι} (h : Represented p f xs) {x : ι} (hxs : xs = q ++ [x] ++ back) {w : α}
    {rest : List α} (hrest : collectTaken p f q ++ w :: rest = collectNew (q.map f)) (hx : p x = true) (hw : f x ≠ w) :
    f x ∈ collectTaken p f q := by
  obtain ⟨hmem, hnot⟩ := next_of_collectNew hrest
  have hnone (i : ι) (hi : i ∈ q) (hp : p i = true) : f i ≠ w := fun heq => hnot (mem_collectTaken.mpr ⟨i, hi, hp, heq⟩)
  obtain ⟨front, i, mid, hq, hi, hfirst⟩ := exists_first (List.mem_map.mp hmem)
  have hskip : p i = false := by
    rw [← Bool.not_eq_true]
    exact fun hp => hnone i (by rw [hq]; exact List.mem_append_right _ (List.mem_cons_self ..)) hp hi
  obtain ⟨front', j, back', hxs', hj, hji, hbefore⟩ := h front i (mid ++ [x] ++ back)
    (by rw [hxs, hq]; simp only [List.append_assoc, List.cons_append]) hskip
  have hin : x ∈ front' := by
    obtain ⟨more, hmore, -⟩ | ⟨more, hmore, hback⟩ := List.append_eq_append_iff.mp (hxs.symm.trans hxs')
    · rw [hmore]
      exact List.mem_append_left _ (List.mem_append_right _ (List.mem_singleton.mpr rfl))
    · cases more with
      | nil =>
        rw [List.append_nil] at hmore
        rw [← hmore]
        exact List.mem_append_right _ (List.mem_singleton.mpr rfl)
      | cons k more =>
        obtain rfl : j = k := (List.cons.inj hback).1
        have hjmem : j ∈ q ++ [x] := by
          rw [hmore]
          exact List.mem_append_right _ (List.mem_cons_self ..)
        obtain hjq | hjx := List.mem_append.mp hjmem
        · exact absurd (hji.trans hi) (hnone j hjq hj)
        · rw [List.mem_singleton.mp hjx] at hji
          exact absurd (hji.trans hi) hw
  have hvalue := hbefore x hin hx
  rw [List.map_append, List.map_singleton, List.mem_append, List.mem_singleton] at hvalue
  obtain hvalue | hvalue := hvalue
  · have hpre : collectNew (front.map f) <+: collectTaken p f q ++ w :: rest := by
      rw [hrest, hq, List.map_append]
      exact collectNew_prefix ..
    apply (prefix_of_notMem hpre ?_).subset (mem_collectNew.mpr hvalue)
    intro hmem
    obtain ⟨k, hk, hkw⟩ := List.mem_map.mp (mem_collectNew.mp hmem)
    exact hfirst k hk hkw
  · exact absurd (hvalue.trans hi) hw

/-- What is taken from a part is at the front of all the values of the part. -/
theorem Represented.taken_front {xs : List ι} (h : Represented p f xs) {front back : List ι} (hxs : xs = front ++ back) :
    collectTaken p f front <+: collectNew (front.map f) := by
  induction front using List.reverseRecOn generalizing back with
  | nil => exact List.prefix_refl []
  | append_singleton q x ih =>
    have hq := @ih (x :: back) (by rw [hxs, List.append_assoc, List.singleton_append])
    have hgrow : collectNew (q.map f) <+: collectNew ((q ++ [x]).map f) := by
      rw [List.map_append]
      exact collectNew_prefix ..
    rw [collectTaken_concat]
    by_cases hnew : p x = true ∧ f x ∉ collectTaken p f q
    · rw [if_pos hnew.1, pushNew, if_neg hnew.2]
      obtain ⟨rest, hrest⟩ := hq
      cases rest with
      | nil =>
        rw [List.append_nil] at hrest
        rw [List.map_append, List.map_singleton, collectNew_concat, pushNew, ← hrest, if_neg hnew.2]
      | cons w rest =>
        by_cases hw : w = f x
        · refine List.IsPrefix.trans ?_ hgrow
          rw [← hrest, hw]
          exact ⟨rest, by rw [List.append_assoc, List.singleton_append]⟩
        · exact absurd (h.next hxs hrest hnew.1 (Ne.symm hw)) hnew.2
    · have hold : (if p x then pushNew (collectTaken p f q) (f x) else collectTaken p f q) = collectTaken p f q := by
        split
        · rename_i hx
          rw [pushNew, if_pos (not_not.mp fun hmem => hnew ⟨hx, hmem⟩)]
        · rfl
      rw [hold]
      exact hq.trans hgrow

/-- What is taken is all there is, in the order of the first places, exactly if every element that
is passed over is represented. -/
theorem collectTaken_eq_iff (xs : List ι) : collectTaken p f xs = collectNew (xs.map f) ↔ Represented p f xs := by
  constructor
  · intro heq front i back hxs hskip
    have hvalue : f i ∈ collectTaken p f xs := by
      rw [heq, mem_collectNew, hxs]
      exact List.mem_map_of_mem (List.mem_append_right _ (List.mem_cons_self ..))
    obtain ⟨front', j, back', hxs', ⟨hj, hji⟩, hfirst⟩ := exists_first (mem_collectTaken.mp hvalue)
    refine ⟨front', j, back', hxs', hj, hji, ?_⟩
    intro k hk hpk
    have hnew : f i ∉ collectTaken p f front' := by
      intro hmem
      obtain ⟨l, hl, hpl⟩ := mem_collectTaken.mp hmem
      exact hfirst l hl hpl
    -- Both the values up to the first of `j` and those up to `i` are at the front of all values.
    have htaken : collectTaken p f front' ++ [f i] <+: collectNew (xs.map f) := by
      have hconcat : collectTaken p f (front' ++ [j]) = collectTaken p f front' ++ [f i] := by
        rw [collectTaken_concat, if_pos hj, hji, pushNew, if_neg hnew]
      rw [← heq, ← hconcat, hxs', List.append_cons front' j back']
      exact collectTaken_prefix ..
    have hwhole : collectNew ((front ++ [i]).map f) <+: collectNew (xs.map f) := by
      have hsplit : xs.map f = (front ++ [i]).map f ++ back.map f := by rw [hxs, List.append_cons, List.map_append]
      rw [hsplit]
      exact collectNew_prefix ..
    have hlast : f i ∈ collectNew ((front ++ [i]).map f) := by
      rw [mem_collectNew, List.map_append]
      exact List.mem_append_right _ (List.mem_singleton.mpr rfl)
    have hfk : f k ∈ collectTaken p f front' := mem_collectTaken.mpr ⟨k, hk, hpk, rfl⟩
    refine mem_collectNew.mp ?_
    obtain hle | hle := List.prefix_or_prefix_of_prefix htaken hwhole
    · exact hle.subset (List.mem_append_left _ hfk)
    · obtain hsame | hless := List.prefix_concat_iff.mp hle
      · rw [hsame]
        exact List.mem_append_left _ hfk
      · exact absurd (hless.subset hlast) hnew
  · intro h
    obtain ⟨rest, hrest⟩ := h.taken_front (List.append_nil xs).symm
    cases rest with
    | nil => rwa [List.append_nil] at hrest
    | cons w rest =>
      obtain ⟨hmem, hnot⟩ := next_of_collectNew hrest
      obtain ⟨i, hi, hiw⟩ := List.mem_map.mp hmem
      cases hp : p i with
      | true => exact absurd (mem_collectTaken.mpr ⟨i, hi, hp, hiw⟩) hnot
      | false =>
        obtain ⟨front, back, hxs⟩ := List.append_of_mem hi
        obtain ⟨front', j, back', hxs', hj, hji, -⟩ := h front i back hxs hp
        have hjmem : j ∈ xs := by
          rw [hxs']
          exact List.mem_append_right _ (List.mem_cons_self ..)
        exact absurd (mem_collectTaken.mpr ⟨j, hjmem, hj, hji.trans hiw⟩) hnot

end

end Aether.Rust
