import Aether.Machine.Run
import Aether.Quic.RangeSet

/-! Runs of a range set.

`remove_until` goes through the vector and the map in different ways and leaves the same
ranges (`removeUntil_eq`). Over a run of insertions and removals the set holds no number that
was not recorded, all that was as long as the ranges fit, and in any case the largest
(`run_ranges`). -/
namespace Aether.Quic
open Intervals (Separated cover Covers)
open Rust (BTreeMap)

/-! ### Removing what is low -/

/-- No range is empty. -/
def Filled (l : List Range) : Prop := ∀ r ∈ l, r.1 < r.2

theorem Filled.sublist {l m : List Range} (hm : Filled m) (h : l.Sublist m) : Filled l := fun r hr => hm r (h.subset hr)

theorem filled_cover {a b : Nat} {l : List Range} (hab : a < b) (hl : Filled l) : Filled (cover a b l) := by
  induction l generalizing a b with
  | nil =>
    intro r hr
    rw [List.mem_singleton.mp hr]
    exact hab
  | cons t rest ih =>
    obtain ⟨s, e⟩ := t
    have hrest : Filled rest := fun r hr => hl r (List.mem_cons_of_mem _ hr)
    rw [cover]
    split
    · intro r hr
      rcases List.mem_cons.mp hr with rfl | hr
      · exact hl _ (List.mem_cons_self ..)
      · exact ih hab hrest r hr
    · split
      · intro r hr
        rcases List.mem_cons.mp hr with rfl | hr
        · exact hab
        · exact hl r hr
      · exact ih (lt_of_le_of_lt (min_le_left _ _) (lt_of_lt_of_le hab (le_max_left _ _))) hrest

section Trim
open InlineRangeSet (trim)
variable {largest : Nat}

theorem trim_above {l : List Range} (hl : Filled l) (h : ∀ r ∈ l, largest < r.1) : trim largest l = l := by
  cases l with
  | nil => rfl
  | cons r rest =>
    obtain ⟨s, e⟩ := r
    have hs : largest < s := h _ (List.mem_cons_self ..)
    have hse : s < e := hl _ (List.mem_cons_self ..)
    rw [trim, if_neg (by omega)]
    show (if max (largest + 1) s = e then _ else _) = _
    rw [max_eq_right hs, if_neg (by omega)]

/-- The range that reaches over the number, if there is one, keeps its end. -/
theorem trim_cons {s e : Nat} {rest : List Range} (hs : s ≤ largest) :
    trim largest ((s, e) :: rest) =
      if e ≤ largest then trim largest rest else if e = largest + 1 then rest else (largest + 1, e) :: rest := by
  rw [trim]
  by_cases he : e ≤ largest
  · rw [if_pos he, if_pos he]
  · rw [if_neg (by omega), if_neg he]
    show (if max (largest + 1) s = e then _ else _) = _
    rw [max_eq_left (by omega : s ≤ largest + 1)]
    by_cases heq : e = largest + 1
    · rw [if_pos heq, if_pos heq.symm]
    · rw [if_neg heq, if_neg (fun h => heq h.symm)]

/-- What is left of the ranges is what they have above the number. -/
structure Trimmed (largest : Nat) (l l' : List Range) : Prop where
  separated : Separated l'
  filled : Filled l'
  length_le : l'.length ≤ l.length
  covers : ∀ x, Covers l' x ↔ Covers l x ∧ largest < x

/-- What starts above the number stays. -/
theorem trimmed_above {l : List Range} (hl : Separated l) (hfilled : Filled l) (h : ∀ r ∈ l, largest < r.1) :
    Trimmed largest l l := by
  refine ⟨hl, hfilled, Nat.le_refl _, fun x => ⟨fun hx => ⟨hx, ?_⟩, fun hx => hx.1⟩⟩
  obtain ⟨r, hr, hlow, _⟩ := hx
  have := h r hr
  omega

section Cons
variable {s e : Nat} {rest l : List Range}

/-- A range that ends below the number goes. -/
theorem Trimmed.drop (h : Trimmed largest rest l) (he : e ≤ largest + 1) : Trimmed largest ((s, e) :: rest) l := by
  refine ⟨h.separated, h.filled, h.length_le.trans (Nat.le_succ _), fun x => ?_⟩
  rw [h.covers, Intervals.covers_cons]
  apply Iff.intro
  · exact fun hx => ⟨.inr hx.1, hx.2⟩
  · exact fun hx => ⟨hx.1.resolve_left (by omega), hx.2⟩

/-- Of the range that reaches over the number the rest is kept, and all that is behind it. -/
theorem Trimmed.cut (h : Trimmed largest rest rest) (hs : s ≤ largest) (he : largest + 1 < e)
    (hlt : ∀ r ∈ rest, e < r.1) : Trimmed largest ((s, e) :: rest) ((largest + 1, e) :: rest) := by
  refine ⟨Intervals.separated_cons.mpr ⟨he.le, hlt, h.separated⟩, ?_, Nat.le_refl _, fun x => ?_⟩
  · intro r hr
    rcases List.mem_cons.mp hr with rfl | hr
    · exact he
    · exact h.filled r hr
  · rw [Intervals.covers_cons, Intervals.covers_cons]
    apply Iff.intro
    · intro hx
      rcases hx with hx | hx
      · exact ⟨.inl ⟨by omega, hx.2⟩, hx.1⟩
      · exact ⟨.inr hx, ((h.covers x).mp hx).2⟩
    · intro hx
      exact hx.1.imp_left (fun hin => ⟨hx.2, hin.2⟩)

end Cons

theorem trim_spec (largest : Nat) {l : List Range} (hl : Separated l) (hfilled : Filled l) :
    Trimmed largest l (trim largest l) := by
  induction l with
  | nil => exact trimmed_above hl hfilled (fun _ hr => absurd hr List.not_mem_nil)
  | cons r rest ih =>
    obtain ⟨s, e⟩ := r
    obtain ⟨_, hlt, hrest⟩ := Intervals.separated_cons.mp hl
    have hse : s < e := hfilled _ (List.mem_cons_self ..)
    have hfilledRest : Filled rest := fun r hr => hfilled r (List.mem_cons_of_mem _ hr)
    by_cases hs : s ≤ largest
    swap
    · have habove : ∀ r ∈ (s, e) :: rest, largest < r.1 := by
        intro r hr
        rcases List.mem_cons.mp hr with rfl | hr
        · exact not_le.mp hs
        · have := hlt r hr
          omega
      rw [trim_above hfilled habove]
      exact trimmed_above hl hfilled habove
    rw [trim_cons hs]
    by_cases he : e ≤ largest
    · rw [if_pos he]
      exact (ih hrest hfilledRest).drop (he.trans (Nat.le_succ _))
    have hstays : Trimmed largest rest rest :=
      trimmed_above hrest hfilledRest (fun r hr => (not_le.mp he).trans (hlt r hr))
    rw [if_neg he]
    by_cases heq : e = largest + 1
    · rw [if_pos heq]
      exact hstays.drop heq.le
    · rw [if_neg heq]
      exact hstays.cut hs (by omega) hlt

/-- A turn of the map's loop, where one can be added to the number. -/
theorem lift_eq (hlargest : largest < Rust.u64Max) (set : BTreeRangeSet) (r : Range) :
    set.lift largest r = some (
      if r.2 > largest + 1 then
        BTreeRangeSet.insert (largest + 1, r.2) {set with inner := set.inner.remove r.1}
      else {set with inner := set.inner.remove r.1}) := by
  rw [BTreeRangeSet.lift, Rust.addU64_of_le hlargest]
  rfl

/-- A range that ends with the number, or below it, is only removed. -/
theorem lift_below (hlargest : largest < Rust.u64Max) (set : BTreeRangeSet) {s e : Nat} (he : e ≤ largest + 1) :
    set.lift largest (s, e) = some {set with inner := set.inner.remove s} := by
  rw [lift_eq hlargest]
  exact congrArg some (if_neg (by show ¬ e > largest + 1; omega))

/-- Of a range that reaches over the number the rest is put back in front. -/
theorem lift_over (hlargest : largest < Rust.u64Max) (set : BTreeRangeSet) {s e : Nat} {above : List Range}
    (hremove : (set.inner.remove s).entries = above) (hsep : Separated above) (hlt : ∀ r ∈ above, e < r.1)
    (he : largest + 1 < e) (hlength : above.length + 1 ≤ set.capacity) :
    ∃ set', set.lift largest (s, e) = some set' ∧ set'.inner.entries = (largest + 1, e) :: above ∧
      set'.capacity = set.capacity := by
  have hcover : cover (largest + 1) e above = (largest + 1, e) :: above := Intervals.cover_front he.le hsep hlt
  have hinsert := @btree_insert_eq (largest + 1, e) {set with inner := set.inner.remove s} he.le
    (by show Separated (set.inner.remove s).entries; rw [hremove]; exact hsep)
    (by show (set.inner.remove s).entries.length ≤ set.capacity; rw [hremove]; omega)
  refine ⟨BTreeRangeSet.insert (largest + 1, e) {set with inner := set.inner.remove s}, ?_, ?_, rfl⟩
  · rw [lift_eq hlargest]
    exact congrArg some (if_pos he)
  · rw [hinsert, coverWithin]
    show (if (cover (largest + 1) e (set.inner.remove s).entries).length ≤ set.capacity then _ else _) = _
    rw [hremove, hcover, if_pos (by rw [List.length_cons]; exact hlength)]

/-- The map removes what starts low and puts back what is left of it. -/
theorem btree_removeUntil_eq (hlargest : largest < Rust.u64Max) (set : BTreeRangeSet)
    (hset : Separated set.inner.entries) (hfilled : Filled set.inner.entries)
    (hfits : set.inner.len ≤ set.capacity) :
    ∃ set', set.removeUntil largest = some set' ∧ set'.inner.entries = trim largest set.inner.entries ∧
      set'.capacity = set.capacity := by
  obtain ⟨front, above, hcut, hfront, habove⟩ : ∃ front above, set.inner.entries = front ++ above ∧
      (∀ r ∈ front, r.1 ≤ largest) ∧ ∀ r ∈ above, largest < r.1 := by
    refine ⟨_, _, set.inner.cut_at (largest + 1), ?_, ?_⟩
    · intro r hr
      have := (List.mem_filter.mp hr).2
      simp only [decide_eq_true_eq] at this
      omega
    · intro r hr
      have := (List.mem_filter.mp hr).2
      simp only [decide_eq_true_eq] at this
      omega
  rw [BTreeRangeSet.removeUntil, BTreeMap.rangeTo_cut hcut hfront habove]
  induction front generalizing set with
  | nil =>
    rw [List.nil_append] at hcut
    rw [List.foldlM_nil, trim_above hfilled (by rw [hcut]; exact habove)]
    exact ⟨set, rfl, rfl, rfl⟩
  | cons r front ih =>
    obtain ⟨s, e⟩ := r
    have hs : s ≤ largest := hfront _ (List.mem_cons_self ..)
    have hfirst : set.inner.entries = [] ++ (s, e) :: (front ++ above) := hcut
    have hremove : (set.inner.remove s).entries = [] ++ (front ++ above) := BTreeMap.remove_cut hfirst
    rw [List.nil_append] at hremove
    have hsep := hset
    have hfil := hfilled
    rw [hcut, List.cons_append] at hsep hfil
    obtain ⟨hse, hlt, hrest⟩ := Intervals.separated_cons.mp hsep
    have hfilledRest : Filled (front ++ above) := fun r hr => hfil r (List.mem_cons_of_mem _ hr)
    have hlength : (front ++ above).length + 1 ≤ set.capacity := by
      rw [BTreeMap.len, hcut, List.cons_append, List.length_cons] at hfits
      exact hfits
    rw [List.foldlM_cons, hcut, List.cons_append, trim_cons hs]
    by_cases he : e ≤ largest
    · rw [if_pos he, lift_below hlargest set (he.trans (Nat.le_succ _)), ← hremove]
      refine ih {set with inner := set.inner.remove s} ?_ ?_ ?_ hremove (fun r hr => hfront r (List.mem_cons_of_mem _ hr))
      · show Separated (set.inner.remove s).entries
        rw [hremove]
        exact hrest
      · show Filled (set.inner.remove s).entries
        rw [hremove]
        exact hfilledRest
      · show (set.inner.remove s).entries.length ≤ set.capacity
        rw [hremove]
        omega
    · -- A range that reaches over the number is the last that starts below it.
      obtain rfl : front = [] := by
        cases front with
        | nil => rfl
        | cons t front =>
          have h1 : e < t.1 := hlt t (List.mem_cons_self ..)
          have h2 : t.1 ≤ largest := hfront t (by simp)
          omega
      rw [List.nil_append] at hremove hrest hlength hlt
      rw [if_neg he]
      by_cases heq : e = largest + 1
      · rw [if_pos heq, lift_below hlargest set heq.le]
        exact ⟨_, rfl, hremove, rfl⟩
      · rw [if_neg heq]
        obtain ⟨set', hlift, hentries, hcapacity⟩ := lift_over hlargest set hremove hrest hlt (by omega) hlength
        rw [hlift]
        exact ⟨set', rfl, hentries, hcapacity⟩

end Trim

namespace RangeSet
variable {capacity : Nat} {set : RangeSet}

theorem removeUntil_eq {largest : Nat} (hlargest : largest < Rust.u64Max) (hset : Sound capacity set)
    (hfilled : Filled set.iter) :
    ∃ set', set.removeUntil largest = some set' ∧ set'.iter = InlineRangeSet.trim largest set.iter ∧
      Sound capacity set' := by
  obtain ⟨hseparated, _, hlength, _⟩ := trim_spec largest hset.separated hfilled
  have hfits := hlength.trans hset.fits
  cases set with
  | inline set =>
    have hiter : RangeSet.iter (.inline (set.removeUntil largest)) = InlineRangeSet.trim largest set.inner := rfl
    have hsound : Separated (RangeSet.iter (.inline (set.removeUntil largest))) := hseparated
    refine ⟨_, rfl, (iter_fixup hsound).trans hiter, @sound_fixup capacity (.inline (set.removeUntil largest))
      hsound hfits
      hset.capacity_eq ?_⟩
    intro inner hinner
    cases hinner
    exact hlength.trans (hset.short set rfl).le
  | btree set =>
    have hcapacity : set.capacity = capacity := hset.capacity_eq
    obtain ⟨trimmed, hremove, hiter, hsame⟩ := btree_removeUntil_eq hlargest set hset.separated hfilled
      (hset.fits.trans (Nat.le_of_eq hcapacity.symm))
    have hentries : RangeSet.iter (.btree trimmed) = InlineRangeSet.trim largest set.inner.entries := hiter
    refine ⟨_, congrArg (Option.map _) hremove, (iter_fixup (by rw [hentries]; exact hseparated)).trans hentries,
      @sound_fixup capacity (.btree trimmed) ?_ ?_ ?_ ?_⟩
    · rw [hentries]
      exact hseparated
    · rw [hentries]
      exact hfits
    · exact hsame.trans hcapacity
    · intro inner hinner
      cases hinner

end RangeSet

/-! ### Runs -/

/-- Of three ranges or more, one that goes has another behind it. -/
theorem reach_evict {a : Nat} {l : List Range} (hl : Separated l) (hlength : 3 ≤ l.length) {r : Range} (hr : r ∈ l) :
    ∃ t ∈ evict a l, r.2 ≤ t.2 := by
  obtain ⟨r₀, r₁, r₂, rest, rfl⟩ : ∃ r₀ r₁ r₂ rest, l = r₀ :: r₁ :: r₂ :: rest := by
    rcases l with _ | ⟨r₀, _ | ⟨r₁, _ | ⟨r₂, rest⟩⟩⟩
    · simp at hlength
    · simp at hlength
    · simp at hlength
    · exact ⟨r₀, r₁, r₂, rest, rfl⟩
  have h01 : r₀.2 ≤ r₁.2 := by
    have h1 : r₀.2 < r₁.1 := (List.pairwise_cons.mp hl.apart).1 r₁ (by simp)
    have h2 : r₁.1 ≤ r₁.2 := hl.ordered r₁ (by simp)
    omega
  have h12 : r₁.2 ≤ r₂.2 := by
    have h1 : r₁.2 < r₂.1 := (List.pairwise_cons.mp (List.pairwise_cons.mp hl.apart).2).1 r₂ (by simp)
    have h2 : r₂.1 ≤ r₂.2 := hl.ordered r₂ (by simp)
    omega
  rw [evict]
  rcases List.mem_cons.mp hr with rfl | hr
  · split
    · exact ⟨r, List.mem_cons_self .., Nat.le_refl _⟩
    · exact ⟨r₁, List.mem_cons_self .., h01⟩
  rcases List.mem_cons.mp hr with rfl | hr
  · split
    · exact ⟨r₂, by simp, h12⟩
    · exact ⟨r, List.mem_cons_self .., Nat.le_refl _⟩
  · split
    · exact ⟨r, List.mem_cons_of_mem _ hr, Nat.le_refl _⟩
    · exact ⟨r, List.mem_cons_of_mem _ hr, Nat.le_refl _⟩

/-- An insertion is of a range that is not empty, and the number of a removal is not the
largest there is. -/
inductive Op where
  | insert (item : Range) (filled : item.1 < item.2)
  | removeUntil (largest : Nat) (small : largest < Rust.u64Max)

namespace Op

def act : Op → RangeSet → Option RangeSet
  | .insert item _, set => set.insert item
  | .removeUntil largest _, set => set.removeUntil largest

/-- The same on the plain list of ranges. -/
def onList (capacity : Nat) : Op → List Range → List Range
  | .insert item _, l => coverWithin capacity item l
  | .removeUntil largest _, l => InlineRangeSet.trim largest l

/-- The numbers inserted and not removed. -/
def record : Op → Set Nat → Set Nat
  | .insert item _, numbers => {x | (item.1 ≤ x ∧ x < item.2) ∨ x ∈ numbers}
  | .removeUntil largest _, numbers => {x | x ∈ numbers ∧ largest < x}

end Op

def recorded (ops : List Op) : Set Nat := ops.foldl (fun numbers op => op.record numbers) ∅

/-- A set after `n` operations, which on the plain list gave `l`. -/
structure Tracks (capacity n : Nat) (l : List Range) (numbers : Set Nat) (set : RangeSet) : Prop where
  sound : set.Sound capacity
  iter_eq : set.iter = l
  filled : Filled l
  length_le : l.length ≤ n
  recorded : ∀ x, Covers l x → x ∈ numbers
  complete : n ≤ capacity → ∀ x ∈ numbers, Covers l x
  reached : ∀ x ∈ numbers, ∃ r ∈ l, x < r.2

section Tracks
variable {capacity n : Nat} {l : List Range} {numbers : Set Nat} {set : RangeSet}

theorem Tracks.insert (h : Tracks capacity n l numbers set) (hcapacity : maxInlineCapacity ≤ capacity) (item : Range)
    (hitem : item.1 < item.2) :
    ∃ set', set.insert item = some set' ∧
      Tracks capacity (n + 1) (coverWithin capacity item l) ((Op.insert item hitem).record numbers) set' := by
  obtain ⟨set', hset', hiter, hsound⟩ := RangeSet.insert_eq h.sound hcapacity hitem.le
  rw [h.iter_eq] at hiter
  have hsub : (coverWithin capacity item l).Sublist (cover item.1 item.2 l) := coverWithin_sublist
  have hseparated : Separated l := by
    rw [← h.iter_eq]
    exact h.sound.separated
  have hcoverLength := Intervals.length_cover_le item.1 item.2 l
  have hlength := h.length_le
  have hreach {x : Nat} (hx : ∃ r ∈ cover item.1 item.2 l, x < r.2) : ∃ r ∈ coverWithin capacity item l, x < r.2 := by
    obtain ⟨r, hr, hxr⟩ := hx
    rw [coverWithin]
    split
    · exact ⟨r, hr, hxr⟩
    · have hfour : (4 : Nat) ≤ capacity := hcapacity
      obtain ⟨t, ht, hle⟩ := reach_evict (a := item.1) (hseparated.cover hitem.le) (by omega) hr
      exact ⟨t, ht, lt_of_lt_of_le hxr hle⟩
  refine ⟨set', hset', hsound, hiter, (filled_cover hitem h.filled).sublist hsub, ?_, ?_, ?_, ?_⟩
  · exact hsub.length_le.trans (by omega)
  · intro x hx
    rcases Intervals.covers_cover.mp (hx.of_sublist hsub) with hx | hx
    · exact .inl hx
    · exact .inr (h.recorded x hx)
  · intro hn x hx
    rw [coverWithin, if_pos (by omega), Intervals.covers_cover]
    rcases hx with hx | hx
    · exact .inl hx
    · exact .inr (h.complete (by omega) x hx)
  · intro x hx
    apply hreach
    rcases hx with hx | hx
    · obtain ⟨r, hr, hxr⟩ := Intervals.covers_cover.mpr (.inl hx : _ ∨ Covers l x)
      exact ⟨r, hr, hxr.2⟩
    · obtain ⟨r, hr, hxr⟩ := h.reached x hx
      obtain ⟨t, ht, hle⟩ := Intervals.reach_cover (a := item.1) (b := item.2) hr
      exact ⟨t, ht, lt_of_lt_of_le hxr hle⟩

theorem Tracks.removeUntil (h : Tracks capacity n l numbers set) {largest : Nat} (hlargest : largest < Rust.u64Max) :
    ∃ set', set.removeUntil largest = some set' ∧
      Tracks capacity (n + 1) (InlineRangeSet.trim largest l)
        ((Op.removeUntil largest hlargest).record numbers) set' := by
  have hseparated : Separated l := by
    rw [← h.iter_eq]
    exact h.sound.separated
  obtain ⟨set', hset', hiter, hsound⟩ := RangeSet.removeUntil_eq hlargest h.sound (by rw [h.iter_eq]; exact h.filled)
  rw [h.iter_eq] at hiter
  obtain ⟨_, hfilled, hlength, hcovers⟩ := trim_spec largest hseparated h.filled
  refine ⟨set', hset', hsound, hiter, hfilled, hlength.trans (h.length_le.trans (Nat.le_succ n)), ?_, ?_, ?_⟩
  · intro x hx
    obtain ⟨hx, hlt⟩ := (hcovers x).mp hx
    exact ⟨h.recorded x hx, hlt⟩
  · intro hn x hx
    exact (hcovers x).mpr ⟨h.complete (by omega) x hx.1, hx.2⟩
  · intro x hx
    obtain ⟨r, hr, hxr⟩ := h.reached x hx.1
    have hlt : largest < x := hx.2
    have hrr : r.1 < r.2 := h.filled r hr
    -- The last number of the range is above `largest` too, and is still there.
    obtain ⟨t, ht, hxt⟩ := (hcovers (r.2 - 1)).mpr ⟨⟨r, hr, by omega, by omega⟩, by omega⟩
    exact ⟨t, ht, by omega⟩

theorem Tracks.act (h : Tracks capacity n l numbers set) (hcapacity : maxInlineCapacity ≤ capacity) (op : Op) :
    ∃ set', op.act set = some set' ∧ Tracks capacity (n + 1) (op.onList capacity l) (op.record numbers) set' := by
  cases op with
  | insert item filled => exact h.insert hcapacity item filled
  | removeUntil largest small => exact h.removeUntil small

theorem Tracks.run (hcapacity : maxInlineCapacity ≤ capacity) (ops : List Op) (h : Tracks capacity n l numbers set) :
    ∃ set', ops.foldlM (fun set op => op.act set) set = some set' ∧
      Tracks capacity (n + ops.length) (ops.foldl (fun l op => op.onList capacity l) l)
        (ops.foldl (fun numbers op => op.record numbers) numbers) set' := by
  induction ops generalizing n l numbers set with
  | nil => exact ⟨set, rfl, h⟩
  | cons op rest ih =>
    obtain ⟨set', hset', htracks⟩ := h.act hcapacity op
    obtain ⟨set'', hset'', htracks'⟩ := ih htracks
    refine ⟨set'', ?_, ?_⟩
    · rw [List.foldlM_cons, hset']
      exact hset''
    · rw [List.length_cons, show n + (rest.length + 1) = n + 1 + rest.length by omega]
      exact htracks'

/-- The largest number recorded is the last of the last range. -/
theorem Tracks.last_iff (h : Tracks capacity n l numbers set) (x : Nat) :
    set.last = some x ↔ x ∈ numbers ∧ ∀ y ∈ numbers, y ≤ x := by
  have hseparated : Separated l := by
    rw [← h.iter_eq]
    exact h.sound.separated
  have hgreatest {r : Range} (hr : l.getLast? = some r) : r.2 - 1 ∈ numbers ∧ ∀ y ∈ numbers, y ≤ r.2 - 1 := by
    have hmem : r ∈ l := List.mem_of_getLast? hr
    have hrr : r.1 < r.2 := h.filled r hmem
    refine ⟨h.recorded _ ⟨r, hmem, by omega, by omega⟩, ?_⟩
    intro y hy
    obtain ⟨t, ht, hyt⟩ := h.reached y hy
    have := hseparated.le_last hr ht
    omega
  rw [RangeSet.last, h.iter_eq]
  constructor
  · intro hx
    obtain ⟨r, hr, rfl⟩ := Option.map_eq_some_iff.mp hx
    exact hgreatest hr
  · intro hx
    obtain ⟨hmem, hmax⟩ := hx
    cases hlast : l.getLast? with
    | none =>
      obtain ⟨r, hr, _⟩ := h.reached x hmem
      rw [List.getLast?_eq_none_iff.mp hlast] at hr
      cases hr
    | some r =>
      have hr := hgreatest hlast
      have h1 := hmax _ hr.1
      have h2 := hr.2 x hmem
      show some (r.2 - 1) = some x
      rw [show r.2 - 1 = x by omega]

end Tracks

theorem tracks_new (capacity : Nat) : Tracks capacity 0 [] ∅ (RangeSet.new capacity) := by
  refine ⟨RangeSet.sound_new capacity, rfl, fun _ hr => absurd hr List.not_mem_nil, Nat.le_refl _, ?_,
    fun _ _ hx => absurd hx (Set.notMem_empty _), fun _ hx => absurd hx (Set.notMem_empty _)⟩
  intro x hx
  exact absurd hx Intervals.not_covers_nil

/-- A set that has room for its vector never panics, whatever is done with it: it is the list
that the plain operations give, holds no number that is not recorded, all that are if there was
room for each, and always the largest. -/
theorem run_ranges (capacity : Nat) (hcapacity : maxInlineCapacity ≤ capacity) (ops : List Op) :
    ∃ set, ops.foldlM (fun set op => op.act set) (RangeSet.new capacity) = some set ∧
      set.iter = ops.foldl (fun l op => op.onList capacity l) [] ∧
      Separated set.iter ∧ set.iter.length ≤ capacity ∧
      (∀ x, Covers set.iter x → x ∈ recorded ops) ∧
      (ops.length ≤ capacity → ∀ x ∈ recorded ops, Covers set.iter x) ∧
      ∀ x, set.last = some x ↔ x ∈ recorded ops ∧ ∀ y ∈ recorded ops, y ≤ x := by
  obtain ⟨set, hset, h⟩ := Tracks.run hcapacity ops (tracks_new capacity)
  refine ⟨set, hset, h.iter_eq, h.sound.separated, h.sound.fits, ?_, ?_, h.last_iff⟩
  · rw [h.iter_eq]
    exact h.recorded
  · rw [h.iter_eq]
    intro hlength
    exact h.complete (by omega)

/-- Three ranges become one, and lose their front. -/
def bridged : List Op := [.insert (5, 6) (by decide), .insert (9, 12) (by decide), .insert (6, 9) (by decide),
    .removeUntil 7 (by decide)]

theorem run_ranges_bridged :
    ∃ set, bridged.foldlM (fun set op => op.act set) (RangeSet.new 68) = some set ∧ set.iter = [(8, 12)] := by
  obtain ⟨set, hset, hiter, _⟩ := run_ranges 68 (by decide) bridged
  exact ⟨set, hset, hiter.trans (by decide)⟩

end Aether.Quic
