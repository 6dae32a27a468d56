import Mathlib.Data.Option.Basic
import Aether.Machine.Intervals
import Aether.Rust.BTreeMap
import Aether.Rust.Unsigned

/-! Sets of offsets and packet numbers.

A `RangeSet` is a short vector of ranges or an ordered map from their starts to their ends:
`fixup` takes it from one form to the other by its length. The two forms insert a range and
remove what is below a number with different loops. Both are `cover` and `trim` of the list of
ranges (`insert_eq`, `removeUntil_eq`); a range too many drives out the lowest of those that
were there. -/
namespace Aether.Quic
open Intervals (Separated cover Covers)
open Rust (BTreeMap)

abbrev Range := Nat × Nat

def maxInlineCapacity : Nat := 4

def minToInline : Nat := 2

/-- `usize::MAX` of a 64-bit target. -/
def usizeMax : Nat := 18446744073709551615

structure InlineRangeSet where
  inner : List Range
  capacity : Nat

structure BTreeRangeSet where
  inner : BTreeMap Nat Nat
  capacity : Nat

inductive RangeSet where
  | inline (set : InlineRangeSet)
  | btree (set : BTreeRangeSet)

/-! ### The vector -/

namespace InlineRangeSet

/-- The loop that merges the ranges behind one that was extended. -/
def merge (start stop : Nat) : List Range → List Range
  | [] => [(start, stop)]
  | (s, e) :: rest => if stop < s then (start, stop) :: (s, e) :: rest else merge start (max e stop) rest

/-- A full vector loses its first range; where there is none in front of the new one, `remove(0)` or
`pos -= 1` panics. -/
def room (full : Bool) (before : List Range) : Option (List Range) :=
  if full then
    match before with
    | [] => none
    | _ :: before => some before
  else some before

/-- The loop of `insert` behind the ranges `before`. -/
def place (full : Bool) (start stop : Nat) : (before rest : List Range) → Option (List Range)
  | before, [] => (room full before).map (· ++ [(start, stop)])
  | before, (s, e) :: rest =>
    if start > e then place full start stop (before ++ [(s, e)]) rest
    else if stop < s then (room full before).map (· ++ (start, stop) :: (s, e) :: rest)
    else
      let s := if start < s then start else s
      if stop > e then some (before ++ merge s stop rest) else some (before ++ (s, e) :: rest)

def insert (item : Range) (set : InlineRangeSet) : Option InlineRangeSet := do
  let inner ← place (set.inner.length == set.capacity) item.1 item.2 [] set.inner
  return {set with inner}

/-- The loop of `remove_until`; it adds one to a number below the end of a range. -/
def trim (largest : Nat) : List Range → List Range
  | [] => []
  | (s, e) :: rest =>
    if largest ≥ e then trim largest rest
    else
      let s := max (largest + 1) s
      if s = e then rest else (s, e) :: rest

def removeUntil (largest : Nat) (set : InlineRangeSet) : InlineRangeSet := {set with inner := trim largest set.inner}

end InlineRangeSet

/-! ### The map -/

namespace BTreeRangeSet

def prevTo (item : Nat) (m : BTreeMap Nat Nat) : Option Range := (m.rangeTo item).getLast?

def nextTo (item : Nat) (m : BTreeMap Nat Nat) : Option Range := (m.rangeFrom item).head?

def rangeOverlaps (r other : Range) : Bool :=
  (decide (other.1 ≥ r.1) && decide (other.1 ≤ r.2)) || (decide (other.2 ≥ r.1) && decide (other.2 ≤ r.2))

def rangeContains (r : Range) (x : Nat) : Bool := decide (r.1 ≤ x) && decide (x < r.2)

/-- The loop over the ranges that follow; each turn but the last removes one. -/
def absorb (item : Range) : (turns : Nat) → BTreeMap Nat Nat → (start stop : Nat) → BTreeMap Nat Nat × Range
  | 0, m, start, stop => (m, (start, stop))
  | turns + 1, m, start, stop =>
    match nextTo start m with
    | none => (m, (start, stop))
    | some r =>
      if rangeContains item r.1 && rangeContains item r.2 then absorb item turns (m.remove r.1) start stop
      else if !rangeOverlaps r item then (m, (start, stop))
      else absorb item turns (m.remove r.1) (min start r.1) (max stop r.2)

/-- The range in front, if it overlaps, is merged first. -/
def merged (item : Range) (m : BTreeMap Nat Nat) : BTreeMap Nat Nat × Range :=
  match prevTo item.1 m with
  | none => (m, item)
  | some r => if rangeOverlaps r item then (m.remove r.1, (min item.1 r.1, max item.2 r.2)) else (m, item)

/-- What is left of the map, and what the range has become. -/
def taken (item : Range) (m : BTreeMap Nat Nat) : BTreeMap Nat Nat × Range :=
  let front := merged item m
  absorb item front.1.len front.1 front.2.1 front.2.2

def insert (item : Range) (set : BTreeRangeSet) : BTreeRangeSet :=
  let all := taken item set.inner
  let inner := if all.1.len ≥ set.capacity then all.1.popFirst else all.1
  {set with inner := inner.insert all.2.1 all.2.2}

/-- One turn of `remove_until`: a range goes, and what of it is above the number comes back.
Above the largest number there is none, so that the sum panics. -/
def lift (largest : Nat) (set : BTreeRangeSet) (r : Range) : Option BTreeRangeSet := do
  let set := {set with inner := set.inner.remove r.1}
  let start ← Rust.addU64 largest 1
  return if r.2 > start then set.insert (start, r.2) else set

def removeUntil (largest : Nat) (set : BTreeRangeSet) : Option BTreeRangeSet :=
  (set.inner.rangeTo largest).foldlM (lift largest) set

end BTreeRangeSet

/-! ### Both -/

namespace RangeSet

def new (capacity : Nat) : RangeSet := .inline ⟨[], capacity⟩

def default : RangeSet := .new usizeMax

/-- `iter` -/
def iter : RangeSet → List Range
  | .inline set => set.inner
  | .btree set => set.inner.entries

def capacity : RangeSet → Nat
  | .inline set => set.capacity
  | .btree set => set.capacity

def fixup : RangeSet → RangeSet
  | .inline set =>
    if set.inner.length = maxInlineCapacity then .btree ⟨BTreeMap.ofList set.inner, set.capacity⟩ else .inline set
  | .btree set => if set.inner.len ≤ minToInline then .inline ⟨set.inner.entries, set.capacity⟩ else .btree set

def insert (item : Range) : RangeSet → Option RangeSet
  | .inline set => (set.insert item).map (fun set => fixup (.inline set))
  | .btree set => some (fixup (.btree (set.insert item)))

def removeUntil (largest : Nat) : RangeSet → Option RangeSet
  | .inline set => some (fixup (.inline (set.removeUntil largest)))
  | .btree set => (set.removeUntil largest).map (fun set => fixup (.btree set))

/-- The largest number in the set, if its last range is not empty. -/
def last (set : RangeSet) : Option Nat := set.iter.getLast?.map (·.2 - 1)

def pushItem (item : Nat) (set : RangeSet) : Option RangeSet := do
  let stop ← Rust.addU64 item 1
  set.insert (item, stop)

end RangeSet

/-! ### One range too many -/

/-- The range that starts at `a` stays; of the others the first goes. -/
def evict (a : Nat) : List Range → List Range
  | [] => []
  | r :: rest => if r.1 = a then r :: rest.tail else rest

/-- A range is added to at most `capacity` ranges. -/
def coverWithin (capacity : Nat) (item : Range) (l : List Range) : List Range :=
  if (cover item.1 item.2 l).length ≤ capacity then cover item.1 item.2 l else evict item.1 (cover item.1 item.2 l)

/-! ### The vector inserts a range -/

/-- The vector absorbs what follows, as the merge of intervals does. -/
theorem merge_eq {start stop : Nat} {l : List Range} (hl : Separated l) (h : ∀ r ∈ l, start ≤ r.1) :
    InlineRangeSet.merge start stop l = cover start stop l := by
  induction l generalizing stop with
  | nil => rfl
  | cons r rest ih =>
    obtain ⟨s, e⟩ := r
    obtain ⟨hse, _, hrest⟩ := Intervals.separated_cons.mp hl
    have hs : start ≤ s := h _ (List.mem_cons_self ..)
    rw [InlineRangeSet.merge, cover, if_neg (not_lt.mpr (hs.trans hse))]
    split
    · rfl
    · rw [ih hrest (fun r hr => h r (List.mem_cons_of_mem _ hr)), min_eq_left hs, max_comm]

/-- The vector finds the place of the range. -/
theorem place_eq {start stop : Nat} {before rest : List Range} (hrest : Separated rest) :
    InlineRangeSet.place false start stop before rest = some (before ++ cover start stop rest) := by
  induction rest generalizing before with
  | nil => rfl
  | cons r rest ih =>
    obtain ⟨s, e⟩ := r
    obtain ⟨hse, hlt, hsep⟩ := Intervals.separated_cons.mp hrest
    rw [InlineRangeSet.place, cover]
    by_cases hskip : e < start
    · rw [if_pos hskip, if_pos hskip, ih hsep, List.append_assoc, List.singleton_append]
    rw [if_neg hskip, if_neg hskip]
    by_cases hfront : stop < s
    · rw [if_pos hfront, if_pos hfront]
      rfl
    rw [if_neg hfront, if_neg hfront]
    have hmin : (if start < s then start else s) = min start s := by
      split
      · omega
      · omega
    show (if stop > e then _ else _) = _
    rw [hmin]
    split
    · rename_i hstop
      rw [max_eq_left hstop.le, merge_eq hsep]
      intro r hr
      exact (min_le_right _ _).trans (hse.trans (hlt r hr).le)
    · rename_i hstop
      rw [max_eq_right (not_lt.mp hstop), Intervals.cover_front ((min_le_right _ _).trans hse) hsep hlt]

/-! ### The map inserts a range -/

section Map
open BTreeRangeSet
variable {item : Range} {m : BTreeMap Nat Nat} {start stop : Nat}

theorem nextTo_cut {below above : List Range} {k : Nat} (hm : m.entries = below ++ above)
    (hbelow : ∀ x ∈ below, x.1 < k)
    (habove : ∀ x ∈ above, k ≤ x.1) : nextTo k m = above.head? := by
  rw [nextTo, BTreeMap.rangeFrom_cut hm hbelow habove]

theorem absorb_some {turns : Nat} {r : Range} (h : nextTo start m = some r) :
    absorb item (turns + 1) m start stop =
      if rangeContains item r.1 && rangeContains item r.2 then absorb item turns (m.remove r.1) start stop
      else if !rangeOverlaps r item then (m, (start, stop))
      else absorb item turns (m.remove r.1) (min start r.1) (max stop r.2) := by
  rw [absorb, h]

theorem absorb_none {turns : Nat} (h : nextTo start m = none) :
    absorb item turns m start stop = (m, (start, stop)) := by
  cases turns with
  | zero => rfl
  | succ turns => rw [absorb, h]

/-- The loop takes the ranges that touch, and stops at the first that does not. -/
theorem absorb_eq {below above : List Range} (turns : Nat) (hturns : above.length ≤ turns)
    (hm : m.entries = below ++ above) (hbelow : ∀ r ∈ below, r.1 < start) (hsep : Separated above)
    (habove : ∀ r ∈ above, item.1 < r.1 ∧ start ≤ r.1)
    (hstop : stop = item.2 ∨ item.2 ≤ stop ∧ ∀ r ∈ above, stop < r.1) :
    ∃ kept stop', (absorb item turns m start stop).1.entries = below ++ kept ∧
      (absorb item turns m start stop).2 = (start, stop') ∧ cover start stop above = (start, stop') :: kept := by
  induction turns generalizing m above stop with
  | zero =>
    obtain rfl : above = [] := List.length_eq_zero_iff.mp (by omega)
    exact ⟨[], stop, hm, rfl, rfl⟩
  | succ turns ih =>
    cases above with
    | nil =>
      rw [absorb_none (nextTo_cut hm hbelow (fun x hx => (habove x hx).2))]
      exact ⟨[], stop, hm, rfl, rfl⟩
    | cons r rest =>
      obtain ⟨s, e⟩ := r
      obtain ⟨hse, hlt, hrest⟩ := Intervals.separated_cons.mp hsep
      have hs : item.1 < s ∧ start ≤ s := habove _ (List.mem_cons_self ..)
      have htail : ∀ r ∈ rest, item.1 < r.1 ∧ start ≤ r.1 := fun r hr => habove r (List.mem_cons_of_mem _ hr)
      have hnext : nextTo start m = some (s, e) := by
        rw [nextTo_cut hm hbelow (fun x hx => (habove x hx).2)]
        rfl
      have hremove : (m.remove s).entries = below ++ rest := BTreeMap.remove_cut hm
      have hlength : rest.length ≤ turns := by
        rw [List.length_cons] at hturns
        omega
      have hmin : min start s = start := min_eq_left hs.2
      rw [absorb_some hnext]
      by_cases htouch : s ≤ stop
      · -- Only the new range itself can reach into those that follow.
        have hitem : stop = item.2 := by
          rcases hstop with h | ⟨_, h⟩
          · exact h
          · exact absurd htouch (not_le.mpr (h _ (List.mem_cons_self ..)))
        have hcover : cover start stop ((s, e) :: rest) = cover start (max stop e) rest := by
          rw [Intervals.cover_touching (hs.2.trans hse) htouch, hmin]
        by_cases hinside : e < stop
        · have hcontains : (rangeContains item s && rangeContains item e) = true := by
            simp only [rangeContains, Bool.and_eq_true, decide_eq_true_eq]
            omega
          rw [if_pos hcontains, hcover, max_eq_left hinside.le]
          exact ih hlength hremove hrest htail (.inl hitem)
        · have hcontains : ¬ (rangeContains item s && rangeContains item e) = true := by
            simp only [rangeContains, Bool.and_eq_true, decide_eq_true_eq]
            omega
          have hoverlaps : ¬ (!rangeOverlaps (s, e) item) = true := by
            simp only [rangeOverlaps, Bool.not_eq_true', Bool.not_eq_false, Bool.or_eq_true, Bool.and_eq_true,
              decide_eq_true_eq]
            omega
          rw [if_neg hcontains, if_neg hoverlaps, hcover, hmin]
          refine ih hlength hremove hrest htail (.inr ⟨by omega, ?_⟩)
          intro r hr
          have := hlt r hr
          omega
      · have hcontains : ¬ (rangeContains item s && rangeContains item e) = true := by
          simp only [rangeContains, Bool.and_eq_true, decide_eq_true_eq]
          omega
        have hoverlaps : (!rangeOverlaps (s, e) item) = true := by
          simp only [rangeOverlaps, Bool.not_eq_true', Bool.or_eq_false_iff, Bool.and_eq_false_iff,
            decide_eq_false_iff_not]
          omega
        rw [if_neg hcontains, if_pos hoverlaps]
        refine ⟨(s, e) :: rest, stop, hm, rfl, ?_⟩
        rw [cover, if_neg (not_lt.mpr (hs.2.trans hse)), if_pos (not_le.mp htouch)]

/-- What is left of the map stands around the range that has become of the item. -/
structure Merging (item : Range) (m : BTreeMap Nat Nat) (below kept : List Range) (range : Range) : Prop where
  entries : (taken item m).1.entries = below ++ kept
  range_eq : (taken item m).2 = range
  cover_eq : cover item.1 item.2 m.entries = below ++ range :: kept
  start : range.1 = item.1 ∨ (cover item.1 item.2 m.entries).length ≤ m.entries.length

section Taken
variable {front above : List Range} {r : Range}

/-- Where nothing in front overlaps, the loop starts with the range itself. -/
theorem taken_apart (hcut : m.entries = front ++ above) (hsep : Separated (front ++ above))
    (hmerged : merged item m = (m, item)) (hfront : ∀ r ∈ front, r.2 < item.1) (habove : ∀ r ∈ above, item.1 < r.1) :
    ∃ kept range, Merging item m front kept range := by
  have hlength : above.length ≤ m.len := by
    rw [BTreeMap.len, hcut, List.length_append]
    omega
  obtain ⟨kept, stop, hkept, hrange, hcover⟩ :=
    @absorb_eq item _ _ item.2 _ _ m.len hlength hcut
      (fun r hr => (hsep.ordered r (List.mem_append_left _ hr)).trans_lt (hfront r hr)) hsep.of_append.2
      (fun r hr => ⟨habove r hr, (habove r hr).le⟩) (.inl rfl)
  refine ⟨kept, (item.1, stop), ?_, ?_, ?_, .inl rfl⟩
  · rw [taken, hmerged]
    exact hkept
  · rw [taken, hmerged]
    exact hrange
  · rw [hcut, Intervals.cover_append hfront, hcover]

/-- A range in front that does not reach the new one stays. -/
theorem merged_apart (hprev : prevTo item.1 m = some r) (hle : item.1 ≤ item.2) (hbefore : r.2 < item.1) :
    merged item m = (m, item) := by
  have hoverlaps : ¬ rangeOverlaps r item = true := by
    simp only [rangeOverlaps, Bool.or_eq_true, Bool.and_eq_true, decide_eq_true_eq]
    omega
  rw [merged, hprev]
  show (if rangeOverlaps r item then _ else _) = _
  rw [if_neg hoverlaps]

/-- One that does is taken out and merged. -/
theorem merged_touching (hprev : prevTo item.1 m = some r) (hr : r.1 ≤ item.1) (hle : item.1 ≤ item.2)
    (htouch : item.1 ≤ r.2) : merged item m = (m.remove r.1, (r.1, max item.2 r.2)) := by
  have hoverlaps : rangeOverlaps r item = true := by
    simp only [rangeOverlaps, Bool.or_eq_true, Bool.and_eq_true, decide_eq_true_eq]
    omega
  rw [merged, hprev]
  show (if rangeOverlaps r item then _ else _) = _
  rw [if_pos hoverlaps, min_eq_right hr]

/-- Where the range in front touches, the loop starts with both. -/
theorem taken_touching (hcut : m.entries = front ++ r :: above) (hsep : Separated (front ++ r :: above))
    (hprev : prevTo item.1 m = some r) (hr : r.1 ≤ item.1) (hle : item.1 ≤ item.2) (htouch : item.1 ≤ r.2)
    (habove : ∀ t ∈ above, item.1 < t.1) : ∃ kept range, Merging item m front kept range := by
  have hmerged := merged_touching hprev hr hle htouch
  have hremove : (m.remove r.1).entries = front ++ above := BTreeMap.remove_cut (v := r.2) hcut
  have hfront : ∀ t ∈ front, t.2 < r.1 := fun t ht => hsep.lt_of_append ht (List.mem_cons_self ..)
  obtain ⟨_, hlt, hrest⟩ := Intervals.separated_cons.mp (show Separated ((r.1, r.2) :: above) from hsep.of_append.2)
  have hlength : above.length ≤ (m.remove r.1).len := by
    rw [BTreeMap.len, hremove, List.length_append]
    omega
  have hstop : max item.2 r.2 = item.2 ∨ item.2 ≤ max item.2 r.2 ∧ ∀ t ∈ above, max item.2 r.2 < t.1 := by
    by_cases hinside : r.2 ≤ item.2
    · exact .inl (max_eq_left hinside)
    · refine .inr ⟨le_max_left _ _, fun t ht => ?_⟩
      have := hlt t ht
      omega
  obtain ⟨kept, stop, hkept, hrange, hcover⟩ :=
    @absorb_eq item _ r.1 _ _ _ _ hlength hremove
      (fun t ht => (hsep.ordered t (List.mem_append_left _ ht)).trans_lt (hfront t ht)) hrest
      (fun t ht => ⟨habove t ht, hr.trans (habove t ht).le⟩) hstop
  have hall : cover item.1 item.2 m.entries = front ++ (r.1, stop) :: kept := by
    rw [hcut, Intervals.cover_append (fun t ht => (hfront t ht).trans_le hr), show r = (r.1, r.2) from rfl,
      Intervals.cover_touching htouch (hr.trans hle), min_eq_right hr, hcover]
  refine ⟨kept, (r.1, stop), ?_, ?_, hall, .inr ?_⟩
  · rw [taken, hmerged]
    exact hkept
  · rw [taken, hmerged]
    exact hrange
  · have hkeptLength := Intervals.length_cover_le r.1 (max item.2 r.2) above
    rw [hcover, List.length_cons] at hkeptLength
    rw [hall, hcut, List.length_append, List.length_append, List.length_cons, List.length_cons]
    omega

end Taken

/-- The range is merged with those that touch it, and goes between the others. -/
theorem taken_eq (m : BTreeMap Nat Nat) (hle : item.1 ≤ item.2) (hm : Separated m.entries) :
    ∃ below kept range, Merging item m below kept range := by
  obtain ⟨front, above, hcut, hfront, habove⟩ : ∃ front above, m.entries = front ++ above ∧
      (∀ r ∈ front, r.1 ≤ item.1) ∧ ∀ r ∈ above, item.1 < r.1 := by
    refine ⟨_, _, m.cut_at (item.1 + 1), ?_, ?_⟩
    · intro r hr
      have := (List.mem_filter.mp hr).2
      simp only [decide_eq_true_eq] at this
      omega
    · intro r hr
      have := (List.mem_filter.mp hr).2
      simp only [decide_eq_true_eq] at this
      omega
  have hsep := hm
  rw [hcut] at hsep
  have hprev : prevTo item.1 m = front.getLast? := by rw [prevTo, BTreeMap.rangeTo_cut hcut hfront habove]
  rcases List.eq_nil_or_concat front with rfl | ⟨before, r, hconcat⟩
  · have hmerged : merged item m = (m, item) := by
      rw [merged, hprev]
      rfl
    exact ⟨[], taken_apart hcut hsep hmerged (fun r hr => by cases hr) habove⟩
  rw [List.concat_eq_append] at hconcat
  have hr : r.1 ≤ item.1 := hfront r (by rw [hconcat]; simp)
  rw [hconcat, List.getLast?_concat] at hprev
  by_cases htouch : item.1 ≤ r.2
  · rw [hconcat, List.append_assoc, List.singleton_append] at hcut hsep
    exact ⟨before, taken_touching hcut hsep hprev hr hle htouch habove⟩
  · refine ⟨front, taken_apart hcut hsep (merged_apart hprev hle (not_le.mp htouch)) ?_ habove⟩
    intro t ht
    rw [hconcat] at ht hsep
    rcases List.mem_append.mp ht with ht | ht
    · have hlt := hsep.of_append.1.lt_of_append ht (List.mem_singleton.mpr rfl)
      omega
    · rw [List.mem_singleton.mp ht]
      omega

/-- The map holds the merge of intervals, or what is left of it when it is full. -/
theorem btree_insert_eq (set : BTreeRangeSet) (hle : item.1 ≤ item.2) (hset : Separated set.inner.entries)
    (hfits : set.inner.len ≤ set.capacity) :
    (set.insert item).inner.entries = coverWithin set.capacity item set.inner.entries := by
  obtain ⟨below, kept, range, hkept, hrange, hcover, hstart⟩ := taken_eq set.inner hle hset
  have hstarts := (hset.cover hle).starts
  rw [hcover, List.pairwise_append, List.pairwise_cons] at hstarts
  have hbelow : ∀ r ∈ below, r.1 < range.1 := fun r hr => hstarts.2.2 r hr _ (List.mem_cons_self ..)
  have habove : ∀ r ∈ kept, range.1 < r.1 := hstarts.2.1.1
  rw [coverWithin, hcover]
  rw [hcover] at hstart
  show (BTreeMap.insert (taken item _).2.1 (taken item _).2.2 (if _ then _ else _)).entries = _
  rw [hrange]
  have hlen : (taken item set.inner).1.len = below.length + kept.length := by
    rw [BTreeMap.len, hkept, List.length_append]
  have htotal : (below ++ range :: kept).length = below.length + kept.length + 1 := by
    rw [List.length_append, List.length_cons]
    omega
  rw [hlen, htotal]
  by_cases hfull : below.length + kept.length ≥ set.capacity
  · rw [if_pos hfull, if_neg (by omega)]
    have hitem : range.1 = item.1 := by
      rcases hstart with h | h
      · exact h
      · rw [htotal] at h
        rw [BTreeMap.len] at hfits
        omega
    cases below with
    | nil =>
      rw [List.nil_append, evict, if_pos hitem]
      have hnone : ∀ x ∈ ([] : List Range), x.1 < range.1 := fun _ h => absurd h List.not_mem_nil
      refine BTreeMap.insert_cut range.2 ?_ hnone (fun r hr => habove r (List.mem_of_mem_tail hr))
      show List.tail _ = _
      rw [hkept]
      rfl
    | cons r below =>
      have hr : r.1 < range.1 := hbelow r (List.mem_cons_self ..)
      rw [List.cons_append, evict, if_neg (by omega)]
      refine BTreeMap.insert_cut range.2 ?_ (fun t ht => hbelow t (List.mem_cons_of_mem _ ht)) habove
      show List.tail _ = _
      rw [hkept]
      rfl
  · rw [if_neg hfull, if_pos (by omega)]
    exact BTreeMap.insert_cut range.2 hkept hbelow habove

end Map

/-! ### What an insertion keeps -/

theorem evict_sublist (a : Nat) (l : List Range) : (evict a l).Sublist l := by
  cases l with
  | nil => exact .slnil
  | cons r rest =>
    rw [evict]
    split
    · exact (List.tail_sublist rest).cons_cons r
    · exact List.sublist_cons_self r rest

theorem length_evict {a : Nat} {l : List Range} (h : 2 ≤ l.length) : (evict a l).length = l.length - 1 := by
  cases l with
  | nil => rfl
  | cons r rest =>
    rw [List.length_cons] at h
    rw [evict]
    split
    · rw [List.length_cons, List.length_tail, List.length_cons]
      omega
    · rw [List.length_cons]
      omega

section Within
variable {capacity : Nat} {item : Range} {l : List Range}

theorem coverWithin_sublist : (coverWithin capacity item l).Sublist (cover item.1 item.2 l) := by
  rw [coverWithin]
  split
  · exact List.Sublist.refl _
  · exact evict_sublist _ _

theorem separated_coverWithin (hle : item.1 ≤ item.2) (hl : Separated l) : Separated (coverWithin capacity item l) :=
  (hl.cover hle).sublist coverWithin_sublist

theorem length_coverWithin (hcapacity : 1 ≤ capacity) (hl : l.length ≤ capacity) :
    (coverWithin capacity item l).length ≤ capacity := by
  rw [coverWithin]
  split
  · assumption
  · have := Intervals.length_cover_le item.1 item.2 l
    rw [length_evict (by omega)]
    omega

end Within

/-! ### Both forms -/

namespace RangeSet

/-- A set in one of its two forms. -/
structure Sound (capacity : Nat) (set : RangeSet) : Prop where
  separated : Separated set.iter
  fits : set.iter.length ≤ capacity
  capacity_eq : set.capacity = capacity
  short : ∀ inner, set = .inline inner → inner.inner.length < maxInlineCapacity

theorem sound_new (capacity : Nat) : Sound capacity (.new capacity) := by
  refine ⟨Intervals.separated_nil, Nat.zero_le _, rfl, ?_⟩
  intro inner hinner
  cases hinner
  exact (by decide : 0 < maxInlineCapacity)

variable {capacity : Nat} {set : RangeSet}

theorem iter_fixup (h : Separated set.iter) : set.fixup.iter = set.iter := by
  cases set with
  | inline set =>
    rw [fixup]
    split
    · exact BTreeMap.entries_ofList h.starts
    · rfl
  | btree set =>
    rw [fixup]
    split
    · rfl
    · rfl

theorem sound_fixup (h : Separated set.iter) (hfits : set.iter.length ≤ capacity) (hcapacity : set.capacity = capacity)
    (hshort : ∀ inner, set = .inline inner → inner.inner.length ≤ maxInlineCapacity) : Sound capacity set.fixup := by
  refine ⟨by rw [iter_fixup h]; exact h, by rw [iter_fixup h]; exact hfits, ?_, ?_⟩
  · cases set with
    | inline set =>
      rw [fixup]
      split
      · exact hcapacity
      · exact hcapacity
    | btree set =>
      rw [fixup]
      split
      · exact hcapacity
      · exact hcapacity
  · intro inner hinner
    cases set with
    | inline set =>
      rw [fixup] at hinner
      split at hinner
      · cases hinner
      · rename_i hlength
        cases hinner
        have := hshort _ rfl
        omega
    | btree set =>
      rw [fixup] at hinner
      split at hinner
      · rename_i hlength
        cases hinner
        exact lt_of_le_of_lt hlength (by decide)
      · cases hinner

theorem insert_eq {item : Range} (hset : Sound capacity set) (hcapacity : maxInlineCapacity ≤ capacity)
    (hle : item.1 ≤ item.2) :
    ∃ set', set.insert item = some set' ∧ set'.iter = coverWithin capacity item set.iter ∧ Sound capacity set' := by
  have hseparated : Separated (coverWithin capacity item set.iter) := separated_coverWithin hle hset.separated
  have hlength : (coverWithin capacity item set.iter).length ≤ capacity :=
    length_coverWithin ((by decide : 1 ≤ maxInlineCapacity).trans hcapacity) hset.fits
  cases set with
  | inline set =>
    have hshort : set.inner.length < maxInlineCapacity := hset.short set rfl
    have hfull : (set.inner.length == set.capacity) = false := by
      rw [show set.capacity = capacity from hset.capacity_eq]
      exact beq_false_of_ne (by omega)
    have hcover := Intervals.length_cover_le item.1 item.2 set.inner
    have hwithin : coverWithin capacity item set.inner = cover item.1 item.2 set.inner := by
      rw [coverWithin, if_pos (by omega)]
    have hinsert : set.insert item = some {set with inner := cover item.1 item.2 set.inner} := by
      rw [InlineRangeSet.insert, hfull, place_eq (show Separated set.inner from hset.separated)]
      rfl
    have hiter : RangeSet.iter (.inline {set with inner := cover item.1 item.2 set.inner}) =
        coverWithin capacity item set.inner := hwithin.symm
    refine ⟨fixup (.inline {set with inner := cover item.1 item.2 set.inner}), ?_, ?_, ?_⟩
    · rw [insert, hinsert]
      rfl
    · rw [iter_fixup (by rw [hiter]; exact hseparated)]
      exact hiter
    · apply sound_fixup
      · rw [hiter]
        exact hseparated
      · rw [hiter]
        exact hlength
      · exact hset.capacity_eq
      · intro inner hinner
        cases hinner
        show (cover item.1 item.2 set.inner).length ≤ _
        omega
  | btree set =>
    have hiter : RangeSet.iter (.btree (set.insert item)) = coverWithin capacity item set.inner.entries := by
      rw [← show set.capacity = capacity from hset.capacity_eq]
      exact btree_insert_eq set hle hset.separated (hset.fits.trans (Nat.le_of_eq hset.capacity_eq.symm))
    refine ⟨_, rfl, ?_, ?_⟩
    · rw [iter_fixup (by rw [hiter]; exact hseparated)]
      exact hiter
    · apply sound_fixup
      · rw [hiter]
        exact hseparated
      · rw [hiter]
        exact hlength
      · exact hset.capacity_eq
      · intro inner hinner
        cases hinner

end RangeSet

end Aether.Quic
