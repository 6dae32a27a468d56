import Mathlib.Data.List.Sort

/-! Idioms of Rust's collections.

A loop that keeps what a `HashSet` has not seen, by a key, gives the first element of each
key; `sort_by_key` is stable. A `?` in the body of a search ends the function, so that the
search gives up at the first element it fails on (`searchOrQuit_eq`). -/
namespace Aether.Rust

variable {α β : Type}

section FirstOfEach
variable [DecidableEq β] (key : α → β)

/-- `filter(|x| seen.insert(key(x)))`. -/
def firstOfEach : (seen : List β) → List α → List α
  | _, [] => []
  | seen, a :: rest =>
    if key a ∈ seen then firstOfEach seen rest else a :: firstOfEach (key a :: seen) rest

theorem firstOfEach_sublist (seen : List β) (xs : List α) : (firstOfEach key seen xs).Sublist xs := by
  induction xs generalizing seen with
  | nil => exact .slnil
  | cons a rest ih =>
    rw [firstOfEach]
    split
    · exact (ih seen).cons a
    · exact (ih _).cons_cons a

theorem firstOfEach_new {seen : List β} {xs : List α} {a : α} (h : a ∈ firstOfEach key seen xs) : key a ∉ seen := by
  induction xs generalizing seen with
  | nil => cases h
  | cons b rest ih =>
    rw [firstOfEach] at h
    split at h
    · exact ih h
    · rename_i hb
      rcases List.mem_cons.mp h with rfl | h
      · exact hb
      · exact fun hseen => ih h (List.mem_cons_of_mem _ hseen)

/-- No key comes twice. -/
theorem firstOfEach_pairwise (seen : List β) (xs : List α) :
    (firstOfEach key seen xs).Pairwise fun a b => key a ≠ key b := by
  induction xs generalizing seen with
  | nil => exact .nil
  | cons a rest ih =>
    rw [firstOfEach]
    split
    · exact ih seen
    · refine .cons (fun b hb heq => ?_) (ih _)
      exact firstOfEach_new key hb (heq ▸ List.mem_cons_self ..)

/-- Every key comes. -/
theorem exists_mem_firstOfEach {seen : List β} {xs : List α} {a : α} (ha : a ∈ xs) (hnew : key a ∉ seen) :
    ∃ b ∈ firstOfEach key seen xs, key b = key a := by
  induction xs generalizing seen with
  | nil => cases ha
  | cons b rest ih =>
    rw [firstOfEach]
    split
    · rename_i hb
      rcases List.mem_cons.mp ha with rfl | ha
      · exact absurd hb hnew
      · exact ih ha hnew
    · by_cases heq : key b = key a
      · exact ⟨b, List.mem_cons_self .., heq⟩
      · rcases List.mem_cons.mp ha with rfl | ha
        · exact absurd rfl heq
        · have hstill : key a ∉ key b :: seen := by
            intro hmem
            rcases List.mem_cons.mp hmem with h | h
            · exact heq h.symm
            · exact hnew h
          obtain ⟨c, hc, hkey⟩ := ih ha hstill
          exact ⟨c, List.mem_cons_of_mem _ hc, hkey⟩

/-- Of the elements with its key, the one that comes is the first. -/
theorem firstOfEach_first {r : α → α → Prop} (hrefl : ∀ a, r a a) {seen : List β} {xs : List α} (hxs : xs.Pairwise r)
    {a b : α} (ha : a ∈ firstOfEach key seen xs) (hb : b ∈ xs) (hkey : key b = key a) : r a b := by
  induction xs generalizing seen with
  | nil => cases hb
  | cons c rest ih =>
    obtain ⟨hfirst, hrest⟩ := List.pairwise_cons.mp hxs
    have hnew := firstOfEach_new key ha
    rw [firstOfEach] at ha
    split at ha
    · rename_i hc
      obtain rfl | hb := List.mem_cons.mp hb
      · rw [hkey] at hc
        exact absurd hc hnew
      · exact ih hrest ha hb
    · obtain rfl | ha := List.mem_cons.mp ha
      · obtain rfl | hb := List.mem_cons.mp hb
        · exact hrefl b
        · exact hfirst b hb
      · obtain rfl | hb := List.mem_cons.mp hb
        · exact absurd (by rw [← hkey]; exact List.mem_cons_self ..) (firstOfEach_new key ha)
        · exact ih hrest ha hb

/-- What comes later meets what was seen before. -/
theorem exists_firstOfEach_append (seen : List β) (xs ys : List α) :
    ∃ later, firstOfEach key seen (xs ++ ys) = firstOfEach key seen xs ++ firstOfEach key later ys := by
  induction xs generalizing seen with
  | nil => exact ⟨seen, rfl⟩
  | cons a rest ih =>
    rw [List.cons_append, firstOfEach, firstOfEach]
    split
    · exact ih seen
    · obtain ⟨later, hlater⟩ := ih (key a :: seen)
      exact ⟨later, congrArg (a :: ·) hlater⟩

end FirstOfEach

@[simp] theorem mem_firstOfEach_id [DecidableEq α] {xs : List α} {a : α} : a ∈ firstOfEach id [] xs ↔ a ∈ xs := by
  constructor
  · exact fun h => (firstOfEach_sublist id [] xs).mem h
  · intro h
    obtain ⟨b, hb, rfl⟩ := exists_mem_firstOfEach id h (List.not_mem_nil)
    exact hb

/-- `sort_by_key`. -/
def sortByKey (key : α → Nat) (xs : List α) : List α := xs.insertionSort fun a b => key a ≤ key b

@[simp] theorem mem_sortByKey {key : α → Nat} {xs : List α} {a : α} : a ∈ sortByKey key xs ↔ a ∈ xs :=
  (List.perm_insertionSort _ xs).mem_iff

theorem pairwise_sortByKey (key : α → Nat) (xs : List α) : (sortByKey key xs).Pairwise fun a b => key a ≤ key b := by
  have : Std.Total fun a b : α => key a ≤ key b := ⟨fun a b => Nat.le_total (key a) (key b)⟩
  have : IsTrans α fun a b => key a ≤ key b := ⟨fun _ _ _ => Nat.le_trans⟩
  exact List.pairwise_insertionSort _ xs

/-! ### A search that may give up -/

section Search
variable (read : α → Option β) (want : β → Bool)

/-- `for x in xs { let y = read(x)?; if want(y) { return Some(y); } } None`. -/
def searchOrQuit : List α → Option β
  | [] => none
  | a :: rest => (read a).bind fun b => if want b then some b else searchOrQuit rest

/-- What is searched for, wherever it stands. -/
def search (xs : List α) : Option β := (xs.filterMap read).find? want

/-- Everything in front of what is searched for. -/
def passedOver (xs : List α) : List α := xs.takeWhile fun a => !(read a).any want

/-- The search finds what is there if it can read everything in front of it, and else nothing. -/
theorem searchOrQuit_eq (xs : List α) :
    searchOrQuit read want xs =
      if (passedOver read want xs).all fun a => (read a).isSome then search read want xs else none := by
  induction xs with
  | nil => rfl
  | cons a rest ih =>
    cases hread : read a with
    | none =>
      have hpassed : passedOver read want (a :: rest) = a :: passedOver read want rest := by
        rw [passedOver, List.takeWhile_cons_of_pos (by rw [hread]; rfl), passedOver]
      rw [searchOrQuit, hread, hpassed, List.all_cons, hread]
      rfl
    | some b =>
      cases hwant : want b with
      | true =>
        have hpassed : passedOver read want (a :: rest) = [] := by
          rw [passedOver, List.takeWhile_cons_of_neg (by rw [hread]; simpa using hwant)]
        have hsearch : search read want (a :: rest) = some b := by
          rw [search, List.filterMap_cons_some hread, List.find?_cons_of_pos hwant]
        rw [searchOrQuit, hread, hpassed, hsearch, Option.bind_some, if_pos hwant]
        rfl
      | false =>
        have hpassed : passedOver read want (a :: rest) = a :: passedOver read want rest := by
          rw [passedOver, List.takeWhile_cons_of_pos (by rw [hread]; simpa using hwant), passedOver]
        have hsearch : search read want (a :: rest) = search read want rest := by
          rw [search, List.filterMap_cons_some hread, List.find?_cons_of_neg (by simp [hwant]), search]
        rw [searchOrQuit, hread, Option.bind_some, hwant, if_neg Bool.false_ne_true, ih, hsearch, hpassed, List.all_cons,
          hread, Option.isSome_some, Bool.true_and]

theorem searchOrQuit_eq_some_iff {xs : List α} {b : β} (h : search read want xs = some b) :
    searchOrQuit read want xs = some b ↔ ∀ a ∈ passedOver read want xs, (read a).isSome = true := by
  rw [searchOrQuit_eq, h, ← List.all_eq_true]
  split
  · rename_i hall
    exact iff_of_true rfl hall
  · rename_i hall
    exact iff_of_false nofun hall

end Search

end Aether.Rust
