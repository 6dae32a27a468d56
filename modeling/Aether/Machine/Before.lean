import Mathlib

/-! Elements of a list by what stands before them.

`filterBefore` keeps the elements that a test accepts together with the elements in front of
them, `takeBefore` those up to the first place where a test of the elements in front fails.
Cutting where enough elements are kept is the same as taking that many of them. -/
namespace Aether.Machine

variable {α : Type}

/-- The elements that `keep` accepts behind what stands in front of them. -/
def filterBefore (keep : List α → α → Bool) (front : List α) : List α → List α
  | [] => []
  | x :: xs =>
    if keep front x then x :: filterBefore keep (front ++ [x]) xs else filterBefore keep (front ++ [x]) xs

/-- The elements up to the first that `go` fails in front of. -/
def takeBefore (go : List α → Bool) (front : List α) : List α → List α
  | [] => []
  | x :: xs => if go front then x :: takeBefore go (front ++ [x]) xs else []

variable {keep : List α → α → Bool} {go : List α → Bool}

theorem filterBefore_append (front xs ys : List α) :
    filterBefore keep front (xs ++ ys) = filterBefore keep front xs ++ filterBefore keep (front ++ xs) ys := by
  induction xs generalizing front with
  | nil => simp [filterBefore]
  | cons x xs ih =>
    rw [List.cons_append, filterBefore, filterBefore, ih, List.append_assoc, List.singleton_append]
    split <;> rfl

theorem takeBefore_front (front xs : List α) : takeBefore go front xs <+: xs := by
  induction xs generalizing front with
  | nil => exact List.prefix_rfl
  | cons x xs ih =>
    rw [takeBefore]
    split
    · exact List.cons_prefix_cons.mpr ⟨rfl, ih _⟩
    · exact List.nil_prefix

/-- A further test of the element alone. -/
theorem filterBefore_and (test : α → Bool) (front xs : List α) :
    filterBefore (fun front x => keep front x && test x) front xs = (filterBefore keep front xs).filter test := by
  induction xs generalizing front with
  | nil => rfl
  | cons x xs ih =>
    rw [filterBefore, filterBefore, ih]
    cases hkeep : keep front x <;> cases htest : test x <;> simp [htest]

theorem filterBefore_cons (p : α) (front xs : List α) :
    filterBefore keep (p :: front) xs = filterBefore (fun front x => keep (p :: front) x) front xs := by
  induction xs generalizing front with
  | nil => rfl
  | cons x xs ih => rw [filterBefore, filterBefore, List.cons_append, ih]

theorem takeBefore_cons (p : α) (front xs : List α) :
    takeBefore go (p :: front) xs = takeBefore (fun front => go (p :: front)) front xs := by
  induction xs generalizing front with
  | nil => rfl
  | cons x xs ih => rw [takeBefore, takeBefore, List.cons_append, ih]

theorem takeBefore_takeBefore (stay : List α → Bool) (front xs : List α) :
    takeBefore stay front (takeBefore go front xs) = takeBefore (fun front => go front && stay front) front xs := by
  induction xs generalizing front with
  | nil => rfl
  | cons x xs ih =>
    rw [takeBefore, takeBefore]
    cases hgo : go front with
    | false => rfl
    | true =>
      rw [if_pos rfl, takeBefore, ih]
      rfl

/-- Up to where a number of elements is kept, that many are. -/
theorem filterBefore_takeBefore_count (n : Nat) (front xs : List α) :
    filterBefore keep front (takeBefore (fun front => (filterBefore keep [] front).length < n) front xs) =
      (filterBefore keep front xs).take (n - (filterBefore keep [] front).length) := by
  induction xs generalizing front with
  | nil => simp [takeBefore, filterBefore]
  | cons x xs ih =>
    have hfront : filterBefore keep [] (front ++ [x]) =
        filterBefore keep [] front ++ if keep front x then [x] else [] := by
      rw [filterBefore_append, List.nil_append]
      rfl
    rw [takeBefore]
    by_cases hroom : (filterBefore keep [] front).length < n
    case neg =>
      rw [if_neg (by simpa using hroom), Nat.sub_eq_zero_of_le (Nat.not_lt.mp hroom), List.take_zero]
      rfl
    rw [if_pos (by simpa using hroom), filterBefore, filterBefore, ih, hfront]
    cases hkeep : keep front x with
    | false => simp
    | true =>
      obtain ⟨k, hk⟩ : ∃ k, n - (filterBefore keep [] front).length = k + 1 :=
        ⟨n - (filterBefore keep [] front).length - 1, by omega⟩
      have hless : n - ((filterBefore keep [] front).length + 1) = k := by omega
      simp [hk, hless]

/-- Where the test of what stands in front cannot come back, both tests are one. -/
theorem filterBefore_takeBefore (hgo : ∀ front more, go (front ++ more) = true → go front = true) (front xs : List α) :
    filterBefore keep front (takeBefore go front xs) =
      filterBefore (fun front x => go front && keep front x) front xs := by
  induction xs generalizing front with
  | nil => rfl
  | cons x xs ih =>
    rw [takeBefore, filterBefore]
    cases hhere : go front with
    | true =>
      rw [if_pos rfl, filterBefore, ih]
      rfl
    | false =>
      have hlater : filterBefore (fun front x => go front && keep front x) (front ++ [x]) xs = [] := by
        rw [← ih]
        cases xs with
        | nil => rfl
        | cons y ys =>
          have hnot : ¬ go (front ++ [x]) = true := fun h => by simp [hgo front [x] h] at hhere
          rw [takeBefore, if_neg hnot]
          rfl
      rw [hlater]
      simp [filterBefore]

theorem filterBefore_eq_nil {front xs : List α} :
    filterBefore keep front xs = [] ↔ ∀ later x older, xs = later ++ x :: older → keep (front ++ later) x = false := by
  induction xs generalizing front with
  | nil => simp [filterBefore]
  | cons y ys ih =>
    rw [filterBefore]
    constructor
    · intro h later x older hsplit
      split at h
      case isTrue => cases h
      case isFalse hkeep =>
        cases later with
        | nil =>
          obtain ⟨rfl, -⟩ := List.cons.inj hsplit
          rw [List.append_nil]
          exact Bool.of_not_eq_true hkeep
        | cons z later =>
          obtain ⟨rfl, rfl⟩ := List.cons.inj hsplit
          have hlater := ih.mp h later x older rfl
          rwa [List.append_assoc] at hlater
    · intro h
      have hkeep : keep front y = false := by
        have hfirst := h [] y ys rfl
        rwa [List.append_nil] at hfirst
      rw [hkeep, if_neg (by decide)]
      apply ih.mpr
      intro later x older hsplit
      rw [List.append_assoc]
      exact h (y :: later) x older (by rw [hsplit]; rfl)

/-- The first element that is kept. -/
theorem head?_filterBefore {front xs : List α} {x : α} :
    (filterBefore keep front xs).head? = some x ↔
      ∃ later older, xs = later ++ x :: older ∧ keep (front ++ later) x = true ∧
        ∀ newer y between, later = newer ++ y :: between → keep (front ++ newer) y = false := by
  induction xs generalizing front with
  | nil => simp [filterBefore]
  | cons z zs ih =>
    rw [filterBefore]
    by_cases hkeep : keep front z = true
    · rw [if_pos hkeep, List.head?_cons, Option.some.injEq]
      constructor
      · intro h
        obtain rfl := h
        refine ⟨[], zs, rfl, by rwa [List.append_nil], ?_⟩
        intro newer y between hsplit
        simp at hsplit
      · intro h
        obtain ⟨later, older, hsplit, -, hfirst⟩ := h
        cases later with
        | nil => exact (List.cons.inj hsplit).1
        | cons w later =>
          obtain ⟨rfl, -⟩ := List.cons.inj hsplit
          have hnot := hfirst [] z later rfl
          rw [List.append_nil, hkeep] at hnot
          cases hnot
    · rw [if_neg hkeep, ih]
      constructor
      · intro h
        obtain ⟨later, older, rfl, hlast, hfirst⟩ := h
        refine ⟨z :: later, older, rfl, by rwa [List.append_assoc] at hlast, ?_⟩
        intro newer y between hsplit
        cases newer with
        | nil =>
          obtain ⟨rfl, -⟩ := List.cons.inj hsplit
          rw [List.append_nil]
          exact Bool.of_not_eq_true hkeep
        | cons w newer =>
          obtain ⟨rfl, hrest⟩ := List.cons.inj hsplit
          have hnot := hfirst newer y between hrest
          rwa [List.append_assoc] at hnot
      · intro h
        obtain ⟨later, older, hsplit, hlast, hfirst⟩ := h
        cases later with
        | nil =>
          obtain ⟨rfl, -⟩ := List.cons.inj hsplit
          rw [List.append_nil] at hlast
          exact absurd hlast hkeep
        | cons w later =>
          obtain ⟨rfl, rfl⟩ := List.cons.inj hsplit
          refine ⟨later, older, rfl, by rwa [List.append_assoc], ?_⟩
          intro newer y between hrest
          rw [List.append_assoc]
          exact hfirst (z :: newer) y between (by rw [hrest]; rfl)

end Aether.Machine
