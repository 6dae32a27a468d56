import Mathlib.Data.List.Sort

/-! `sortedWith`, and the first match in a sorted list.

The sort is stable, so what a search finds first can be said of the list as it was before
the sort: an element that matches, with only worse matches before it and none better
after it. -/
namespace Aether.Kotlin

variable {α : Type} {r : α → α → Prop} {m : α → Bool}

/-- `sortedWith`: `r a b` when `a` compares less or equal to `b`. -/
def sortedWith (r : α → α → Prop) [DecidableRel r] (l : List α) : List α := l.insertionSort r

/-- Of the matches in the list, `a` is the best, and the earliest of the best. -/
def Chosen (r : α → α → Prop) (m : α → Bool) (l : List α) (a : α) : Prop :=
  ∃ before after, l = before ++ a :: after ∧ m a = true ∧ (∀ b ∈ before, m b = true → ¬ r b a) ∧
    ∀ b ∈ after, m b = true → r a b

theorem not_chosen_nil (a : α) : ¬ Chosen r m [] a := by
  intro h
  obtain ⟨before, after, heq, -⟩ := h
  exact List.append_ne_nil_of_right_ne_nil before (List.cons_ne_nil a after) heq.symm

/-- What is chosen once one more element stands in front. -/
theorem chosen_cons {x a : α} {l : List α} :
    Chosen r m (x :: l) a ↔
      (x = a ∧ m x = true ∧ ∀ b ∈ l, m b = true → r x b) ∨ (Chosen r m l a ∧ (m x = true → ¬ r x a)) := by
  constructor
  · intro h
    obtain ⟨before, after, heq, hm, hbefore, hafter⟩ := h
    cases before with
    | nil =>
      obtain ⟨rfl, rfl⟩ := List.cons.inj heq
      exact .inl ⟨rfl, hm, hafter⟩
    | cons y before =>
      obtain ⟨rfl, rfl⟩ := List.cons.inj heq
      refine .inr ⟨⟨before, after, rfl, hm, ?_, hafter⟩, hbefore x (List.mem_cons_self ..)⟩
      exact fun b hb => hbefore b (List.mem_cons_of_mem _ hb)
  · intro h
    rcases h with ⟨rfl, hm, hafter⟩ | ⟨⟨before, after, rfl, hm, hbefore, hafter⟩, hx⟩
    · exact ⟨[], l, rfl, hm, fun b hb => absurd hb List.not_mem_nil, hafter⟩
    · refine ⟨x :: before, after, rfl, hm, ?_, hafter⟩
      intro b hb
      rcases List.mem_cons.mp hb with rfl | hb
      · exact hx
      · exact hbefore b hb

section Search
variable [DecidableRel r]

/-- An element goes in front of the matches that are not better. -/
theorem find?_orderedInsert [IsTrans α r] (x : α) {l : List α} (hl : l.Pairwise r) :
    (l.orderedInsert r x).find? m =
      if m x then (match l.find? m with
        | some b => if r x b then some x else some b
        | none => some x)
      else l.find? m := by
  induction l with
  | nil => cases hx : m x <;> simp [hx]
  | cons c l ih =>
    obtain ⟨hc, hl⟩ := List.pairwise_cons.mp hl
    rw [List.orderedInsert_cons]
    by_cases hxc : r x c
    · rw [if_pos hxc]
      cases hx : m x with
      | false => rw [List.find?_cons_of_neg (by simp [hx]), if_neg (by simp)]
      | true =>
        rw [List.find?_cons_of_pos hx, if_pos rfl]
        cases hfind : (c :: l).find? m with
        | none => rfl
        | some b =>
          -- what the list finds stands at or after the place of the new element
          have hb : r x b := by
            rcases List.mem_cons.mp (List.mem_of_find?_eq_some hfind) with rfl | hb
            · exact hxc
            · exact IsTrans.trans x c b hxc (hc b hb)
          show some x = if r x b then some x else some b
          rw [if_pos hb]
    · rw [if_neg hxc]
      cases hmc : m c with
      | true => simp [List.find?_cons_of_pos hmc, hxc]
      | false =>
        have hskip : ∀ rest, (c :: rest).find? m = rest.find? m := fun rest =>
          List.find?_cons_of_neg (by simp [hmc])
        rw [hskip, hskip, ih hl]

/-- The search after the sort finds what is chosen before it. -/
theorem find?_sortedWith_iff [Std.Total r] [IsTrans α r] {l : List α} {a : α} :
    (sortedWith r l).find? m = some a ↔ Chosen r m l a := by
  induction l generalizing a with
  | nil => exact iff_of_false (by simp [sortedWith]) (not_chosen_nil a)
  | cons x l ih =>
    have hsorted : (sortedWith r l).Pairwise r := List.pairwise_insertionSort r l
    have hnone : (sortedWith r l).find? m = none ↔ ∀ b ∈ l, ¬ m b = true := by
      rw [List.find?_eq_none, sortedWith]
      exact forall_congr' fun b => by rw [List.mem_insertionSort]
    have hstep : sortedWith r (x :: l) = (sortedWith r l).orderedInsert r x := rfl
    rw [hstep, find?_orderedInsert x hsorted, chosen_cons]
    cases hx : m x with
    | false => simp [ih]
    | true =>
      rw [if_pos rfl]
      cases hfind : (sortedWith r l).find? m with
      | none =>
        have hno := hnone.mp hfind
        have hnot : ¬ Chosen r m l a := fun h => by rw [← ih, hfind] at h; cases h
        simp only [Option.some.injEq, hnot, false_and, or_false, true_and]
        exact ⟨fun h => ⟨h, fun b hb hm => absurd hm (hno b hb)⟩, And.left⟩
      | some b =>
        have hb : Chosen r m l b := ih.mp hfind
        have huniq : ∀ c, Chosen r m l c ↔ b = c := by
          intro c
          rw [← ih, hfind, Option.some.injEq]
        show (if r x b then some x else some b) = some a ↔ _
        have hbest : (∀ c ∈ l, m c = true → r x c) ↔ r x b := by
          obtain ⟨before, after, rfl, hmb, hbefore, hafter⟩ := hb
          constructor
          · exact fun h => h b (by simp) hmb
          · intro hxb c hc hmc
            rcases List.mem_append.mp hc with hc | hc
            · -- an earlier match is worse than the chosen one
              have hbc : r b c := (Std.Total.total b c).resolve_right (hbefore c hc hmc)
              exact IsTrans.trans x b c hxb hbc
            · rcases List.mem_cons.mp hc with rfl | hc
              · exact hxb
              · exact IsTrans.trans x b c hxb (hafter c hc hmc)
        rw [hbest, huniq a]
        by_cases hxb : r x b
        · rw [if_pos hxb, Option.some.injEq]
          constructor
          · exact fun h => .inl ⟨h, rfl, hxb⟩
          · intro h
            rcases h with ⟨h, -⟩ | ⟨rfl, hno⟩
            · exact h
            · exact absurd hxb (hno rfl)
        · rw [if_neg hxb, Option.some.injEq]
          constructor
          · rintro rfl
            exact .inr ⟨rfl, fun _ => hxb⟩
          · intro h
            rcases h with ⟨-, -, h⟩ | ⟨h, -⟩
            · exact absurd h hxb
            · exact h

/-- Nothing is found exactly when nothing matches. -/
theorem find?_sortedWith_none {l : List α} : (sortedWith r l).find? m = none ↔ ∀ b ∈ l, m b = false := by
  rw [List.find?_eq_none, sortedWith]
  apply forall_congr'
  intro b
  rw [List.mem_insertionSort, Bool.not_eq_true]

end Search

end Aether.Kotlin
