import Mathlib

/-! Tables whose entries each own a slot.

A table of connections and a set of sockets are two halves of one structure: each
entry names the slot it uses, and the slots know of what kind their content is.
`Owned` says that the two agree: an entry's slot is in use and of its kind, no two
entries share one, and no slot is in use that no entry owns. Adding an entry with
a free slot and removing an entry together with its slot keep it. -/
namespace Aether.Machine
variable {κ η τ : Type} [DecidableEq κ] [DecidableEq η]

structure Owned (kind : κ → τ) (slot : κ → Option η) (used : η → Option τ) : Prop where
  inUse : ∀ {x h}, slot x = some h → used h = some (kind x)
  unshared : ∀ {x y h}, slot x = some h → slot y = some h → x = y
  owner : ∀ {h c}, used h = some c → ∃ x, slot x = some h

variable {kind : κ → τ} {slot : κ → Option η} {used : η → Option τ}

/-- A new entry takes a slot that is free. -/
theorem Owned.add (h : Owned kind slot used) {x : κ} {n : η} (hx : slot x = none) (hn : used n = none) :
    Owned kind (Function.update slot x (some n)) (Function.update used n (some (kind x))) := by
  have hfree (y : κ) : slot y ≠ some n := fun hy => by rw [h.inUse hy] at hn; cases hn
  refine ⟨?_, ?_, ?_⟩
  · intro y m hy
    by_cases hyx : y = x
    · subst hyx
      obtain rfl : n = m := by simpa using hy
      simp
    · rw [Function.update_of_ne hyx] at hy
      have hmn : m ≠ n := fun he => hfree y (he ▸ hy)
      rw [Function.update_of_ne hmn]
      exact h.inUse hy
  · intro y z m hy hz
    by_cases hyx : y = x
    · by_cases hzx : z = x
      · rw [hyx, hzx]
      · subst hyx
        obtain rfl : n = m := by simpa using hy
        rw [Function.update_of_ne hzx] at hz
        exact absurd hz (hfree z)
    · rw [Function.update_of_ne hyx] at hy
      by_cases hzx : z = x
      · subst hzx
        obtain rfl : n = m := by simpa using hz
        exact absurd hy (hfree y)
      · rw [Function.update_of_ne hzx] at hz
        exact h.unshared hy hz
  · intro m c hm
    by_cases hmn : m = n
    · exact ⟨x, by simp [hmn]⟩
    · rw [Function.update_of_ne hmn] at hm
      obtain ⟨y, hy⟩ := h.owner hm
      have hyx : y ≠ x := fun he => by rw [he, hx] at hy; cases hy
      exact ⟨y, by rw [Function.update_of_ne hyx]; exact hy⟩

/-- An entry goes together with its slot, and leaves the others as they were. -/
theorem Owned.remove (h : Owned kind slot used) {x : κ} {n : η} (hx : slot x = some n) :
    Owned kind (Function.update slot x none) (Function.update used n none) := by
  have hother {y : κ} {m : η} (hy : Function.update slot x none y = some m) :
      slot y = some m ∧ m ≠ n := by
    by_cases hyx : y = x
    · subst hyx
      simp at hy
    · rw [Function.update_of_ne hyx] at hy
      exact ⟨hy, fun he => hyx (h.unshared hy (he ▸ hx))⟩
  refine ⟨?_, ?_, ?_⟩
  · intro y m hy
    obtain ⟨hy', hmn⟩ := hother hy
    rw [Function.update_of_ne hmn]
    exact h.inUse hy'
  · intro y z m hy hz
    exact h.unshared (hother hy).1 (hother hz).1
  · intro m c hm
    by_cases hmn : m = n
    · subst hmn
      simp at hm
    · rw [Function.update_of_ne hmn] at hm
      obtain ⟨y, hy⟩ := h.owner hm
      have hyx : y ≠ x := fun he => hmn (Option.some.inj ((he ▸ hy).symm.trans hx))
      exact ⟨y, by rw [Function.update_of_ne hyx]; exact hy⟩

end Aether.Machine
