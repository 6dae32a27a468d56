import Mathlib

/-! Readers of a part of a message.

A reader that is given less of a message may find nothing where it found a value, but never
another value: its result is `Below` the other one. The rules take a reader apart. -/
namespace Aether.Decoding

variable {α β γ : Type}

/-- Nothing, or the same value. -/
def Below (x y : Option α) : Prop := ∀ v, x = some v → y = some v

theorem below_iff {x y : Option α} : Below x y ↔ x = none ∨ x = y := by
  cases x with
  | none => simp [Below]
  | some v => simp [Below, eq_comm]

theorem below_rfl {x : Option α} : Below x x := fun _ h => h

theorem below_none {y : Option α} : Below none y := fun _ h => nomatch h

/-- A part of the reader may stop early; otherwise what it reads is related. -/
theorem below_bind {R : β → γ → Prop} {x : Option β} {y : Option γ} {f : β → Option α} {g : γ → Option α}
    (h : ∀ u, x = some u → ∃ w, y = some w ∧ R u w) (hfg : ∀ u w, R u w → Below (f u) (g w)) :
    Below (x.bind f) (y.bind g) := by
  intro v hv
  obtain ⟨u, hu, hf⟩ := Option.bind_eq_some_iff.mp hv
  obtain ⟨w, hw, hR⟩ := h u hu
  exact Option.bind_eq_some_iff.mpr ⟨w, hw, hfg u w hR v hf⟩

theorem Below.bind {x y : Option β} {f g : β → Option α} (h : Below x y) (hfg : ∀ u, Below (f u) (g u)) :
    Below (x.bind f) (y.bind g) := by
  apply below_bind (R := (· = ·))
  · intro u hu
    exact ⟨u, h u hu, rfl⟩
  · intro u w huw
    rw [← huw]
    exact hfg u

theorem below_getElem? {xs ys : List α} (h : xs <+: ys) (i : Nat) : Below xs[i]? ys[i]? := by
  intro v hv
  obtain ⟨rest, rfl⟩ := h
  obtain ⟨hi, -⟩ := List.getElem?_eq_some_iff.mp hv
  rw [List.getElem?_append_left hi, hv]

end Aether.Decoding
