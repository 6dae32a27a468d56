/-! Loops.

A loop goes from state to state until a turn ends it with a result. `Ends` holds of a state
from which the loop ends and of what it ends with. A loop written with fuel ends with what
it computes when every turn lowers a measure that the fuel covers. -/
namespace Aether.Machine

variable {σ ρ : Type}

/-- The loop ends from a state, with a result. -/
inductive Ends (turn : σ → σ ⊕ ρ) : σ → ρ → Prop
  | stop {s : σ} {r : ρ} (h : turn s = .inr r) : Ends turn s r
  | next {s t : σ} {r : ρ} (h : turn s = .inl t) (rest : Ends turn t r) : Ends turn s r

theorem Ends.rest {turn : σ → σ ⊕ ρ} {s t : σ} {r : ρ} (h : Ends turn s r) (hturn : turn s = .inl t) : Ends turn t r := by
  cases h with
  | stop hturn' => cases hturn.symm.trans hturn'
  | next hturn' rest =>
    rw [Sum.inl.inj (hturn.symm.trans hturn')]
    exact rest

theorem Ends.unique {turn : σ → σ ⊕ ρ} {s : σ} {r r' : ρ} (h : Ends turn s r) (h' : Ends turn s r') : r = r' := by
  induction h with
  | stop hturn =>
    cases h' with
    | stop hturn' => exact Sum.inr.inj (hturn.symm.trans hturn')
    | next hturn' rest => cases hturn.symm.trans hturn'
  | next hturn rest ih => exact ih (h'.rest hturn)

theorem ends_of_fuel {turn : σ → σ ⊕ ρ} {loop : Nat → σ → ρ} (left : σ → Nat)
    (hloop : ∀ fuel s, loop (fuel + 1) s = (turn s).elim (loop fuel) id)
    (hzero : ∀ s, left s = 0 → turn s = .inr (loop 0 s))
    (hless : ∀ s t, turn s = .inl t → left t < left s) {fuel : Nat} {s : σ} (hfuel : left s ≤ fuel) :
    Ends turn s (loop fuel s) := by
  induction fuel generalizing s with
  | zero => exact .stop (hzero s (by omega))
  | succ fuel ih =>
    rw [hloop]
    cases hturn : turn s with
    | inr r => exact .stop hturn
    | inl t =>
      have ht := hless s t hturn
      exact .next hturn (ih (by omega))

/-- A walk over the positions below `stop`: it ends from everywhere, and a turn that does not
end it goes forward and not past `stop`. -/
structure Walks (turn : Nat → Nat ⊕ ρ) (stop : Nat) (result : Nat → ρ) : Prop where
  ends : ∀ pos, Ends turn pos (result pos)
  inside : ∀ pos next, turn pos = .inl next → pos < next ∧ next ≤ stop

theorem walks_of_fuel {turn : Nat → Nat ⊕ ρ} {loop : Nat → Nat → ρ} {stop fuel : Nat} (hfuel : stop ≤ fuel)
    (hloop : ∀ fuel pos, loop (fuel + 1) pos = (turn pos).elim (loop fuel) id)
    (hstop : ∀ pos, stop ≤ pos → turn pos = .inr (loop 0 pos))
    (hinside : ∀ pos next, turn pos = .inl next → pos < next ∧ next ≤ stop) : Walks turn stop (loop fuel) := by
  refine ⟨fun pos => ?_, hinside⟩
  apply ends_of_fuel (stop - ·) hloop
  · intro pos hleft
    exact hstop pos (by omega)
  · intro pos next hnext
    have := hinside pos next hnext
    omega
  · omega

/-! ### Loops over inputs -/

section Over
variable {ι : Type} (turn : ι → σ → Option (σ ⊕ ρ)) (last : σ → ρ)

/-- A turn is nothing where the loop ends before it takes the input; then, and for want of
inputs, it ends with `last`. -/
def loopOver : σ → List ι → ρ
  | s, [] => last s
  | s, i :: rest =>
    match turn i s with
    | none => last s
    | some (.inl t) => loopOver t rest
    | some (.inr r) => r

/-- The inputs that are taken. -/
def taken : σ → List ι → List ι
  | _, [] => []
  | s, i :: rest =>
    match turn i s with
    | none => []
    | some (.inl t) => i :: taken t rest
    | some (.inr _) => [i]

/-- What holds of the inputs taken so far and the state, and what it gives when the loop ends. -/
theorem loopOver_taken {P : List ι → σ → Prop} {Q : List ι → ρ → Prop}
    (hnext : ∀ is s i t, P is s → turn i s = some (.inl t) → P (is ++ [i]) t)
    (hend : ∀ is s i r, P is s → turn i s = some (.inr r) → Q (is ++ [i]) r) (hlast : ∀ is s, P is s → Q is (last s))
    {front : List ι} {s : σ} (hs : P front s) (inputs : List ι) :
    Q (front ++ taken turn s inputs) (loopOver turn last s inputs) := by
  induction inputs generalizing front s with
  | nil =>
    rw [taken, loopOver, List.append_nil]
    exact hlast front s hs
  | cons i rest ih =>
    rw [taken, loopOver]
    cases hturn : turn i s with
    | none =>
      dsimp only
      rw [List.append_nil]
      exact hlast front s hs
    | some outcome =>
      cases outcome with
      | inl t =>
        dsimp only
        rw [List.append_cons]
        exact ih (hnext front s i t hs hturn)
      | inr r => exact hend front s i r hs hturn

end Over

end Aether.Machine
