import Mathlib

/-! Runs of a machine that takes one action at a time.

A machine is its `next` function: an action and a state give the next state, and
an action that is not enabled leaves the state as it is. A run is the list of its
actions; an interleaving of several threads is one such list. `visited` lists the
states a run goes through and `Along` says that every action of a run meets a
condition in the state it is taken in.

Three rules turn facts about one step into facts about runs: an invariant that
every step keeps (`run_invariant`), a property that the steps meeting a condition
keep (`visited_of_along`), and the exact form of the latter: when a step keeps
the property if and only if it meets the condition, a run keeps it in every state
visited if and only if all its steps do (`visited_iff_along`). Where the property
alone does not carry through the steps, a stronger invariant may carry it
(`visited_iff_along_of_strong`). -/
namespace Aether.Machine

variable {α σ : Type} (next : α → σ → σ)

/-- The state after a run. -/
def run (s : σ) : List α → σ
  | [] => s
  | a :: rest => run (next a s) rest

/-- Every state of a run, the first included. -/
def visited (s : σ) : List α → List σ
  | [] => [s]
  | a :: rest => s :: visited (next a s) rest

/-- Every action of the run meets `ok` in the state it is taken in. -/
def Along (ok : α → σ → Prop) (s : σ) : List α → Prop
  | [] => True
  | a :: rest => ok a s ∧ Along ok (next a s) rest

instance Along.decidable (ok : α → σ → Prop) [∀ a s, Decidable (ok a s)] :
    (s : σ) → (as : List α) → Decidable (Along next ok s as)
  | _, [] => inferInstanceAs (Decidable True)
  | s, a :: rest =>
    have := Along.decidable ok (next a s) rest
    inferInstanceAs (Decidable (ok a s ∧ Along next ok (next a s) rest))

theorem run_append (s : σ) (as bs : List α) : run next s (as ++ bs) = run next (run next s as) bs := by
  induction as generalizing s with
  | nil => rfl
  | cons a rest ih => exact ih _

theorem first_visited (s : σ) (as : List α) : s ∈ visited next s as := by
  cases as <;> exact List.mem_cons_self ..

theorem run_visited (s : σ) (as : List α) : run next s as ∈ visited next s as := by
  induction as generalizing s with
  | nil => exact List.mem_cons_self ..
  | cons a rest ih => exact List.mem_cons_of_mem _ (ih _)

/-! ### Rules -/

variable {next}

/-- An invariant that every step keeps holds in every state visited. -/
theorem visited_invariant {inv : σ → Prop} (step : ∀ a s, inv s → inv (next a s)) {s : σ} (hs : inv s)
    (as : List α) : ∀ t ∈ visited next s as, inv t := by
  induction as generalizing s with
  | nil =>
    intro t ht
    rw [List.mem_singleton.mp ht]
    exact hs
  | cons a rest ih =>
    intro t ht
    rcases List.mem_cons.mp ht with rfl | ht
    · exact hs
    · exact ih (step a s hs) t ht

theorem run_invariant {inv : σ → Prop} (step : ∀ a s, inv s → inv (next a s)) {s : σ} (hs : inv s)
    (as : List α) : inv (run next s as) :=
  visited_invariant step hs as _ (run_visited next s as)

section Guarded
variable {inv good : σ → Prop} {ok : α → σ → Prop}

/-- A property that the steps meeting a condition keep, under an invariant that
all steps keep, holds in every state of a run whose steps all meet the condition. -/
theorem visited_of_along (stepInv : ∀ a s, inv s → inv (next a s))
    (step : ∀ a s, inv s → good s → ok a s → good (next a s)) {s : σ} (hi : inv s) (hs : good s)
    (as : List α) (h : Along next ok s as) : ∀ t ∈ visited next s as, good t := by
  induction as generalizing s with
  | nil =>
    intro t ht
    rw [List.mem_singleton.mp ht]
    exact hs
  | cons a rest ih =>
    intro t ht
    rcases List.mem_cons.mp ht with rfl | ht
    · exact hs
    · exact ih (stepInv a s hi) (step a s hi hs h.1) h.2 t ht

/-- The same where the step needs no invariant. -/
theorem visited_of_along_of_step (step : ∀ a s, good s → ok a s → good (next a s)) {s : σ} (hs : good s)
    (as : List α) (h : Along next ok s as) : ∀ t ∈ visited next s as, good t := by
  have stepInv : ∀ (a : α) (s : σ), True → True := fun _ _ h => h
  exact visited_of_along stepInv (fun a s _ hs => step a s hs) trivial hs as h

/-- When a step keeps the property exactly if it meets the condition, the property
holds in every state visited exactly if every step meets the condition. -/
theorem visited_iff_along (stepInv : ∀ a s, inv s → inv (next a s))
    (step : ∀ a s, inv s → good s → (good (next a s) ↔ ok a s)) {s : σ} (hi : inv s) (hs : good s)
    (as : List α) : (∀ t ∈ visited next s as, good t) ↔ Along next ok s as := by
  refine ⟨fun h => ?_, visited_of_along stepInv (fun a s hi hs => (step a s hi hs).mpr) hi hs as⟩
  induction as generalizing s with
  | nil => trivial
  | cons a rest ih =>
    have hnext : good (next a s) := h _ (List.mem_cons_of_mem _ (first_visited next _ _))
    exact ⟨(step a s hi hs).mp hnext,
      ih (stepInv a s hi) hnext fun t ht => h t (List.mem_cons_of_mem _ ht)⟩

/-- The same where the step needs no invariant. -/
theorem visited_iff_along_of_step (step : ∀ a s, good s → (good (next a s) ↔ ok a s)) {s : σ}
    (hs : good s) (as : List α) : (∀ t ∈ visited next s as, good t) ↔ Along next ok s as := by
  have stepInv : ∀ (a : α) (s : σ), True → True := fun _ _ h => h
  exact visited_iff_along stepInv (fun a s _ h => step a s h) trivial hs as

/-- Where the steps that meet the condition keep an invariant that implies the property,
and a step that does not meet it breaks the property at once, the property holds in every
state visited exactly if every step meets the condition. -/
theorem visited_iff_along_of_strong (sound : ∀ s, inv s → good s)
    (keeps : ∀ a s, inv s → ok a s → inv (next a s)) (breaks : ∀ a s, inv s → ¬ ok a s → ¬ good (next a s)) {s : σ}
    (hs : inv s) (as : List α) : (∀ t ∈ visited next s as, good t) ↔ Along next ok s as := by
  induction as generalizing s with
  | nil =>
    refine iff_of_true (fun t ht => ?_) trivial
    rw [List.mem_singleton.mp ht]
    exact sound s hs
  | cons a rest ih =>
    constructor
    · intro h
      have hok : ok a s := by
        by_contra hnot
        exact breaks a s hs hnot (h _ (List.mem_cons_of_mem _ (first_visited next _ _)))
      exact ⟨hok, (ih (keeps a s hs hok)).mp fun t ht => h t (List.mem_cons_of_mem _ ht)⟩
    · intro h t ht
      rcases List.mem_cons.mp ht with rfl | ht
      · exact sound _ hs
      · exact (ih (keeps a s hs h.1)).mpr h.2 t ht

/-- Where the steps of a run meet a condition, they have whatever the condition implies under
an invariant that it keeps. -/
theorem along_of_along {p : α → σ → Prop} (keeps : ∀ a s, inv s → ok a s → inv (next a s))
    (implies : ∀ a s, inv s → ok a s → p a s) {s : σ} (hs : inv s) (as : List α) (h : Along next ok s as) :
    Along next p s as := by
  induction as generalizing s with
  | nil => trivial
  | cons a rest ih => exact ⟨implies a s hs h.1, ih (keeps a s hs h.1) h.2⟩

/-- Conditions that agree under an invariant are met by the same runs. -/
theorem along_iff_along {p : α → σ → Prop} (stepInv : ∀ a s, inv s → inv (next a s))
    (step : ∀ a s, inv s → (p a s ↔ ok a s)) {s : σ} (hs : inv s) (as : List α) :
    Along next p s as ↔ Along next ok s as :=
  ⟨along_of_along (fun a s hi _ => stepInv a s hi) (fun a s hi => (step a s hi).mp) hs as,
    along_of_along (fun a s hi _ => stepInv a s hi) (fun a s hi => (step a s hi).mpr) hs as⟩

end Guarded

end Aether.Machine
