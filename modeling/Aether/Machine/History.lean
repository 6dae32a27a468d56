import Aether.Machine.Run

/-! Histories: conditions on what happened, given what had happened before.

A history is a list that grows at its end. `Always p` says that every entry meets `p` of the
entries before it; it is extended one entry at a time. A condition along a run is one on the
history of its actions (`along_iff_always`). -/
namespace Aether.Machine

variable {α : Type} {p : List α → α → Prop} {log : List α} {a : α}

/-- Every entry meets a condition on what came before it. -/
def Always (p : List α → α → Prop) (log : List α) : Prop :=
  ∀ before act after, log = before ++ act :: after → p before act

theorem Always.nil : Always p [] :=
    fun _ _ _ h => absurd h.symm (List.append_ne_nil_of_right_ne_nil _ (List.cons_ne_nil _ _))

theorem Always.snoc (h : Always p log) (hp : p log a) : Always p (log ++ [a]) := by
  intro before act after heq
  rcases List.eq_nil_or_concat after with rfl | ⟨init, last, rfl⟩
  · obtain ⟨rfl, hsame⟩ := List.append_inj' heq rfl
    cases hsame
    exact hp
  · rw [List.concat_eq_append, ← List.cons_append, ← List.append_assoc] at heq
    exact h before act init (List.append_inj' heq rfl).1

theorem always_snoc : Always p (log ++ [a]) ↔ Always p log ∧ p log a := by
  refine ⟨fun h => ⟨fun before act after heq => ?_, h log a [] rfl⟩, fun h => h.1.snoc h.2⟩
  exact h before act (after ++ [a]) (by rw [heq, List.append_assoc, List.cons_append])

theorem always_congr {q : List α → α → Prop} (h : ∀ before act, p before act ↔ q before act) :
    Always p log ↔ Always q log := by
  have hpq : p = q := funext fun before => funext fun act => propext (h before act)
  rw [hpq]

theorem always_cons : Always p (a :: log) ↔ p [] a ∧ Always (fun before => p (a :: before)) log := by
  constructor
  · intro h
    refine ⟨h [] a log rfl, fun before act after heq => h (a :: before) act after ?_⟩
    rw [heq, List.cons_append]
  · rintro ⟨hfirst, hrest⟩ before act after heq
    cases before with
    | nil =>
      obtain ⟨rfl, -⟩ := List.cons.inj heq
      exact hfirst
    | cons b before =>
      obtain ⟨rfl, htail⟩ := List.cons.inj heq
      exact hrest before act after htail

/-- A condition is met along a run exactly if every action meets it after those before. -/
theorem along_iff_always {σ : Type} (next : α → σ → σ) (ok : α → σ → Prop) (s : σ) (as : List α) :
    Along next ok s as ↔ Always (fun before act => ok act (run next s before)) as := by
  induction as generalizing s with
  | nil => exact iff_of_true trivial .nil
  | cons a rest ih =>
    rw [always_cons, Along, ih]
    rfl

end Aether.Machine
