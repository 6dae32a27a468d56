/-! Steps that may fail.

A step that fails ends what was to follow it, so that what gives a value had one at each step. -/
namespace Aether.Machine
variable {ε α β : Type}

theorem ok_bind (a : α) (f : α → Except ε β) : ((.ok a : Except ε α) >>= f) = f a := rfl

/-- A value at the end had one at the first step. -/
theorem ok_of_bind {x : Except ε α} {f : α → Except ε β} {b : β} (h : (x >>= f) = .ok b) :
    ∃ a, x = .ok a ∧ f a = .ok b := by
  cases x with
  | error e => cases h
  | ok a => exact ⟨a, rfl, h⟩

/-- A computation that does not end with the fault, and what it gives when it does not fail. -/
structure Gives (fault : ε) (ok : α → Prop) (x : Except ε α) : Prop where
  safe : x ≠ .error fault
  of_ok : ∀ a, x = .ok a → ok a

section Gives
variable {fault : ε} {ok : α → Prop} {mid : β → Prop}

theorem gives_ok {a : α} (h : ok a) : Gives fault ok (.ok a) :=
  ⟨fun hc => (by cases hc), fun _ ha => Except.ok.inj ha ▸ h⟩

theorem gives_error {e : ε} (h : e ≠ fault) : Gives fault ok (.error e) :=
  ⟨fun hc => h (Except.error.inj hc), fun _ ha => (by cases ha)⟩

/-- A fault of neither part is none of the whole. -/
theorem Gives.bind {x : Except ε β} {f : β → Except ε α} (hx : Gives fault mid x)
    (hf : ∀ b, mid b → Gives fault ok (f b)) : Gives fault ok (x.bind f) := by
  cases x with
  | error e => exact gives_error (fun he => hx.safe (congrArg _ he))
  | ok b => exact hf b (hx.of_ok b rfl)

theorem Gives.map {x : Except ε β} {f : β → α} (hx : Gives fault mid x) (hf : ∀ b, mid b → ok (f b)) :
    Gives fault ok (x.map f) := by
  cases x with
  | error e => exact gives_error (fun he => hx.safe (congrArg _ he))
  | ok b => exact gives_ok (hf b (hx.of_ok b rfl))

end Gives
end Aether.Machine
