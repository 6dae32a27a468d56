/-! Jobs: computations over a state that may fail.

What a job has done until it fails stays done, as `EStateM` has it. `Ensures` says which state
a job ends in, for both endings, and its rules take a job apart. -/
namespace Aether.Machine

variable {ε σ α β : Type}

/-- What a job ends with, and the state it leaves in either case. -/
abbrev Job (ε σ α : Type) := EStateM ε σ α

/-- A call of the system has its effect; or it fails, with what it has done until then. -/
def call (fault : Option ε) (effect spoilt : σ → σ) : Job ε σ Unit := fun s =>
  match fault with
  | none => .ok () (effect s)
  | some e => .error e (spoilt s)

theorem bind_of_ok {job : Job ε σ α} {s t : σ} {a : α} (h : job s = .ok a t) (rest : α → Job ε σ β) :
    (job >>= rest) s = rest a t := by
  show EStateM.bind job rest s = _
  rw [EStateM.bind, h]

theorem bind_of_error {job : Job ε σ α} {s t : σ} {e : ε} (h : job s = .error e t) (rest : α → Job ε σ β) :
    (job >>= rest) s = .error e t := by
  show EStateM.bind job rest s = _
  rw [EStateM.bind, h]

/-- A job goes on with what its first part gives. -/
theorem bind_eq_ok {job : Job ε σ α} {rest : α → Job ε σ β} {s after : σ} {b : β} :
    (job >>= rest) s = .ok b after ↔ ∃ a between, job s = .ok a between ∧ rest a between = .ok b after := by
  show EStateM.bind job rest s = _ ↔ _
  rw [EStateM.bind]
  cases job s with
  | ok a between =>
    constructor
    · intro h
      exact ⟨a, between, rfl, h⟩
    · rintro ⟨_, _, ⟨⟩, h⟩
      exact h
  | error e between =>
    constructor
    · intro h
      cases h
    · rintro ⟨_, _, h, -⟩
      cases h

/-- A job fails in its first part or in the rest. -/
theorem bind_eq_error {job : Job ε σ α} {rest : α → Job ε σ β} {s after : σ} {e : ε} :
    (job >>= rest) s = .error e after ↔
      job s = .error e after ∨ ∃ a between, job s = .ok a between ∧ rest a between = .error e after := by
  show EStateM.bind job rest s = _ ↔ _
  rw [EStateM.bind]
  cases job s with
  | ok a between =>
    constructor
    · intro h
      exact .inr ⟨a, between, rfl, h⟩
    · rintro (h | ⟨_, _, ⟨⟩, h⟩)
      · cases h
      · exact h
  | error found between =>
    constructor
    · intro h
      cases h
      exact .inl rfl
    · rintro (h | ⟨_, _, h, -⟩)
      · cases h
        rfl
      · cases h

/-- A failed job is cleaned up after, and fails all the same. -/
def orElseClean (job : Job ε σ α) (clean : σ → σ) : Job ε σ α := fun s =>
  match job s with
  | .ok a after => .ok a after
  | .error e after => .error e (clean after)

/-- The state a job ends in: `ok` if it succeeds, `bad` if it fails. -/
structure Ensures (job : Job ε σ α) (s : σ) (ok : α → σ → Prop) (bad : σ → Prop) : Prop where
  of_ok : ∀ a after, job s = .ok a after → ok a after
  of_error : ∀ e after, job s = .error e after → bad after

variable {s : σ} {ok : α → σ → Prop} {bad : σ → Prop}

theorem Ensures.mono {job : Job ε σ α} {ok' : α → σ → Prop} {bad' : σ → Prop} (h : Ensures job s ok bad)
    (hok : ∀ a after, ok a after → ok' a after) (hbad : ∀ after, bad after → bad' after) : Ensures job s ok' bad' :=
  ⟨fun a after hjob => hok a after (h.of_ok a after hjob), fun e after hjob => hbad after (h.of_error e after hjob)⟩

theorem ensures_pure {a : α} (h : ok a s) : Ensures (pure a : Job ε σ α) s ok bad := by
  constructor
  · rintro _ _ ⟨⟩
    exact h
  · rintro _ _ ⟨⟩

/-- The rest is asked for what the whole is. -/
theorem ensures_bind {job : Job ε σ β} {rest : β → Job ε σ α}
    (h : Ensures job s (fun b after => Ensures (rest b) after ok bad) bad) : Ensures (job >>= rest) s ok bad := by
  constructor
  · intro a after hjob
    obtain ⟨b, between, hfirst, hrest⟩ := bind_eq_ok.mp hjob
    exact (h.of_ok b between hfirst).of_ok a after hrest
  · intro e after hjob
    rcases bind_eq_error.mp hjob with hfirst | ⟨b, between, hfirst, hrest⟩
    · exact h.of_error e after hfirst
    · exact (h.of_ok b between hfirst).of_error e after hrest

/-- What the first part ensures is what the rest begins from. -/
theorem Ensures.bind {job : Job ε σ β} {rest : β → Job ε σ α} {mid : β → σ → Prop} (h : Ensures job s mid bad)
    (hrest : ∀ b between, mid b between → Ensures (rest b) between ok bad) : Ensures (job >>= rest) s ok bad :=
  ensures_bind (h.mono hrest fun _ hbad => hbad)

theorem ensures_get {rest : σ → Job ε σ α} (h : Ensures (rest s) s ok bad) :
    Ensures ((get : Job ε σ σ) >>= rest) s ok bad := ⟨h.of_ok, h.of_error⟩

theorem ensures_modify {change : σ → σ} {rest : Unit → Job ε σ α} (h : Ensures (rest ()) (change s) ok bad) :
    Ensures ((modify change : Job ε σ Unit) >>= rest) s ok bad := ⟨h.of_ok, h.of_error⟩

/-- A call does what it says, or fails and leaves what it spoilt. -/
theorem ensures_call {fault : Option ε} {effect spoilt : σ → σ} {ok : Unit → σ → Prop}
    (hok : fault = none → ok () (effect s)) (hbad : fault ≠ none → bad (spoilt s)) :
    Ensures (call fault effect spoilt) s ok bad := by
  cases fault with
  | none =>
    constructor
    · rintro _ _ ⟨⟩
      exact hok rfl
    · rintro _ _ ⟨⟩
  | some e =>
    constructor
    · rintro _ _ ⟨⟩
    · rintro _ _ ⟨⟩
      exact hbad (Option.some_ne_none e)

/-- What a failure leaves is what the cleaning makes of it. -/
theorem ensures_orElseClean {job : Job ε σ α} {clean : σ → σ} (h : Ensures job s ok fun after => bad (clean after)) :
    Ensures (orElseClean job clean) s ok bad := by
  obtain ⟨hok, hbad⟩ := h
  constructor
  · intro a after hclean
    rw [orElseClean] at hclean
    cases hjob : job s with
    | ok b between =>
      rw [hjob] at hclean
      cases hclean
      exact hok a after hjob
    | error e between =>
      rw [hjob] at hclean
      cases hclean
  · intro e after hclean
    rw [orElseClean] at hclean
    cases hjob : job s with
    | ok b between =>
      rw [hjob] at hclean
      cases hclean
    | error found between =>
      rw [hjob] at hclean
      cases hclean
      exact hbad _ between hjob

end Aether.Machine
