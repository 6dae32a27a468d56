import Aether.Machine.Run

/-! When a tunnel may call itself ready.

Both MASQUE transports ask the edge for a `connect-ip` tunnel, may check that packets
come back through it, and then tell their caller that the tunnel is ready. What one of
them does is a `Journal` of the acts that matter to the caller, in order, and how the run
ended, if it did.

`Accepted` is the contract, and the lemmas say what one more act asks of it. -/
namespace Aether.Masque

inductive Outcome where
  | ok
  | error
  deriving DecidableEq

inductive Act where
  /-- The `connect-ip` request is sent. -/
  | request
  /-- A `:status` of the edge. -/
  | status (code : Nat)
  /-- A probe is sent. -/
  | probe
  /-- IP packets have come in on the request's stream, in one turn of the loop. -/
  | reception
  /-- `ready_tx` is signalled. -/
  | ready
  deriving DecidableEq

abbrev Journal := List Act

/-- `StatusCode::is_success`. -/
def isSuccess (code : Nat) : Bool := decide (200 ≤ code) && decide (code < 300)

/-- A final answer that is not a success. -/
def isRefusal (code : Nat) : Bool := !isSuccess code && !(decide (100 ≤ code) && decide (code < 200))

/-- `DATA_PROBE_REQUIRED_SUCCESSES`. -/
def dataProbeRequiredSuccesses : Nat := 2

namespace Journal

/-- The receptions before the first probe. -/
def early (j : Journal) : Nat := (j.takeWhile (· != .probe)).count .reception

/-- The receptions after the first probe. -/
def probed (j : Journal) : Nat := (j.dropWhile (· != .probe)).count .reception

/-- The edge has accepted the request. -/
def granted (j : Journal) : Bool := j.any fun
  | .status code => isSuccess code
  | _ => false

def refused (j : Journal) : Bool := j.any fun
  | .status code => isRefusal code
  | _ => false

end Journal

/-- The acts that must come before the signal. -/
def MaySignal (dataCheck : Bool) (j : Journal) : Prop :=
  j.granted = true ∧ (dataCheck = true → dataProbeRequiredSuccesses ≤ j.probed)

/-- The signal is given at most once and never before its conditions; a refusal ends the
run with an error before it. -/
structure Accepted (dataCheck : Bool) (j : Journal) (outcome : Option Outcome) : Prop where
  once : j.count .ready ≤ 1
  allowed : ∀ before after, j = before ++ .ready :: after → MaySignal dataCheck before
  refusal : j.refused = true → outcome = some .error ∧ .ready ∉ j

/-! ### One more act -/

section Snoc

variable {dataCheck : Bool} {j : Journal}

theorem accepted_nil (dataCheck : Bool) (outcome : Option Outcome) : Accepted dataCheck [] outcome where
  once := Nat.zero_le _
  allowed before after h := by
    cases before <;> cases h
  refusal h := by cases h

/-- While the run goes on the edge has not refused. -/
theorem Accepted.not_refused (h : Accepted dataCheck j none) : j.refused = false := by
  cases hr : j.refused with
  | false => rfl
  | true => exact absurd (h.refusal hr).1 (by simp)

/-- The run may end in any way. -/
theorem Accepted.finish (h : Accepted dataCheck j none) (outcome : Option Outcome) : Accepted dataCheck j outcome where
  once := h.once
  allowed := h.allowed
  refusal hr := absurd h.not_refused (by simp [hr])

/-- Where the signals of a longer journal are. -/
theorem forall_signal_snoc {p : Journal → Prop} (a : Act) :
    (∀ before after, j ++ [a] = before ++ .ready :: after → p before) ↔
      (∀ before after, j = before ++ .ready :: after → p before) ∧ (a = .ready → p j) := by
  constructor
  · intro h
    constructor
    · intro before after hj
      exact h before (after ++ [a]) (by rw [hj, List.append_assoc, List.cons_append])
    · intro ha
      exact h j [] (by rw [ha])
  · intro h before after hj
    obtain hafter | ⟨after', a', hafter⟩ := List.eq_nil_or_concat after
    · rw [hafter] at hj
      obtain ⟨hbefore, ha⟩ := List.append_inj' hj rfl
      rw [← hbefore]
      exact h.2 (List.singleton_inj.mp ha)
    · rw [hafter, List.concat_eq_append, ← List.cons_append, ← List.append_assoc] at hj
      exact h.1 before after' (List.append_inj' hj rfl).1

theorem refused_snoc (a : Act) : Journal.refused (j ++ [a]) = (j.refused || Journal.refused [a]) := List.any_append

theorem count_snoc (a : Act) : (j ++ [a]).count .ready = j.count .ready + [a].count .ready := List.count_append

/-- An act that is neither an answer nor the signal asks nothing. -/
theorem Accepted.snoc_plain (h : Accepted dataCheck j none) {a : Act} (hready : a ≠ .ready)
    (hstatus : Journal.refused [a] = false) : Accepted dataCheck (j ++ [a]) none where
  once := by
    rw [count_snoc, List.count_singleton]
    have hne : (a == Act.ready) = false := beq_false_of_ne hready
    rw [hne]
    exact h.once
  allowed := (forall_signal_snoc a).mpr ⟨h.allowed, fun he => absurd he hready⟩
  refusal hr := by
    rw [refused_snoc, h.not_refused, hstatus] at hr
    cases hr

/-- The signal asks for its conditions. -/
theorem accepted_snoc_ready_iff (h : Accepted dataCheck j none) (hfirst : .ready ∉ j) (outcome : Option Outcome) :
    Accepted dataCheck (j ++ [.ready]) outcome ↔ MaySignal dataCheck j := by
  constructor
  · intro hready
    exact ((forall_signal_snoc .ready).mp hready.allowed).2 rfl
  · intro hmay
    have hcount : j.count .ready = 0 := List.count_eq_zero.mpr hfirst
    refine ⟨?_, (forall_signal_snoc .ready).mpr ⟨h.allowed, fun _ => hmay⟩, ?_⟩
    · rw [count_snoc, hcount]
      decide
    · intro hr
      rw [refused_snoc, h.not_refused] at hr
      cases hr

/-- An answer must end the run if it is a refusal, and no signal may have been given. -/
theorem accepted_snoc_status_iff (h : Accepted dataCheck j none) (code : Nat) (outcome : Option Outcome) :
    Accepted dataCheck (j ++ [.status code]) outcome ↔
      (isRefusal code = true → outcome = some .error ∧ .ready ∉ j) := by
  have hrefused : Journal.refused (j ++ [.status code]) = isRefusal code := by
    rw [refused_snoc, h.not_refused, Bool.false_or]
    exact Bool.or_false _
  have hmem : Act.ready ∈ j ++ [.status code] ↔ .ready ∈ j := by
    rw [List.mem_append, List.mem_singleton]
    exact ⟨fun hm => hm.resolve_right (by simp), .inl⟩
  constructor
  · intro hs hr
    have hrefusal := hs.refusal (hrefused.trans hr)
    rwa [hmem] at hrefusal
  · intro hs
    refine ⟨?_, (forall_signal_snoc _).mpr ⟨h.allowed, fun he => by cases he⟩, ?_⟩
    · rw [count_snoc]
      exact h.once
    · intro hr
      rw [hmem]
      exact hs (hrefused.symm.trans hr)

end Snoc

/-! ### Receptions -/

namespace Journal

/-- Every reception is before or after the first probe. -/
theorem early_add_probed (j : Journal) : j.early + j.probed = j.count .reception := by
  rw [early, probed, ← List.count_append, List.takeWhile_append_dropWhile]

/-- The first probe came before every reception. -/
def ProbeFirst (j : Journal) : Prop := .probe ∈ j ∧ j.early = 0

instance (j : Journal) : Decidable j.ProbeFirst := inferInstanceAs (Decidable (_ ∧ _))

theorem takeWhile_of_mem {j : Journal} (h : .probe ∈ j) (k : Journal) :
    (j ++ k).takeWhile (· != .probe) = j.takeWhile (· != .probe) := by
  have hshort : ¬ (j.takeWhile (· != .probe)).length = j.length := by
    intro hlen
    have hall := List.takeWhile_eq_self_iff.mp ((List.takeWhile_prefix _).eq_of_length hlen)
    exact absurd (hall _ h) (by simp)
  rw [List.takeWhile_append, if_neg hshort]

/-- With one more reception none may have come before the first probe. -/
theorem early_snoc_reception (j : Journal) : early (j ++ [.reception]) = 0 ↔ j.ProbeFirst := by
  by_cases h : .probe ∈ j
  · rw [early, takeWhile_of_mem h]
    exact ⟨fun he => ⟨h, he⟩, fun hp => hp.2⟩
  · have hall : (j ++ [Act.reception]).takeWhile (· != Act.probe) = j ++ [.reception] := by
      rw [List.takeWhile_eq_self_iff]
      intro a ha
      rw [bne_iff_ne]
      intro he
      rw [he, List.mem_append, List.mem_singleton] at ha
      exact h (ha.resolve_right (by simp))
    rw [early, hall, List.count_append]
    exact ⟨fun he => absurd he (by simp), fun hp => absurd hp.1 h⟩

/-- The last of the required receptions counts exactly if the probe was first. -/
theorem probed_snoc_reception {j : Journal} (h : j.count .reception + 1 = dataProbeRequiredSuccesses) :
    dataProbeRequiredSuccesses ≤ probed (j ++ [.reception]) ↔ j.ProbeFirst := by
  have hsum := early_add_probed (j ++ [.reception])
  have hcount : (j ++ [Act.reception]).count .reception = dataProbeRequiredSuccesses := by
    rw [List.count_append]
    exact h
  rw [← early_snoc_reception]
  omega

theorem granted_snoc (j : Journal) (a : Act) : granted (j ++ [a]) = (j.granted || granted [a]) := List.any_append

end Journal

end Aether.Masque
