import Aether.Octets.Wire

/-! Readers that index a byte string.

Such a reader has a value, returns nothing, or should do neither: an index outside of the
bytes and a loop that does not end are outcomes of their own, so that a reader can be shown
to be free of them (`Safe`). -/
namespace Aether.Octets

/-- Why a reader has no value. -/
inductive Halt where
  | nothing
  | outside
  | endless
  deriving DecidableEq

abbrev Reads (α : Type) := Except Halt α

section
variable {α β : Type}

/-- `?` -/
def orNothing : Option α → Reads α
  | some a => .ok a
  | none => .error .nothing

/-- `if let Some(a) = r` -/
def attempt : Reads α → Reads (Option α)
  | .ok a => .ok (some a)
  | .error .nothing => .ok none
  | .error e => .error e

/-- `buf[pos]` -/
def index (buf : List UInt8) (pos : Nat) : Reads UInt8 :=
  match buf[pos]? with
  | some b => .ok b
  | none => .error .outside

/-- `u16::from_be_bytes([buf[pos], buf[pos + 1]])` -/
def index16 (buf : List UInt8) (pos : Nat) : Reads Nat := do
  let high ← index buf pos
  let low ← index buf (pos + 1)
  .ok (high.toNat * 2 ^ 8 + low.toNat)

/-- `buf[start..stop]` -/
def indexSlice (buf : List UInt8) (start stop : Nat) : Reads (List UInt8) :=
  if start ≤ stop ∧ stop ≤ buf.length then .ok ((buf.take stop).drop start) else .error .outside

variable {buf part : List UInt8} {pos : Nat}

theorem index_of_getElem? {b : UInt8} (h : buf[pos]? = some b) : index buf pos = .ok b := by
  rw [index, h]

theorem lt_of_orNothing {b : UInt8} (h : orNothing buf[pos]? = .ok b) : pos < buf.length := by
  by_contra hlong
  rw [List.getElem?_eq_none (by omega)] at h
  cases h

/-- A number that stands at a place is read from there. -/
theorem index16_of_standsAt {n : Nat} (h : StandsAt (u16 n) buf pos) (hn : n < 2 ^ 16) : index16 buf pos = .ok n := by
  obtain ⟨hhigh, hlow⟩ := h.u16_bytes
  rw [index16, index_of_getElem? hhigh, index_of_getElem? hlow]
  exact congrArg Except.ok (value_u16 hn)

/-- So is a part of as many bytes. -/
theorem indexSlice_of_standsAt (h : StandsAt part buf pos) (hpos : pos ≤ buf.length) :
    indexSlice buf pos (pos + part.length) = .ok part := by
  rw [indexSlice, if_pos ⟨Nat.le_add_right .., h.length_le hpos⟩, h.slice]

/-! ### Readers that stay inside -/

/-- It has a value or returns nothing. -/
def Safe (r : Reads α) : Prop := r ≠ .error .outside ∧ r ≠ .error .endless

theorem safe_ok (a : α) : Safe (.ok a : Reads α) := by simp [Safe]

theorem safe_nothing : Safe (.error .nothing : Reads α) := by simp [Safe]

/-- A reader that is given an `Option` can only return nothing. -/
theorem safe_orNothing (x : Option α) : Safe (orNothing x) := by
  cases x with
  | none => exact safe_nothing
  | some a => exact safe_ok a

/-- A reader is safe if its first part is and what follows is safe on whatever that gives. -/
theorem safe_bind {r : Reads α} {f : α → Reads β} (hr : Safe r) (hf : ∀ a, r = .ok a → Safe (f a)) :
  Safe (r >>= f) := by
  cases hcase : r with
  | ok a => exact hf a hcase
  | error e =>
    rw [hcase] at hr
    exact ⟨fun h => hr.1 (congrArg Except.error (Except.error.inj h)),
      fun h => hr.2 (congrArg Except.error (Except.error.inj h))⟩

/-- Whoever goes on after nothing is as safe as what was tried. -/
theorem safe_attempt {r : Reads α} (hr : Safe r) : Safe (attempt r) := by
  cases r with
  | ok a => exact safe_ok _
  | error e =>
    cases e with
    | nothing => exact safe_ok _
    | outside => exact absurd rfl hr.1
    | endless => exact absurd rfl hr.2

/-- The one access that can be outside. -/
theorem safe_index (h : pos < buf.length) : Safe (index buf pos) := by
  rw [index_of_getElem? (List.getElem?_eq_getElem h)]
  exact safe_ok _

theorem safe_index16 (h : pos + 1 < buf.length) : Safe (index16 buf pos) :=
  safe_bind (safe_index (by omega)) fun _ _ => safe_bind (safe_index h) fun _ _ => safe_ok _

theorem safe_indexSlice {start stop : Nat} (h : start ≤ stop) (hstop : stop ≤ buf.length) :
    Safe (indexSlice buf start stop) := by
  rw [indexSlice, if_pos ⟨h, hstop⟩]
  exact safe_ok _

end

end Aether.Octets
