import Mathlib

/-! Messages read by position.

A reader of a message keeps a position and looks at the bytes there. `StandsAt` says that
some bytes stand at a position, and takes a message apart with the positions of its
parts, so that what a reader finds at a position is what was written there. Numbers are
written with the first byte the largest. -/
namespace Aether.Octets

section
variable {α : Type}

/-- A part of a message stands at a position. -/
def StandsAt (part : List α) (message : List α) (pos : Nat) : Prop := part <+: message.drop pos

variable {part message xs ys : List α} {pos : Nat}

theorem standsAt_nil : StandsAt [] message pos := List.nil_prefix

/-- A part stands where its first element does and the others behind it. -/
theorem standsAt_cons {x : α} : StandsAt (x :: xs) message pos ↔ message[pos]? = some x ∧
    StandsAt xs message (pos + 1) := by
  rw [StandsAt, StandsAt]
  cases hdrop : message.drop pos with
  | nil =>
    have hnone : message[pos]? = none := by
      rw [List.getElem?_eq_none_iff]
      exact List.drop_eq_nil_iff.mp hdrop
    simp [hnone]
  | cons y rest =>
    have hsome : message[pos]? = some y := by
      rw [← List.head?_drop, hdrop]
      rfl
    have hrest : message.drop (pos + 1) = rest := by
      rw [← List.drop_drop, hdrop]
      rfl
    rw [List.cons_prefix_cons, hsome, hrest, Option.some.injEq]
    exact and_congr_left fun _ => eq_comm

/-- Two parts stand one behind the other. -/
theorem standsAt_append :
    StandsAt (xs ++ ys) message pos ↔ StandsAt xs message pos ∧ StandsAt ys message (pos + xs.length) := by
  induction xs generalizing pos with
  | nil => simp [standsAt_nil]
  | cons x xs ih =>
    rw [List.cons_append, standsAt_cons, standsAt_cons, ih, and_assoc, List.length_cons,
      show pos + 1 + xs.length = pos + (xs.length + 1) by omega]

theorem standsAt_self : StandsAt message message 0 := List.prefix_rfl

theorem StandsAt.length_le (h : StandsAt part message pos) (hpos : pos ≤ message.length) :
    pos + part.length ≤ message.length := by
  have hle := List.IsPrefix.length_le h
  rw [List.length_drop] at hle
  omega

/-- The part is what lies between its ends. -/
theorem StandsAt.slice (h : StandsAt part message pos) : (message.take (pos + part.length)).drop pos = part := by
  rw [← List.take_drop]
  exact (List.prefix_iff_eq_take.mp h).symm

end

/-! ### Numbers -/

/-- A number of two bytes. -/
def u16 (n : Nat) : List UInt8 := [UInt8.ofNat (n / 2 ^ 8), UInt8.ofNat n]

/-- A number of three bytes. -/
def u24 (n : Nat) : List UInt8 := [UInt8.ofNat (n / 2 ^ 16), UInt8.ofNat (n / 2 ^ 8), UInt8.ofNat n]

@[simp] theorem length_u16 (n : Nat) : (u16 n).length = 2 := rfl

@[simp] theorem length_u24 (n : Nat) : (u24 n).length = 3 := rfl

theorem value_u16 {n : Nat} (h : n < 2 ^ 16) :
    (UInt8.ofNat (n / 2 ^ 8)).toNat * 2 ^ 8 + (UInt8.ofNat n).toNat = n := by
  rw [UInt8.toNat_ofNat', UInt8.toNat_ofNat']
  omega

theorem value_u24 {n : Nat} (h : n < 2 ^ 24) :
    (UInt8.ofNat (n / 2 ^ 16)).toNat * 2 ^ 16 + (UInt8.ofNat (n / 2 ^ 8)).toNat * 2 ^ 8 + (UInt8.ofNat n).toNat = n := by
  rw [UInt8.toNat_ofNat', UInt8.toNat_ofNat', UInt8.toNat_ofNat']
  omega

/-- A number of two bytes where it stands. -/
theorem StandsAt.u16_bytes {message : List UInt8} {pos n : Nat} (h : StandsAt (u16 n) message pos) :
    message[pos]? = some (UInt8.ofNat (n / 2 ^ 8)) ∧ message[pos + 1]? = some (UInt8.ofNat n) := by
  obtain ⟨hhigh, hlow⟩ := standsAt_cons.mp h
  exact ⟨hhigh, (standsAt_cons.mp hlow).1⟩

end Aether.Octets
