import Mathlib

/-! One direction of a relay.

A flow has read a sequence, holds a part of it that is not yet written, and has written
the rest. Reading adds to what is held and writing takes from its front, so that what was
written and what is held are together what was read, in order (`Conserved`). -/
namespace Aether.Streams

structure Flow (α : Type) where
  read : List α := []
  held : List α := []
  written : List α := []

namespace Flow
variable {α : Type}

/-- Read some more. -/
def take (xs : List α) (f : Flow α) : Flow α := {f with read := f.read ++ xs, held := f.held ++ xs}

/-- Write the first `n` of what is held. -/
def give (n : Nat) (f : Flow α) : Flow α :=
  {f with held := f.held.drop n, written := f.written ++ f.held.take n}

/-- Write all that is held. -/
def flush (f : Flow α) : Flow α := {f with held := [], written := f.written ++ f.held}

/-- Nothing is lost, repeated or reordered. -/
def Conserved (f : Flow α) : Prop := f.written ++ f.held = f.read

theorem conserved_empty : ({} : Flow α).Conserved := rfl

theorem Conserved.take {f : Flow α} (h : f.Conserved) (xs : List α) : (f.take xs).Conserved := by
  show f.written ++ (f.held ++ xs) = f.read ++ xs
  rw [← List.append_assoc, h]

theorem Conserved.give {f : Flow α} (h : f.Conserved) (n : Nat) : (f.give n).Conserved := by
  show f.written ++ f.held.take n ++ f.held.drop n = f.read
  rw [List.append_assoc, List.take_append_drop, h]

theorem Conserved.flush {f : Flow α} (h : f.Conserved) : f.flush.Conserved := by
  show f.written ++ f.held ++ [] = f.read
  rw [List.append_nil, h]

theorem Conserved.written_le {f : Flow α} (h : f.Conserved) : f.written <+: f.read := ⟨f.held, h⟩

end Flow
end Aether.Streams
