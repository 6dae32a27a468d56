import Mathlib.Data.Nat.ModEq
import Mathlib.Data.List.Basic

/-! The Internet checksum.

Octets are added up as words of sixteen bits, an odd one at the end as the high half of a word.
The carries of the sum are folded back into it, which keeps it modulo `0xFFFF` and keeps it from
becoming zero (`fold_mod`, `fold_eq_zero`); so a sum that is a positive multiple of `0xFFFF` folds
to `0xFFFF` (`fold_eq_ffff`), and this is what adding the complement of a folded sum leads to
(`fold_add_complement`). -/
namespace Aether.Octets

/-- The sum of the words of a list of octets. -/
def wordSum : List UInt8 → Nat
  | [] => 0
  | [b] => b.toNat * 256
  | a :: b :: rest => a.toNat * 256 + b.toNat + wordSum rest

/-- The carries are added until there are none. -/
def fold (s : Nat) : Nat :=
  if s < 65536 then s else fold (s % 65536 + s / 65536)
termination_by s
decreasing_by omega

/-- The complement of a folded sum. -/
def checksum (s : Nat) : Nat := 65535 - fold s

theorem fold_lt (s : Nat) : fold s < 65536 := by
  induction s using fold.induct with
  | case1 s h =>
    rw [fold, if_pos h]
    exact h
  | case2 s h ih =>
    rw [fold, if_neg h]
    exact ih

theorem fold_mod (s : Nat) : fold s % 65535 = s % 65535 := by
  induction s using fold.induct with
  | case1 s h => rw [fold, if_pos h]
  | case2 s h ih =>
    rw [fold, if_neg h, ih]
    omega

theorem fold_eq_zero {s : Nat} : fold s = 0 ↔ s = 0 := by
  induction s using fold.induct with
  | case1 s h => rw [fold, if_pos h]
  | case2 s h ih =>
    rw [fold, if_neg h, ih]
    omega

/-- A positive multiple folds to all ones. -/
theorem fold_eq_ffff {s : Nat} (hpos : 0 < s) (hmod : s % 65535 = 0) : fold s = 65535 := by
  have hlt := fold_lt s
  have hfold := fold_mod s
  have hne : fold s ≠ 0 := fun h => absurd (fold_eq_zero.mp h) (by omega)
  omega

/-- A sum and its checksum fold to all ones; so they do with the other zero. -/
theorem fold_add_complement {s ck : Nat} (hpos : 0 < s) (h : ck = checksum s ∨ checksum s = 0 ∧ ck = 65535) :
    fold (s + ck) = 65535 := by
  have hlt := fold_lt s
  have hfold := fold_mod s
  rw [checksum] at h
  apply fold_eq_ffff
  · omega
  · rcases h with h | h <;> omega

theorem checksum_lt (s : Nat) : checksum s < 65536 := by
  rw [checksum]
  omega

/-- Octets in front that make whole words add their sum. -/
theorem wordSum_append {xs : List UInt8} (heven : xs.length % 2 = 0) (ys : List UInt8) :
    wordSum (xs ++ ys) = wordSum xs + wordSum ys := by
  induction xs using wordSum.induct with
  | case1 => rw [List.nil_append, wordSum, Nat.zero_add]
  | case2 b => simp at heven
  | case3 a b rest ih =>
    rw [List.length_cons, List.length_cons] at heven
    rw [List.cons_append, List.cons_append, wordSum, wordSum, ih (by omega)]
    omega

theorem wordSum_word (v : Nat) (h : v < 65536) (rest : List UInt8) :
    wordSum (UInt8.ofNat (v / 256) :: UInt8.ofNat v :: rest) = v + wordSum rest := by
  rw [wordSum, UInt8.toNat_ofNat', UInt8.toNat_ofNat']
  omega

end Aether.Octets
