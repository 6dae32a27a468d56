import Aether.Socks.Gateway

/-! The head of a request to the share proxy.

`readHeaderBlock` reads byte by byte and counts how much of `\r\n\r\n` it has seen. A byte that
does not go on with it starts the count again at nothing, also a `\r`, which could be the
beginning of another one. So a `\r` that stands alone before the empty line hides it:
`exact_iff` counts them. -/
namespace Aether.Share.HeaderBlock
open Socks (headEnd findHeadEnd)

/-- `MAX_HEADER_BYTES` -/
@[irreducible]
def maxHeaderBytes : Nat := 64 * 1024

/-- How much of the end has been seen, after another byte. -/
def nextRun (run : Nat) (b : UInt8) : Nat :=
  if b = 13 ∧ (run = 0 ∨ run = 2) then run + 1
  else if b = 10 ∧ (run = 1 ∨ run = 3) then run + 1
  else 0

/-- The loop of `readHeaderBlock`, with what it has read: its result and what is left to read. -/
def readFrom (buf : List UInt8) (run : Nat) : List UInt8 → Option (List UInt8) × List UInt8
  | [] => (none, [])
  | b :: stream =>
    if buf.length < maxHeaderBytes then
      if nextRun run b = 4 then (some (buf ++ [b]), stream) else readFrom (buf ++ [b]) (nextRun run b) stream
    else (none, b :: stream)

def readHeaderBlock (stream : List UInt8) : Option (List UInt8) × List UInt8 := readFrom [] 0 stream

/-- The bytes up to the first `\r\n\r\n` are read, and no more; without one within
`maxHeaderBytes` there is no head. -/
structure Exact (stream : List UInt8) : Prop where
  found : ∀ pos, findHeadEnd stream = some pos → pos ≤ maxHeaderBytes →
    readHeaderBlock stream = (some (stream.take pos), stream.drop pos)
  missing : (∀ pos, findHeadEnd stream = some pos → maxHeaderBytes < pos) → (readHeaderBlock stream).1 = none

/-- The number of carriage returns at the end. -/
def returns (bytes : List UInt8) : Nat := (bytes.rtakeWhile (· == 13)).length

/-! ### The end of the head -/

theorem findHeadEnd_le {stream p : List UInt8} (hp : p <+: stream) (hend : headEnd <:+ p) :
    ∃ pos ≤ p.length, findHeadEnd stream = some pos := by
  induction stream generalizing p with
  | nil =>
    rw [List.prefix_nil.mp hp] at hend
    exact absurd (List.suffix_nil.mp hend) (by decide)
  | cons b rest ih =>
    rw [findHeadEnd]
    by_cases hpre : headEnd.isPrefixOf (b :: rest) = true
    · exact ⟨4, hend.length_le, if_pos hpre⟩
    · rw [if_neg hpre]
      cases p with
      | nil => exact absurd (List.suffix_nil.mp hend) (by decide)
      | cons b' p' =>
        obtain ⟨rfl, hp'⟩ := List.cons_prefix_cons.mp hp
        obtain heq | hend := List.suffix_cons_iff.mp hend
        · rw [List.isPrefixOf_iff_prefix, heq] at hpre
          exact absurd hp hpre
        · obtain ⟨pos, hle, hpos⟩ := ih hp' hend
          exact ⟨pos + 1, Nat.succ_le_succ hle, by rw [hpos]; rfl⟩

theorem take_findHeadEnd {stream : List UInt8} {pos : Nat} (h : findHeadEnd stream = some pos) :
    stream.take pos = stream.take (pos - 4) ++ headEnd := by
  induction stream generalizing pos with
  | nil => cases h
  | cons b rest ih =>
    rw [findHeadEnd] at h
    split at h
    · rename_i hpre
      obtain rfl := Option.some.inj h
      exact (List.prefix_iff_eq_take.mp (List.isPrefixOf_iff_prefix.mp hpre)).symm
    · obtain ⟨q, hq, rfl⟩ := Option.map_eq_some_iff.mp h
      have hbounds := Socks.findHeadEnd_bounds hq
      rw [List.take_succ_cons, ih hq, show q + 1 - 4 = (q - 4) + 1 by omega, List.take_succ_cons, List.cons_append]

/-! ### The count -/

/-- The count after some bytes. -/
def runAfter (bytes : List UInt8) : Nat := bytes.foldl nextRun 0

theorem runAfter_concat (bytes : List UInt8) (b : UInt8) : runAfter (bytes ++ [b]) = nextRun (runAfter bytes) b := by
  rw [runAfter, List.foldl_append]
  rfl

theorem nextRun_cases (run : Nat) (b : UInt8) :
    nextRun run b = 0 ∨ nextRun run b = run + 1 ∧ run < 4 ∧ headEnd.take (run + 1) = headEnd.take run ++ [b] := by
  rw [nextRun]
  split
  · rename_i h
    obtain ⟨rfl, rfl | rfl⟩ := h
    · exact .inr ⟨rfl, by decide, rfl⟩
    · exact .inr ⟨rfl, by decide, rfl⟩
  · split
    · rename_i h
      obtain ⟨rfl, rfl | rfl⟩ := h
      · exact .inr ⟨rfl, by decide, rfl⟩
      · exact .inr ⟨rfl, by decide, rfl⟩
    · exact .inl rfl

/-- So much of the end is there. -/
theorem suffix_runAfter (bytes : List UInt8) : headEnd.take (runAfter bytes) <:+ bytes ∧ runAfter bytes ≤ 4 := by
  induction bytes using List.reverseRecOn with
  | nil => exact ⟨List.suffix_refl _, Nat.zero_le _⟩
  | append_singleton bytes b ih =>
    rw [runAfter_concat]
    obtain hzero | ⟨hnext, hlt, htake⟩ := nextRun_cases (runAfter bytes) b
    · rw [hzero]
      exact ⟨List.nil_suffix, Nat.zero_le _⟩
    · rw [hnext, htake]
      exact ⟨(List.suffix_append_inj_of_length_eq rfl).mpr ⟨ih.1, rfl⟩, hlt⟩

/-- The end has not been counted before the end of the bytes. -/
def Unended (bytes : List UInt8) : Prop := ∀ p, p <+: bytes → runAfter p ≠ 4

theorem returns_concat (bytes : List UInt8) (b : UInt8) :
    returns (bytes ++ [b]) = if b = 13 then returns bytes + 1 else 0 := by
  rw [returns, List.rtakeWhile_concat]
  by_cases hb : b = 13
  · rw [if_pos (beq_iff_eq.mpr hb), if_pos hb, List.length_append]
    rfl
  · rw [if_neg (by simpa using hb), if_neg hb]
    rfl

theorem nextRun_return (run : Nat) : nextRun run 13 = if run = 0 ∨ run = 2 then run + 1 else 0 := by
  by_cases hrun : run = 0 ∨ run = 2
  · rw [nextRun, if_pos ⟨rfl, hrun⟩, if_pos hrun]
  · rw [nextRun, if_neg fun h => hrun h.2, if_neg fun h => absurd h.1 (by decide), if_neg hrun]

theorem nextRun_other {b : UInt8} (hb : b ≠ 13) (run : Nat) :
    nextRun run b = 0 ∨ nextRun run b = run + 1 ∧ (run = 1 ∨ run = 3) := by
  rw [nextRun, if_neg fun h => hb h.1]
  split
  · rename_i h
    exact .inr ⟨rfl, h.2⟩
  · exact .inl rfl

/-- The count stands at one or three exactly behind an odd number of carriage returns. -/
theorem runAfter_parity {bytes : List UInt8} (h : Unended bytes) :
    (returns bytes % 2 = 1 → runAfter bytes = 1 ∨ runAfter bytes = 3) ∧
      (returns bytes % 2 = 0 → runAfter bytes = 0 ∨ runAfter bytes = 2) := by
  induction bytes using List.reverseRecOn with
  | nil => exact ⟨fun h => absurd h (by decide), fun _ => .inl rfl⟩
  | append_singleton bytes b ih =>
    have hlast := h (bytes ++ [b]) (List.prefix_refl _)
    obtain ⟨hodd, heven⟩ := ih fun p hp => h p (hp.trans (List.prefix_append bytes [b]))
    rw [runAfter_concat] at hlast
    rw [returns_concat, runAfter_concat]
    by_cases hb : b = 13
    · -- another carriage return takes the count from an even number to an odd one, or to nothing
      rw [hb, if_pos rfl, nextRun_return]
      obtain hk | hk := Nat.mod_two_eq_zero_or_one (returns bytes)
      · have hrun := heven hk
        rw [if_pos hrun]
        omega
      · have hrun := hodd hk
        rw [if_neg (by omega)]
        omega
    · rw [if_neg hb]
      have hnext := nextRun_other hb (runAfter bytes)
      omega

/-! ### The loop -/

/-- Bytes that do not end the head are read. -/
theorem readFrom_append {buf part : List UInt8} (stream : List UInt8) (hunended : Unended (buf ++ part))
    (hroom : (buf ++ part).length ≤ maxHeaderBytes) :
    readFrom buf (runAfter buf) (part ++ stream) = readFrom (buf ++ part) (runAfter (buf ++ part)) stream := by
  induction part generalizing buf with
  | nil => rw [List.append_nil, List.nil_append]
  | cons b part ih =>
    have hbuf : buf ++ b :: part = buf ++ [b] ++ part := by rw [List.append_assoc, List.singleton_append]
    have hb : runAfter (buf ++ [b]) ≠ 4 := hunended (buf ++ [b]) (by rw [hbuf]; exact List.prefix_append _ _)
    rw [hbuf] at hunended hroom
    rw [List.length_append, List.length_append, List.length_singleton] at hroom
    have hlonger : (buf ++ [b] ++ part).length ≤ maxHeaderBytes := by
      rw [List.length_append, List.length_append, List.length_singleton]
      exact hroom
    rw [List.cons_append, readFrom, if_pos (by omega), ← runAfter_concat, if_neg hb, ih hunended hlonger, hbuf]

/-- What is found is read off the stream, ends the head, and has room. -/
theorem readFrom_some {buf stream head left : List UInt8} (h : readFrom buf (runAfter buf) stream = (some head, left)) :
    buf ++ stream = head ++ left ∧ headEnd <:+ head ∧ buf.length < head.length ∧ head.length ≤ maxHeaderBytes := by
  induction stream generalizing buf with
  | nil => cases h
  | cons b stream ih =>
    have hbuf : buf ++ b :: stream = buf ++ [b] ++ stream := by rw [List.append_assoc, List.singleton_append]
    rw [readFrom, ← runAfter_concat] at h
    split at h
    · split at h
      · rename_i hroom hend
        obtain ⟨hhead, rfl⟩ := Prod.mk.inj h
        obtain rfl := Option.some.inj hhead
        have hsuffix := (suffix_runAfter (buf ++ [b])).1
        rw [hend] at hsuffix
        rw [List.length_append, List.length_singleton]
        exact ⟨hbuf, hsuffix, Nat.lt_succ_self _, hroom⟩
      · obtain ⟨hall, hend, hlonger, hroom⟩ := ih h
        rw [List.length_append, List.length_singleton] at hlonger
        exact ⟨hbuf.trans hall, hend, by omega, hroom⟩
    · cases h

/-- Before the first end the count does not come to its end. -/
theorem unended_of_findHeadEnd {stream part : List UInt8} (hpart : part <+: stream)
    (h : ∀ pos, findHeadEnd stream = some pos → part.length < pos) : Unended part := by
  intro p hp hrun
  have hsuffix := (suffix_runAfter p).1
  rw [hrun] at hsuffix
  obtain ⟨pos, hle, hpos⟩ := findHeadEnd_le (hp.trans hpart) hsuffix
  have hlt := h pos hpos
  have hlength := hp.length_le
  omega

/-! ### The whole head -/

theorem runAfter_append (bytes more : List UInt8) : runAfter (bytes ++ more) = more.foldl nextRun (runAfter bytes) :=
  List.foldl_append

/-- The first end is seen if the count is at nothing before it, and then only. -/
theorem runAfter_headEnd {front : List UInt8} (h : Unended (front ++ [13, 10, 13])) :
    runAfter (front ++ headEnd) = 4 ↔ returns front % 2 = 0 := by
  obtain ⟨hodd, heven⟩ := runAfter_parity fun p hp => h p (hp.trans (List.prefix_append front [13, 10, 13]))
  -- a count of two would have come to the end two bytes earlier
  have htwo : runAfter front ≠ 2 := by
    intro hrun
    apply h (front ++ [13, 10]) ((List.prefix_append_right_inj front).mpr ⟨[13], rfl⟩)
    rw [runAfter_append, hrun]
    rfl
  rw [runAfter_append]
  obtain hk | hk := Nat.mod_two_eq_zero_or_one (returns front)
  · have hzero := (heven hk).resolve_right htwo
    rw [hzero]
    exact iff_of_true rfl hk
  · refine iff_of_false (fun hrun => ?_) (by omega)
    obtain hone | hthree := hodd hk
    · rw [hone] at hrun
      exact absurd hrun (by decide)
    · rw [hthree] at hrun
      exact absurd hrun (by decide)

/-- Behind an even number of carriage returns the end is seen, behind an odd one it is not. -/
theorem readHeaderBlock_found {stream : List UInt8} {pos : Nat} (hpos : findHeadEnd stream = some pos)
    (hroom : pos ≤ maxHeaderBytes) :
    readHeaderBlock stream = (some (stream.take pos), stream.drop pos) ↔ returns (stream.take (pos - 4)) % 2 = 0 := by
  have hbounds := Socks.findHeadEnd_bounds hpos
  have hhead := take_findHeadEnd hpos
  generalize hfront : stream.take (pos - 4) = front at hhead ⊢
  have hlength : front.length + 4 = pos := by
    rw [← hfront, List.length_take]
    omega
  have hsplit : stream = front ++ [13, 10, 13] ++ 10 :: stream.drop pos := by
    conv => lhs; rw [← List.take_append_drop pos stream, hhead]
    simp [headEnd]
  have hunended : Unended (front ++ [13, 10, 13]) := by
    apply unended_of_findHeadEnd ⟨_, hsplit.symm⟩
    intro pos' hpos'
    rw [hpos] at hpos'
    rw [List.length_append, ← Option.some.inj hpos', ← hlength]
    exact Nat.lt_succ_self _
  have hthree : (front ++ [13, 10, 13]).length + 1 = pos := by
    rw [List.length_append, ← hlength]
    rfl
  have hread : readHeaderBlock stream =
      readFrom (front ++ [13, 10, 13]) (runAfter (front ++ [13, 10, 13])) (10 :: stream.drop pos) := by
    have happend := @readFrom_append [] (front ++ [13, 10, 13]) (10 :: stream.drop pos) hunended (by
      rw [List.nil_append]
      omega)
    rw [← hsplit] at happend
    exact happend
  have hjoin : front ++ [13, 10, 13] ++ [10] = front ++ headEnd := by rw [List.append_assoc]; rfl
  rw [hread, readFrom, if_pos (by omega), ← runAfter_concat, hjoin, ← runAfter_headEnd hunended, hhead]
  by_cases hend : runAfter (front ++ headEnd) = 4
  · rw [if_pos hend]
    exact iff_of_true rfl hend
  · rw [if_neg hend]
    refine iff_of_false (fun hsome => ?_) hend
    obtain ⟨-, -, hlonger, -⟩ := readFrom_some hsome
    exact absurd hlonger (Nat.lt_irrefl _)

/-- The head of a request is read exactly if the number of carriage returns right before the
empty line that ends it is even. -/
theorem exact_iff (stream : List UInt8) :
    Exact stream ↔ ∀ pos, findHeadEnd stream = some pos → pos ≤ maxHeaderBytes →
      returns (stream.take (pos - 4)) % 2 = 0 := by
  constructor
  · intro h pos hpos hroom
    exact (readHeaderBlock_found hpos hroom).mp (h.found pos hpos hroom)
  · intro h
    refine ⟨fun pos hpos hroom => (readHeaderBlock_found hpos hroom).mpr (h pos hpos hroom), fun hnone => ?_⟩
    cases hread : readHeaderBlock stream with
    | mk result left =>
      cases result with
      | none => rfl
      | some head =>
        obtain ⟨hall, hend, -, hroom⟩ := readFrom_some hread
        obtain ⟨pos, hle, hpos⟩ := findHeadEnd_le ⟨left, hall.symm⟩ hend
        have hlt := hnone pos hpos
        omega

/-- A line, a carriage return and the empty line: the head that ends there is not read. -/
theorem return_hides :
    findHeadEnd [71, 69, 84, 32, 47, 13, 13, 10, 13, 10] = some 10 ∧ 10 ≤ maxHeaderBytes ∧
      ¬ Exact [71, 69, 84, 32, 47, 13, 13, 10, 13, 10] := by
  have hfound : findHeadEnd [71, 69, 84, 32, 47, 13, 13, 10, 13, 10] = some 10 := by decide
  have hroom : 10 ≤ maxHeaderBytes := by
    unfold maxHeaderBytes
    decide
  refine ⟨hfound, hroom, fun h => ?_⟩
  have hread := (readHeaderBlock_found hfound hroom).mp (h.found 10 hfound hroom)
  exact absurd hread (by decide)

end Aether.Share.HeaderBlock
