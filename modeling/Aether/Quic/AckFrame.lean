import Aether.Machine.Fallible
import Aether.Octets.Varint
import Aether.Quic.RangeSetRun
import Aether.Rust.Unsigned

/-! ACK frames.

A frame names its ranges from the highest down: the highest number, then by turns how many
numbers are in a range and how many are left out below it. Both the writer and the reader
subtract one number from another at each range, and panic where the difference is negative.
What is written is read back (`parseAckFrame_toBytes`), and whatever is read has ranges that
are apart and not empty (`parseAckFrame_sound`). -/
namespace Aether.Quic
open Octets
open Machine (Gives gives_ok gives_error)
open Intervals (Separated Covers cover separated_cons)
open Rust (subU64 addU64 subU64_of_le addU64_of_le)

structure EcnCounts where
  ect0Count : Nat
  ect1Count : Nat
  ecnCeCount : Nat

structure AckFrame where
  ackDelay : Nat
  ranges : RangeSet
  ecnCounts : Option EcnCounts

namespace AckFrame

/-! ### Writing -/

/-- The largest number of a range, and how many are below it in the range. -/
def ackBlock (r : Range) : Option (Nat × Nat) := do
  let largestAck ← subU64 r.2 1
  let ackBlock ← subU64 largestAck r.1
  return (largestAck, ackBlock)

/-- How many numbers are left out between a range and the one above it, less one. -/
def gap (smallestAck : Nat) (r : Range) : Option Nat := (subU64 smallestAck r.2).bind (subU64 · 1)

/-- The numbers written for the ranges below the first, from the highest down. -/
def blocks : (smallestAck : Nat) → List Range → Option (List Nat)
  | _, [] => some []
  | smallestAck, block :: rest => do
    let gap ← gap smallestAck block
    let ackBlock ← ackBlock block
    let rest ← blocks block.1 rest
    return gap :: ackBlock.2 :: rest

def ecnFields : Option EcnCounts → List Nat
  | none => []
  | some ecn => [ecn.ect0Count, ecn.ect1Count, ecn.ecnCeCount]

def frameType (f : AckFrame) : Nat := if f.ecnCounts.isNone then 0x02 else 0x03

/-- All that is written, in order; without a range the writer panics. -/
def fields (f : AckFrame) : Option (List Nat) :=
  match f.ranges.iter.reverse with
  | [] => none
  | first :: rest => do
    let ackBlock ← ackBlock first
    let blocks ← blocks first.1 rest
    return f.frameType :: ackBlock.1 :: f.ackDelay :: rest.length :: ackBlock.2 :: (blocks ++ ecnFields f.ecnCounts)

/-- Each is a variable-length integer; one that is too large panics. -/
def putVarints : List Nat → Option (List UInt8)
  | [] => some []
  | v :: rest => (putVarint v).bind (fun bytes => (putVarints rest).map (bytes ++ ·))

/-- `to_bytes` of an ACK frame. -/
def toBytes (f : AckFrame) : Option (List UInt8) := f.fields.bind putVarints

def blocksLen : (smallestAck : Nat) → List Range → Option Nat
  | _, [] => some 0
  | smallestAck, block :: rest => do
    let gap ← gap smallestAck block
    let ackBlock ← ackBlock block
    let rest ← blocksLen block.1 rest
    return (varintLen gap).len + (varintLen ackBlock.2).len + rest

def ecnLen : Option EcnCounts → Nat
  | none => 0
  | some ecn => (varintLen ecn.ect0Count).len + (varintLen ecn.ect1Count).len + (varintLen ecn.ecnCeCount).len

/-- `wire_len` of an ACK frame. -/
def wireLen (f : AckFrame) : Option Nat :=
  match f.ranges.iter.reverse with
  | [] => none
  | first :: rest => do
    let ackBlock ← ackBlock first
    let blocks ← blocksLen first.1 rest
    return 1 + (varintLen ackBlock.1).len + (varintLen f.ackDelay).len + (varintLen rest.length).len +
      (varintLen ackBlock.2).len + blocks + ecnLen f.ecnCounts

/-! ### Reading -/

inductive ParseError where
  | bufferTooShort
  | invalidFrame
  | panicked
deriving DecidableEq

def getField (bytes : List UInt8) : Except ParseError (Nat × List UInt8) :=
  (getVarint bytes).elim (.error .bufferTooShort) .ok

def insertRange (item : Range) (ranges : RangeSet) : Except ParseError RangeSet :=
  (ranges.insert item).elim (.error .panicked) .ok

/-- A sum or a difference that is no `u64` panics. -/
def number (n : Option Nat) : Except ParseError Nat := n.elim (.error .panicked) .ok

/-- The range that a highest number and a count stand for, and the smallest number then. -/
def parseRange (largestAck ackBlock : Nat) (ranges : RangeSet) : Except ParseError (Nat × RangeSet) :=
  if largestAck < ackBlock then .error .invalidFrame
  else (number (subU64 largestAck ackBlock)).bind fun smallestAck => (number (addU64 largestAck 1)).bind fun stop =>
    (insertRange (smallestAck, stop) ranges).map (fun ranges => (smallestAck, ranges))

def parseBlocks : (blockCount : Nat) → (smallestAck : Nat) → RangeSet → List UInt8 →
    Except ParseError (RangeSet × List UInt8)
  | 0, _, ranges, bytes => .ok (ranges, bytes)
  | blockCount + 1, smallestAck, ranges, bytes =>
    (getField bytes).bind fun gap => (number (addU64 2 gap.1)).bind fun least =>
      if smallestAck < least then .error .invalidFrame
      else (number ((subU64 smallestAck gap.1).bind (subU64 · 2))).bind fun largestAck =>
        (getField gap.2).bind fun ackBlock => (parseRange largestAck ackBlock.1 ranges).bind fun parsed =>
          parseBlocks blockCount parsed.1 parsed.2 ackBlock.2

def parseEcn (ty : Nat) (bytes : List UInt8) : Except ParseError (Option EcnCounts × List UInt8) :=
  if ty % 2 ≠ 0 then
    (getField bytes).bind fun ect0 => (getField ect0.2).bind fun ect1 => (getField ect1.2).map fun ce =>
      (some ⟨ect0.1, ect1.1, ce.1⟩, ce.2)
  else .ok (none, bytes)

/-- `parse_ack_frame`, behind the type. -/
def parseAckFrame (ty : Nat) (bytes : List UInt8) : Except ParseError (AckFrame × List UInt8) :=
  (getField bytes).bind fun largestAck => (getField largestAck.2).bind fun ackDelay =>
    (getField ackDelay.2).bind fun blockCount => (getField blockCount.2).bind fun ackBlock =>
      (parseRange largestAck.1 ackBlock.1 RangeSet.default).bind fun first =>
        (parseBlocks blockCount.1 first.1 first.2 ackBlock.2).bind fun blocks =>
          (parseEcn ty blocks.2).map fun ecn => (⟨ackDelay.1, blocks.1, ecn.1⟩, ecn.2)

/-- `from_bytes`, as far as ACK frames go: their two types. -/
def fromBytes (bytes : List UInt8) : Except ParseError (AckFrame × List UInt8) :=
  (getField bytes).bind fun ty =>
    if ty.1 = 0x02 ∨ ty.1 = 0x03 then parseAckFrame ty.1 ty.2 else .error .invalidFrame

/-! ### Differences -/

theorem ackBlock_eq {r : Range} (h : r.1 < r.2) : ackBlock r = some (r.2 - 1, r.2 - 1 - r.1) := by
  rw [ackBlock, subU64_of_le (by omega : 1 ≤ r.2)]
  show (subU64 (r.2 - 1) r.1).bind _ = _
  rw [subU64_of_le (by omega)]
  rfl

theorem gap_eq {smallestAck : Nat} {r : Range} (h : r.2 < smallestAck) :
    gap smallestAck r = some (smallestAck - r.2 - 1) := by
  rw [gap, subU64_of_le h.le]
  exact subU64_of_le (by omega)

/-- The numbers of ranges that go down, without a check. -/
def numbers : (smallestAck : Nat) → List Range → List Nat
  | _, [] => []
  | smallestAck, block :: rest =>
    (smallestAck - block.2 - 1) :: (block.2 - 1 - block.1) :: numbers block.1 rest

/-- Below ranges that are apart there is always a gap, so no difference is negative. -/
theorem blocks_eq {below : List Range} {smallestAck stop : Nat}
    (hbelow : Separated (below.reverse ++ [(smallestAck, stop)])) (hfilled : Filled below) :
    blocks smallestAck below = some (numbers smallestAck below) ∧
      blocksLen smallestAck below = some ((numbers smallestAck below).map (fun v => (varintLen v).len)).sum := by
  induction below generalizing smallestAck stop with
  | nil => exact ⟨rfl, rfl⟩
  | cons block below ih =>
    rw [List.reverse_cons, List.append_assoc] at hbelow
    have hlow : block.2 < smallestAck := (separated_cons.mp hbelow.of_append.2).2.1 _ (List.mem_cons_self ..)
    have hrest : Separated (below.reverse ++ [block]) := by
      rw [← List.append_assoc] at hbelow
      exact hbelow.of_append.1
    obtain ⟨hblocks, hlength⟩ := ih hrest (fun r hr => hfilled r (List.mem_cons_of_mem _ hr))
    have hblock := ackBlock_eq (hfilled block (List.mem_cons_self ..))
    refine ⟨?_, ?_⟩
    · rw [blocks, gap_eq hlow, hblock, hblocks]
      rfl
    · rw [blocksLen, gap_eq hlow, hblock, hlength, numbers, List.map_cons, List.sum_cons, List.map_cons, List.sum_cons,
        ← Nat.add_assoc]
      rfl

theorem number_sub {a b : Nat} (h : b ≤ a) : number (subU64 a b) = .ok (a - b) := by
  rw [subU64_of_le h]
  rfl

theorem number_add {a b : Nat} (h : a + b ≤ Rust.u64Max) : number (addU64 a b) = .ok (a + b) := by
  rw [addU64_of_le h]
  rfl

/-- The largest number below a gap. -/
theorem number_below {smallestAck gap : Nat} (h : 2 + gap ≤ smallestAck) :
    number ((subU64 smallestAck gap).bind (subU64 · 2)) = .ok (smallestAck - gap - 2) := by
  rw [subU64_of_le (by omega : gap ≤ smallestAck)]
  exact number_sub (by omega)

/-! ### Fields -/

theorem getField_put {v : Nat} {bytes : List UInt8} (h : putVarint v = some bytes) (rest : List UInt8) :
    getField (bytes ++ rest) = .ok (v, rest) := by
  rw [putVarint] at h
  split at h
  · rename_i hle
    obtain rfl := Option.some.inj h
    rw [getField, getVarint_putVarintWithLen (varintLen_fits hle)]
    rfl
  · cases h

theorem putVarints_some {vs : List Nat} (h : ∀ v ∈ vs, v ≤ maxVarInt) : ∃ bytes, putVarints vs = some bytes ∧
    bytes.length = (vs.map (fun v => (varintLen v).len)).sum := by
  induction vs with
  | nil => exact ⟨[], rfl, rfl⟩
  | cons v vs ih =>
    obtain ⟨bytes, hbytes, hlength⟩ := ih (fun x hx => h x (List.mem_cons_of_mem _ hx))
    refine ⟨putVarintWithLen v (varintLen v) ++ bytes, ?_, ?_⟩
    · rw [putVarints, putVarint, if_pos (h v (List.mem_cons_self ..)), hbytes]
      rfl
    · rw [List.length_append, length_putVarintWithLen, hlength, List.map_cons, List.sum_cons]

/-- What is behind the first field. -/
theorem putVarints_cons {v : Nat} {vs : List Nat} {bytes : List UInt8} (h : putVarints (v :: vs) = some bytes) :
    ∃ front back, bytes = front ++ back ∧ (∀ rest, getField (bytes ++ rest) = .ok (v, back ++ rest)) ∧
      putVarints vs = some back := by
  rw [putVarints] at h
  obtain ⟨front, hfront, h⟩ := Option.bind_eq_some_iff.mp h
  obtain ⟨back, hback, rfl⟩ := Option.map_eq_some_iff.mp h
  refine ⟨front, back, rfl, ?_, hback⟩
  intro rest
  rw [List.append_assoc]
  exact getField_put hfront _

theorem putVarints_append {vs ws : List Nat} {bytes : List UInt8} (h : putVarints (vs ++ ws) = some bytes) :
    ∃ front back, bytes = front ++ back ∧ putVarints vs = some front ∧ putVarints ws = some back := by
  induction vs generalizing bytes with
  | nil => exact ⟨[], bytes, rfl, rfl, h⟩
  | cons v vs ih =>
    rw [List.cons_append, putVarints] at h
    obtain ⟨first, hfirst, h⟩ := Option.bind_eq_some_iff.mp h
    obtain ⟨later, hlater, rfl⟩ := Option.map_eq_some_iff.mp h
    obtain ⟨front, back, rfl, hfront, hback⟩ := ih hlater
    refine ⟨first ++ front, back, (List.append_assoc ..).symm, ?_, hback⟩
    rw [putVarints, hfirst, hfront]
    rfl

/-! ### Ranges that are read from the highest down -/

/-- The ranges a reader has are well formed and above a number. -/
structure Read (smallestAck : Nat) (ranges : RangeSet) : Prop where
  sound : ranges.Sound usizeMax
  filled : Filled ranges.iter
  above : ∀ r ∈ ranges.iter, smallestAck ≤ r.1
  small : ∀ r ∈ ranges.iter, r.2 ≤ 2 ^ 62

theorem read_default (smallestAck : Nat) : Read smallestAck RangeSet.default := by
  have hnone : ∀ r, r ∉ RangeSet.default.iter := fun r => List.not_mem_nil
  exact ⟨RangeSet.sound_new _, fun r hr => absurd hr (hnone r), fun r hr => absurd hr (hnone r),
    fun r hr => absurd hr (hnone r)⟩

theorem Read.smallest_le {smallestAck : Nat} {ranges : RangeSet} (h : Read smallestAck ranges)
    (hnonempty : ranges.iter ≠ []) : smallestAck ≤ 2 ^ 62 := by
  obtain ⟨r, hr⟩ := List.exists_mem_of_ne_nil _ hnonempty
  exact (h.above r hr).trans ((h.filled r hr).le.trans (h.small r hr))

theorem insertRange_spec {smallestAck : Nat} {ranges : RangeSet} (h : Read smallestAck ranges) {item : Range}
    (hitem : item.1 < item.2) (hbelow : item.2 < smallestAck ∨ ranges.iter = []) (hsmall : item.2 ≤ 2 ^ 62)
    (hroom : ranges.iter.length < usizeMax) :
    ∃ ranges', insertRange item ranges = .ok ranges' ∧ ranges'.iter = item :: ranges.iter ∧ Read item.1 ranges' := by
  obtain ⟨ranges', hinsert, hiter, hsound⟩ := RangeSet.insert_eq h.sound (by decide) hitem.le
  have hfirst : ∀ r ∈ ranges.iter, item.2 < r.1 := by
    intro r hr
    rcases hbelow with hbelow | hnil
    · have := h.above r hr
      omega
    · rw [hnil] at hr
      cases hr
  have hcover : ranges'.iter = item :: ranges.iter := by
    rw [hiter, coverWithin]
    have hfront : cover item.1 item.2 ranges.iter = item :: ranges.iter :=
      Intervals.cover_front hitem.le h.sound.separated hfirst
    rw [hfront, if_pos (by rw [List.length_cons]; exact hroom)]
  refine ⟨ranges', by rw [insertRange, hinsert]; rfl, hcover, hsound, ?_, ?_, ?_⟩
  · rw [hcover]
    intro r hr
    rcases List.mem_cons.mp hr with rfl | hr
    · exact hitem
    · exact h.filled r hr
  · rw [hcover]
    intro r hr
    rcases List.mem_cons.mp hr with rfl | hr
    · exact Nat.le_refl _
    · exact hitem.le.trans (hfirst r hr).le
  · rw [hcover]
    intro r hr
    rcases List.mem_cons.mp hr with rfl | hr
    · exact hsmall
    · exact h.small r hr

/-- A range is read from what was written for it. -/
theorem parseRange_ackBlock {ranges ranges' : RangeSet} {r : Range} (hr : r.1 < r.2) (hsmall : r.2 ≤ 2 ^ 62)
    (hinsert : insertRange r ranges = .ok ranges') :
    parseRange (r.2 - 1) (r.2 - 1 - r.1) ranges = .ok (r.1, ranges') := by
  have hsub : number (subU64 (r.2 - 1) (r.2 - 1 - r.1)) = .ok r.1 := by
    rw [number_sub (by omega), show r.2 - 1 - (r.2 - 1 - r.1) = r.1 by omega]
  have hadd : number (addU64 (r.2 - 1) 1) = .ok r.2 := by
    rw [number_add (by rw [Rust.u64Max]; omega), show r.2 - 1 + 1 = r.2 by omega]
  rw [parseRange, if_neg (by omega), hsub, hadd]
  show (insertRange r ranges).map _ = _
  rw [hinsert]
  rfl

/-- Ranges below those a reader has are read from what was written for them. -/
theorem parseBlocks_numbers {below : List Range} {smallestAck : Nat} {ranges : RangeSet} {bytes : List UInt8}
    (hbytes : putVarints (numbers smallestAck below) = some bytes) (hread : Read smallestAck ranges)
    (hbelow : Separated (below.reverse ++ ranges.iter)) (hfilled : Filled below)
    (hfirst : ∃ r ∈ ranges.iter, r.1 = smallestAck) (hroom : ranges.iter.length + below.length < usizeMax)
    (rest : List UInt8) :
    ∃ ranges', parseBlocks below.length smallestAck ranges (bytes ++ rest) = .ok (ranges', rest) ∧
      ranges'.iter = below.reverse ++ ranges.iter := by
  induction below generalizing smallestAck ranges bytes with
  | nil =>
    obtain rfl := Option.some.inj hbytes
    exact ⟨ranges, rfl, rfl⟩
  | cons block below ih =>
    rw [numbers] at hbytes
    obtain ⟨_, bytes, -, hgap, hbytes⟩ := putVarints_cons hbytes
    obtain ⟨_, bytes, -, hblock, hbytes⟩ := putVarints_cons hbytes
    rw [List.reverse_cons, List.append_assoc] at hbelow
    rw [List.length_cons] at hroom
    have hfill : block.1 < block.2 := hfilled block (List.mem_cons_self ..)
    have hlow : block.2 < smallestAck := by
      obtain ⟨r, hr, rfl⟩ := hfirst
      exact (separated_cons.mp hbelow.of_append.2).2.1 r hr
    have hsmall : block.2 ≤ 2 ^ 62 := by
      obtain ⟨r, hr, rfl⟩ := hfirst
      have := hread.small r hr
      have := hread.filled r hr
      omega
    obtain ⟨ranges', hinsert, hiter, hread'⟩ := insertRange_spec hread hfill (.inl hlow) hsmall (by omega)
    have hleast : number (addU64 2 (smallestAck - block.2 - 1)) = .ok (2 + (smallestAck - block.2 - 1)) := by
      apply number_add
      obtain ⟨r, hr, rfl⟩ := hfirst
      have := hread.filled r hr
      have := hread.small r hr
      rw [Rust.u64Max]
      omega
    have hlargest : smallestAck - (smallestAck - block.2 - 1) - 2 = block.2 - 1 := by omega
    have hrange := parseRange_ackBlock hfill hsmall hinsert
    obtain ⟨ranges'', hparse, hiter'⟩ := ih hbytes hread' (by rw [hiter]; exact hbelow)
      (fun r hr => hfilled r (List.mem_cons_of_mem _ hr))
      ⟨block, by rw [hiter]; exact List.mem_cons_self .., rfl⟩ (by rw [hiter, List.length_cons]; omega)
    refine ⟨ranges'', ?_, ?_⟩
    · rw [List.length_cons, parseBlocks, hgap]
      show (number (addU64 2 (smallestAck - block.2 - 1))).bind _ = _
      rw [hleast]
      show (if smallestAck < 2 + (smallestAck - block.2 - 1) then _ else _) = _
      rw [if_neg (by omega), number_below (by omega), hlargest]
      show (getField _).bind _ = _
      rw [hblock]
      show (parseRange (block.2 - 1) (block.2 - 1 - block.1) ranges).bind _ = _
      rw [hrange]
      exact hparse
    · rw [hiter', hiter, List.reverse_cons, List.append_assoc]
      rfl

theorem parseEcn_fields {ecn : Option EcnCounts} {bytes : List UInt8} (h : putVarints (ecnFields ecn) = some bytes)
    (rest : List UInt8) : parseEcn (if ecn.isNone then 0x02 else 0x03) (bytes ++ rest) = .ok (ecn, rest) := by
  cases ecn with
  | none =>
    obtain rfl := Option.some.inj h
    rfl
  | some ecn =>
    obtain ⟨_, bytes, -, hect0, h⟩ := putVarints_cons h
    obtain ⟨_, bytes, -, hect1, h⟩ := putVarints_cons h
    obtain ⟨_, bytes, -, hce, h⟩ := putVarints_cons h
    obtain rfl := Option.some.inj h
    show parseEcn 0x03 _ = _
    rw [parseEcn, if_pos (by decide), hect0]
    show (getField _).bind _ = _
    rw [hect1]
    show (getField _).map _ = _
    rw [hce]
    rfl

/-- A frame whose numbers can be written. -/
structure Sane (f : AckFrame) : Prop where
  separated : Separated f.ranges.iter
  filled : Filled f.ranges.iter
  nonempty : f.ranges.iter ≠ []
  small : ∀ r ∈ f.ranges.iter, r.2 ≤ 2 ^ 62
  few : f.ranges.iter.length ≤ maxVarInt + 1
  delay : f.ackDelay ≤ maxVarInt
  ecn : ∀ v ∈ ecnFields f.ecnCounts, v ≤ maxVarInt

theorem sum_ecn (ecn : Option EcnCounts) :
    ((ecnFields ecn).map (fun v => (varintLen v).len)).sum = ecnLen ecn := by
  cases ecn with
  | none => rfl
  | some ecn => simp [ecnFields, ecnLen, Nat.add_assoc]

theorem numbers_small {below : List Range} {smallestAck : Nat} (hsmall : smallestAck ≤ 2 ^ 62)
    (h : ∀ r ∈ below, r.1 < r.2 ∧ r.2 ≤ 2 ^ 62) : ∀ v ∈ numbers smallestAck below, v ≤ maxVarInt := by
  induction below generalizing smallestAck with
  | nil => simp [numbers]
  | cons block below ih =>
    obtain ⟨hfill, hblock⟩ := h block (List.mem_cons_self ..)
    intro v hv
    rw [numbers] at hv
    rw [maxVarInt]
    rcases List.mem_cons.mp hv with rfl | hv
    · omega
    rcases List.mem_cons.mp hv with rfl | hv
    · omega
    exact ih (by omega) (fun r hr => h r (List.mem_cons_of_mem _ hr)) v hv

variable {f : AckFrame}

/-- The highest range and those below it. -/
theorem Sane.split (h : f.Sane) : ∃ first below, f.ranges.iter.reverse = first :: below ∧
    f.ranges.iter = below.reverse ++ [first] ∧ (∀ r ∈ first :: below, r.1 < r.2 ∧ r.2 ≤ 2 ^ 62) ∧
    below.length ≤ maxVarInt := by
  cases hiter : f.ranges.iter.reverse with
  | nil => exact absurd (List.reverse_eq_nil_iff.mp hiter) h.nonempty
  | cons first below =>
    have heq : f.ranges.iter = below.reverse ++ [first] := by
      rw [← List.reverse_reverse f.ranges.iter, hiter, List.reverse_cons]
    refine ⟨first, below, rfl, heq, ?_, ?_⟩
    · intro r hr
      rw [← hiter] at hr
      have hr := List.mem_reverse.mp hr
      exact ⟨h.filled r hr, h.small r hr⟩
    · have := h.few
      rw [heq, List.length_append, List.length_reverse] at this
      exact Nat.le_of_succ_le_succ this

/-- What is written for a frame, and the length that is reckoned for it. -/
theorem Sane.fields_eq (h : f.Sane) {first : Range} {below : List Range}
    (hreverse : f.ranges.iter.reverse = first :: below)
    (hiter : f.ranges.iter = below.reverse ++ [first]) (hfilled : ∀ r ∈ first :: below, r.1 < r.2) :
    f.fields = some (f.frameType :: (first.2 - 1) :: f.ackDelay :: below.length ::
        (first.2 - 1 - first.1) :: (numbers first.1 below ++ ecnFields f.ecnCounts)) ∧
      f.wireLen = some (1 + (varintLen (first.2 - 1)).len + (varintLen f.ackDelay).len + (varintLen below.length).len +
        (varintLen (first.2 - 1 - first.1)).len + ((numbers first.1 below).map (fun v => (varintLen v).len)).sum +
        ecnLen f.ecnCounts) := by
  have hseparated := h.separated
  rw [hiter] at hseparated
  obtain ⟨hblocks, hlength⟩ := @blocks_eq below first.1 first.2 hseparated
    (fun r hr => hfilled r (List.mem_cons_of_mem _ hr))
  have hfirst := ackBlock_eq (hfilled first (List.mem_cons_self ..))
  refine ⟨?_, ?_⟩
  · rw [fields, hreverse]
    dsimp only
    rw [hfirst, hblocks]
    rfl
  · rw [wireLen, hreverse]
    dsimp only
    rw [hfirst, hlength]
    rfl

/-- A frame is written in the length that is reckoned for it, and read back. -/
theorem parseAckFrame_toBytes (h : f.Sane) : ∃ bytes, f.toBytes = some bytes ∧ f.wireLen = some bytes.length ∧
    ∀ rest, ∃ f', fromBytes (bytes ++ rest) = .ok (f', rest) ∧ f'.ackDelay = f.ackDelay ∧
      f'.ranges.iter = f.ranges.iter ∧ f'.ecnCounts = f.ecnCounts := by
  obtain ⟨first, below, hreverse, hiter, hranges, hfew⟩ := h.split
  obtain ⟨hfill, hsmall⟩ := hranges first (List.mem_cons_self ..)
  obtain ⟨hfields, hwire⟩ := h.fields_eq hreverse hiter (fun r hr => (hranges r hr).1)
  have htype : f.frameType ≤ 3 := by
    rw [frameType]
    split
    · decide
    · decide
  have hfit : ∀ v ∈ f.frameType :: (first.2 - 1) :: f.ackDelay :: below.length ::
      (first.2 - 1 - first.1) :: (numbers first.1 below ++ ecnFields f.ecnCounts), v ≤ maxVarInt := by
    have hmax : maxVarInt = 2 ^ 62 - 1 := rfl
    intro v hv
    simp only [List.mem_cons, List.mem_append] at hv
    rcases hv with rfl | rfl | rfl | rfl | rfl | hv | hv
    · omega
    · omega
    · exact h.delay
    · exact hfew
    · omega
    · exact numbers_small (by omega) (fun r hr => hranges r (List.mem_cons_of_mem _ hr)) v hv
    · exact h.ecn v hv
  obtain ⟨bytes, hbytes, hlength⟩ := putVarints_some hfit
  refine ⟨bytes, by rw [toBytes, hfields]; exact hbytes, ?_, ?_⟩
  · rw [hwire, hlength]
    simp only [List.map_cons, List.sum_cons, List.map_append, List.sum_append, sum_ecn]
    rw [show (varintLen f.frameType).len = 1 by rw [varintLen, if_pos (by omega)]; rfl]
    congr 1
    omega
  intro rest
  obtain ⟨_, bytes, -, hty, hbytes⟩ := putVarints_cons hbytes
  obtain ⟨_, bytes, -, hlargest, hbytes⟩ := putVarints_cons hbytes
  obtain ⟨_, bytes, -, hdelay, hbytes⟩ := putVarints_cons hbytes
  obtain ⟨_, bytes, -, hcount, hbytes⟩ := putVarints_cons hbytes
  obtain ⟨_, bytes, -, hblock, hbytes⟩ := putVarints_cons hbytes
  obtain ⟨front, back, rfl, hfront, hback⟩ := putVarints_append hbytes
  obtain ⟨ranges, hinsert, hfirst, hread⟩ := insertRange_spec (read_default 0) hfill (.inr rfl) hsmall (by decide)
  have hrange := parseRange_ackBlock hfill hsmall hinsert
  obtain ⟨ranges', hparse, hranges'⟩ := parseBlocks_numbers hfront hread (by rw [hfirst]; exact hiter ▸ h.separated)
    (fun r hr => (hranges r (List.mem_cons_of_mem _ hr)).1) ⟨first, by rw [hfirst]; exact List.mem_cons_self .., rfl⟩
    (by
      rw [hfirst]
      show 1 + below.length < 2 ^ 64 - 1
      have : below.length ≤ 4611686018427387903 := hfew
      omega)
    (back ++ rest)
  refine ⟨⟨f.ackDelay, ranges', f.ecnCounts⟩, ?_, rfl, hranges'.trans ?_, rfl⟩
  · rw [fromBytes, hty]
    show (if f.frameType = 0x02 ∨ f.frameType = 0x03 then parseAckFrame f.frameType _ else _) = _
    rw [if_pos (by rw [frameType]; split; exact .inl rfl; exact .inr rfl), parseAckFrame, hlargest]
    show (getField _).bind _ = _
    rw [hdelay]
    show (getField _).bind _ = _
    rw [hcount]
    show (getField _).bind _ = _
    rw [hblock]
    show (parseRange (first.2 - 1) (first.2 - 1 - first.1) RangeSet.default).bind _ = _
    rw [hrange, List.append_assoc]
    show (parseBlocks below.length first.1 ranges _).bind _ = _
    rw [hparse]
    show (parseEcn f.frameType _).map _ = _
    rw [frameType, parseEcn_fields hback]
    rfl
  · rw [hfirst]
    exact hiter.symm

/-! ### What is read from any bytes -/

theorem varint_small {bytes : List UInt8} {out : Nat × List UInt8} (h : getVarint bytes = some out) :
    out.1 ≤ maxVarInt := by
  cases bytes with
  | nil => cases h
  | cons first bytes =>
    rw [getVarint] at h
    obtain ⟨read, -, rfl⟩ := Option.map_eq_some_iff.mp h
    have hmask : (varintParseLen first).mask ≤ maxVarInt := by
      cases varintParseLen first <;> decide
    exact Nat.and_le_right.trans hmask

theorem getField_gives (bytes : List UInt8) : Gives .panicked (fun out => out.1 ≤ maxVarInt) (getField bytes) := by
  rw [getField]
  cases hget : getVarint bytes with
  | none => exact gives_error (fun hc => by cases hc)
  | some out => exact gives_ok (varint_small hget)

theorem parseRange_gives {smallestAck largestAck : Nat} {ranges : RangeSet} (h : Read smallestAck ranges)
    (hbelow : largestAck + 1 < smallestAck ∨ ranges.iter = []) (hsmall : largestAck < 2 ^ 62)
    (hroom : ranges.iter.length < usizeMax) (ackBlock : Nat) :
    Gives .panicked (fun out => Read out.1 out.2 ∧ out.2.iter.length = ranges.iter.length + 1)
      (parseRange largestAck ackBlock ranges) := by
  rw [parseRange]
  split
  · exact gives_error (fun hc => by cases hc)
  · rename_i hle
    have hitem : (largestAck - ackBlock, largestAck + 1).1 < (largestAck - ackBlock, largestAck + 1).2 := by
      show largestAck - ackBlock < largestAck + 1
      omega
    obtain ⟨ranges', hinsert, hiter, hread⟩ := insertRange_spec h hitem hbelow hsmall hroom
    rw [number_sub (not_lt.mp hle), number_add (by rw [Rust.u64Max]; omega)]
    show Gives _ _ ((insertRange (largestAck - ackBlock, largestAck + 1) ranges).map _)
    rw [hinsert]
    exact gives_ok ⟨hread, congrArg List.length hiter⟩

theorem parseBlocks_gives {blockCount smallestAck : Nat} {ranges : RangeSet} (h : Read smallestAck ranges)
    (hnonempty : ranges.iter ≠ [])
    (hroom : ranges.iter.length + blockCount < usizeMax) (bytes : List UInt8) :
    Gives .panicked (fun out => (∃ lowest, Read lowest out.1) ∧ out.1.iter ≠ [] ∧
      out.1.iter.length = ranges.iter.length + blockCount) (parseBlocks blockCount smallestAck ranges bytes) := by
  induction blockCount generalizing smallestAck ranges bytes with
  | zero => exact gives_ok ⟨⟨smallestAck, h⟩, hnonempty, rfl⟩
  | succ blockCount ih =>
    rw [parseBlocks]
    apply (getField_gives bytes).bind
    intro gap hgap
    rw [maxVarInt] at hgap
    rw [number_add (by rw [Rust.u64Max]; omega)]
    show Gives _ _ (if smallestAck < 2 + gap.1 then _ else _)
    split
    · exact gives_error (fun hc => by cases hc)
    have hsmall := h.smallest_le hnonempty
    rw [number_below (by omega)]
    apply (getField_gives gap.2).bind
    intro ackBlock _
    apply (parseRange_gives h (.inl (by omega)) (by omega) (by omega) ackBlock.1).bind
    intro parsed hparsed
    obtain ⟨hread, hlength⟩ := hparsed
    have hsome : parsed.2.iter ≠ [] := List.ne_nil_of_length_pos (by omega)
    have := ih hread hsome (by omega) ackBlock.2
    rwa [hlength, Nat.add_assoc, Nat.add_comm 1] at this

theorem parseEcn_gives (ty : Nat) (bytes : List UInt8) :
    Gives .panicked (fun out : Option EcnCounts × List UInt8 => ∀ v ∈ ecnFields out.1, v ≤ maxVarInt)
      (parseEcn ty bytes) := by
  rw [parseEcn]
  split
  · apply (getField_gives bytes).bind
    intro ect0 hect0
    apply (getField_gives ect0.2).bind
    intro ect1 hect1
    apply (getField_gives ect1.2).map
    intro ce hce
    simp [ecnFields, hect0, hect1, hce]
  · exact gives_ok (fun v hv => absurd hv List.not_mem_nil)

/-- Whatever the bytes are, reading does not panic, and ranges that are read are apart, not empty and in bounds. -/
theorem parseAckFrame_sound (bytes : List UInt8) :
    fromBytes bytes ≠ .error .panicked ∧ ∀ f rest, fromBytes bytes = .ok (f, rest) → f.Sane := by
  have hgives : Gives .panicked (fun out : AckFrame × List UInt8 => out.1.Sane) (fromBytes bytes) := by
    rw [fromBytes]
    apply (getField_gives bytes).bind
    intro ty _
    split
    swap
    · exact gives_error (fun hc => by cases hc)
    rw [parseAckFrame]
    apply (getField_gives ty.2).bind
    intro largestAck hlargest
    apply (getField_gives largestAck.2).bind
    intro ackDelay hdelay
    apply (getField_gives ackDelay.2).bind
    intro blockCount hcount
    apply (getField_gives blockCount.2).bind
    intro ackBlock _
    rw [maxVarInt] at hlargest hcount
    apply (parseRange_gives (read_default 0) (.inr rfl) (by omega) (by decide) ackBlock.1).bind
    intro first hfirst
    obtain ⟨hread, hlength⟩ := hfirst
    have hone : first.2.iter.length = 1 := hlength
    have hsome : first.2.iter ≠ [] := List.ne_nil_of_length_pos (by omega)
    apply (parseBlocks_gives hread hsome (by rw [hone, usizeMax]; omega) ackBlock.2).bind
    intro blocks hblocks
    obtain ⟨⟨lowest, hblocks⟩, hnonempty, hlength⟩ := hblocks
    apply (parseEcn_gives ty.1 blocks.2).map
    intro ecn hecn
    refine ⟨hblocks.sound.separated, hblocks.filled, hnonempty, hblocks.small, ?_, hdelay, hecn⟩
    show blocks.1.iter.length ≤ _
    rw [hlength, maxVarInt]
    omega
  exact ⟨hgives.safe, fun f rest hf => hgives.of_ok (f, rest) hf⟩

/-- Writing and reading agree on every frame that a reader takes, and on every other that fits. -/
theorem ack_frames : (∀ f : AckFrame, f.Sane → ∃ bytes, f.toBytes = some bytes ∧ f.wireLen = some bytes.length ∧
      ∀ rest, ∃ f', fromBytes (bytes ++ rest) = .ok (f', rest) ∧ f'.ackDelay = f.ackDelay ∧
        f'.ranges.iter = f.ranges.iter ∧ f'.ecnCounts = f.ecnCounts) ∧
    ∀ bytes, fromBytes bytes ≠ .error .panicked ∧ ∀ f rest, fromBytes bytes = .ok (f, rest) → f.Sane :=
  ⟨fun _ h => parseAckFrame_toBytes h, parseAckFrame_sound⟩

end AckFrame
end Aether.Quic
