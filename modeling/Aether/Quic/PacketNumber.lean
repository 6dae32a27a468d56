import Aether.Octets.Varint

/-! Packet numbers.

On the wire a packet has the low bytes of its number, as many as tell it from the numbers that
may be under way; the receiver completes them to the number closest to the one it expects
(`decode_of_near`). The numbers it has seen are in a window of 128 bits, below which all count
as seen (`Marks`). -/
namespace Aether.Quic
open Octets

/-! ### Numbers on the wire -/

/-- A sixty-two bit number that was encoded in so many bytes; too many are refused. -/
def pktNumLen (pn largestAcked : Nat) : Nat :=
  let numUnacked := pn - largestAcked + 1
  let minBits := numUnacked.size + 1
  (minBits + 7) / 8

def encodePktNum (pn pnLen : Nat) : Option (List UInt8) :=
  if 1 ≤ pnLen ∧ pnLen ≤ 4 then some (toBigEndian pnLen pn) else none

/-- What `decrypt_hdr` reads of the number. -/
def readPktNum (pnLen : Nat) (bytes : List UInt8) : Option (Nat × List UInt8) :=
  if 1 ≤ pnLen ∧ pnLen ≤ 4 then getUint pnLen bytes else none

def decodePktNum (largestPn truncatedPn pnLen : Nat) : Nat :=
  let pnNbits := pnLen * 8
  let expectedPn := largestPn + 1
  let pnWin := 1 <<< pnNbits
  let pnHwin := pnWin / 2
  -- The bits of the mask are cleared.
  let candidatePn := (expectedPn >>> pnNbits) <<< pnNbits ||| truncatedPn
  if candidatePn + pnHwin ≤ expectedPn ∧ candidatePn < 1 <<< 62 - pnWin then candidatePn + pnWin
  else if candidatePn > expectedPn + pnHwin ∧ candidatePn ≥ pnWin then candidatePn - pnWin
  else candidatePn

theorem len_of_encode {pn pnLen : Nat} {bytes : List UInt8} (h : encodePktNum pn pnLen = some bytes) :
    1 ≤ pnLen ∧ pnLen ≤ 4 := by
  rw [encodePktNum] at h
  split at h
  · assumption
  · cases h

theorem readPktNum_encode {pn pnLen : Nat} {bytes : List UInt8} (h : encodePktNum pn pnLen = some bytes)
    (rest : List UInt8) : readPktNum pnLen (bytes ++ rest) = some (pn % 2 ^ (8 * pnLen), rest) := by
  rw [encodePktNum] at h
  split at h
  · rename_i hlen
    obtain rfl := Option.some.inj h
    have hlength := length_toBigEndian pnLen pn
    rw [readPktNum, if_pos hlen, getUint_eq, getBytes_eq_some.mpr ⟨rfl, hlength⟩, Nat.pow_mul]
    show some (fromBigEndian (toBigEndian pnLen pn), rest) = _
    rw [fromBigEndian_toBigEndian]
  · cases h

/-- A number in reach of the one that is expected is completed. -/
theorem decode_of_near {largest pn pnLen : Nat} (hlen : 1 ≤ pnLen) (hpn : pn < 2 ^ 62)
    (hlow : largest + 1 < pn + 2 ^ (8 * pnLen) / 2) (hhigh : pn ≤ largest + 1 + 2 ^ (8 * pnLen) / 2) :
    decodePktNum largest (pn % 2 ^ (8 * pnLen)) pnLen = pn := by
  obtain ⟨win, hwin⟩ : ∃ win, win = 2 ^ (8 * pnLen) := ⟨_, rfl⟩
  have hhalf : 2 * (win / 2) = win ∧ 0 < win := by
    rw [hwin, show 8 * pnLen = (8 * pnLen - 1) + 1 by omega, Nat.pow_succ]
    have := Nat.two_pow_pos (8 * pnLen - 1)
    omega
  have hcandidate : (largest + 1) >>> (pnLen * 8) <<< (pnLen * 8) ||| pn % win =
      (largest + 1) / win * win + pn % win := by
    rw [Nat.shiftRight_eq_div_pow, Nat.shiftLeft_eq, Nat.mul_comm pnLen 8, ← hwin, Nat.mul_comm _ win, hwin]
    exact (Nat.two_pow_add_eq_or_of_lt (Nat.mod_lt _ (Nat.two_pow_pos _)) _).symm
  have hsize : (1 : Nat) <<< (pnLen * 8) = win := by
    rw [Nat.shiftLeft_eq, Nat.one_mul, Nat.mul_comm, hwin]
  have hmax : (1 : Nat) <<< 62 = 2 ^ 62 := by rw [Nat.shiftLeft_eq, Nat.one_mul]
  have hpnSplit := Nat.div_add_mod' pn win
  have hexpected := Nat.div_add_mod' (largest + 1) win
  have hmod := Nat.mod_lt pn hhalf.2
  have hmodE := Nat.mod_lt (largest + 1) hhalf.2
  rw [← hwin] at hlow hhigh ⊢
  rw [decodePktNum, hcandidate, hsize, hmax]
  -- The two numbers are in the same block of the window's size or in adjacent ones.
  obtain hblock | hblock | hblock : pn / win = (largest + 1) / win ∨ pn / win = (largest + 1) / win + 1 ∨
      pn / win + 1 = (largest + 1) / win := by
    have hupper : pn / win < (largest + 1) / win + 2 := by
      apply Nat.lt_of_mul_lt_mul_right (a := win)
      rw [Nat.add_mul]
      omega
    have hlower : (largest + 1) / win < pn / win + 2 := by
      apply Nat.lt_of_mul_lt_mul_right (a := win)
      rw [Nat.add_mul]
      omega
    omega
  · rw [hblock] at hpnSplit
    rw [if_neg (by omega), if_neg (by omega)]
    omega
  · rw [hblock, Nat.add_mul] at hpnSplit
    rw [if_pos (by omega)]
    omega
  · rw [← hblock, Nat.add_mul] at hexpected ⊢
    rw [if_neg (by omega), if_pos (by omega)]
    omega

/-- The number of bytes allows for twice the numbers that were not acknowledged. -/
theorem pktNumLen_spec (pn largestAcked : Nat) :
    1 ≤ pktNumLen pn largestAcked ∧ pn - largestAcked + 1 < 2 ^ (8 * pktNumLen pn largestAcked) / 2 := by
  obtain ⟨n, hn⟩ : ∃ n, n = pn - largestAcked + 1 := ⟨_, rfl⟩
  have hbits : n.size + 1 ≤ 8 * pktNumLen pn largestAcked := by
    rw [pktNumLen, ← hn]
    omega
  have hone : 1 ≤ pktNumLen pn largestAcked := by omega
  refine ⟨hone, ?_⟩
  rw [← hn]
  calc n < 2 ^ n.size := Nat.lt_size_self n
    _ ≤ 2 ^ (8 * pktNumLen pn largestAcked - 1) := Nat.pow_le_pow_right (by decide) (by omega)
    _ = 2 ^ (8 * pktNumLen pn largestAcked) / 2 := by
      rw [show 2 ^ (8 * pktNumLen pn largestAcked) = 2 ^ (8 * pktNumLen pn largestAcked - 1) * 2 by
        rw [← Nat.pow_succ]
        congr 1
        omega]
      omega

/-! ### Numbers that were seen -/

structure PktNumWindow where
  lower : Nat
  window : Nat

namespace PktNumWindow

def default : PktNumWindow := ⟨0, 0⟩

def upper (w : PktNumWindow) : Nat := min (w.lower + 128) (2 ^ 64 - 1) - 1

/-- The window moves up so far that the number is in it. -/
def slide (seq : Nat) (w : PktNumWindow) : PktNumWindow :=
  if seq > w.upper then
    let diff := seq - w.upper
    let shift := diff % 2 ^ 32
    ⟨w.lower + diff, if shift < 128 then (w.window <<< shift) % 2 ^ 128 else 0⟩
  else w

def insert (seq : Nat) (w : PktNumWindow) : PktNumWindow :=
  if seq < w.lower then w
  else
    let w := w.slide seq
    {w with window := w.window ||| 1 <<< (w.upper - seq)}

def contains (seq : Nat) (w : PktNumWindow) : Bool :=
  if seq > w.upper then false
  else if seq < w.lower then true
  else w.window &&& 1 <<< (w.upper - seq) != 0

/-- The bits of the window are the numbers in it. -/
structure Marks (numbers : Set Nat) (w : PktNumWindow) : Prop where
  inside : ∀ seq, w.lower ≤ seq → seq ≤ w.upper → (w.window.testBit (w.upper - seq) = true ↔ seq ∈ numbers)
  le_upper : ∀ seq ∈ numbers, seq ≤ w.upper
  small : w.upper < 2 ^ 62

variable {numbers : Set Nat} {w : PktNumWindow}

theorem Marks.upper_eq (h : Marks numbers w) : w.upper = w.lower + 127 := by
  have := h.small
  rw [upper] at this ⊢
  omega

theorem marks_default : Marks ∅ default := by
  refine ⟨?_, fun seq hseq => absurd hseq (Set.notMem_empty seq), by decide⟩
  intro seq _ _
  show (Nat.testBit 0 _ = true) ↔ _
  rw [Nat.zero_testBit]
  exact iff_of_false Bool.false_ne_true (Set.notMem_empty seq)

theorem Marks.contains_iff (h : Marks numbers w) (seq : Nat) :
    w.contains seq = true ↔ seq < w.lower ∨ seq ∈ numbers := by
  have hupper := h.upper_eq
  rw [contains]
  by_cases hhigh : seq > w.upper
  · rw [if_pos hhigh]
    refine iff_of_false Bool.false_ne_true ?_
    intro hc
    rcases hc with hlow | hmem
    · omega
    · have := h.le_upper seq hmem
      omega
  rw [if_neg hhigh]
  by_cases hlow : seq < w.lower
  · rw [if_pos hlow]
    exact iff_of_true rfl (.inl hlow)
  rw [if_neg hlow, ← h.inside seq (by omega) (by omega), or_iff_right hlow, bne_iff_ne, Nat.shiftLeft_eq, Nat.one_mul,
    Nat.and_two_pow]
  cases w.window.testBit (w.upper - seq) with
  | false => simp
  | true => simp

/-- What falls out of the window counts as seen. -/
theorem Marks.slide (h : Marks numbers w) {seq : Nat} (hsmall : seq < 2 ^ 62) (hnear : seq < w.upper + 2 ^ 32) :
    Marks numbers (w.slide seq) ∧ seq ≤ (w.slide seq).upper ∧ w.lower ≤ (w.slide seq).lower := by
  have hupper := h.upper_eq
  rw [PktNumWindow.slide]
  by_cases hhigh : seq > w.upper
  swap
  · rw [if_neg hhigh]
    exact ⟨h, by omega, Nat.le_refl _⟩
  rw [if_pos hhigh]
  dsimp only
  obtain ⟨diff, hdiff⟩ : ∃ diff, diff = seq - w.upper := ⟨_, rfl⟩
  rw [← hdiff, Nat.mod_eq_of_lt (show diff < 2 ^ 32 by omega)]
  obtain ⟨bits, hbits⟩ : ∃ bits, bits = if diff < 128 then (w.window <<< diff) % 2 ^ 128 else 0 := ⟨_, rfl⟩
  rw [← hbits]
  have hnew : upper ⟨w.lower + diff, bits⟩ = w.upper + diff := by
    rw [upper]
    show min (w.lower + diff + 128) _ - 1 = _
    omega
  refine ⟨⟨?_, ?_, by omega⟩, by omega, Nat.le_add_right _ _⟩
  · intro x hlow hx
    replace hlow : w.lower + diff ≤ x := hlow
    rw [hnew] at hx ⊢
    show bits.testBit _ = true ↔ _
    rw [hbits]
    by_cases hold : x ≤ w.upper
    · rw [if_pos (by omega), Nat.testBit_mod_two_pow, Nat.testBit_shiftLeft, decide_eq_true (by omega),
        decide_eq_true (by omega), Bool.true_and, Bool.true_and, show w.upper + diff - x - diff = w.upper - x by omega]
      exact h.inside x (by omega) hold
    · -- No number is above the window as it was.
      refine iff_of_false ?_ (fun hmem => hold (h.le_upper x hmem))
      split
      · rw [Nat.testBit_mod_two_pow, Nat.testBit_shiftLeft, decide_eq_false (show ¬ w.upper + diff - x ≥ diff by omega),
          Bool.false_and, Bool.and_false]
        exact Bool.false_ne_true
      · rw [Nat.zero_testBit]
        exact Bool.false_ne_true
  · intro x hx
    have := h.le_upper x hx
    omega

theorem Marks.insert (h : Marks numbers w) {seq : Nat} (hsmall : seq < 2 ^ 62) (hnear : seq < w.upper + 2 ^ 32)
    (hlow : w.lower ≤ seq) : Marks (Insert.insert seq numbers) (w.insert seq) := by
  obtain ⟨hslide, hseq, hlower⟩ := h.slide hsmall hnear
  obtain ⟨v, hv⟩ : ∃ v, v = w.slide seq := ⟨_, rfl⟩
  rw [PktNumWindow.insert, if_neg (by omega), ← hv]
  rw [← hv] at hslide hseq hlower
  have hupper : upper {v with window := v.window ||| 1 <<< (v.upper - seq)} = v.upper := rfl
  refine ⟨?_, ?_, hslide.small⟩
  · intro x hlow' hx
    rw [hupper] at hx ⊢
    have hinside := hslide.inside x hlow' hx
    show (v.window ||| 1 <<< (v.upper - seq)).testBit (v.upper - x) = true ↔ _
    rw [Nat.testBit_or, Bool.or_eq_true, hinside, Nat.shiftLeft_eq, Nat.one_mul, Nat.testBit_two_pow, decide_eq_true_eq,
      Set.mem_insert_iff, or_comm]
    apply or_congr_left
    omega
  · intro x hx
    rcases Set.mem_insert_iff.mp hx with rfl | hx
    · exact hseq
    · exact hslide.le_upper x hx

/-- The window ends where it did, or at the number. -/
theorem Marks.lower_insert (h : Marks numbers w) (seq : Nat) :
    (w.insert seq).lower = w.lower ∨ (w.insert seq).lower + 127 = seq := by
  have hupper := h.upper_eq
  rw [PktNumWindow.insert]
  split
  · exact .inl rfl
  show (w.slide seq).lower = w.lower ∨ (w.slide seq).lower + 127 = seq
  rw [PktNumWindow.slide]
  split
  · refine .inr ?_
    show w.lower + (seq - w.upper) + 127 = seq
    omega
  · exact .inl rfl

end PktNumWindow
end Aether.Quic
