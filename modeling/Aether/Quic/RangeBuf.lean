import Mathlib.Data.List.Basic
import Mathlib.Tactic.Common

/-! Pieces of a stream.

A `RangeBuf` is a view of a shared vector together with the offset in the stream that the
view starts at; consuming moves `pos` and leaves the rest as it is, so that it can be undone.
`Carries` says that what the view shows is what the stream has there. -/
namespace Aether.Quic

structure RangeBuf where
  data : List UInt8
  /-- Where the view starts in the vector. -/
  start : Nat
  pos : Nat
  len : Nat
  /-- Where the view starts in the stream. -/
  off : Nat
  fin : Bool

namespace RangeBuf

/-- `from_raw` -/
def fromRaw (data : List UInt8) (off : Nat) (fin : Bool) : RangeBuf := ⟨data, 0, 0, data.length, off, fin⟩

/-- `off()` -/
def offset (b : RangeBuf) : Nat := b.off - b.start + b.pos

/-- `len()` -/
def length (b : RangeBuf) : Nat := b.len - (b.pos - b.start)

def maxOff (b : RangeBuf) : Nat := b.offset + b.length

def isEmpty (b : RangeBuf) : Bool := b.length == 0

/-- `deref` -/
def bytes (b : RangeBuf) : List UInt8 := (b.data.take (b.start + b.len)).drop b.pos

def consume (count : Nat) (b : RangeBuf) : RangeBuf := {b with pos := b.pos + count}

/-- What stays and what is split off; the assertion fails where there is too little. -/
def splitOff (cut : Nat) (b : RangeBuf) : Option (RangeBuf × RangeBuf) :=
  if cut ≤ b.len then
    some ({b with pos := min b.pos (b.start + cut), len := cut, fin := false},
      {b with start := b.start + cut, pos := max b.pos (b.start + cut), len := b.len - cut, off := b.off + cut})
  else none

/-- The view is inside the vector and shows what the stream has there. -/
structure Carries (stream : List UInt8) (b : RangeBuf) : Prop where
  start_le : b.start ≤ b.pos
  pos_le : b.pos ≤ b.start + b.len
  inside : b.start + b.len ≤ b.data.length
  off_le : b.start ≤ b.off
  agrees : ∀ i, i < b.len → b.data[b.start + i]? = stream[b.off + i]?

variable {stream : List UInt8} {b : RangeBuf}

/-- A new view shows the stream if its bytes do. -/
theorem carries_fromRaw {data : List UInt8} {off : Nat} {fin : Bool} (h : data <+: stream.drop off) :
    (fromRaw data off fin).Carries stream := by
  refine ⟨Nat.le_refl _, Nat.zero_le _, ?_, Nat.zero_le _, ?_⟩
  · show 0 + data.length ≤ data.length
    omega
  · intro i hi
    show data[0 + i]? = stream[off + i]?
    rw [Nat.zero_add, ← List.getElem?_drop]
    obtain ⟨rest, hrest⟩ := h
    rw [← hrest, List.getElem?_append_left hi]

/-- The stream may grow. -/
theorem Carries.mono (h : b.Carries stream) {more : List UInt8} (hmore : stream <+: more) : b.Carries more := by
  refine ⟨h.start_le, h.pos_le, h.inside, h.off_le, ?_⟩
  intro i hi
  have hget := h.agrees i hi
  have hin : b.start + i < b.data.length := by
    have := h.inside
    omega
  obtain ⟨rest, rfl⟩ := hmore
  rw [List.getElem?_eq_getElem hin] at hget
  have hlt : b.off + i < stream.length := by
    by_contra hge
    rw [List.getElem?_eq_none (by omega)] at hget
    cases hget
  rw [List.getElem?_append_left hlt, List.getElem?_eq_getElem hin, hget]

theorem Carries.maxOff_eq (h : b.Carries stream) : b.maxOff = b.off + b.len := by
  have := h.start_le
  have := h.pos_le
  have := h.off_le
  rw [maxOff, offset, length]
  omega

theorem Carries.offset_eq (h : b.Carries stream) : b.offset = b.off + (b.pos - b.start) := by
  have := h.start_le
  have := h.off_le
  rw [offset]
  omega

theorem offset_le_maxOff (b : RangeBuf) : b.offset ≤ b.maxOff := Nat.le_add_right ..

theorem length_eq (b : RangeBuf) : b.length = b.maxOff - b.offset := by
  rw [maxOff]
  omega

theorem isEmpty_iff (b : RangeBuf) : b.isEmpty = true ↔ b.offset = b.maxOff := by
  rw [isEmpty, beq_iff_eq, maxOff]
  omega

/-- What is left of the view is what the stream has from there. -/
theorem Carries.bytes_eq (h : b.Carries stream) : b.bytes = (stream.drop b.offset).take b.length := by
  have := h.start_le
  have := h.pos_le
  have := h.off_le
  have hoffset := h.offset_eq
  have hlength : b.length = b.len - (b.pos - b.start) := rfl
  apply List.ext_getElem?
  intro i
  rw [bytes, List.getElem?_drop, List.getElem?_take, List.getElem?_take, List.getElem?_drop]
  by_cases hi : b.pos + i < b.start + b.len
  · rw [if_pos hi, if_pos (by omega), show b.pos + i = b.start + (b.pos - b.start + i) by omega,
      h.agrees _ (by omega), hoffset, Nat.add_assoc]
  · rw [if_neg hi, if_neg (by omega)]

theorem Carries.length_bytes (h : b.Carries stream) : b.bytes.length = b.length := by
  have := h.inside
  have := h.start_le
  rw [bytes, List.length_drop, List.length_take, length, Nat.min_eq_left h.inside]
  omega

/-- What is left after a part was handed out shows the same stream. -/
theorem Carries.consume (h : b.Carries stream) {count : Nat} (hcount : count ≤ b.length) :
    (b.consume count).Carries stream := by
  have := h.start_le
  have := h.pos_le
  have hlength : b.length = b.len - (b.pos - b.start) := rfl
  refine ⟨?_, ?_, h.inside, h.off_le, h.agrees⟩
  · show b.start ≤ b.pos + count
    omega
  · show b.pos + count ≤ b.start + b.len
    omega

@[simp] theorem offset_consume (b : RangeBuf) (count : Nat) : (b.consume count).offset = b.offset + count := by
  show b.off - b.start + (b.pos + count) = b.off - b.start + b.pos + count
  omega

/-- Handing out moves the front, not the end. -/
theorem Carries.maxOff_consume (h : b.Carries stream) {count : Nat} (hcount : count ≤ b.length) :
    (b.consume count).maxOff = b.maxOff := by
  rw [(h.consume hcount).maxOff_eq, h.maxOff_eq]
  rfl

/-! ### Splitting -/

/-- A cut inside gives two views that join on to each other. -/
theorem Carries.splitOff (h : b.Carries stream) {cut : Nat} (hat : cut ≤ b.len) :
    ∃ front back, b.splitOff cut = some (front, back) ∧ front.Carries stream ∧ back.Carries stream ∧
      front.off = b.off ∧ front.len = cut ∧ back.off = b.off + cut ∧ back.len = b.len - cut ∧
      front.offset = min b.offset (b.off + cut) ∧ back.offset = max b.offset (b.off + cut) ∧ back.fin = b.fin := by
  have h1 := h.start_le
  have h2 := h.pos_le
  have h3 := h.inside
  have h4 := h.off_le
  have hoffset := h.offset_eq
  refine ⟨_, _, if_pos hat, ⟨?_, ?_, ?_, h4, ?_⟩, ⟨?_, ?_, ?_, ?_, ?_⟩, rfl, rfl, rfl, rfl, ?_, ?_, rfl⟩
  · show b.start ≤ min b.pos (b.start + cut)
    omega
  · show min b.pos (b.start + cut) ≤ b.start + cut
    omega
  · show b.start + cut ≤ b.data.length
    omega
  · intro i hi
    exact h.agrees i (Nat.lt_of_lt_of_le hi hat)
  · show b.start + cut ≤ max b.pos (b.start + cut)
    omega
  · show max b.pos (b.start + cut) ≤ b.start + cut + (b.len - cut)
    omega
  · show b.start + cut + (b.len - cut) ≤ b.data.length
    omega
  · show b.start + cut ≤ b.off + cut
    omega
  · intro i hi
    have hi' : i < b.len - cut := hi
    show b.data[b.start + cut + i]? = stream[b.off + cut + i]?
    rw [Nat.add_assoc, Nat.add_assoc, h.agrees _ (by omega)]
  · show b.off - b.start + min b.pos (b.start + cut) = _
    omega
  · show b.off + cut - (b.start + cut) + max b.pos (b.start + cut) = _
    omega

/-- Nothing of the view is consumed. -/
structure Fresh (stream : List UInt8) (b : RangeBuf) : Prop extends b.Carries stream where
  unread : b.pos = b.start

theorem fresh_fromRaw {data : List UInt8} {off : Nat} (fin : Bool) (h : data <+: stream.drop off) :
    (fromRaw data off fin).Fresh stream := ⟨carries_fromRaw h, rfl⟩

theorem Fresh.offset_eq_off (h : b.Fresh stream) : b.offset = b.off := by
  rw [h.toCarries.offset_eq, h.unread]
  omega

/-- A view of which nothing is consumed splits into two of the kind. -/
theorem Fresh.splitOff (h : b.Fresh stream) {cut : Nat} (hlow : b.offset ≤ cut) (hhigh : cut ≤ b.maxOff) :
    ∃ front back, b.splitOff (cut - b.offset) = some (front, back) ∧ front.Fresh stream ∧ back.Fresh stream ∧
      front.offset = b.offset ∧ front.maxOff = cut ∧ back.offset = cut ∧ back.maxOff = b.maxOff ∧ back.fin = b.fin := by
  have hoff := h.offset_eq_off
  have hmax := h.toCarries.maxOff_eq
  obtain ⟨front, back, hsplit, hfront, hback, hfo, hfl, hbo, hbl, hfoff, hboff, hfin⟩ :=
    h.toCarries.splitOff (show cut - b.offset ≤ b.len by omega)
  have hf := hfront.offset_eq
  have hb := hback.offset_eq
  have hf1 := hfront.start_le
  have hb1 := hback.start_le
  refine ⟨front, back, hsplit, ⟨hfront, by omega⟩, ⟨hback, by omega⟩, ?_, ?_, ?_, ?_, hfin⟩
  · omega
  · rw [hfront.maxOff_eq]
    omega
  · omega
  · rw [hback.maxOff_eq, hmax]
    omega

end RangeBuf
end Aether.Quic
