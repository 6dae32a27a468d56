import Aether.Decoding.Incremental

/-! The `octets` buffers: big-endian integers and variable-length integers.

`Octets` reads off the front of a byte slice, `OctetsMut` writes into a slice of
fixed size; a read or a write that does not fit is refused and moves nothing. A
variable-length integer keeps its size in the two high bits of its first byte,
and a value may be written in any size it fits, not only the shortest.

Every reader is `Local`, and what is written in a size that fits is read back
(`getVarint_putVarintWithLen`). -/
namespace Aether.Octets
open Decoding

/-! ### Big-endian integers -/

def fromBigEndian (bs : List UInt8) : Nat := bs.foldl (fun v b => v * 256 + b.toNat) 0

/-- The low `n` bytes of `v`. -/
def toBigEndian : Nat → Nat → List UInt8
  | 0, _ => []
  | n + 1, v => UInt8.ofNat (v / 256 ^ n) :: toBigEndian n v

@[simp] theorem length_toBigEndian (n v : Nat) : (toBigEndian n v).length = n := by
  induction n with
  | zero => rfl
  | succ n ih => rw [toBigEndian, List.length_cons, ih]

theorem fromBigEndian_cons (b : UInt8) (bs : List UInt8) :
    fromBigEndian (b :: bs) = b.toNat * 256 ^ bs.length + fromBigEndian bs := by
  have hfold : ∀ (bs : List UInt8) (v : Nat),
      bs.foldl (fun v b => v * 256 + b.toNat) v = v * 256 ^ bs.length + fromBigEndian bs := by
    intro bs
    induction bs with
    | nil => simp [fromBigEndian]
    | cons b bs ih =>
      intro v
      rw [fromBigEndian, List.foldl_cons, List.foldl_cons, ih, ih (0 * 256 + _), List.length_cons, pow_succ]
      ring
  rw [fromBigEndian, List.foldl_cons, hfold]
  simp

theorem fromBigEndian_toBigEndian (n v : Nat) : fromBigEndian (toBigEndian n v) = v % 256 ^ n := by
  induction n with
  | zero => simp [toBigEndian, fromBigEndian, Nat.mod_one]
  | succ n ih =>
    have hsplit : v % 256 ^ (n + 1) = v % 256 ^ n + 256 ^ n * (v / 256 ^ n % 256) := Nat.mod_mul
    rw [toBigEndian, fromBigEndian_cons, length_toBigEndian, ih, UInt8.toNat_ofNat', hsplit]
    ring

/-! ### Reading -/

/-- `get_u8`, `get_u16`, `get_u32`, `get_u64`: `n` bytes as a number. -/
def getUint (n : Nat) (bs : List UInt8) : Option (Nat × List UInt8) :=
  if bs.length < n then none else some (fromBigEndian (bs.take n), bs.drop n)

def getU8 : List UInt8 → Option (UInt8 × List UInt8)
  | [] => none
  | b :: rest => some (b, rest)

def getBytes (n : Nat) (bs : List UInt8) : Option (List UInt8 × List UInt8) :=
  if bs.length < n then none else some (bs.take n, bs.drop n)

/-- The sizes of a variable-length integer. -/
inductive Size where
  | one
  | two
  | four
  | eight
  deriving DecidableEq

def Size.len : Size → Nat
  | .one => 1
  | .two => 2
  | .four => 4
  | .eight => 8

/-- The bits that hold the value. -/
def Size.bits (z : Size) : Nat := 8 * z.len - 2

/-- The mask that drops the size from what was read; one byte is taken as it is. -/
def Size.mask : Size → Nat
  | .one => 0xff
  | .two => 0x3fff
  | .four => 0x3fffffff
  | .eight => 0x3fffffffffffffff

def varintParseLen (first : UInt8) : Size :=
  match (first >>> 6).toNat with
  | 0 => .one
  | 1 => .two
  | 2 => .four
  | _ => .eight

def getVarint (bs : List UInt8) : Option (Nat × List UInt8) :=
  match bs with
  | [] => none
  | first :: _ =>
    let size := varintParseLen first
    (getUint size.len bs).map fun p => (p.1 &&& size.mask, p.2)

/-! ### Writing -/

/-- A slice of `cap` bytes with what is written to it so far. -/
structure OctetsMut where
  cap : Nat
  written : List UInt8 := []

/-- A write that does not fit is refused. -/
def OctetsMut.put (bs : List UInt8) (b : OctetsMut) : OctetsMut :=
  if b.cap < b.written.length + bs.length then b else {b with written := b.written ++ bs}

/-- The whole slice: what was never written is zero. -/
def OctetsMut.toList (b : OctetsMut) : List UInt8 :=
  b.written ++ List.replicate (b.cap - b.written.length) 0

theorem OctetsMut.put_of_fits {bs w : List UInt8} {cap : Nat} (h : w.length + bs.length ≤ cap) :
    OctetsMut.put bs ⟨cap, w⟩ = ⟨cap, w ++ bs⟩ := if_neg (Nat.not_lt.mpr h)

theorem OctetsMut.toList_full {w : List UInt8} {cap : Nat} (h : cap = w.length) :
    OctetsMut.toList ⟨cap, w⟩ = w := by
  subst h
  simp [OctetsMut.toList]

/-- The size as it is set in the first byte. -/
def Size.tag : Size → UInt8
  | .one => 0
  | .two => 0x40
  | .four => 0x80
  | .eight => 0xc0

/-- The largest value that can be written. -/
def maxVarInt : Nat := 4611686018427387903

def varintLen (v : Nat) : Size :=
  if v ≤ 63 then .one
  else if v ≤ 16383 then .two
  else if v ≤ 1073741823 then .four
  else .eight

def putVarintWithLen (v : Nat) (size : Size) : List UInt8 :=
  match toBigEndian size.len v with
  | [] => []
  | first :: rest => (first ||| size.tag) :: rest

/-- A value above the largest one panics; the caller sees no slice at all. -/
def putVarint (v : Nat) : Option (List UInt8) :=
  if v ≤ maxVarInt then some (putVarintWithLen v (varintLen v)) else none

/-! ### Readers are local -/

theorem getBytes_eq_some {n : Nat} {xs c rest : List UInt8} :
    getBytes n xs = some (c, rest) ↔ xs = c ++ rest ∧ c.length = n := by
  unfold getBytes
  constructor
  · intro h
    split at h
    · cases h
    · obtain ⟨rfl, rfl⟩ := Prod.mk.inj (Option.some.inj h)
      refine ⟨(List.take_append_drop ..).symm, ?_⟩
      rw [List.length_take]
      omega
  · intro ⟨hxs, hlen⟩
    subst hxs hlen
    rw [if_neg (by rw [List.length_append]; omega)]
    simp

theorem getBytes_local (n : Nat) : Local (getBytes n) := by
  intro xs c rest h
  obtain ⟨rfl, hlen⟩ := getBytes_eq_some.mp h
  exact ⟨c, rfl, fun ys => getBytes_eq_some.mpr ⟨rfl, hlen⟩⟩

theorem getUint_eq (n : Nat) (bs : List UInt8) :
    getUint n bs = (getBytes n bs).map fun p => (fromBigEndian p.1, p.2) := by
  unfold getUint getBytes
  split <;> rfl

theorem getU8_shrinks {bs rest : List UInt8} {b : UInt8} (h : getU8 bs = some (b, rest)) :
    rest.length < bs.length := by
  cases bs with
  | nil => cases h
  | cons b bs =>
    obtain ⟨rfl, rfl⟩ := Prod.mk.inj (Option.some.inj h)
    exact Nat.lt_succ_self _

theorem Size.len_pos (z : Size) : 0 < z.len := by cases z <;> decide

/-- A variable-length integer is as many bytes as the first of them says. -/
theorem getVarint_eq_some {first : UInt8} {bs : List UInt8}
    (h : (first :: bs).length = (varintParseLen first).len) (ys : List UInt8) :
    getVarint ((first :: bs) ++ ys) =
      some (fromBigEndian (first :: bs) &&& (varintParseLen first).mask, ys) := by
  rw [List.cons_append, getVarint, getUint_eq, getBytes_eq_some.mpr ⟨List.cons_append.symm, h⟩]
  rfl

theorem getVarint_local : Local getVarint := by
  intro xs c rest h
  cases xs with
  | nil => cases h
  | cons first bs =>
    simp only [getVarint, getUint_eq, Option.map_map] at h
    obtain ⟨⟨taken, rest'⟩, hget, hc⟩ := Option.map_eq_some_iff.mp h
    obtain ⟨rfl, rfl⟩ := Prod.mk.inj hc
    obtain ⟨hxs, hlen⟩ := getBytes_eq_some.mp hget
    cases taken with
    | nil => exact absurd hlen (Nat.ne_of_lt (Size.len_pos _))
    | cons b taken =>
      obtain ⟨rfl, rfl⟩ := List.cons.inj hxs
      exact ⟨first :: taken, rfl, getVarint_eq_some hlen⟩

/-! ### What is written is read back -/

/-- The size goes into bits that a value which fits leaves free. -/
theorem tag_or (z : Size) {first : UInt8} (h : first.toNat < 64) :
    (first ||| z.tag).toNat = z.tag.toNat + first.toNat := by
  have hfree (a : Nat) : 64 * a + first.toNat = 64 * a ||| first.toNat :=
    Nat.two_pow_add_eq_or_of_lt (i := 6) h a
  rw [UInt8.toNat_or, Nat.or_comm]
  cases z with
  | one => exact (hfree 0).symm
  | two => exact (hfree 1).symm
  | four => exact (hfree 2).symm
  | eight => exact (hfree 3).symm

theorem varintParseLen_tag (z : Size) {first : UInt8} (h : first.toNat < 64) :
    varintParseLen (first ||| z.tag) = z := by
  have hshift : ((first ||| z.tag) >>> 6).toNat = (z.tag.toNat + first.toNat) / 64 := by
    rw [UInt8.toNat_shiftRight, tag_or z h, Nat.shiftRight_eq_div_pow]
    rfl
  have htag : (z.tag.toNat + first.toNat) / 64 = z.tag.toNat / 64 := by
    cases z <;> simp only [Size.tag, UInt8.reduceToNat] <;> omega
  rw [varintParseLen, hshift, htag]
  cases z <;> rfl

/-- The tag is above the mask. -/
theorem untagged {v : Nat} {size : Size} (h : v < 2 ^ size.bits) :
    (size.tag.toNat * 256 ^ (size.len - 1) + v) &&& size.mask = v := by
  cases size with
  | one =>
    rw [show Size.one.mask = 2 ^ 8 - 1 from rfl, Nat.and_two_pow_sub_one_eq_mod]
    simp [Size.tag, Size.bits, Size.len] at *
    omega
  | two =>
    rw [show Size.two.mask = 2 ^ 14 - 1 from rfl, Nat.and_two_pow_sub_one_eq_mod]
    simp [Size.tag, Size.bits, Size.len] at *
    omega
  | four =>
    rw [show Size.four.mask = 2 ^ 30 - 1 from rfl, Nat.and_two_pow_sub_one_eq_mod]
    simp [Size.tag, Size.bits, Size.len] at *
    omega
  | eight =>
    rw [show Size.eight.mask = 2 ^ 62 - 1 from rfl, Nat.and_two_pow_sub_one_eq_mod]
    simp [Size.tag, Size.bits, Size.len] at *
    omega

theorem putVarintWithLen_eq (v : Nat) (size : Size) :
    putVarintWithLen v size =
      (UInt8.ofNat (v / 256 ^ (size.len - 1)) ||| size.tag) :: toBigEndian (size.len - 1) v := by
  cases size <;> rfl

theorem length_putVarintWithLen (v : Nat) (size : Size) : (putVarintWithLen v size).length = size.len := by
  rw [putVarintWithLen_eq, List.length_cons, length_toBigEndian, Nat.sub_add_cancel size.len_pos]

theorem two_pow_bits (z : Size) : 2 ^ z.bits = 64 * 256 ^ (z.len - 1) := by
  cases z <;> rfl

/-- A value is read back from any size it fits. -/
theorem getVarint_putVarintWithLen {v : Nat} {size : Size} (h : v < 2 ^ size.bits) (rest : List UInt8) :
    getVarint (putVarintWithLen v size ++ rest) = some (v, rest) := by
  have hfirst : v / 256 ^ (size.len - 1) < 64 := by
    rw [two_pow_bits] at h
    exact Nat.div_lt_of_lt_mul (by rwa [Nat.mul_comm] at h)
  have hbyte : (UInt8.ofNat (v / 256 ^ (size.len - 1))).toNat = v / 256 ^ (size.len - 1) := by
    rw [UInt8.toNat_ofNat']
    exact Nat.mod_eq_of_lt (by omega)
  have hparse := varintParseLen_tag size (hbyte.symm ▸ hfirst)
  have hlen := length_putVarintWithLen v size
  rw [putVarintWithLen_eq] at hlen ⊢
  rw [getVarint_eq_some (hlen.trans (congrArg Size.len hparse.symm)), hparse, fromBigEndian_cons,
    tag_or size (hbyte.symm ▸ hfirst), hbyte, length_toBigEndian, fromBigEndian_toBigEndian]
  have hvalue : (size.tag.toNat + v / 256 ^ (size.len - 1)) * 256 ^ (size.len - 1) +
      v % 256 ^ (size.len - 1) = size.tag.toNat * 256 ^ (size.len - 1) + v := by
    rw [Nat.add_mul, Nat.add_assoc, Nat.div_add_mod']
  rw [hvalue, untagged h]

theorem varintLen_fits {v : Nat} (h : v ≤ maxVarInt) : v < 2 ^ (varintLen v).bits := by
  unfold varintLen
  unfold maxVarInt at h
  split
  · simp [Size.bits, Size.len]; omega
  · split
    · simp [Size.bits, Size.len]; omega
    · split <;> simp [Size.bits, Size.len] <;> omega

/-! ### What is read was written -/

theorem toBigEndian_fromBigEndian (bs : List UInt8) (high : Nat) :
    toBigEndian bs.length (high * 256 ^ bs.length + fromBigEndian bs) = bs ∧ fromBigEndian bs < 256 ^ bs.length := by
  induction bs generalizing high with
  | nil => exact ⟨rfl, by decide⟩
  | cons b bs ih =>
    have hbyte := b.toNat_lt
    have hlow := (ih 0).2
    have hvalue : high * 256 ^ (bs.length + 1) + fromBigEndian (b :: bs) =
        (high * 256 + b.toNat) * 256 ^ bs.length + fromBigEndian bs := by
      rw [fromBigEndian_cons, pow_succ]
      ring
    have hdiv : ((high * 256 + b.toNat) * 256 ^ bs.length + fromBigEndian bs)
      / 256 ^ bs.length = high * 256 + b.toNat := by
      rw [Nat.mul_comm, Nat.mul_add_div (by positivity), Nat.div_eq_of_lt hlow, Nat.add_zero]
    have hfirst : UInt8.ofNat (high * 256 + b.toNat) = b := by
      rw [← UInt8.toNat_inj, UInt8.toNat_ofNat']
      omega
    constructor
    · rw [List.length_cons, hvalue, toBigEndian, hdiv, hfirst, (ih _).1]
    · rw [fromBigEndian_cons, List.length_cons, pow_succ]
      calc b.toNat * 256 ^ bs.length + fromBigEndian bs < b.toNat * 256 ^ bs.length + 256 ^ bs.length := by omega
        _ = (b.toNat + 1) * 256 ^ bs.length := by ring
        _ ≤ 256 * 256 ^ bs.length := Nat.mul_le_mul_right _ hbyte
        _ = 256 ^ bs.length * 256 := Nat.mul_comm _ _

/-- The first byte is the size and six bits of the value. -/
theorem varintParseLen_spec (first : UInt8) :
    ∃ f, f < 64 ∧ first.toNat = (varintParseLen first).tag.toNat + f := by
  have hlt := first.toNat_lt
  have hshift : (first >>> 6).toNat = first.toNat / 64 := by
    rw [UInt8.toNat_shiftRight, Nat.shiftRight_eq_div_pow]
    rfl
  refine ⟨first.toNat % 64, Nat.mod_lt _ (by decide), ?_⟩
  have hquarter : first.toNat / 64 < 4 := by omega
  rw [varintParseLen, hshift]
  interval_cases hsize : first.toNat / 64 <;> simp only [Size.tag, UInt8.reduceToNat] <;> omega

/-- What is read as an integer was written in one of the sizes. -/
theorem exists_of_getVarint {bs rest : List UInt8} {v : Nat} (h : getVarint bs = some (v, rest)) :
    ∃ size, bs = putVarintWithLen v size ++ rest := by
  cases bs with
  | nil => cases h
  | cons first bs =>
    rw [getVarint] at h
    obtain ⟨⟨n, left⟩, hget, hpair⟩ := Option.map_eq_some_iff.mp h
    obtain ⟨rfl, rfl⟩ := Prod.mk.inj hpair
    rw [getUint_eq] at hget
    obtain ⟨⟨taken, left'⟩, hbytes, htaken⟩ := Option.map_eq_some_iff.mp hget
    obtain ⟨rfl, rfl⟩ := Prod.mk.inj htaken
    obtain ⟨hsplit, hlength⟩ := getBytes_eq_some.mp hbytes
    obtain ⟨f, hf, hfirst⟩ := varintParseLen_spec first
    generalize varintParseLen first = size at hlength hfirst ⊢
    cases taken with
    | nil => exact absurd hlength (Nat.ne_of_lt size.len_pos)
    | cons b taken =>
      obtain ⟨rfl, rfl⟩ := List.cons.inj hsplit
      have hrest : taken.length = size.len - 1 := by rw [← hlength]; rfl
      obtain ⟨hback, hlow⟩ := toBigEndian_fromBigEndian taken f
      rw [hrest] at hback hlow
      have hfits : f * 256 ^ (size.len - 1) + fromBigEndian taken < 2 ^ size.bits := by
        rw [two_pow_bits]
        calc f * 256 ^ (size.len - 1) + fromBigEndian taken < (f + 1) * 256 ^ (size.len - 1) := by
              rw [Nat.add_mul, Nat.one_mul]
              omega
          _ ≤ 64 * 256 ^ (size.len - 1) := Nat.mul_le_mul_right _ hf
      have hvalue : fromBigEndian (first :: taken) &&& size.mask = f * 256 ^ (size.len - 1) + fromBigEndian taken := by
        rw [fromBigEndian_cons, hrest, hfirst, Nat.add_mul, Nat.add_assoc, untagged hfits]
      have hdiv : (f * 256 ^ (size.len - 1) + fromBigEndian taken) / 256 ^ (size.len - 1) = f := by
        rw [Nat.mul_comm, Nat.mul_add_div (by positivity), Nat.div_eq_of_lt hlow, Nat.add_zero]
      have hbyte : UInt8.ofNat f ||| size.tag = first := by
        have hof : (UInt8.ofNat f).toNat = f := by
          rw [UInt8.toNat_ofNat', Nat.mod_eq_of_lt (by omega)]
        rw [← UInt8.toNat_inj, tag_or size (by omega), hof, hfirst]
      refine ⟨size, ?_⟩
      rw [hvalue, putVarintWithLen_eq, hdiv, hbyte, hback]
      rfl

end Aether.Octets
