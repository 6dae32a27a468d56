import Aether.Masque.Drain
import Aether.Masque.QuicRun

/-! Packets in datagrams.

Over HTTP/3 a packet goes in a datagram, behind the quarter of the stream's id and the id of
its context. Over HTTP/2 the datagram is a capsule, and the packet in it may stand behind the
id of the context or not: `strip_datagram_context` takes it for the one or the other by what
it looks like. -/
namespace Aether.Masque
open Octets Decoding
open Aether.Masque.Quic (quarterStreamId decodeIpDatagram)

/-- A write that does not fit is an error. -/
def tryPut (bs : List UInt8) (b : OctetsMut) : Except AetherError OctetsMut :=
  oct (if b.cap < b.written.length + bs.length then none else some (b.put bs))

/-- `encode_ip_datagram`; there is no result where `put_varint` panics. -/
def encodeIpDatagram (streamId : Nat) (ipPacket : List UInt8) : Option (Except AetherError (List UInt8)) := do
  let qsid := quarterStreamId streamId
  let ctx := connectIpContextId
  let cap := varintLen qsid + varintLen ctx + ipPacket.length
  let qsidBytes ← putVarint qsid
  let ctxBytes ← putVarint ctx
  return do
    let b ← tryPut qsidBytes { cap }
    let b ← tryPut ctxBytes b
    let b ← tryPut ipPacket b
    return b.toList

/-! ### Packets -/

/-- An IPv4 packet, whose header has at least five words, or an IPv6 packet; of at least 20
bytes. -/
def IpPacket (p : List UInt8) : Prop :=
  20 ≤ p.length ∧ ∃ first ∈ p.head?, first.toNat / 16 = 4 ∧ 5 ≤ first.toNat % 16 ∨ first.toNat / 16 = 6

/-- The id of the context, in any of the sizes of an integer. -/
def Context (c : List UInt8) : Prop := ∃ size, c = putVarintWithLen connectIpContextId size

theorem shift_four (b n : UInt8) : (b >>> 4 == n) = true ↔ b.toNat / 16 = n.toNat := by
  have hshift : (b >>> 4).toNat = b.toNat / 16 := by
    rw [UInt8.toNat_shiftRight, Nat.shiftRight_eq_div_pow]
    rfl
  rw [beq_iff_eq, ← UInt8.toNat_inj, hshift]

theorem looksLikeIpPacket_cons (first : UInt8) (rest : List UInt8) :
    looksLikeIpPacket (first :: rest) = true ↔
      (first.toNat / 16 = 4 ∨ first.toNat / 16 = 6) ∧ 20 ≤ (first :: rest).length := by
  show ((first >>> 4 == 4 || first >>> 4 == 6) && decide (20 ≤ (first :: rest).length)) = true ↔ _
  rw [Bool.and_eq_true, Bool.or_eq_true, shift_four, shift_four, decide_eq_true_eq]
  rfl

theorem IpPacket.looks {p : List UInt8} (h : IpPacket p) : looksLikeIpPacket p = true := by
  obtain ⟨hlength, first, hfirst, hversion⟩ := h
  cases p with
  | nil => cases hfirst
  | cons b rest =>
    obtain rfl := Option.some.inj hfirst
    refine (looksLikeIpPacket_cons b rest).mpr ⟨?_, hlength⟩
    omega

/-- The first octets of a packet are no id of the context. -/
theorem IpPacket.no_context {p inner : List UInt8} (h : IpPacket p) :
    getVarint p ≠ some (connectIpContextId, inner) := by
  intro hread
  obtain ⟨-, first, hfirst, hversion⟩ := h
  obtain ⟨size, rfl⟩ := exists_of_getVarint hread
  rw [putVarintWithLen_eq] at hfirst
  have hzero : UInt8.ofNat (connectIpContextId / 256 ^ (size.len - 1)) ||| size.tag = size.tag := by
    cases size <;> decide
  rw [hzero] at hfirst
  have htag : size.tag = first := Option.some.inj hfirst
  cases size <;> simp only [Size.tag] at htag <;> subst htag <;> simp at hversion

/-! ### Datagrams -/

theorem context_small : connectIpContextId ≤ maxVarInt := Nat.zero_le _

/-- The two ids are written in their shortest sizes, and the slice is just large enough. -/
theorem encodeIpDatagram_eq {streamId : Nat} (h : quarterStreamId streamId ≤ maxVarInt) (p : List UInt8) :
    encodeIpDatagram streamId p = some (.ok
      (putVarintWithLen (quarterStreamId streamId) (Octets.varintLen (quarterStreamId streamId)) ++
        putVarintWithLen connectIpContextId (Octets.varintLen connectIpContextId) ++ p)) := by
  have hq := length_putVarintWithLen (quarterStreamId streamId) (Octets.varintLen (quarterStreamId streamId))
  have hc := length_putVarintWithLen connectIpContextId (Octets.varintLen connectIpContextId)
  rw [← varintLen_eq] at hq hc
  simp only [encodeIpDatagram, putVarint, h, context_small, if_true, Option.bind_eq_bind, Option.bind_some,
    Option.pure_def]
  generalize putVarintWithLen (quarterStreamId streamId) (Octets.varintLen (quarterStreamId streamId)) = q at hq ⊢
  generalize putVarintWithLen connectIpContextId (Octets.varintLen connectIpContextId) = c at hc ⊢
  rw [← hq, ← hc]
  have hfits : ∀ {w bs : List UInt8}, w.length + bs.length ≤ q.length + c.length + p.length →
      tryPut bs ⟨q.length + c.length + p.length, w⟩ = .ok ⟨q.length + c.length + p.length, w ++ bs⟩ := by
    intro w bs hle
    rw [tryPut, if_neg (Nat.not_lt.mpr hle), OctetsMut.put_of_fits hle]
    rfl
  have hq₁ := @hfits [] q (by simp only [List.length_nil]; omega)
  have hc₁ := @hfits q c (by omega)
  have hp₁ := @hfits (q ++ c) p (by rw [List.length_append])
  rw [List.nil_append] at hq₁
  have hfull : OctetsMut.toList ⟨q.length + c.length + p.length, q ++ c ++ p⟩ = q ++ c ++ p :=
    OctetsMut.toList_full (by rw [List.length_append, List.length_append])
  rw [hq₁]
  change some (tryPut c ⟨_, q⟩ >>= fun b => tryPut p b >>= fun b => .ok b.toList) = _
  rw [hc₁]
  change some (tryPut p ⟨_, q ++ c⟩ >>= fun b => .ok b.toList) = _
  rw [hp₁]
  exact congrArg (fun bytes => some (Except.ok bytes)) hfull

/-- A datagram of another stream, in whatever sizes its ids are written. -/
theorem decode_other {qsid streamId : Nat} {size : Size} (hfits : qsid < 2 ^ size.bits)
    (hne : qsid ≠ quarterStreamId streamId)
    (rest : List UInt8) : decodeIpDatagram (putVarintWithLen qsid size ++ rest) streamId = .ok none := by
  rw [decodeIpDatagram, getVarint_putVarintWithLen hfits]
  show (if qsid ≠ quarterStreamId streamId then (.ok none : Except AetherError (Option (List UInt8))) else _) = _
  rw [if_pos hne]

theorem decode_own {streamId : Nat} {size : Size} (hfits : quarterStreamId streamId < 2 ^ size.bits) {ctx : Nat}
    {ctxSize : Size}
    (hctx : ctx < 2 ^ ctxSize.bits) (p : List UInt8) :
    decodeIpDatagram (putVarintWithLen (quarterStreamId streamId)
      size ++ (putVarintWithLen ctx ctxSize ++ p)) streamId =
      .ok (if ctx = connectIpContextId then some p else none) := by
  rw [decodeIpDatagram, getVarint_putVarintWithLen hfits]
  show (if quarterStreamId streamId ≠ quarterStreamId streamId then (.ok none : Except AetherError (Option (List UInt8)))
    else (oct (getVarint (putVarintWithLen ctx ctxSize ++ p)) >>= _)) = _
  rw [if_neg (by simp), getVarint_putVarintWithLen hctx]
  show (if ctx ≠ connectIpContextId then (.ok none : Except AetherError (Option (List UInt8))) else .ok (some p)) = _
  by_cases h : ctx = connectIpContextId
  · rw [if_neg (not_not.mpr h), if_pos h]
  · rw [if_pos h, if_neg h]

/-! ### Capsules -/

/-- What is left when no context stands in front. -/
theorem strip_unread {p : List UInt8} (hread : ∀ inner, getVarint p = some (connectIpContextId, inner) →
    looksLikeIpPacket inner = false) :
    stripDatagramContext p = if looksLikeIpPacket p then some p else none := by
  rw [stripDatagramContext]
  split
  · rename_i hnil
    rw [hnil]
    rfl
  · split
    · rename_i hsome
      obtain ⟨hmem, hboth⟩ := Option.filter_eq_some_iff.mp hsome
      obtain ⟨hctx, hinner⟩ := (Bool.and_eq_true _ _).mp hboth
      rw [beq_iff_eq.mp hctx] at hmem
      rw [hread _ hmem] at hinner
      cases hinner
    · rfl

theorem strip_context {c p : List UInt8} (hc : Context c) (hp : looksLikeIpPacket p = true) :
    stripDatagramContext (c ++ p) = some p := by
  obtain ⟨size, rfl⟩ := hc
  have hread := @getVarint_putVarintWithLen connectIpContextId size (Nat.two_pow_pos _) p
  have hne : putVarintWithLen connectIpContextId size ++ p ≠ [] := by
    rw [putVarintWithLen_eq]
    exact List.cons_ne_nil _ _
  rw [stripDatagramContext, if_neg hne, hread]
  split
  · rename_i hsome
    obtain ⟨-, rfl⟩ := Prod.mk.inj (Option.some.inj (Option.filter_eq_some_iff.mp hsome).1)
    rfl
  · rename_i hnone
    exact absurd (by simp [hp]) (Option.filter_eq_none_iff.mp hnone _ rfl)

theorem strip_bare {p : List UInt8} (hlook : looksLikeIpPacket p = true)
    (hno : ∀ inner, getVarint p ≠ some (connectIpContextId, inner)) : stripDatagramContext p = some p := by
  rw [strip_unread fun inner hread => absurd hread (hno inner), if_pos hlook]

theorem strip_none {p : List UInt8} (hlook : looksLikeIpPacket p = false)
    (hno : ∀ c inner, Context c → p = c ++ inner → looksLikeIpPacket inner = false) :
      stripDatagramContext p = none := by
  have hread : ∀ inner, getVarint p = some (connectIpContextId, inner) → looksLikeIpPacket inner = false := by
    intro inner hread
    obtain ⟨size, hsplit⟩ := exists_of_getVarint hread
    exact hno _ inner ⟨size, rfl⟩ hsplit
  rw [strip_unread hread, hlook]
  rfl

/-- A packet comes back from its datagram, and only for its own stream and context; from a capsule
it comes back with or without the context in front, and nothing else is taken for one that does
not have the length and the version of a packet. -/
theorem framing_exact :
    (∀ streamId < 2 ^ 62, ∀ p, ∃ datagram, encodeIpDatagram streamId p = some (.ok datagram) ∧
      decodeIpDatagram datagram streamId = .ok (some p) ∧
      ∀ other, quarterStreamId other ≠ quarterStreamId streamId → decodeIpDatagram datagram other = .ok none) ∧
    (∀ streamId qsid size rest, qsid < 2 ^ size.bits → qsid ≠ quarterStreamId streamId →
      decodeIpDatagram (putVarintWithLen qsid size ++ rest) streamId = .ok none) ∧
    (∀ streamId size ctx ctxSize p, quarterStreamId streamId < 2 ^ size.bits → ctx < 2 ^ ctxSize.bits →
      ctx ≠ connectIpContextId → decodeIpDatagram
        (putVarintWithLen (quarterStreamId streamId) size ++ (putVarintWithLen ctx ctxSize ++ p)) streamId = .ok none) ∧
    (∀ p, IpPacket p → stripDatagramContext p = some p ∧ ∀ c, Context c → stripDatagramContext (c ++ p) = some p) ∧
    ∀ p, looksLikeIpPacket p = false → (∀ c inner, Context c → p = c ++ inner → looksLikeIpPacket inner = false) →
      stripDatagramContext p = none := by
  refine ⟨?_, fun _ _ _ rest hfits hne => decode_other hfits hne rest, ?_, ?_, fun p => strip_none⟩
  · intro streamId hstream p
    have hq : quarterStreamId streamId ≤ maxVarInt := by
      rw [quarterStreamId, maxVarInt]
      omega
    refine ⟨_, encodeIpDatagram_eq hq p, ?_, fun other hother => ?_⟩
    · rw [List.append_assoc, decode_own (varintLen_fits hq) (varintLen_fits context_small), if_pos rfl]
    · rw [List.append_assoc]
      exact decode_other (varintLen_fits hq) hother.symm _
  · intro streamId size ctx ctxSize p hfits hctx hne
    rw [decode_own hfits hctx, if_neg hne]
  · intro p hp
    exact ⟨strip_bare hp.looks fun inner => hp.no_context, fun c hc => strip_context hc hp.looks⟩

/-- Twenty octets of version 4 that name a header of one word are taken for a packet. -/
theorem short_header_taken :
    ¬ IpPacket (0x41 :: List.replicate 19 0) ∧
      (∀ c p, Context c → 0x41 :: List.replicate 19 0 = c ++ p → ¬ IpPacket p) ∧
      stripDatagramContext (0x41 :: List.replicate 19 0) = some (0x41 :: List.replicate 19 0) := by
  refine ⟨?_, ?_, by decide⟩
  · intro h
    obtain ⟨-, first, hfirst, hversion⟩ := h
    rw [← Option.some.inj hfirst] at hversion
    simp at hversion
  · intro c p hc hsplit
    obtain ⟨size, rfl⟩ := hc
    rw [putVarintWithLen_eq] at hsplit
    have hfirst := (List.cons.inj hsplit).1
    cases size <;> exact absurd hfirst (by decide)

end Aether.Masque
