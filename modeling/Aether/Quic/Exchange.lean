import Aether.Quic.PacketSpace

/-! Two endpoints that exchange packets.

The network loses packets, delivers them in any order and more than once. Whatever it does and
whatever the loss detector deems lost, each packet is taken once and under its own number (the
AEAD does not open it under another), an endpoint holds a packet for acknowledged only if its peer took it,
  and no acknowledgement is
refused (`exchange_safe`); a packet that is newer than all that came is taken however many
were lost before it (`exchange_takes`). -/
namespace Aether.Quic
open Intervals (Covers)
open Octets (maxVarInt)

/-! ### What each side keeps to -/

/-- What an endpoint sent, and what it takes for received by its peer. -/
structure Outgoing (packets : List Packet) (received : List Nat) (e : Endpoint) : Prop where
  ordered : (e.epoch.sentPackets.map Sent.pktNum).Pairwise (· < ·)
  pending : ∀ p ∈ e.epoch.sentPackets, p.pktNum < e.nextPktNum
  numbered : (packets.map Packet.pktNum).Pairwise (· < ·)
  below : ∀ p ∈ packets, p.pktNum < e.nextPktNum
  largestTx : ∀ p ∈ packets, ∀ t, e.space.largestTxPktNum = some t → p.pktNum ≤ t
  skipped : ∀ k, e.pktNumManager.skipPn = some k → k < e.nextPktNum ∧ ∀ p ∈ packets, p.pktNum ≠ k
  acked : ∀ p ∈ e.epoch.sentPackets, p.acked = true → p.pktNum ∈ received
  largestAcked : ∀ largest, e.epoch.largestAckedPacket = some largest → largest ∈ received
  /-- What is told in an ACK frame can be removed: one can be added to its largest number. -/
  removable : ∀ ranges, e.epoch.Keeps ranges → ∀ largest, ranges.last = some largest → largest < Rust.u64Max

/-- What an endpoint saw, and what of it it acknowledges. -/
structure Incoming (seen : List Nat) (space : PktNumSpace) : Prop where
  marks : PktNumWindow.Marks {x | x ∈ seen} space.recvPktNum
  lowest : space.recvPktNum.lower = 0 ∨ space.recvPktNum.lower + 127 ∈ seen
  distinct : seen.Nodup
  le_largest : ∀ x ∈ seen, x ≤ space.largestRxPktNum
  largest : space.largestRxPktNum = 0 ∨ space.largestRxPktNum ∈ seen
  sound : space.recvPktNeedAck.Sound maxAckRanges
  filled : Filled space.recvPktNeedAck.iter
  covered : ∀ x, Covers space.recvPktNeedAck.iter x → x ∈ seen

/-- A packet that a peer who saw numbers up to `largest` can complete the number of. -/
def Readable (largest : Nat) (p : Packet) : Prop :=
  encodePktNum p.pktNum p.pnLen = some p.pnBytes ∧ p.pktNum + 1 < largest + 2 ^ (8 * p.pnLen) / 2

/-- A packet whose acknowledgement is of numbers that were seen. -/
def Honest (exponent : Nat) (seen : List Nat) (p : Packet) : Prop :=
  ∀ bytes, p.ack = some bytes → ∃ f : AckFrame, f.Sane ∧ f.toBytes = some bytes ∧
    f.ackDelay * 2 ^ exponent < 2 ^ 64 ∧ ∀ x, Covers f.ranges.iter x → x ∈ seen

section Sides
variable {opens : Opens} {exponent : Nat} {packets : List Packet} {received seen : List Nat} {e : Endpoint}

/-! ### Sending -/

theorem Outgoing.skip (h : Outgoing packets received e) (handshakeCompleted : Bool) :
    Outgoing packets received (e.skip handshakeCompleted) := by
  rw [Endpoint.skip]
  split
  · refine ⟨h.ordered, fun p hp => Nat.lt_succ_of_lt (h.pending p hp), h.numbered,
      fun p hp => Nat.lt_succ_of_lt (h.below p hp), h.largestTx, ?_, h.acked, h.largestAcked, h.removable⟩
    intro k hk
    cases hk
    exact ⟨Nat.lt_succ_self _, fun p hp => (h.below p hp).ne⟩
  · exact h

theorem skip_space (handshakeCompleted : Bool) : (e.skip handshakeCompleted).space = e.space ∧
    (e.skip handshakeCompleted).epoch = e.epoch ∧ (e.skip handshakeCompleted).nextPktNum ≤ e.nextPktNum + 1 := by
  rw [Endpoint.skip]
  split
  · exact ⟨rfl, rfl, Nat.le_refl _⟩
  · exact ⟨rfl, rfl, Nat.le_succ _⟩

theorem skipPn_onPacketSent (m : PktNumManager) (packetsPerCwnd randSkipValue : Nat) (handshakeCompleted : Bool) :
    (m.onPacketSent packetsPerCwnd randSkipValue handshakeCompleted).skipPn = m.skipPn := by
  rw [PktNumManager.onPacketSent]
  split
  · rfl
  · split
    · rfl
    · rfl

theorem Outgoing.onPacketSent (h : Outgoing packets received e) (a : Attempt) (ack : Option RangeSet) {p : Packet}
    (hp : p.pktNum = e.nextPktNum)
    (hack : ∀ ranges, ack = some ranges → ∀ largest, ranges.last = some largest → largest < Rust.u64Max) :
    Outgoing (packets ++ [p]) received (e.onPacketSent a ack) := by
  have hwire : ∀ q ∈ packets ++ [p], q ∈ packets ∨ q.pktNum = e.nextPktNum := by
    intro q hq
    rcases List.mem_append.mp hq with hq | hq
    · exact .inl hq
    · rw [List.mem_singleton.mp hq]
      exact .inr hp
  have hkept : ∀ q ∈ (e.onPacketSent a ack).epoch.sentPackets,
      q ∈ e.epoch.sentPackets ∨ q = ⟨e.nextPktNum, ack, false, false⟩ := by
    intro q hq
    rcases List.mem_append.mp hq with hq | hq
    · exact .inl hq
    · exact .inr (List.mem_singleton.mp hq)
  refine ⟨?_, ?_, ?_, ?_, ?_, ?_, ?_, h.largestAcked, ?_⟩
  · show ((e.epoch.sentPackets ++ [_]).map Sent.pktNum).Pairwise _
    rw [List.map_append, List.pairwise_append]
    refine ⟨h.ordered, List.pairwise_singleton _ _, ?_⟩
    intro x hx y hy
    obtain ⟨q, hq, rfl⟩ := List.mem_map.mp hx
    rw [List.mem_singleton.mp hy]
    exact h.pending q hq
  · intro q hq
    rcases hkept q hq with hq | rfl
    · exact Nat.lt_succ_of_lt (h.pending q hq)
    · exact Nat.lt_succ_self _
  · rw [List.map_append, List.pairwise_append]
    refine ⟨h.numbered, List.pairwise_singleton _ _, ?_⟩
    intro x hx y hy
    obtain ⟨q, hq, rfl⟩ := List.mem_map.mp hx
    rw [List.mem_singleton.mp hy, hp]
    exact h.below q hq
  · intro q hq
    show q.pktNum < e.nextPktNum + 1
    rcases hwire q hq with hq | hq
    · exact Nat.lt_succ_of_lt (h.below q hq)
    · omega
  · intro q hq t ht
    obtain rfl : e.space.largestTxPktNum.elim e.nextPktNum (max · e.nextPktNum) = t := Option.some.inj ht
    have hle : q.pktNum ≤ e.nextPktNum := by
      rcases hwire q hq with hq | hq
      · exact (h.below q hq).le
      · exact hq.le
    cases e.space.largestTxPktNum with
    | none => exact hle
    | some t => exact hle.trans (le_max_right _ _)
  · intro k hk
    replace hk : e.pktNumManager.skipPn = some k := by
      rw [← skipPn_onPacketSent]
      exact hk
    obtain ⟨hlt, hne⟩ := h.skipped k hk
    refine ⟨Nat.lt_succ_of_lt hlt, ?_⟩
    intro q hq
    rcases hwire q hq with hq | hq
    · exact hne q hq
    · omega
  · intro q hq ha
    rcases hkept q hq with hq | rfl
    · exact h.acked q hq ha
    · cases ha
  · intro ranges hranges
    rcases hranges with hranges | ⟨q, hq, hranges⟩
    · exact h.removable ranges (.inl hranges)
    rcases hkept q hq with hq | rfl
    · exact h.removable ranges (.inr ⟨q, hq, hranges⟩)
    · exact hack ranges hranges

/-- The largest number of a frame that can be written is far from the largest there is. -/
theorem removable_of_sane {f : AckFrame} (h : f.Sane) {largest : Nat} (hlast : f.ranges.last = some largest) :
    largest < Rust.u64Max := by
  rw [RangeSet.last] at hlast
  obtain ⟨r, hr, rfl⟩ := Option.map_eq_some_iff.mp hlast
  have hsmall := h.small r (List.mem_of_getLast? hr)
  rw [Rust.u64Max]
  omega

/-- The frame is of what is to be acknowledged. -/
theorem ackFrame_sane {a : Attempt} {f : AckFrame} (hf : e.ackFrame exponent a = some f)
    (hspace : Incoming seen e.space) (helapsed : a.elapsed < 2 ^ 62) :
    f.Sane ∧ f.ackDelay * 2 ^ exponent < 2 ^ 64 ∧ ∀ x, Covers f.ranges.iter x → x ∈ seen := by
  rw [Endpoint.ackFrame] at hf
  split at hf
  · rename_i hdue
    obtain rfl := Option.some.inj hf
    have hdelay : a.elapsed / 2 ^ exponent * 2 ^ exponent ≤ a.elapsed := Nat.div_mul_le_self _ _
    have hsmall : a.elapsed / 2 ^ exponent ≤ a.elapsed := Nat.div_le_self _ _
    refine ⟨⟨hspace.sound.separated, hspace.filled, List.ne_nil_of_length_pos hdue.1, ?_, ?_, ?_, ?_⟩, ?_,
      hspace.covered⟩
    · intro r hr
      have hfill := hspace.filled r hr
      have hlast : r.2 - 1 ∈ seen := hspace.covered _ ⟨r, hr, by omega, by omega⟩
      have hupper := hspace.marks.le_upper _ hlast
      have := hspace.marks.small
      omega
    · exact hspace.sound.fits.trans (by decide)
    · show a.elapsed / 2 ^ exponent ≤ 4611686018427387903
      omega
    · exact fun v hv => absurd hv List.not_mem_nil
    · show a.elapsed / 2 ^ exponent * 2 ^ exponent < 2 ^ 64
      omega
  · cases hf

theorem sendSingle_spec (h : Outgoing packets received e) (hspace : Incoming seen e.space) (a : Attempt)
    (helapsed : a.elapsed < 2 ^ 62) {largest : Nat} (hlargest : ∀ x ∈ received, x ≤ largest) :
    ∃ e' out, e.sendSingle exponent a = some (e', out) ∧ Outgoing (packets ++ out.toList) received e' ∧
      Incoming seen e'.space ∧ e'.space.largestRxPktNum = e.space.largestRxPktNum ∧ e'.nextPktNum ≤ e.nextPktNum + 2 ∧
      ∀ p ∈ out.toList, Readable largest p ∧ Honest exponent seen p := by
  obtain ⟨hsame, hepoch, hnext⟩ := skip_space (e := e) a.handshakeCompleted
  have hskip := h.skip a.handshakeCompleted
  have hreceiver : Incoming seen (e.skip a.handshakeCompleted).space := hsame ▸ hspace
  have hrx : (e.skip a.handshakeCompleted).space.largestRxPktNum = e.space.largestRxPktNum := by rw [hsame]
  obtain ⟨f, hf⟩ : ∃ f, f = e.skip a.handshakeCompleted := ⟨_, rfl⟩
  rw [Endpoint.sendSingle, ← hf]
  rw [← hf] at hskip hreceiver hrx hnext
  obtain ⟨pnLen, hpnLen⟩ : ∃ n, n = pktNumLen f.nextPktNum (f.epoch.largestAckedPacket.getD 0) := ⟨_, rfl⟩
  have hroom := (pktNumLen_spec f.nextPktNum (f.epoch.largestAckedPacket.getD 0)).2
  have hacked : f.epoch.largestAckedPacket.getD 0 ≤ largest := by
    cases hla : f.epoch.largestAckedPacket with
    | none => exact Nat.zero_le _
    | some la => exact hlargest la (hskip.largestAcked la hla)
  rw [← hpnLen] at hroom ⊢
  cases hencode : encodePktNum f.nextPktNum pnLen with
  | none => exact ⟨f, none, rfl, by simpa using hskip, hreceiver, hrx, by omega, fun p hp => by simp at hp⟩
  | some pnBytes =>
    have hread : ∀ ack, Readable largest ⟨f.nextPktNum, pnLen, pnBytes, ack⟩ := by
      intro ack
      refine ⟨hencode, ?_⟩
      show f.nextPktNum + 1 < largest + 2 ^ (8 * pnLen) / 2
      omega
    have hreceiver' : ∀ ack, Incoming seen (f.onPacketSent a ack).space := fun _ =>
      ⟨hreceiver.marks, hreceiver.lowest, hreceiver.distinct, hreceiver.le_largest, hreceiver.largest, hreceiver.sound,
        hreceiver.filled, hreceiver.covered⟩
    have hnext' : ∀ ack, (f.onPacketSent a ack).nextPktNum ≤ e.nextPktNum + 2 := fun _ => Nat.succ_le_succ hnext
    cases hframe : f.ackFrame exponent a with
    | none =>
      dsimp only
      split
      · refine ⟨_, _, rfl, hskip.onPacketSent a none rfl (fun ranges hranges => by cases hranges), hreceiver' none, hrx,
          hnext' none, ?_⟩
        intro p hp
        rw [Option.toList_some, List.mem_singleton] at hp
        subst hp
        exact ⟨hread none, fun bytes hb => by cases hb⟩
      · exact ⟨f, none, rfl, by simpa using hskip, hreceiver, hrx, by omega, fun p hp => by simp at hp⟩
    | some frame =>
      obtain ⟨hsane, hdelay, hcovered⟩ := ackFrame_sane hframe hreceiver helapsed
      obtain ⟨bytes, hbytes, -, -⟩ := AckFrame.parseAckFrame_toBytes hsane
      refine ⟨f.onPacketSent a (some frame.ranges), some ⟨f.nextPktNum, pnLen, pnBytes, some bytes⟩, ?_,
        hskip.onPacketSent a _ rfl ?_, hreceiver' _, hrx, hnext' _, ?_⟩
      · dsimp only
        rw [hbytes]
        rfl
      · intro ranges hranges largest
        rw [← Option.some.inj hranges]
        exact removable_of_sane hsane
      · intro p hp
        rw [Option.toList_some, List.mem_singleton] at hp
        subst hp
        refine ⟨hread _, ?_⟩
        intro bytes' hb
        obtain rfl := Option.some.inj hb
        exact ⟨frame, hsane, hbytes, hdelay, hcovered⟩

/-! ### Receiving -/

theorem Outgoing.validateSkip (h : Outgoing packets received e) : Outgoing packets received e.validateSkip := by
  rw [Endpoint.validateSkip]
  split
  · split
    · exact ⟨h.ordered, h.pending, h.numbered, h.below, h.largestTx, fun k hk => (by cases hk), h.acked, h.largestAcked,
        h.removable⟩
    · exact h
  · exact h

theorem validateSkip_space (e : Endpoint) : e.validateSkip.space = e.space ∧
    e.validateSkip.nextPktNum = e.nextPktNum := by
  rw [Endpoint.validateSkip]
  split
  · split
    · exact ⟨rfl, rfl⟩
    · exact ⟨rfl, rfl⟩
  · exact ⟨rfl, rfl⟩

/-- What the peer received is marked, and nothing that was not sent is among it. -/
theorem Outgoing.onAckReceived (h : Outgoing packets received e) {ranges : RangeSet}
    (hcovered : ∀ x, Covers ranges.iter x → x ∈ received) (hsent : ∀ x ∈ received, ∃ q ∈ packets, q.pktNum = x) :
    ∃ epoch, e.epoch.onAckReceived ranges e.pktNumManager.skipPn = some epoch ∧
      Outgoing packets received {e with epoch := epoch} := by
  have hskip : ∀ k, e.pktNumManager.skipPn = some k → ¬ Covers ranges.iter k := by
    intro k hk hc
    obtain ⟨q, hq, hqk⟩ := hsent k (hcovered k hc)
    exact (h.skipped k hk).2 q hq hqk
  obtain ⟨epoch, newly, hdetect, hnumbers, hlargest, hacked, hnewly⟩ :=
    @RecoveryEpoch.detectAcked_spec e.pktNumManager.skipPn ranges.iter e.epoch [] h.ordered hskip
  have hpending : ∀ p ∈ epoch.sentPackets, p.pktNum < e.nextPktNum := by
    intro p hp
    have hmem : p.pktNum ∈ epoch.sentPackets.map Sent.pktNum := List.mem_map_of_mem hp
    rw [hnumbers] at hmem
    obtain ⟨q, hq, heq⟩ := List.mem_map.mp hmem
    exact heq ▸ h.pending q hq
  have hmarked : ∀ p ∈ epoch.sentPackets, p.acked = true → p.pktNum ∈ received := by
    intro p hp ha
    rcases hacked p hp ha with ⟨q, hq, heq, hqa⟩ | hc
    · exact heq ▸ h.acked q hq hqa
    · exact hcovered _ hc
  have hremovable : ∀ ranges, epoch.Keeps ranges → ∀ largest, ranges.last = some largest → largest < Rust.u64Max :=
    fun ranges hranges => h.removable ranges (RecoveryEpoch.keeps_of_detectAcked hdetect hranges)
  rw [RecoveryEpoch.onAckReceived, hdetect, Option.map_some]
  dsimp only
  cases hlast : newly.getLast? with
  | none =>
    refine ⟨epoch, rfl, hnumbers ▸ h.ordered, hpending, h.numbered, h.below, h.largestTx, h.skipped, hmarked, ?_,
      hremovable⟩
    intro la hla
    exact h.largestAcked la (hlargest ▸ hla)
  | some largest =>
    have hnew : largest ∈ received := by
      rcases hnewly largest (List.mem_of_getLast? hlast) with hx | hc
      · cases hx
      · exact hcovered _ hc
    refine ⟨{epoch with largestAckedPacket := some (max (epoch.largestAckedPacket.getD 0) largest)}, rfl,
      hnumbers ▸ h.ordered, hpending, h.numbered, h.below, h.largestTx, h.skipped, hmarked, ?_, hremovable⟩
    intro la hla
    obtain rfl : max (epoch.largestAckedPacket.getD 0) largest = la := Option.some.inj hla
    rcases max_choice (epoch.largestAckedPacket.getD 0) largest with hmax | hmax
    · cases hold : epoch.largestAckedPacket with
      | none => simpa [hold] using hnew
      | some old =>
        rw [hold] at hmax
        rw [show (some old).getD 0 = old from rfl] at hmax ⊢
        rw [hmax]
        exact h.largestAcked old (hlargest ▸ hold)
    · rw [hmax]
      exact hnew

theorem processPayload_spec (h : Outgoing packets received e) {p : Packet} (hhonest : Honest exponent received p)
    (hsent : ∀ x ∈ received, ∃ q ∈ packets, q.pktNum = x) :
    ∃ e', e.processPayload exponent p.ack = .ok e' ∧ Outgoing packets received e' ∧ e'.space = e.space ∧
      e'.nextPktNum = e.nextPktNum := by
  cases hack : p.ack with
  | none => exact ⟨e, rfl, h, rfl, rfl⟩
  | some bytes =>
    obtain ⟨f, hsane, hbytes, hdelay, hcovered⟩ := hhonest bytes hack
    obtain ⟨bytes', hbytes', -, hparse⟩ := AckFrame.parseAckFrame_toBytes hsane
    obtain rfl := Option.some.inj (hbytes.symm.trans hbytes')
    obtain ⟨f', hf', hdelay', hranges, -⟩ := hparse []
    rw [List.append_nil] at hf'
    have hcovered' : ∀ x, Covers f'.ranges.iter x → x ∈ received := hranges.symm ▸ hcovered
    obtain ⟨epoch, hepoch, hsender⟩ := h.onAckReceived hcovered' hsent
    have hspace := validateSkip_space {e with epoch := epoch}
    refine ⟨_, ?_, hsender.validateSkip, hspace.1, hspace.2⟩
    rw [Endpoint.processPayload, hf']
    dsimp only
    rw [Endpoint.processAck, if_neg (by rw [hdelay']; omega), RangeSet.last]
    cases hlast : f'.ranges.iter.getLast? with
    | none => exact absurd (hranges.symm.trans (List.getLast?_eq_none_iff.mp hlast)) hsane.nonempty
    | some r =>
      have hr : r ∈ f'.ranges.iter := List.mem_of_getLast? hlast
      have hfill : r.1 < r.2 := hsane.filled r (hranges ▸ hr)
      obtain ⟨q, hq, hqr⟩ := hsent (r.2 - 1) (hcovered' _ ⟨r, hr, by omega, by omega⟩)
      have hlarge : e.space.largestTxPktNum.any (· < r.2 - 1) = false := by
        cases htx : e.space.largestTxPktNum with
        | none => rfl
        | some t =>
          have := h.largestTx q hq t htx
          exact decide_eq_false (by omega)
      show (if e.space.largestTxPktNum.any (· < r.2 - 1) = true then _ else _) = _
      rw [hlarge, hepoch]
      rfl

/-- What the peer knows is told no more, and nothing else comes to be told. -/
theorem release_spec {needAck : RangeSet} (hsound : needAck.Sound maxAckRanges) (hfilled : Filled needAck.iter)
    (frames : List RangeSet)
    (hframes : ∀ ranges ∈ frames, ∀ largest, ranges.last = some largest → largest < Rust.u64Max) :
    ∃ needAck', frames.foldlM Endpoint.release needAck = some needAck' ∧ needAck'.Sound maxAckRanges ∧
      Filled needAck'.iter ∧ ∀ x, Covers needAck'.iter x → Covers needAck.iter x := by
  induction frames generalizing needAck with
  | nil => exact ⟨needAck, rfl, hsound, hfilled, fun _ hx => hx⟩
  | cons ranges frames ih =>
    have hlater := fun ranges hranges => hframes ranges (List.mem_cons_of_mem _ hranges)
    rw [List.foldlM_cons, Endpoint.release]
    cases hlast : ranges.last with
    | none => exact ih hsound hfilled hlater
    | some largest =>
      have hlargest := hframes ranges (List.mem_cons_self ..) largest hlast
      obtain ⟨lifted, hremove, hiter, hsound'⟩ := RangeSet.removeUntil_eq hlargest hsound hfilled
      obtain ⟨-, hfilled', -, hcovers⟩ := trim_spec largest hsound.separated hfilled
      rw [← hiter] at hfilled' hcovers
      obtain ⟨needAck', hrest, hsound'', hfilled'', hcovers'⟩ := ih hsound' hfilled' hlater
      refine ⟨needAck', ?_, hsound'', hfilled'', fun x hx => ((hcovers x).mp (hcovers' x hx)).1⟩
      show needAck.removeUntil largest >>= _ = _
      rw [hremove]
      exact hrest

/-- A number that was not seen is, from then on. -/
theorem Incoming.takes (h : Incoming seen e.space) (hs : Outgoing packets received e) {pn : Nat} (hsmall : pn < 2 ^ 62)
    (hnear : pn < e.space.recvPktNum.upper + 2 ^ 32) (hnew : e.space.recvPktNum.contains pn = false) :
    ∃ e', e.releaseAcked.bind (fun e => e.received pn) = .ok e' ∧ Incoming (seen ++ [pn]) e'.space ∧
      e'.space.largestRxPktNum = max e.space.largestRxPktNum pn ∧ e'.nextPktNum = e.nextPktNum ∧
      Outgoing packets received e' := by
  obtain ⟨released, hrelease, hsound, hfilled, hcovers⟩ := release_spec h.sound h.filled e.epoch.ackedFrames.reverse
    (fun ranges hranges => hs.removable ranges (.inl (List.mem_reverse.mp hranges)))
  obtain ⟨needAck, hinsert, hiter, hsound'⟩ := RangeSet.insert_eq hsound (by decide)
    (show (pn, pn + 1).1 ≤ _ from Nat.le_succ _)
  have hpush : released.pushItem pn = some needAck := by
    rw [RangeSet.pushItem, Rust.addU64_of_le (by rw [Rust.u64Max]; omega)]
    exact hinsert
  have hsub := @coverWithin_sublist maxAckRanges (pn, pn + 1) released.iter
  rw [← hiter] at hsub
  have hunseen : ¬ (pn < e.space.recvPktNum.lower ∨ pn ∈ {x | x ∈ seen}) := by
    rw [← h.marks.contains_iff, hnew]
    exact Bool.false_ne_true
  have hmem : ∀ x, x ∈ seen ++ [pn] ↔ x ∈ seen ∨ x = pn := by simp
  have hset : insert pn {x | x ∈ seen} = {x | x ∈ seen ++ [pn]} := by
    ext x
    rw [Set.mem_insert_iff, Set.mem_ofPred_eq, Set.mem_ofPred_eq, hmem, or_comm]
  have hreceived : e.releaseAcked.bind (fun e => e.received pn) = .ok {e with
      space := {e.space with
        recvPktNum := e.space.recvPktNum.insert pn
        recvPktNeedAck := needAck
        largestRxPktNum := max e.space.largestRxPktNum pn}
      epoch := {e.epoch with ackedFrames := []}} := by
    rw [Endpoint.releaseAcked, hrelease]
    show Endpoint.received pn _ = _
    rw [Endpoint.received]
    dsimp only
    rw [hpush]
  refine ⟨_, hreceived, ?_, rfl, rfl, ?_⟩
  · refine ⟨?_, ?_, ?_, ?_, ?_, hsound', ?_, ?_⟩
    · rw [← hset]
      exact h.marks.insert hsmall hnear (Nat.le_of_not_lt (fun hlow => hunseen (.inl hlow)))
    · rcases h.marks.lower_insert pn with hlower | hlower
      · show (e.space.recvPktNum.insert pn).lower = 0 ∨ (e.space.recvPktNum.insert pn).lower + 127 ∈ _
        rw [hlower]
        exact h.lowest.imp_right (fun hx => List.mem_append_left _ hx)
      · refine .inr ?_
        show (e.space.recvPktNum.insert pn).lower + 127 ∈ _
        rw [hlower]
        exact List.mem_append_right _ (List.mem_singleton_self _)
    · refine List.nodup_append.mpr ⟨h.distinct, List.nodup_singleton _, ?_⟩
      intro x hx y hy heq
      rw [List.mem_singleton.mp hy] at heq
      exact hunseen (.inr (heq ▸ hx))
    · intro x hx
      rcases (hmem x).mp hx with hx | rfl
      · exact (h.le_largest x hx).trans (le_max_left _ _)
      · exact le_max_right _ _
    · show max e.space.largestRxPktNum pn = 0 ∨ max e.space.largestRxPktNum pn ∈ _
      rcases max_choice e.space.largestRxPktNum pn with hmax | hmax
      · rw [hmax]
        exact h.largest.imp_right (fun hx => List.mem_append_left _ hx)
      · rw [hmax]
        exact .inr (List.mem_append_right _ (List.mem_singleton_self _))
    · exact (filled_cover (Nat.lt_succ_self pn) hfilled).sublist hsub
    · intro x hx
      rw [hmem]
      rcases Intervals.covers_cover.mp (Covers.of_sublist hx hsub) with ⟨hlow, hhigh⟩ | hc
      · replace hhigh : x < pn + 1 := hhigh
        replace hlow : pn ≤ x := hlow
        exact .inr (by omega)
      · exact .inl (h.covered x (hcovers x hc))
  · refine ⟨hs.ordered, hs.pending, hs.numbered, hs.below, hs.largestTx, hs.skipped, hs.acked, hs.largestAcked, ?_⟩
    intro ranges hranges
    rcases hranges with hranges | hranges
    · cases hranges
    · exact hs.removable ranges (.inr hranges)

/-- A packet is left out, or it is taken and all stays as it should. -/
theorem recvSingle_spec (hopens : opens.Authentic) (h : Outgoing packets received e) (hspace : Incoming seen e.space)
    {p : Packet}
    (hread : Readable e.space.largestRxPktNum p) (hhonest : Honest exponent received p)
    (hsent : ∀ x ∈ received, ∃ q ∈ packets, q.pktNum = x) (hsmall : p.pktNum < 2 ^ 62) :
    (e.recvSingle opens exponent p = .error .done ∧ ¬ (p.pktNum ∉ seen ∧ e.space.recvPktNum.lower ≤ p.pktNum ∧
        e.space.largestRxPktNum + 1 < p.pktNum + 2 ^ (8 * p.pnLen) / 2)) ∨
      ∃ e', e.recvSingle opens exponent p = .ok e' ∧ Outgoing packets received e' ∧
        Incoming (seen ++ [p.pktNum]) e'.space ∧
        e.space.largestRxPktNum ≤ e'.space.largestRxPktNum ∧ e'.nextPktNum = e.nextPktNum := by
  obtain ⟨hencode, hnear⟩ := hread
  have hlen := len_of_encode hencode
  have hwire := readPktNum_encode hencode []
  rw [List.append_nil] at hwire
  have hupper : e.space.largestRxPktNum ≤ e.space.recvPktNum.upper := by
    rcases hspace.largest with hzero | hmem
    · rw [hzero]
      exact Nat.zero_le _
    · exact hspace.marks.le_upper _ hmem
  have hhalf : 2 ^ (8 * p.pnLen) / 2 ≤ 2 ^ 31 := by
    have : 2 ^ (8 * p.pnLen) ≤ 2 ^ 32 := Nat.pow_le_pow_right (by decide) (by omega)
    omega
  rw [Endpoint.recvSingle, hwire]
  dsimp only
  by_cases hdecode : decodePktNum e.space.largestRxPktNum (p.pktNum % 2 ^ (8 * p.pnLen)) p.pnLen = p.pktNum
  swap
  · have hclosed : (!opens p (decodePktNum e.space.largestRxPktNum (p.pktNum % 2 ^ (8 * p.pnLen)) p.pnLen)) = true :=
      Bool.not_eq_true' _ ▸ Bool.eq_false_of_not_eq_true (mt (hopens p _).mp hdecode)
    rw [if_pos hclosed]
    refine .inl ⟨rfl, ?_⟩
    intro hc
    exact hdecode (decode_of_near hlen.1 hsmall hc.2.2 (by omega))
  have hopen : ¬(!opens p p.pktNum) = true := by
    rw [(hopens p p.pktNum).mpr rfl]
    exact Bool.false_ne_true
  rw [hdecode, if_neg hopen]
  cases hnew : e.space.recvPktNum.contains p.pktNum with
  | true =>
    refine .inl ⟨rfl, ?_⟩
    intro hc
    rcases (hspace.marks.contains_iff _).mp hnew with hlow | hmem
    · omega
    · exact hc.1 hmem
  | false =>
    obtain ⟨f, hprocess, hsender, hsame, hnext⟩ := processPayload_spec h hhonest hsent
    obtain ⟨e', hreceived, hreceiver, hlargest, hnext', hsender'⟩ :=
      @Incoming.takes _ _ seen f (hsame ▸ hspace) hsender p.pktNum hsmall (by rw [hsame]; omega) (hsame ▸ hnew)
    refine .inr ⟨e', ?_, hsender', hreceiver, ?_, hnext'.trans hnext⟩
    · rw [if_neg Bool.false_ne_true, hprocess]
      exact hreceived
    · rw [hlargest, hsame]
      exact le_max_left _ _

/-! ### What the loss detector leaves -/

theorem Outgoing.of_epoch (h : Outgoing packets received e) {epoch : RecoveryEpoch}
    (hsub : (epoch.sentPackets.map Sent.pktNum).Sublist (e.epoch.sentPackets.map Sent.pktNum))
    (hacked : ∀ p ∈ epoch.sentPackets, p.acked = true → ∃ q ∈ e.epoch.sentPackets, q.pktNum = p.pktNum ∧ q.acked = true)
    (hlargest : epoch.largestAckedPacket = e.epoch.largestAckedPacket)
    (hkeeps : ∀ ranges, epoch.Keeps ranges → e.epoch.Keeps ranges) :
    Outgoing packets received {e with epoch := epoch} := by
  refine ⟨h.ordered.sublist hsub, ?_, h.numbered, h.below, h.largestTx, h.skipped, ?_, hlargest ▸ h.largestAcked,
    fun ranges hranges => h.removable ranges (hkeeps ranges hranges)⟩
  · intro p hp
    obtain ⟨q, hq, heq⟩ := List.mem_map.mp (hsub.subset (List.mem_map_of_mem hp))
    exact heq ▸ h.pending q hq
  · intro p hp ha
    obtain ⟨q, hq, heq, hqa⟩ := hacked p hp ha
    exact heq ▸ h.acked q hq hqa

theorem Outgoing.detectLost (h : Outgoing packets received e) (deemed : List Nat) :
    Outgoing packets received {e with epoch := e.epoch.detectLost deemed} := by
  obtain ⟨hnumbers, hacked⟩ := RecoveryEpoch.lose_spec (e.epoch.largestAckedPacket.getD 0) deemed e.epoch.sentPackets
  refine h.of_epoch (hnumbers ▸ List.Sublist.refl _) hacked rfl ?_
  intro ranges hranges
  exact hranges.imp_right (RecoveryEpoch.lose_ack _ _ _)

theorem Outgoing.drain (h : Outgoing packets received e) (turns : Nat) : Outgoing packets received {e with
    epoch := {e.epoch with sentPackets := RecoveryEpoch.drain turns e.epoch.sentPackets}} := by
  have hsub := RecoveryEpoch.drain_sublist turns e.epoch.sentPackets
  refine h.of_epoch (hsub.map _) (fun p hp ha => ⟨p, hsub.subset hp, rfl, ha⟩) rfl ?_
  intro ranges hranges
  rcases hranges with hranges | ⟨p, hp, hack⟩
  · exact .inl hranges
  · exact .inr ⟨p, hsub.subset hp, hack⟩

theorem Outgoing.mono (h : Outgoing packets received e) {more : List Nat} (hsub : ∀ x ∈ received, x ∈ more) :
    Outgoing packets more e :=
  ⟨h.ordered, h.pending, h.numbered, h.below, h.largestTx, h.skipped, fun p hp ha => hsub _ (h.acked p hp ha),
    fun la hla => hsub _ (h.largestAcked la hla), h.removable⟩

theorem Readable.mono {largest more : Nat} {p : Packet} (h : Readable largest p) (hle : largest ≤ more) :
    Readable more p := ⟨h.1, h.2.trans_le (Nat.add_le_add_right hle _)⟩

theorem Honest.mono {p : Packet} (h : Honest exponent seen p) {more : List Nat} (hsub : ∀ x ∈ seen, x ∈ more) :
    Honest exponent more p := by
  intro bytes hb
  obtain ⟨f, hsane, hbytes, hdelay, hcovered⟩ := h bytes hb
  exact ⟨f, hsane, hbytes, hdelay, fun x hx => hsub x (hcovered x hx)⟩

end Sides

/-! ### The two of them -/

/-- What happens: a call of `send_single`, the arrival of the packet that the peer sent as so
many others before it, and the work of the loss detector. -/
inductive Event where
  | send (who : Bool) (a : Attempt)
  | deliver (who : Bool) (i : Nat)
  | lose (who : Bool) (deemed : List Nat)
  | drain (who : Bool) (turns : Nat)

/-- The clock does not run for longer than a number can say. -/
def Event.Timely : Event → Prop
  | .send _ a => a.elapsed < 2 ^ 62
  | _ => True

/-- The endpoints, all that each of them sent, and the numbers each took, in order. -/
structure Exchange where
  ends : Bool → Endpoint
  sent : Bool → List Packet
  seen : Bool → List Nat
  failed : Option RecvError

namespace Exchange

def initial : Exchange := ⟨fun _ => .new, fun _ => [], fun _ => [], none⟩

def put (who : Bool) (e : Endpoint) (packets : List Packet) (numbers : List Nat) (x : Exchange) : Exchange := {x with
  ends := Function.update x.ends who e
  sent := Function.update x.sent who (x.sent who ++ packets)
  seen := Function.update x.seen who (x.seen who ++ numbers)}

def step (opens : Opens) (exponent : Bool → Nat) : Event → Exchange → Exchange
  | .send who a, x =>
    match (x.ends who).sendSingle (exponent who) a with
    | none => {x with failed := some .panicked}
    | some out => x.put who out.1 out.2.toList []
  | .deliver who i, x =>
    match (x.sent !who)[i]? with
    | none => x
    | some p =>
      match (x.ends who).recvSingle opens (exponent !who) p with
      | .ok e => x.put who e [] [p.pktNum]
      | .error error => if error = .done then x else {x with failed := some error}
  | .lose who deemed, x => x.put who {x.ends who with epoch := (x.ends who).epoch.detectLost deemed} [] []
  | .drain who turns, x => x.put who {x.ends who with epoch := {(x.ends who).epoch with
      sentPackets := RecoveryEpoch.drain turns (x.ends who).epoch.sentPackets}} [] []

def reached (opens : Opens) (exponent : Bool → Nat) (events : List Event) : Exchange :=
  Machine.run (step opens exponent) initial events

/-- What holds after at most `n` events. -/
structure Good (exponent : Bool → Nat) (n : Nat) (x : Exchange) : Prop where
  sender : ∀ b, Outgoing (x.sent b) (x.seen !b) (x.ends b)
  receiver : ∀ b, Incoming (x.seen b) (x.ends b).space
  genuine : ∀ b, ∀ y ∈ x.seen !b, ∃ p ∈ x.sent b, p.pktNum = y
  readable : ∀ b, ∀ p ∈ x.sent b, Readable (x.ends !b).space.largestRxPktNum p
  honest : ∀ b, ∀ p ∈ x.sent b, Honest (exponent b) (x.seen b) p
  few : ∀ b, (x.ends b).nextPktNum ≤ 2 * n
  fine : x.failed = none

section Good
variable {opens : Opens} {exponent : Bool → Nat} {n : Nat} {x : Exchange}

theorem good_initial (exponent : Bool → Nat) : Good exponent 0 initial := by
  have hnone : ∀ y : Nat, ¬ Covers (RangeSet.new maxAckRanges).iter y := fun y => Intervals.not_covers_nil
  refine ⟨?_, ?_, ?_, ?_, ?_, fun _ => Nat.le_refl _, rfl⟩
  · intro b
    refine ⟨List.Pairwise.nil, ?_, List.Pairwise.nil, ?_, ?_, ?_, ?_, ?_, ?_⟩
    · exact fun p hp => absurd hp List.not_mem_nil
    · exact fun p hp => absurd hp List.not_mem_nil
    · exact fun p hp => absurd hp List.not_mem_nil
    · intro k hk
      cases hk
    · exact fun p hp => absurd hp List.not_mem_nil
    · intro la hla
      cases hla
    · intro ranges hranges
      rcases hranges with hranges | ⟨p, hp, -⟩
      · cases hranges
      · cases hp
  · intro b
    refine ⟨?_, .inl rfl, List.nodup_nil, ?_, .inl rfl, RangeSet.sound_new _, ?_, ?_⟩
    · have hempty : {y : Nat | y ∈ initial.seen b} = ∅ :=
        Set.ext (fun y => iff_of_false List.not_mem_nil (Set.notMem_empty y))
      rw [hempty]
      exact PktNumWindow.marks_default
    · exact fun y hy => absurd hy List.not_mem_nil
    · exact fun r hr => absurd hr List.not_mem_nil
    · exact fun y hy => absurd hy (hnone y)
  · exact fun b y hy => absurd hy List.not_mem_nil
  · exact fun b p hp => absurd hp List.not_mem_nil
  · exact fun b p hp => absurd hp List.not_mem_nil

/-- One endpoint changes: what the other holds of it stays right. -/
theorem Good.put (h : Good exponent n x) {who : Bool} {e : Endpoint} {packets : List Packet} {numbers : List Nat}
    (hsender : Outgoing (x.sent who ++ packets) (x.seen !who) e) (hreceiver : Incoming (x.seen who ++ numbers) e.space)
    (hgenuine : ∀ y ∈ numbers, ∃ p ∈ x.sent !who, p.pktNum = y)
    (hpackets : ∀ p ∈ packets, Readable (x.ends !who).space.largestRxPktNum p ∧ Honest (exponent who) (x.seen who) p)
    (hlargest : (x.ends who).space.largestRxPktNum ≤ e.space.largestRxPktNum)
    (hfew : e.nextPktNum ≤ (x.ends who).nextPktNum + 2) : Good exponent (n + 1) (x.put who e packets numbers) := by
  have hself : (!who) ≠ who := Bool.not_ne_self who
  have hends : (x.put who e packets numbers).ends who = e := Function.update_self ..
  have hends' : (x.put who e packets numbers).ends (!who) = x.ends !who := Function.update_of_ne hself ..
  have hsent : (x.put who e packets numbers).sent who = x.sent who ++ packets := Function.update_self ..
  have hsent' : (x.put who e packets numbers).sent (!who) = x.sent !who := Function.update_of_ne hself ..
  have hseen : (x.put who e packets numbers).seen who = x.seen who ++ numbers := Function.update_self ..
  have hseen' : (x.put who e packets numbers).seen (!who) = x.seen !who := Function.update_of_ne hself ..
  have hgrown : ∀ y ∈ x.seen who, y ∈ x.seen who ++ numbers := fun y hy => List.mem_append_left _ hy
  -- What is said of each is said of the one that changed and of the other.
  have hboth : ∀ q : Bool → Prop, q who → q (!who) → ∀ b, q b := by
    intro q hq hq' b
    rcases Bool.eq_or_eq_not b who with rfl | rfl
    · exact hq
    · exact hq'
  refine ⟨hboth _ ?_ ?_, hboth _ ?_ ?_, hboth _ ?_ ?_, hboth _ ?_ ?_, hboth _ ?_ ?_, hboth _ ?_ ?_, h.fine⟩
  · rw [hends, hsent, hseen']
    exact hsender
  · rw [hends', hsent', Bool.not_not, hseen]
    have := h.sender !who
    rw [Bool.not_not] at this
    exact this.mono hgrown
  · rw [hends, hseen]
    exact hreceiver
  · rw [hends', hseen']
    exact h.receiver !who
  · rw [hsent, hseen']
    intro y hy
    obtain ⟨p, hp, heq⟩ := h.genuine who y hy
    exact ⟨p, List.mem_append_left _ hp, heq⟩
  · rw [hsent', Bool.not_not, hseen]
    intro y hy
    rcases List.mem_append.mp hy with hy | hy
    · exact h.genuine (!who) y ((Bool.not_not who).symm ▸ hy)
    · exact hgenuine y hy
  · rw [hsent, hends']
    intro p hp
    rcases List.mem_append.mp hp with hp | hp
    · exact h.readable who p hp
    · exact (hpackets p hp).1
  · rw [hsent', Bool.not_not, hends]
    intro p hp
    have := h.readable (!who) p hp
    rw [Bool.not_not] at this
    exact this.mono hlargest
  · rw [hsent, hseen]
    intro p hp
    rcases List.mem_append.mp hp with hp | hp
    · exact (h.honest who p hp).mono hgrown
    · exact (hpackets p hp).2.mono hgrown
  · rw [hsent', hseen']
    exact h.honest !who
  · rw [hends]
    have := h.few who
    omega
  · rw [hends']
    have := h.few !who
    omega

theorem Good.later (h : Good exponent n x) : Good exponent (n + 1) x :=
  ⟨h.sender, h.receiver, h.genuine, h.readable, h.honest, fun b => (h.few b).trans (by omega), h.fine⟩

theorem Good.largest (h : Good exponent n x) (who : Bool) :
    ∀ y ∈ x.seen !who, y ≤ (x.ends !who).space.largestRxPktNum := (h.receiver !who).le_largest

/-- What the arrival of a packet does. -/
theorem Good.arrival (h : Good exponent n x) (hopens : opens.Authentic) (hn : n ≤ 2 ^ 60) {who : Bool}
    {i : Nat} {p : Packet}
    (hp : (x.sent !who)[i]? = some p) :
    ((step opens exponent (.deliver who i) x) = x ∧ ¬ (p.pktNum ∉ x.seen who ∧
        (x.ends who).space.recvPktNum.lower ≤ p.pktNum ∧
        (x.ends who).space.largestRxPktNum + 1 < p.pktNum + 2 ^ (8 * p.pnLen) / 2)) ∨
      ∃ e, step opens exponent (.deliver who i) x = x.put who e [] [p.pktNum] ∧
        Good exponent (n + 1) (x.put who e [] [p.pktNum]) := by
  have hmem : p ∈ x.sent !who := List.mem_of_getElem? hp
  have hread := h.readable (!who) p hmem
  rw [Bool.not_not] at hread
  have hsmall : p.pktNum < 2 ^ 62 := by
    have := (h.sender !who).below p hmem
    have := h.few !who
    omega
  have hspec := recvSingle_spec hopens (h.sender who) (h.receiver who) hread (h.honest (!who) p hmem)
    (h.genuine who) hsmall
  rw [step, hp]
  dsimp only
  rcases hspec with ⟨herror, hwhy⟩ | ⟨e, hok, hsender, hreceiver, hlargest, hnext⟩
  · rw [herror]
    exact .inl ⟨rfl, hwhy⟩
  · rw [hok]
    refine .inr ⟨e, rfl, h.put ?_ hreceiver ?_ ?_ hlargest (by omega)⟩
    · rw [List.append_nil]
      exact hsender
    · intro y hy
      rw [List.mem_singleton.mp hy]
      exact ⟨p, hmem, rfl⟩
    · exact fun p hp => absurd hp List.not_mem_nil

/-- One step keeps it. -/
theorem Good.step (h : Good exponent n x) (hopens : opens.Authentic) (hn : n ≤ 2 ^ 60) {event : Event}
    (hevent : event.Timely) :
    Good exponent (n + 1) (step opens exponent event x) := by
  cases event with
  | send who a =>
    obtain ⟨e, out, hsend, hsender, hreceiver, hlargest, hnext, hpackets⟩ :=
      @sendSingle_spec (exponent who) _ _ _ _ (h.sender who) (h.receiver who) a hevent _ (h.largest who)
    rw [Exchange.step, hsend]
    refine h.put hsender ?_ (fun y hy => absurd hy List.not_mem_nil) hpackets hlargest.ge hnext
    rw [List.append_nil]
    exact hreceiver
  | deliver who i =>
    cases hp : (x.sent !who)[i]? with
    | none =>
      rw [Exchange.step, hp]
      exact h.later
    | some p =>
      rcases h.arrival hopens hn hp with ⟨hsame, -⟩ | ⟨e, heq, hgood⟩
      · rw [hsame]
        exact h.later
      · rw [heq]
        exact hgood
  | lose who deemed =>
    refine h.put ?_ ?_ (fun y hy => absurd hy List.not_mem_nil) (fun p hp => absurd hp List.not_mem_nil)
      (Nat.le_refl _) (Nat.le_add_right _ _)
    · rw [List.append_nil]
      exact (h.sender who).detectLost deemed
    · rw [List.append_nil]
      exact h.receiver who
  | drain who turns =>
    refine h.put ?_ ?_ (fun y hy => absurd hy List.not_mem_nil) (fun p hp => absurd hp List.not_mem_nil)
      (Nat.le_refl _) (Nat.le_add_right _ _)
    · rw [List.append_nil]
      exact (h.sender who).drain turns
    · rw [List.append_nil]
      exact h.receiver who

theorem Good.run (h : Good exponent n x) (hopens : opens.Authentic) (events : List Event)
    (hevents : ∀ event ∈ events, event.Timely)
    (hfew : n + events.length ≤ 2 ^ 60) :
    Good exponent (n + events.length) (Machine.run (Exchange.step opens exponent) x events) := by
  induction events generalizing n x with
  | nil => exact h
  | cons event events ih =>
    rw [List.length_cons] at hfew ⊢
    have hnext := h.step hopens (by omega) (hevents event (List.mem_cons_self ..))
    have := ih hnext (fun event h => hevents event (List.mem_cons_of_mem _ h)) (by omega)
    rwa [Nat.add_assoc, Nat.add_comm 1] at this

theorem good_reached (hopens : opens.Authentic) {events : List Event} (hevents : ∀ event ∈ events, event.Timely)
    (hfew : events.length ≤ 2 ^ 60) :
    Good exponent events.length (reached opens exponent events) := by
  have := (good_initial exponent).run hopens events hevents (by omega)
  rwa [Nat.zero_add] at this

end Good

/-! ### Whatever the network does -/

/-- No end of the connection comes from a packet or an acknowledgement of the other endpoint; each number is taken
once, and only if it was sent; what an endpoint holds for acknowledged its peer took; what it is going to acknowledge
it took. -/
theorem exchange_safe (opens : Opens) (hopens : opens.Authentic) (exponent : Bool → Nat) (events : List Event)
    (hevents : ∀ event ∈ events, event.Timely)
    (hfew : events.length ≤ 2 ^ 60) :
    (reached opens exponent events).failed = none ∧ ∀ b,
      ((reached opens exponent events).seen b).Nodup ∧
      (∀ y ∈ (reached opens exponent events).seen b, ∃ p ∈ (reached opens exponent events).sent !b, p.pktNum = y) ∧
      (∀ p ∈ ((reached opens exponent events).ends b).epoch.sentPackets, p.acked = true →
        p.pktNum ∈ (reached opens exponent events).seen !b) ∧
      (∀ la, ((reached opens exponent events).ends b).epoch.largestAckedPacket = some la →
        la ∈ (reached opens exponent events).seen !b) ∧
      ∀ y, Covers ((reached opens exponent events).ends b).space.recvPktNeedAck.iter y →
        y ∈ (reached opens exponent events).seen b := by
  have h := @good_reached opens exponent hopens events hevents hfew
  refine ⟨h.fine, ?_⟩
  intro b
  have hgenuine := h.genuine !b
  rw [Bool.not_not] at hgenuine
  exact ⟨(h.receiver b).distinct, hgenuine, (h.sender b).acked, (h.sender b).largestAcked, (h.receiver b).covered⟩

/-- An AEAD that no packet passes under another number. -/
def sealing : Opens := fun p pn => pn == p.pktNum

theorem sealing_authentic : sealing.Authentic := fun _ _ => beq_iff_eq

/-- The first packet is late: by then the second is acknowledged, and it is taken all the same, but only once. -/
def late : List Event :=
  let data : Attempt := ⟨true, 10, 3, false, 0, true⟩
  let reply : Attempt := ⟨true, 10, 3, true, 25000, false⟩
  [.send false data, .send false data, .deliver true 1, .send true reply, .deliver false 0, .deliver true 0,
    .deliver true 1, .lose false [0], .send true reply, .deliver false 1]

theorem late_timely : ∀ event ∈ late, event.Timely := by
  intro event hevent
  simp only [late, List.mem_cons, List.not_mem_nil, or_false] at hevent
  rcases hevent with rfl | rfl | rfl | rfl | rfl | rfl | rfl | rfl | rfl | rfl <;> simp [Event.Timely]

theorem exchange_safe_late : (reached sealing (fun _ => 3) late).seen true = [1, 0] ∧
    (reached sealing (fun _ => 3) late).failed = none ∧ ∀ p ∈ ((reached sealing (fun _ => 3)
      late).ends false).epoch.sentPackets,
      p.acked = true → p.pktNum ∈ (reached sealing (fun _ => 3) late).seen true := by
  have h := exchange_safe sealing sealing_authentic (fun _ => 3) late late_timely (by decide)
  exact ⟨by decide, h.1, (h.2 false).2.2.1⟩

/-- A packet that is newer than all that came is taken when it arrives, and so is any other that did not come
before, is in the window, and is not too far behind for the bytes its number has. -/
theorem exchange_takes (opens : Opens) (hopens : opens.Authentic) (exponent : Bool → Nat) (events : List Event)
    (hevents : ∀ event ∈ events, event.Timely)
    (hfew : events.length ≤ 2 ^ 60) (who : Bool) (i : Nat) (p : Packet)
    (hp : ((reached opens exponent events).sent !who)[i]? = some p)
    (hnew : (∀ y ∈ (reached opens exponent events).seen who, y < p.pktNum) ∨
      (p.pktNum ∉ (reached opens exponent events).seen who ∧
      ((reached opens exponent events).ends who).space.recvPktNum.lower ≤ p.pktNum ∧
      ((reached opens exponent events).ends who).space.largestRxPktNum + 1 < p.pktNum + 2 ^ (8 * p.pnLen) / 2)) :
    (reached opens exponent (events ++ [.deliver who i])).seen who = (reached opens exponent events).seen who ++ [p.pktNum] := by
  have h := @good_reached opens exponent hopens events hevents hfew
  have hstep : reached opens exponent (events ++ [.deliver who i]) = step opens exponent (.deliver who i)
    (reached opens exponent events) := by
    rw [reached, Machine.run_append]
    rfl
  rw [hstep]
  rcases h.arrival hopens hfew hp with ⟨-, hwhy⟩ | ⟨e, heq, -⟩
  · refine absurd ?_ hwhy
    rcases hnew with hnew | hnew
    swap
    · exact hnew
    have hmem : p ∈ (reached opens exponent events).sent !who := List.mem_of_getElem? hp
    have hreceiver := h.receiver who
    have hhalf : 2 ≤ 2 ^ (8 * p.pnLen) / 2 := by
      have hlen := len_of_encode ((h.readable !who) p hmem).1
      have : 2 ^ 8 ≤ 2 ^ (8 * p.pnLen) := Nat.pow_le_pow_right (by decide) (by omega)
      omega
    refine ⟨fun hc => Nat.lt_irrefl _ (hnew _ hc), ?_, ?_⟩
    · rcases hreceiver.lowest with hzero | hlow
      · omega
      · have := hnew _ hlow
        omega
    · rcases hreceiver.largest with hzero | hlargest
      · omega
      · have := hnew _ hlargest
        omega
  · rw [heq]
    exact Function.update_self ..

theorem exchange_takes_late : (reached sealing (fun _ => 3) (late.take 2 ++ [.deliver true 1])).seen true =
    (reached sealing (fun _ => 3) (late.take 2)).seen true ++ [1] :=
  exchange_takes sealing sealing_authentic (fun _ => 3) (late.take 2)
    (fun event hevent => late_timely event (List.mem_of_mem_take hevent))
    (by decide) true 1 ⟨1, 1, [1], none⟩ rfl (.inl (by decide))

end Exchange
end Aether.Quic
