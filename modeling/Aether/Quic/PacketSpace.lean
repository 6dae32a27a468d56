import Aether.Quic.AckFrame
import Aether.Quic.PacketNumber

/-! A packet number space.

An endpoint numbers what it sends, leaves out a number now and then to catch a peer that
acknowledges what it never had, and keeps what it sent until the peer has it; of what it
receives it keeps the numbers it saw and those it has to acknowledge. -/
namespace Aether.Quic
open Intervals (Covers)

def maxAckRanges : Nat := 68

/-- Twice the packets of the initial congestion window. -/
def minSkipCounterValue : Nat := 10 * 2

/-! ### Numbers left out -/

structure PktNumManager where
  skipPn : Option Nat
  skipPnCounter : Option Nat

namespace PktNumManager

def new : PktNumManager := ⟨none, none⟩

def shouldArmSkipCounter (handshakeCompleted : Bool) (m : PktNumManager) : Bool :=
  m.skipPnCounter.isNone && m.skipPn.isNone && handshakeCompleted

def shouldSkipPn (handshakeCompleted : Bool) (m : PktNumManager) : Bool :=
  m.skipPnCounter == some 0 && m.skipPn.isNone && handshakeCompleted

def setSkipPn (skipPn : Option Nat) (_ : PktNumManager) : PktNumManager := ⟨skipPn, none⟩

def armSkipCounter (packetsPerCwnd randSkipValue : Nat) (m : PktNumManager) : PktNumManager :=
  {m with skipPnCounter := some (minSkipCounterValue + packetsPerCwnd / 2 + randSkipValue)}

def onPacketSent (packetsPerCwnd randSkipValue : Nat) (handshakeCompleted : Bool) (m : PktNumManager) : PktNumManager :=
  match m.skipPnCounter with
  | some counter => {m with skipPnCounter := some (counter - 1)}
  | none => if m.shouldArmSkipCounter handshakeCompleted then m.armSkipCounter packetsPerCwnd randSkipValue else m

end PktNumManager

/-! ### State -/

structure PktNumSpace where
  largestRxPktNum : Nat
  largestTxPktNum : Option Nat
  recvPktNeedAck : RangeSet
  recvPktNum : PktNumWindow

/-- A packet that was sent, with the ranges of the ACK frame in it. -/
structure Sent where
  pktNum : Nat
  ack : Option RangeSet
  acked : Bool
  lost : Bool

structure RecoveryEpoch where
  largestAckedPacket : Option Nat
  sentPackets : List Sent
  ackedFrames : List RangeSet

structure Endpoint where
  nextPktNum : Nat
  pktNumManager : PktNumManager
  space : PktNumSpace
  epoch : RecoveryEpoch

def Endpoint.new : Endpoint := ⟨0, .new, ⟨0, none, .new maxAckRanges, .default⟩, ⟨none, [], []⟩⟩

/-- A packet under way: the number it is sealed with, what is written of it, and its ACK frame. -/
structure Packet where
  pktNum : Nat
  pnLen : Nat
  pnBytes : List UInt8
  ack : Option (List UInt8)

/-- The AEAD: whether a packet opens under a number. -/
abbrev Opens := Packet → Nat → Bool

/-- A packet opens under the number that it was sealed with, and under no other. -/
def Opens.Authentic (opens : Opens) : Prop := ∀ p pn, opens p pn = true ↔ pn = p.pktNum

/-- What a call of `send_single` finds: whether an acknowledgement is due and has room, the
microseconds since the largest packet came, and whether there is anything else to send. -/
structure Attempt where
  handshakeCompleted : Bool
  packetsPerCwnd : Nat
  randSkipValue : Nat
  ackDue : Bool
  elapsed : Nat
  data : Bool

/-! ### Recovery -/

namespace RecoveryEpoch

/-- The packets from the first on, as far as below `stop`: what is left of them, the numbers
newly acknowledged, and their ACK frames. -/
def mark (stop : Nat) : List Sent → List Sent × List Nat × List RangeSet
  | [] => ([], [], [])
  | unacked :: rest =>
    if unacked.pktNum ≥ stop then (unacked :: rest, [], [])
    else
      let later := mark stop rest
      if unacked.acked then (unacked :: later.1, later.2)
      else if unacked.lost then ({unacked with acked := true} :: later.1, later.2)
      else ({unacked with acked := true, ack := none} :: later.1, unacked.pktNum :: later.2.1,
        unacked.ack.toList ++ later.2.2)

/-- Where the range starts: at the front, as a rule, and else where a binary search finds it. -/
def startOf (start : Nat) (sentPackets : List Sent) : Nat :=
  if sentPackets.head?.any (fun p => start ≤ p.pktNum) then 0
  else (sentPackets.takeWhile (fun p => p.pktNum < start)).length

/-- `detect_and_remove_acked_packets`, range by range; nothing is the number that was left out. -/
def detectAcked (skipPn : Option Nat) : List Range → RecoveryEpoch → (newlyAcked : List Nat) →
    Option (RecoveryEpoch × List Nat)
  | [], e, newlyAcked => some (e, newlyAcked)
  | r :: rest, e, newlyAcked =>
    if skipPn.any (BTreeRangeSet.rangeContains r) then none
    else
      let start := startOf r.1 e.sentPackets
      let marked := mark r.2 (e.sentPackets.drop start)
      detectAcked skipPn rest {e with
        sentPackets := e.sentPackets.take start ++ marked.1
        ackedFrames := e.ackedFrames ++ marked.2.2} (newlyAcked ++ marked.2.1)

def onAckReceived (ranges : RangeSet) (skipPn : Option Nat) (e : RecoveryEpoch) : Option RecoveryEpoch :=
  (e.detectAcked skipPn ranges.iter []).map fun out =>
    match out.2.getLast? with
    | none => out.1
    | some largest => {out.1 with largestAckedPacket := some (max (out.1.largestAckedPacket.getD 0) largest)}

/-- Of the packets up to the largest acknowledged, some are deemed lost by their age or distance. -/
def lose (largestAcked : Nat) (deemed : List Nat) : List Sent → List Sent
  | [] => []
  | p :: rest =>
    if p.pktNum > largestAcked then p :: rest
    else (if !p.acked && !p.lost && decide (p.pktNum ∈ deemed) then {p with lost := true, ack := none} else p) ::
      lose largestAcked deemed rest

def detectLost (deemed : List Nat) (e : RecoveryEpoch) : RecoveryEpoch :=
  {e with sentPackets := lose (e.largestAckedPacket.getD 0) deemed e.sentPackets}

/-- `drain_acked_and_lost_packets`: so many turns, until the time one was lost is too recent. -/
def drain : (turns : Nat) → List Sent → List Sent
  | turns + 1, p :: rest => if p.acked || p.lost then drain turns rest else p :: rest
  | _, packets => packets

end RecoveryEpoch

/-! ### Sending -/

namespace Endpoint

def skip (handshakeCompleted : Bool) (e : Endpoint) : Endpoint :=
  if e.pktNumManager.shouldSkipPn handshakeCompleted then
    {e with pktNumManager := e.pktNumManager.setSkipPn (some e.nextPktNum), nextPktNum := e.nextPktNum + 1}
  else e

def ackFrame (exponent : Nat) (a : Attempt) (e : Endpoint) : Option AckFrame :=
  if e.space.recvPktNeedAck.iter.length > 0 ∧ a.ackDue then
    some ⟨a.elapsed / 2 ^ exponent, e.space.recvPktNeedAck, none⟩
  else none

/-- The end of `send_single`, with `on_packet_sent`. -/
def onPacketSent (a : Attempt) (ack : Option RangeSet) (e : Endpoint) : Endpoint where
  nextPktNum := e.nextPktNum + 1
  pktNumManager := e.pktNumManager.onPacketSent a.packetsPerCwnd a.randSkipValue a.handshakeCompleted
  space := {e.space with largestTxPktNum := some (e.space.largestTxPktNum.elim e.nextPktNum (max · e.nextPktNum))}
  epoch := {e.epoch with sentPackets := e.epoch.sentPackets ++ [⟨e.nextPktNum, ack, false, false⟩]}

/-- `send_single` as far as numbers go; a frame that cannot be written panics. -/
def sendSingle (exponent : Nat) (a : Attempt) (e : Endpoint) : Option (Endpoint × Option Packet) :=
  let e := e.skip a.handshakeCompleted
  let pnLen := pktNumLen e.nextPktNum (e.epoch.largestAckedPacket.getD 0)
  match encodePktNum e.nextPktNum pnLen with
  | none => some (e, none)
  | some pnBytes =>
    match e.ackFrame exponent a with
    | none =>
      if a.data then some (e.onPacketSent a none, some ⟨e.nextPktNum, pnLen, pnBytes, none⟩) else some (e, none)
    | some frame => frame.toBytes.map fun bytes =>
      (e.onPacketSent a (some frame.ranges), some ⟨e.nextPktNum, pnLen, pnBytes, some bytes⟩)

end Endpoint

/-! ### Receiving -/

/-- `done` leaves the packet out; the others end the connection. -/
inductive RecvError where
  | done
  | bufferTooShort
  | invalidFrame
  | invalidAckRange
  | optimisticAckDetected
  | panicked
deriving DecidableEq

namespace Endpoint

/-- Once the peer has what came behind the number that was left out, that number did its duty. -/
def validateSkip (e : Endpoint) : Endpoint :=
  match e.epoch.largestAckedPacket, e.pktNumManager.skipPn with
  | some largestAcked, some skipPn =>
    if largestAcked > skipPn then {e with pktNumManager := e.pktNumManager.setSkipPn none} else e
  | _, _ => e

/-- `process_frame` of an ACK frame. -/
def processAck (exponent : Nat) (frame : AckFrame) (e : Endpoint) : Except RecvError Endpoint :=
  if frame.ackDelay * 2 ^ exponent ≥ 2 ^ 64 then .error .invalidFrame
  else match frame.ranges.last with
    | none => .error .panicked
    | some largestAcked =>
      if e.space.largestTxPktNum.any (· < largestAcked) then .error .invalidAckRange
      else match e.epoch.onAckReceived frame.ranges e.pktNumManager.skipPn with
        | none => .error .optimisticAckDetected
        | some epoch => .ok (validateSkip {e with epoch := epoch})

def processPayload (exponent : Nat) (ack : Option (List UInt8)) (e : Endpoint) : Except RecvError Endpoint :=
  match ack with
  | none => .ok e
  | some bytes =>
    match AckFrame.fromBytes bytes with
    | .error .bufferTooShort => .error .bufferTooShort
    | .error .invalidFrame => .error .invalidFrame
    | .error .panicked => .error .panicked
    | .ok out => processAck exponent out.1 e

/-- What an ACK frame told is not told again once the peer has that frame. -/
def release (needAck ranges : RangeSet) : Option RangeSet :=
  ranges.last.elim (some needAck) (fun largest => needAck.removeUntil largest)

/-- The frames are popped from the last; it panics where `RangeSet::remove_until` does. -/
def releaseAcked (e : Endpoint) : Except RecvError Endpoint :=
  match e.epoch.ackedFrames.reverse.foldlM release e.space.recvPktNeedAck with
  | none => .error .panicked
  | some needAck => .ok {e with
      space := {e.space with recvPktNeedAck := needAck}
      epoch := {e.epoch with ackedFrames := []}}

def received (pn : Nat) (e : Endpoint) : Except RecvError Endpoint :=
  match e.space.recvPktNeedAck.pushItem pn with
  | none => .error .panicked
  | some needAck => .ok {e with space := {e.space with
      recvPktNum := e.space.recvPktNum.insert pn
      recvPktNeedAck := needAck
      largestRxPktNum := max e.space.largestRxPktNum pn}}

/-- `recv_single` as far as numbers go; a packet that does not open is dropped. -/
def recvSingle (opens : Opens) (exponent : Nat) (p : Packet) (e : Endpoint) : Except RecvError Endpoint :=
  match readPktNum p.pnLen p.pnBytes with
  | none => .error .done
  | some truncated =>
    let pn := decodePktNum e.space.largestRxPktNum truncated.1 p.pnLen
    if !opens p pn then .error .done
    else if e.space.recvPktNum.contains pn then .error .done
    else (processPayload exponent p.ack e).bind fun e => e.releaseAcked.bind fun e => e.received pn

end Endpoint

/-! ### What is marked -/

namespace RecoveryEpoch
variable {stop : Nat} {l : List Sent}

theorem mark_spec (stop : Nat) (l : List Sent) :
    (mark stop l).1.map Sent.pktNum = l.map Sent.pktNum ∧
      (∀ p' ∈ (mark stop l).1, p'.acked = true → (∃ p ∈ l, p.pktNum = p'.pktNum ∧ (p.acked = true ∨ p.pktNum < stop))) ∧
      ∀ x ∈ (mark stop l).2.1, x < stop ∧ ∃ p ∈ l, p.pktNum = x := by
  induction l with
  | nil => simp [mark]
  | cons unacked rest ih =>
    obtain ⟨hnumbers, hacked, hnewly⟩ := ih
    rw [mark]
    split
    · refine ⟨rfl, fun p hp ha => ⟨p, hp, rfl, .inl ha⟩, fun x hx => absurd hx List.not_mem_nil⟩
    rename_i hlt
    have hlater : ∀ p' ∈ (mark stop rest).1, p'.acked = true →
        ∃ p ∈ unacked :: rest, p.pktNum = p'.pktNum ∧ (p.acked = true ∨ p.pktNum < stop) := by
      intro p' hp' ha
      obtain ⟨p, hp, hrest⟩ := hacked p' hp' ha
      exact ⟨p, List.mem_cons_of_mem _ hp, hrest⟩
    have hfurther : ∀ x ∈ (mark stop rest).2.1, x < stop ∧ ∃ p ∈ unacked :: rest, p.pktNum = x := by
      intro x hx
      obtain ⟨hx, p, hp, heq⟩ := hnewly x hx
      exact ⟨hx, p, List.mem_cons_of_mem _ hp, heq⟩
    have hfirst : ∀ p' : Sent, p'.pktNum = unacked.pktNum →
        ∃ p ∈ unacked :: rest, p.pktNum = p'.pktNum ∧ (p.acked = true ∨ p.pktNum < stop) :=
      fun p' hp' => ⟨unacked, List.mem_cons_self .., hp'.symm, .inr (by omega)⟩
    dsimp only
    split
    · refine ⟨by rw [List.map_cons, hnumbers, List.map_cons], ?_, hfurther⟩
      intro p' hp' ha
      rcases List.mem_cons.mp hp' with rfl | hp'
      · exact hfirst _ rfl
      · exact hlater p' hp' ha
    split
    · refine ⟨by rw [List.map_cons, hnumbers, List.map_cons], ?_, hfurther⟩
      intro p' hp' ha
      rcases List.mem_cons.mp hp' with rfl | hp'
      · exact hfirst _ rfl
      · exact hlater p' hp' ha
    · refine ⟨by rw [List.map_cons, hnumbers, List.map_cons], ?_, ?_⟩
      · intro p' hp' ha
        rcases List.mem_cons.mp hp' with rfl | hp'
        · exact hfirst _ rfl
        · exact hlater p' hp' ha
      · intro x hx
        rcases List.mem_cons.mp hx with rfl | hx
        · exact ⟨by omega, unacked, List.mem_cons_self .., rfl⟩
        · exact hfurther x hx

/-- Both ways to find the start lead to the first number that is not too low. -/
theorem startOf_spec (start : Nat) (hl : (l.map Sent.pktNum).Pairwise (· < ·)) :
    ∀ p ∈ l.drop (startOf start l), start ≤ p.pktNum := by
  rw [List.pairwise_map] at hl
  have hdrop : ∀ p ∈ l.drop (l.takeWhile (fun p => p.pktNum < start)).length, start ≤ p.pktNum := by
    induction l with
    | nil => simp
    | cons q rest ih =>
      obtain ⟨hq, hrest⟩ := List.pairwise_cons.mp hl
      rw [List.takeWhile_cons]
      split
      · rw [List.length_cons, List.drop_succ_cons]
        exact ih hrest
      · rename_i hlow
        have hlow : ¬ q.pktNum < start := by simpa using hlow
        intro p hp
        rcases List.mem_cons.mp hp with rfl | hp
        · omega
        · have := hq p hp
          omega
  rw [startOf]
  split
  · rename_i hfront
    intro p hp
    rw [List.drop_zero] at hp
    cases l with
    | nil => cases hp
    | cons q rest =>
      have hq : start ≤ q.pktNum := by simpa using hfront
      rcases List.mem_cons.mp hp with rfl | hp
      · exact hq
      · have := (List.pairwise_cons.mp hl).1 p hp
        omega
  · exact hdrop

/-- What the peer's ranges cover is marked, and no other packet. -/
theorem detectAcked_spec {skipPn : Option Nat} {ranges : List Range} {e : RecoveryEpoch} {newly : List Nat}
    (hordered : (e.sentPackets.map Sent.pktNum).Pairwise (· < ·))
    (hskip : ∀ k, skipPn = some k → ¬ Covers ranges k) :
    ∃ e' newly', detectAcked skipPn ranges e newly = some (e', newly') ∧
      e'.sentPackets.map Sent.pktNum = e.sentPackets.map Sent.pktNum ∧
      e'.largestAckedPacket = e.largestAckedPacket ∧
      (∀ p' ∈ e'.sentPackets, p'.acked = true →
        (∃ p ∈ e.sentPackets, p.pktNum = p'.pktNum ∧ p.acked = true) ∨ Covers ranges p'.pktNum) ∧
      ∀ x ∈ newly', x ∈ newly ∨ Covers ranges x := by
  induction ranges generalizing e newly with
  | nil => exact ⟨e, newly, rfl, rfl, rfl, fun p hp ha => .inl ⟨p, hp, rfl, ha⟩, fun x hx => .inl hx⟩
  | cons r rest ih =>
    have hnot : skipPn.any (BTreeRangeSet.rangeContains r) = false := by
      cases skipPn with
      | none => rfl
      | some k =>
        have := hskip k rfl
        rw [Intervals.covers_cons] at this
        show BTreeRangeSet.rangeContains r k = false
        rw [BTreeRangeSet.rangeContains]
        simp only [Bool.and_eq_false_imp, decide_eq_true_eq, decide_eq_false_iff_not]
        exact fun h h' => this (.inl ⟨h, h'⟩)
    obtain ⟨hnumbers, hacked, hnewly⟩ := mark_spec r.2 (e.sentPackets.drop (startOf r.1 e.sentPackets))
    have hstart := startOf_spec r.1 hordered
    have hsame : (e.sentPackets.take (startOf r.1 e.sentPackets) ++
        (mark r.2 (e.sentPackets.drop (startOf r.1 e.sentPackets))).1).map Sent.pktNum =
        e.sentPackets.map Sent.pktNum := by
      rw [List.map_append, hnumbers, ← List.map_append, List.take_append_drop]
    obtain ⟨e', newly', hdetect, hnumbers', hlargest, hacked', hnewly'⟩ := @ih
      {e with
        sentPackets := e.sentPackets.take (startOf r.1 e.sentPackets) ++
          (mark r.2 (e.sentPackets.drop (startOf r.1 e.sentPackets))).1
        ackedFrames := e.ackedFrames ++ (mark r.2 (e.sentPackets.drop (startOf r.1 e.sentPackets))).2.2}
      (newly ++ (mark r.2 (e.sentPackets.drop (startOf r.1 e.sentPackets))).2.1)
      (hsame ▸ hordered)
      (fun k hk hc => hskip k hk (Intervals.covers_cons.mpr (.inr hc)))
    refine ⟨e', newly', ?_, hnumbers'.trans hsame, hlargest, ?_, ?_⟩
    · rw [detectAcked, hnot]
      exact hdetect
    · intro p' hp' ha
      rcases hacked' p' hp' ha with ⟨p, hp, hpn, hpa⟩ | hc
      · rcases List.mem_append.mp hp with hp | hp
        · exact .inl ⟨p, List.mem_of_mem_take hp, hpn, hpa⟩
        · obtain ⟨q, hq, hqn, hqa⟩ := hacked p hp hpa
          have hmem := List.mem_of_mem_drop hq
          rcases hqa with hqa | hqa
          · exact .inl ⟨q, hmem, hqn.trans hpn, hqa⟩
          · have := hstart q hq
            exact .inr (Intervals.covers_cons.mpr (.inl ⟨by omega, by omega⟩))
      · exact .inr (Intervals.covers_cons.mpr (.inr hc))
    · intro x hx
      rcases hnewly' x hx with hx | hc
      · rcases List.mem_append.mp hx with hx | hx
        · exact .inl hx
        · obtain ⟨hstop, q, hq, rfl⟩ := hnewly x hx
          exact .inr (Intervals.covers_cons.mpr (.inl ⟨hstart q hq, hstop⟩))
      · exact .inr (Intervals.covers_cons.mpr (.inr hc))

/-- The ranges of the ACK frames that are under way, or with the peer and not yet released. -/
def Keeps (e : RecoveryEpoch) (ranges : RangeSet) : Prop :=
  ranges ∈ e.ackedFrames ∨ ∃ p ∈ e.sentPackets, p.ack = some ranges

/-- No ACK frame comes from nowhere: one turns up that a packet had. -/
theorem mark_ack (stop : Nat) (l : List Sent) (ranges : RangeSet)
    (h : ranges ∈ (mark stop l).2.2 ∨ ∃ p ∈ (mark stop l).1, p.ack = some ranges) : ∃ p ∈ l, p.ack = some ranges := by
  induction l with
  | nil => simp [mark] at h
  | cons unacked rest ih =>
    have hlater (h : ranges ∈ (mark stop rest).2.2 ∨ ∃ p ∈ (mark stop rest).1, p.ack = some ranges) :
        ∃ p ∈ unacked :: rest, p.ack = some ranges := by
      obtain ⟨p, hp, hack⟩ := ih h
      exact ⟨p, List.mem_cons_of_mem _ hp, hack⟩
    have hfirst (hack : unacked.ack = some ranges) : ∃ p ∈ unacked :: rest, p.ack = some ranges :=
      ⟨unacked, List.mem_cons_self .., hack⟩
    rw [mark] at h
    dsimp only at h
    split_ifs at h
    · rcases h with h | h
      · cases h
      · exact h
    · rcases h with h | ⟨p, hp, hack⟩
      · exact hlater (.inl h)
      rcases List.mem_cons.mp hp with rfl | hp
      · exact hfirst hack
      · exact hlater (.inr ⟨p, hp, hack⟩)
    · rcases h with h | ⟨p, hp, hack⟩
      · exact hlater (.inl h)
      rcases List.mem_cons.mp hp with rfl | hp
      · exact hfirst hack
      · exact hlater (.inr ⟨p, hp, hack⟩)
    · rcases h with h | ⟨p, hp, hack⟩
      · rcases List.mem_append.mp h with h | h
        · exact hfirst (Option.mem_toList.mp h)
        · exact hlater (.inl h)
      rcases List.mem_cons.mp hp with rfl | hp
      · cases hack
      · exact hlater (.inr ⟨p, hp, hack⟩)

/-- Nor does one come from what a peer's ranges do. -/
theorem keeps_of_detectAcked {skipPn : Option Nat} {l : List Range} {e e' : RecoveryEpoch} {newly newly' : List Nat}
    (h : detectAcked skipPn l e newly = some (e', newly')) {ranges : RangeSet} (hkeeps : e'.Keeps ranges) :
    e.Keeps ranges := by
  induction l generalizing e newly with
  | nil =>
    cases h
    exact hkeeps
  | cons r rest ih =>
    rw [detectAcked] at h
    split at h
    · cases h
    have hmarked := mark_ack r.2 (e.sentPackets.drop (startOf r.1 e.sentPackets)) ranges
    rcases ih h with hacked | ⟨p, hp, hack⟩
    · rcases List.mem_append.mp hacked with hacked | hacked
      · exact .inl hacked
      · obtain ⟨p, hp, hack⟩ := hmarked (.inl hacked)
        exact .inr ⟨p, List.mem_of_mem_drop hp, hack⟩
    · rcases List.mem_append.mp hp with hp | hp
      · exact .inr ⟨p, List.mem_of_mem_take hp, hack⟩
      · obtain ⟨p, hp, hack⟩ := hmarked (.inr ⟨p, hp, hack⟩)
        exact .inr ⟨p, List.mem_of_mem_drop hp, hack⟩

theorem lose_ack (largestAcked : Nat) (deemed : List Nat) (l : List Sent) {ranges : RangeSet}
    (h : ∃ p ∈ lose largestAcked deemed l, p.ack = some ranges) : ∃ p ∈ l, p.ack = some ranges := by
  induction l with
  | nil => exact h
  | cons p rest ih =>
    obtain ⟨q, hq, hack⟩ := h
    rw [lose] at hq
    split at hq
    · exact ⟨q, hq, hack⟩
    rcases List.mem_cons.mp hq with rfl | hq
    · split at hack
      · cases hack
      · exact ⟨p, List.mem_cons_self .., hack⟩
    · obtain ⟨q, hq, hack⟩ := ih ⟨q, hq, hack⟩
      exact ⟨q, List.mem_cons_of_mem _ hq, hack⟩

/-- What is lost stays in its place. -/
theorem lose_spec (largestAcked : Nat) (deemed : List Nat) (l : List Sent) :
    (lose largestAcked deemed l).map Sent.pktNum = l.map Sent.pktNum ∧
      ∀ p' ∈ lose largestAcked deemed l, p'.acked = true → ∃ p ∈ l, p.pktNum = p'.pktNum ∧ p.acked = true := by
  induction l with
  | nil => exact ⟨rfl, fun p hp => absurd hp List.not_mem_nil⟩
  | cons p rest ih =>
    obtain ⟨hnumbers, hacked⟩ := ih
    rw [lose]
    split
    · exact ⟨rfl, fun q hq ha => ⟨q, hq, rfl, ha⟩⟩
    have hlater : ∀ p' ∈ lose largestAcked deemed rest, p'.acked = true →
        ∃ q ∈ p :: rest, q.pktNum = p'.pktNum ∧ q.acked = true := by
      intro p' hp' ha
      obtain ⟨q, hq, heq⟩ := hacked p' hp' ha
      exact ⟨q, List.mem_cons_of_mem _ hq, heq⟩
    split
    · refine ⟨by rw [List.map_cons, hnumbers, List.map_cons], ?_⟩
      intro p' hp' ha
      rcases List.mem_cons.mp hp' with rfl | hp'
      · exact ⟨p, List.mem_cons_self .., rfl, ha⟩
      · exact hlater p' hp' ha
    · refine ⟨by rw [List.map_cons, hnumbers, List.map_cons], ?_⟩
      intro p' hp' ha
      rcases List.mem_cons.mp hp' with rfl | hp'
      · exact ⟨p', List.mem_cons_self .., rfl, ha⟩
      · exact hlater p' hp' ha

theorem drain_sublist (turns : Nat) (l : List Sent) : (drain turns l).Sublist l := by
  induction turns generalizing l with
  | zero => exact List.Sublist.refl _
  | succ turns ih =>
    cases l with
    | nil => exact List.Sublist.refl _
    | cons p rest =>
      rw [drain]
      split
      · exact (ih rest).trans (List.sublist_cons_self ..)
      · exact List.Sublist.refl _

end RecoveryEpoch

end Aether.Quic
