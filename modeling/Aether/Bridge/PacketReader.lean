import Aether.Bridge.Dns

/-! The packet reader of the bridge.

A packet lies at the start of a buffer that is larger than it. Every read at an offset names a
fault where the offset is outside of the packet, be it inside the buffer or not; what is done with
a packet is a list of effects. The DNS functions read a copy of the payload, and have no faults of
their own.

`processPacket_ok` says that no read is outside of the packet. -/
namespace Aether.Bridge.PacketReader
open Kotlin (Platform)
open Dns (buildDnsNXResponse extractDomainName sniffDnsResponse)
open UidFilter (FlowKey copyOfRange)

/-! ### Reads -/

inductive Fault where
  /-- An index that the buffer does not have: an exception. -/
  | outOfBounds (index : Nat)
  /-- An index of the buffer behind the packet. -/
  | beyond (index : Nat)
  deriving DecidableEq, Repr

/-- A buffer with the length of the packet in it. -/
structure Packet where
  buffer : List UInt8
  len : Nat
  le : len ≤ buffer.length

abbrev Read (α : Type) := Except Fault α

namespace Packet
variable (p : Packet)

/-- The packet itself. -/
def bytes : List UInt8 := p.buffer.take p.len

def byte (i : Nat) : Read Nat :=
  match p.buffer[i]? with
  | none => .error (.outOfBounds i)
  | some b => if i < p.len then .ok b.toNat else .error (.beyond i)

def getShort (o : Nat) : Read Nat := do
  let a ← p.byte o
  let b ← p.byte (o + 1)
  return a * 256 + b

def getLong (o : Nat) : Read Nat := do
  let a ← p.byte o
  let b ← p.byte (o + 1)
  let c ← p.byte (o + 2)
  let d ← p.byte (o + 3)
  return ((a * 256 + b) * 256 + c) * 256 + d

/-- `copyOfRange`; past the end of the buffer it would copy zeros. -/
def copy (start stop : Nat) : Read (List UInt8) :=
  if stop < start then .error (.outOfBounds start)
  else if p.len < stop then .error (.beyond stop)
  else .ok (copyOfRange p.buffer start stop)

end Packet

/-! ### What is done with a packet -/

structure Session where
  isConnected : Bool
  isStaleUnconnected : Bool
  uid : Int

inductive Effect where
  /-- `handleFromTun`. -/
  | tcpFed (key : FlowKey) (seq : Nat) (payload : Option (List UInt8)) (flags : Nat)
  | tcpOpened (key : FlowKey) (seq : Nat) (uid : Int)
  | tcpClosed (key : FlowKey)
  /-- A reset that acknowledges a number. -/
  | reset (key : FlowKey) (ack : Nat)
  | udpFed (key : FlowKey) (payload : List UInt8)
  | udpOpened (key : FlowKey) (uid : Int)
  | udpClosed (key : FlowKey)
  /-- A DNS answer that refuses the name. -/
  | refused (key : FlowKey) (answer : List UInt8)
  /-- What `sniffDnsResponse` puts into the map. -/
  | sniffed (puts : List (String × String))
  deriving DecidableEq, Repr

/-- What a packet meets: the sessions, the owners of flows, which of them are blocked, and which
names the routing engine blocks for a resolver. -/
structure World where
  platform : Platform
  tcpSessions : FlowKey → Option Session
  udpSessions : FlowKey → Option Int
  ownerUid : FlowKey → Int
  isUidBlocked : Int → Bool
  blocksName : (resolver : String) → (domain : String) → Bool

section Transport
variable (w : World) (p : Packet)

/-- A segment without a session. -/
def openTcp (key : FlowKey) (offset : Nat) : Read (List Effect) := do
  let flags ← p.byte (offset + 13)
  if flags &&& 0x02 ≠ 0 ∧ flags &&& 0x10 = 0 then
    let uid := w.ownerUid key
    let seq ← p.getLong (offset + 4)
    if w.isUidBlocked uid then return [.reset key ((seq + 1) % 2 ^ 32)]
    else return [.tcpOpened key seq uid]
  else return []

/-- A segment of a session: the payload is what follows the header, if anything does. -/
def feedTcp (key : FlowKey) (offset flags : Nat) : Read (List Effect) := do
  let seq ← p.getLong (offset + 4)
  let words ← p.byte (offset + 12)
  let tcpDataOffset := offset + words / 16 * 4
  if tcpDataOffset < p.len then
    let payload ← p.copy tcpDataOffset p.len
    return [.tcpFed key seq (some payload) flags]
  else return [.tcpFed key seq none flags]

/-- The TCP half of `processIpv4` and `processIpv6`, for a header that is there. -/
def processTcp (key : FlowKey) (offset : Nat) : Read (List Effect) :=
  match w.tcpSessions key with
  | none => openTcp w p key offset
  | some session => do
    let flags ← p.byte (offset + 13)
    if (flags &&& 0x02 ≠ 0 ∧ flags &&& 0x10 = 0) ∧ session.isConnected = false then
      if session.isStaleUnconnected then
        let opened ← openTcp w p key offset
        return .tcpClosed key :: opened
      else return []
    else if w.isUidBlocked session.uid then return [.tcpClosed key]
    else feedTcp p key offset flags

/-- The session that a datagram reaches. -/
def feedUdp (key : FlowKey) (payload : List UInt8) : List Effect :=
  match w.udpSessions key with
  | some uid => if w.isUidBlocked uid then [.udpClosed key] else [.udpFed key payload]
  | none =>
    let uid := w.ownerUid key
    if w.isUidBlocked uid then [] else [.udpOpened key uid, .udpFed key payload]

/-- The answer to a query for a name that is blocked. -/
def refusal (key : FlowKey) (resolver : String) (payload : List UInt8) : Option Effect := do
  let domain ← extractDomainName w.platform payload
  let answer ← buildDnsNXResponse payload
  if w.blocksName resolver domain then some (.refused key answer) else none

/-- A query to a resolver, whose address is at `destination`. -/
def answerQuery (key : FlowKey) (destination width : Nat) (payload : List UInt8) : Read (Option Effect) := do
  if key.dstPort = 53 then
    let resolver ← p.copy destination (destination + width)
    return refusal w key (w.platform.hostAddress resolver) payload
  else return none

/-- The UDP half, for a header that is there. -/
def processUdp (key : FlowKey) (offset destination width : Nat) : Read (List Effect) := do
  let payload ← p.copy (offset + 8) p.len
  match ← answerQuery w p key destination width payload with
  | some effect => return [effect]
  | none =>
    let sniffed := if key.srcPort = 53 then [.sniffed (sniffDnsResponse w.platform payload)] else []
    return sniffed ++ feedUdp w key payload

end Transport

def processIpv4 (w : World) (p : Packet) : Read (List Effect) := do
  if p.len < 20 then return []
  else
    let proto ← p.byte 9
    if proto ≠ 6 ∧ proto ≠ 17 then return []
    else
      let first ← p.byte 0
      let hLen := first % 16 * 4
      if p.len < hLen then return []
      else
        let srcIp ← p.copy 12 16
        let dstIp ← p.copy 16 20
        if proto = 6 then
          if p.len < hLen + 20 then return []
          else
            let srcPort ← p.getShort hLen
            let dstPort ← p.getShort (hLen + 2)
            processTcp w p {proto := 6, srcIp, srcPort, dstIp, dstPort} hLen
        else if p.len < hLen + 8 then return []
        else
          let srcPort ← p.getShort hLen
          let dstPort ← p.getShort (hLen + 2)
          processUdp w p {proto := 17, srcIp, srcPort, dstIp, dstPort} hLen 16 4

/-- The loop of `ipv6Transport`. -/
def ipv6Chain (p : Packet) (nextHeader offset : Nat) : Read (Option (Nat × Nat)) :=
  if nextHeader = 6 ∨ nextHeader = 17 then .ok (some (nextHeader, offset))
  else if nextHeader = 0 ∨ nextHeader = 43 ∨ nextHeader = 60 ∨ nextHeader = 135 then
    if _h : p.len < offset + 2 then .ok none
    else
      match p.byte (offset + 1), p.byte offset with
      | .ok ext, .ok following => ipv6Chain p following (offset + (ext + 1) * 8)
      | .error e, _ => .error e
      | _, .error e => .error e
  else .ok none
termination_by p.len - offset

def ipv6Transport (p : Packet) : Read (Option (Nat × Nat)) := do
  if p.len < 40 then return none
  else
    let nextHeader ← p.byte 6
    ipv6Chain p nextHeader 40

def processIpv6 (w : World) (p : Packet) : Read (List Effect) := do
  match ← ipv6Transport p with
  | none => return []
  | some (nextHeader, offset) =>
    let srcIp ← p.copy 8 24
    let dstIp ← p.copy 24 40
    if p.len < offset + 4 then return []
    else
      let srcPort ← p.getShort offset
      let dstPort ← p.getShort (offset + 2)
      if nextHeader = 6 then
        if p.len < offset + 20 then return []
        else processTcp w p {proto := 6, srcIp, srcPort, dstIp, dstPort} offset
      else if nextHeader = 17 then
        if p.len < offset + 8 then return []
        else processUdp w p {proto := 17, srcIp, srcPort, dstIp, dstPort} offset 24 16
      else return []

def processPacket (w : World) (p : Packet) : Read (List Effect) := do
  if p.len < 1 then return []
  else
    let first ← p.byte 0
    if first / 16 = 4 then processIpv4 w p
    else if first / 16 = 6 then processIpv6 w p
    else return []

/-! ### No read is outside -/

/-- A computation that has no fault. -/
def Safe {α : Type} (r : Read α) : Prop := ∃ a, r = .ok a

section Safe
variable {α β : Type} {p : Packet}

theorem safe_pure (a : α) : Safe (pure a : Read α) := ⟨a, rfl⟩

theorem Safe.bind {r : Read α} {f : α → Read β} (hr : Safe r) (hf : ∀ a, r = .ok a → Safe (f a)) : Safe (r >>= f) := by
  obtain ⟨a, ha⟩ := hr
  rw [ha]
  exact hf a ha

theorem byte_eq {i : Nat} (h : i < p.len) : p.byte i = .ok (UidFilter.getByte p.buffer i) := by
  have hin : i < p.buffer.length := Nat.lt_of_lt_of_le h p.le
  rw [Packet.byte, List.getElem?_eq_getElem hin]
  dsimp only
  rw [if_pos h, UidFilter.getByte, List.getD_eq_getElem?_getD, List.getElem?_eq_getElem hin, Option.getD_some]

theorem safe_byte {i : Nat} (h : i < p.len) : Safe (p.byte i) := ⟨_, byte_eq h⟩

theorem safe_getShort {o : Nat} (h : o + 1 < p.len) : Safe (p.getShort o) := by
  rw [Packet.getShort, byte_eq (by omega), byte_eq h]
  exact safe_pure _

theorem safe_getLong {o : Nat} (h : o + 3 < p.len) : Safe (p.getLong o) := by
  rw [Packet.getLong, byte_eq (by omega), byte_eq (by omega), byte_eq (by omega), byte_eq h]
  exact safe_pure _

theorem safe_copy {start stop : Nat} (hle : start ≤ stop) (h : stop ≤ p.len) : Safe (p.copy start stop) := by
  rw [Packet.copy, if_neg (by omega), if_neg (by omega)]
  exact ⟨_, rfl⟩

variable {w : World} {key : FlowKey} {offset : Nat}

theorem safe_openTcp (h : offset + 20 ≤ p.len) : Safe (openTcp w p key offset) := by
  rw [openTcp]
  apply (safe_byte (by omega)).bind
  intro flags _
  split
  · apply (safe_getLong (by omega)).bind
    intro seq _
    split
    · exact safe_pure _
    · exact safe_pure _
  · exact safe_pure _

/-- A data offset behind the packet is not followed. -/
theorem safe_feedTcp (h : offset + 20 ≤ p.len) (flags : Nat) : Safe (feedTcp p key offset flags) := by
  rw [feedTcp]
  apply (safe_getLong (by omega)).bind
  intro seq _
  apply (safe_byte (by omega)).bind
  intro words _
  dsimp only
  split
  · rename_i hinside
    apply (safe_copy (Nat.le_of_lt hinside) (Nat.le_refl _)).bind
    intro payload _
    exact safe_pure _
  · exact safe_pure _

theorem safe_processTcp (h : offset + 20 ≤ p.len) : Safe (processTcp w p key offset) := by
  rw [processTcp]
  split
  · exact safe_openTcp h
  · apply (safe_byte (by omega)).bind
    intro flags _
    split
    · split
      · apply (safe_openTcp h).bind
        intro opened _
        exact safe_pure _
      · exact safe_pure _
    · split
      · exact safe_pure _
      · exact safe_feedTcp h flags

theorem safe_answerQuery {destination width : Nat} (payload : List UInt8) (hdest : destination + width ≤ p.len) :
    Safe (answerQuery w p key destination width payload) := by
  rw [answerQuery]
  split
  · apply (safe_copy (Nat.le_add_right _ _) hdest).bind
    intro resolver _
    exact safe_pure _
  · exact safe_pure _

theorem safe_processUdp {destination width : Nat} (h : offset + 8 ≤ p.len) (hdest : destination + width ≤ p.len) :
    Safe (processUdp w p key offset destination width) := by
  rw [processUdp]
  apply (safe_copy h (Nat.le_refl _)).bind
  intro payload _
  apply (safe_answerQuery payload hdest).bind
  intro refused _
  split
  · exact safe_pure _
  · exact safe_pure _

theorem safe_processIpv4 : Safe (processIpv4 w p) := by
  rw [processIpv4]
  split
  · exact safe_pure _
  · apply (safe_byte (by omega)).bind
    intro proto _
    split
    · exact safe_pure _
    · apply (safe_byte (by omega)).bind
      intro first _
      dsimp only
      split
      · exact safe_pure _
      · apply (safe_copy (by omega) (by omega)).bind
        intro srcIp _
        apply (safe_copy (by omega) (by omega)).bind
        intro dstIp _
        split
        · split
          · exact safe_pure _
          · apply (safe_getShort (by omega)).bind
            intro srcPort _
            apply (safe_getShort (by omega)).bind
            intro dstPort _
            exact safe_processTcp (by omega)
        · split
          · exact safe_pure _
          · apply (safe_getShort (by omega)).bind
            intro srcPort _
            apply (safe_getShort (by omega)).bind
            intro dstPort _
            exact safe_processUdp (by omega) (by omega)

/-- Each extension header is read only if it begins inside of the packet. -/
theorem safe_ipv6Chain (nextHeader offset : Nat) : Safe (ipv6Chain p nextHeader offset) := by
  induction nextHeader, offset using ipv6Chain.induct p with
  | case1 nextHeader offset h =>
    rw [ipv6Chain, if_pos h]
    exact ⟨_, rfl⟩
  | case2 nextHeader offset hnot hext h =>
    rw [ipv6Chain, if_neg hnot, if_pos hext, dif_pos h]
    exact ⟨_, rfl⟩
  | case3 nextHeader offset hnot hext h ext following hext' hfollowing ih =>
    rw [ipv6Chain, if_neg hnot, if_pos hext, dif_neg h, hext', hfollowing]
    exact ih
  | case4 nextHeader offset hnot hext h e hext' =>
    rw [byte_eq (by omega)] at hext'
    cases hext'
  | case5 nextHeader offset hnot hext h e hfollowing =>
    rw [byte_eq (by omega)] at hfollowing
    cases hfollowing
  | case6 nextHeader offset hnot hext =>
    rw [ipv6Chain, if_neg hnot, if_neg hext]
    exact ⟨_, rfl⟩

theorem safe_processIpv6 : Safe (processIpv6 w p) := by
  rw [processIpv6, ipv6Transport]
  by_cases hshort : p.len < 40
  · rw [if_pos hshort]
    exact safe_pure _
  · rw [if_neg hshort]
    have htransport : Safe (do
        let nextHeader ← p.byte 6
        ipv6Chain p nextHeader 40) := (safe_byte (by omega)).bind fun nextHeader _ => safe_ipv6Chain _ _
    apply htransport.bind
    intro transport _
    split
    · exact safe_pure _
    · apply (safe_copy (by omega) (by omega)).bind
      intro srcIp _
      apply (safe_copy (by omega) (by omega)).bind
      intro dstIp _
      split
      · exact safe_pure _
      · apply (safe_getShort (by omega)).bind
        intro srcPort _
        apply (safe_getShort (by omega)).bind
        intro dstPort _
        split
        · split
          · exact safe_pure _
          · exact safe_processTcp (by omega)
        · split
          · split
            · exact safe_pure _
            · exact safe_processUdp (by omega) (by omega)
          · exact safe_pure _

end Safe

/-- For every buffer and every length within it, whatever the packet says about the lengths of
its parts, and whatever it meets: no read is outside of the packet. -/
theorem processPacket_ok (w : World) (p : Packet) : ∃ effects, processPacket w p = .ok effects := by
  show Safe (processPacket w p)
  rw [processPacket]
  split
  · exact safe_pure _
  · apply (safe_byte (by omega)).bind
    intro first _
    split
    · exact safe_processIpv4
    · split
      · exact safe_processIpv6
      · exact safe_pure _

end Aether.Bridge.PacketReader
