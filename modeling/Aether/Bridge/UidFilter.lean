import Aether.Machine.Run

/-! The bridge's filter by owner.

`SocksTunBridge` reads packets from the TUN and asks the system which app owns a flow when
it meets the flow's first packet. A flow of a blocked app is answered with a reset or
dropped; any other becomes a session that keeps the owner it was opened with, and every
later packet of the flow is checked against that owner. An owner that the system cannot
name is not blocked.

The owner of a session is therefore never a blocked one (`Clean`), and a packet whose
owner is blocked is not forwarded as long as the system attributes its flow to that owner
(`processPacket_blocked`). -/
namespace Aether.Bridge.UidFilter

/-! ### Packets -/

/-- `FlowKey4` or `FlowKey6`, by the length of the addresses. -/
structure FlowKey where
  proto : Nat
  srcIp : List UInt8
  srcPort : Nat
  dstIp : List UInt8
  dstPort : Nat
  deriving DecidableEq, Repr

def getByte (packet : List UInt8) (i : Nat) : Nat := (packet.getD i 0).toNat

def getShort (packet : List UInt8) (i : Nat) : Nat := getByte packet i * 256 + getByte packet (i + 1)

def copyOfRange (packet : List UInt8) (start stop : Nat) : List UInt8 := (packet.drop start).take (stop - start)

/-- What the filter reads of a packet. -/
structure Parsed where
  key : FlowKey
  /-- `isPureSyn`, for a segment. -/
  pureSyn : Bool
  deriving DecidableEq, Repr

/-- A transport header at `offset`; both protocols begin with the ports. -/
def parseTransport (packet : List UInt8) (proto offset : Nat) (srcIp dstIp : List UInt8) : Option Parsed :=
  let key : FlowKey :=
    {proto, srcIp, srcPort := getShort packet offset, dstIp, dstPort := getShort packet (offset + 2)}
  if proto == 6 then
    if packet.length < offset + 20 then none
    else
      let flags := packet.getD (offset + 13) 0
      some {key, pureSyn := flags &&& 0x02 != 0 && flags &&& 0x10 == 0}
  else if proto == 17 then
    if packet.length < offset + 8 then none else some {key, pureSyn := false}
  else none

/-- The header of `processIpv4`. -/
def parseIpv4 (packet : List UInt8) : Option Parsed :=
  let hLen := getByte packet 0 % 16 * 4
  if packet.length < 20 || packet.length < hLen then none
  else parseTransport packet (getByte packet 9) hLen (copyOfRange packet 12 16) (copyOfRange packet 16 20)

/-- `ipv6Transport`: past the extension headers; fragments are not followed. -/
def ipv6Transport (packet : List UInt8) (nextHeader offset : Nat) : Option (Nat × Nat) :=
  if nextHeader == 6 || nextHeader == 17 then some (nextHeader, offset)
  else if nextHeader == 0 || nextHeader == 43 || nextHeader == 60 || nextHeader == 135 then
    if offset + 2 > packet.length then none
    else ipv6Transport packet (getByte packet offset) (offset + (getByte packet (offset + 1) + 1) * 8)
  else none
termination_by packet.length - offset

/-- The header of `processIpv6`. -/
def parseIpv6 (packet : List UInt8) : Option Parsed :=
  if packet.length < 40 then none
  else
    match ipv6Transport packet (getByte packet 6) 40 with
    | some (proto, offset) =>
      parseTransport packet proto offset (copyOfRange packet 8 24) (copyOfRange packet 24 40)
    | none => none

def version (packet : List UInt8) : Nat := getByte packet 0 / 16

def parse (packet : List UInt8) : Option Parsed :=
  match version packet with
  | 4 => parseIpv4 packet
  | 6 => parseIpv6 packet
  | _ => none

/-! ### The filter -/

/-- The sessions of both protocols, each with the owner it was opened for. -/
abbrev Sessions := FlowKey → Option Int

/-- A packet from the TUN, with what `ownerUid` answers should it be asked and how the
flow's session stands. -/
structure Arrival where
  packet : List UInt8
  ownerUid : Int
  isConnected : Bool := false
  isStaleUnconnected : Bool := false

inductive Fate where
  | dropped
  | reset
  | forwarded
  deriving DecidableEq, Repr

/-- `isUidBlocked`; `-1` is an owner that is not known. -/
def isUidBlocked (blocked : List Int) (uid : Int) : Bool := uid != -1 && blocked.contains uid

/-- The first segment of a flow. -/
def openTcp (blocked : List Int) (a : Arrival) (q : Parsed) (s : Sessions) : Fate × Sessions :=
  if q.pureSyn then
    if isUidBlocked blocked a.ownerUid then (.reset, s)
    else (.forwarded, Function.update s q.key (some a.ownerUid))
  else (.dropped, s)

/-- A segment. A repeated `SYN` replaces a session that could not connect. -/
def processTcp (blocked : List Int) (a : Arrival) (q : Parsed) (s : Sessions) : Fate × Sessions :=
  match s q.key with
  | none => openTcp blocked a q s
  | some uid =>
    if q.pureSyn && !a.isConnected then
      if a.isStaleUnconnected then openTcp blocked a q (Function.update s q.key none) else (.dropped, s)
    else if isUidBlocked blocked uid then (.dropped, Function.update s q.key none)
    else (.forwarded, s)

/-- A datagram. The routing engine has no rules, so no name is refused. -/
def processUdp (blocked : List Int) (a : Arrival) (q : Parsed) (s : Sessions) : Fate × Sessions :=
  match s q.key with
  | none =>
    if isUidBlocked blocked a.ownerUid then (.dropped, s)
    else (.forwarded, Function.update s q.key (some a.ownerUid))
  | some uid =>
    if isUidBlocked blocked uid then (.dropped, Function.update s q.key none) else (.forwarded, s)

/-- `processPacket`. -/
def processPacket (blocked : List Int) (a : Arrival) (s : Sessions) : Fate × Sessions :=
  match parse a.packet with
  | none => (.dropped, s)
  | some q => if q.key.proto == 6 then processTcp blocked a q s else processUdp blocked a q s

/-! ### No session belongs to a blocked app -/

def Clean (blocked : List Int) (s : Sessions) : Prop :=
  ∀ key uid, s key = some uid → isUidBlocked blocked uid = false

/-- The system knows the packet's flow as one of `uid`, and so does the session if there is
one. -/
def Attributed (uid : Int) (a : Arrival) (s : Sessions) : Prop :=
  a.ownerUid = uid ∧ ∀ q, parse a.packet = some q → ∀ u, s q.key = some u → u = uid

section Step
variable {blocked : List Int} {s : Sessions}

theorem Clean.remove (h : Clean blocked s) (key : FlowKey) : Clean blocked (Function.update s key none) := by
  intro k uid hk
  by_cases hkey : k = key
  · rw [hkey, Function.update_self] at hk
    cases hk
  · rw [Function.update_of_ne hkey] at hk
    exact h k uid hk

theorem Clean.add (h : Clean blocked s) (key : FlowKey) {uid : Int} (hu : isUidBlocked blocked uid = false) :
    Clean blocked (Function.update s key (some uid)) := by
  intro k u hk
  by_cases hkey : k = key
  · rw [hkey, Function.update_self] at hk
    rw [← Option.some.inj hk]
    exact hu
  · rw [Function.update_of_ne hkey] at hk
    exact h k u hk

theorem Clean.openTcp (h : Clean blocked s) (a : Arrival) (q : Parsed) : Clean blocked (openTcp blocked a q s).2 := by
  unfold UidFilter.openTcp
  split
  · split
    · exact h
    · rename_i hu
      exact h.add q.key (Bool.eq_false_iff.mpr hu)
  · exact h

theorem Clean.processPacket (h : Clean blocked s) (a : Arrival) :
    Clean blocked (processPacket blocked a s).2 := by
  unfold UidFilter.processPacket
  split
  · exact h
  · rename_i q _
    split
    · unfold processTcp
      split
      · exact h.openTcp a q
      · split
        · split
          · exact (h.remove q.key).openTcp a q
          · exact h
        · split
          · exact h.remove q.key
          · exact h
    · unfold processUdp
      split
      · split
        · exact h
        · rename_i hu
          exact h.add q.key (Bool.eq_false_iff.mpr hu)
      · split
        · exact h.remove q.key
        · exact h

/-- A packet that is attributed to a blocked app is not forwarded. -/
theorem processPacket_blocked (h : Clean blocked s) {uid : Int} (hu : isUidBlocked blocked uid = true)
    {a : Arrival} (ha : Attributed uid a s) : (processPacket blocked a s).1 ≠ .forwarded := by
  obtain ⟨howner, hsession⟩ := ha
  unfold UidFilter.processPacket
  split
  · exact nofun
  · rename_i q hq
    -- No session of the flow can be there: it would be one of a blocked app.
    have hnone : s q.key = none := by
      cases hs : s q.key with
      | none => rfl
      | some u =>
        have hclean := h q.key u hs
        rw [hsession q hq u hs, hu] at hclean
        cases hclean
    split
    · rw [processTcp, hnone]
      unfold UidFilter.openTcp
      dsimp only
      rw [howner, if_pos hu]
      split <;> exact nofun
    · rw [processUdp, hnone]
      dsimp only
      rw [howner, if_pos hu]
      exact nofun

end Step

end Aether.Bridge.UidFilter
