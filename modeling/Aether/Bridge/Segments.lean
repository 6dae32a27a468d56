import Aether.Bridge.PacketReader
import Aether.Machine.Fallible

/-! Which packets reach a session.

The reader finds the transport header of a packet from the lengths in front of it
(`locate`), and what it does with the packet is decided there (`processPacket_eq`). It does
not look at the fragment offset and the length of a datagram of the fourth version, at the
length of one of the sixth or at that of a UDP datagram, and takes a header of less than
five words as it comes: the rest of what was read is the payload.

`carried` is the payload that a packet's own fields give, and `Whole` says field by field
when the two are the same (`segments_iff`). -/
namespace Aether.Bridge.PacketReader
open UidFilter (FlowKey copyOfRange getByte getShort)
open Machine (ok_bind ok_of_bind)

/-! ### Where the transport header is -/

/-- The room that the reader asks for behind the offset. -/
def headerSize (proto : Nat) : Nat := if proto = 6 then 20 else 8

/-- A transport header that is there: the flow and its offset. -/
def located (packet : List UInt8) (proto offset : Nat) (srcIp dstIp : List UInt8) : Option (FlowKey × Nat) :=
  if (proto = 6 ∨ proto = 17) ∧ offset + headerSize proto ≤ packet.length then
    some ({proto, srcIp, srcPort := getShort packet offset, dstIp, dstPort := getShort packet (offset + 2)}, offset)
  else none

def locateIpv4 (packet : List UInt8) : Option (FlowKey × Nat) :=
  if packet.length < 20 then none
  else located packet (getByte packet 9) (getByte packet 0 % 16 * 4) (copyOfRange packet 12 16)
    (copyOfRange packet 16 20)

def locateIpv6 (packet : List UInt8) : Option (FlowKey × Nat) :=
  if packet.length < 40 then none
  else
    match UidFilter.ipv6Transport packet (getByte packet 6) 40 with
    | some (proto, offset) => located packet proto offset (copyOfRange packet 8 24) (copyOfRange packet 24 40)
    | none => none

def locate (packet : List UInt8) : Option (FlowKey × Nat) :=
  if packet.length < 1 then none
  else if UidFilter.version packet = 4 then locateIpv4 packet
  else if UidFilter.version packet = 6 then locateIpv6 packet
  else none

/-- Where the destination is, and how long. -/
def destination (packet : List UInt8) : Nat × Nat := if UidFilter.version packet = 4 then (16, 4) else (24, 16)

/-- The reader's work behind the transport header. -/
def processLocated (w : World) (p : Packet) (key : FlowKey) (offset : Nat) : Read (List Effect) :=
  if key.proto = 6 then processTcp w p key offset
  else processUdp w p key offset (destination p.bytes).1 (destination p.bytes).2

section Reads
variable {p : Packet}

@[simp] theorem length_bytes : p.bytes.length = p.len := by
  rw [Packet.bytes, List.length_take, Nat.min_eq_left p.le]

theorem getByte_bytes {i : Nat} (h : i < p.len) : getByte p.bytes i = getByte p.buffer i := by
  rw [getByte, getByte, List.getD_eq_getElem?_getD, List.getD_eq_getElem?_getD, Packet.bytes,
    List.getElem?_take_of_lt h]

theorem byte_bytes {i : Nat} (h : i < p.len) : p.byte i = .ok (getByte p.bytes i) := by
  rw [byte_eq h, getByte_bytes h]

theorem getShort_bytes {o : Nat} (h : o + 1 < p.len) : p.getShort o = .ok (getShort p.bytes o) := by
  rw [Packet.getShort, byte_bytes (by omega), byte_bytes h]
  rfl

theorem copy_bytes {start stop : Nat} (hle : start ≤ stop) (h : stop ≤ p.len) :
    p.copy start stop = .ok (copyOfRange p.bytes start stop) := by
  rw [Packet.copy, if_neg (by omega), if_neg (by omega), copyOfRange, copyOfRange, Packet.bytes, List.drop_take,
    List.take_take, Nat.min_eq_left (by omega)]

/-- The loop over the extension headers reads what the packet holds. -/
theorem ipv6Chain_eq (nextHeader offset : Nat) :
    ipv6Chain p nextHeader offset = .ok (UidFilter.ipv6Transport p.bytes nextHeader offset) := by
  induction nextHeader, offset using ipv6Chain.induct p with
  | case1 nextHeader offset h =>
    rw [ipv6Chain, if_pos h, UidFilter.ipv6Transport, if_pos (by simpa using h)]
  | case2 nextHeader offset hnot hext h =>
    rw [ipv6Chain, if_neg hnot, if_pos hext, dif_pos h, UidFilter.ipv6Transport, if_neg (by simpa using hnot),
      if_pos (by simpa [or_assoc] using hext), if_pos (by rw [length_bytes]; omega)]
  | case3 nextHeader offset hnot hext h ext following hext' hfollowing ih =>
    have hrest : UidFilter.ipv6Transport p.bytes nextHeader offset =
        UidFilter.ipv6Transport p.bytes following (offset + (ext + 1) * 8) := by
      rw [byte_bytes (by omega)] at hext' hfollowing
      rw [UidFilter.ipv6Transport, if_neg (by simpa using hnot), if_pos (by simpa [or_assoc] using hext),
        if_neg (by rw [length_bytes]; omega), Except.ok.inj hext', Except.ok.inj hfollowing]
    rw [ipv6Chain, if_neg hnot, if_pos hext, dif_neg h, hext', hfollowing, hrest]
    exact ih
  | case4 nextHeader offset hnot hext h e hext' =>
    rw [byte_eq (by omega)] at hext'
    cases hext'
  | case5 nextHeader offset hnot hext h e hfollowing =>
    rw [byte_eq (by omega)] at hfollowing
    cases hfollowing
  | case6 nextHeader offset hnot hext =>
    rw [ipv6Chain, if_neg hnot, if_neg hext, UidFilter.ipv6Transport, if_neg (by simpa using hnot),
      if_neg (by simpa [or_assoc] using hext)]

theorem ipv6Transport_proto {packet : List UInt8} {nextHeader offset proto o : Nat}
    (h : UidFilter.ipv6Transport packet nextHeader offset = some (proto, o)) : proto = 6 ∨ proto = 17 := by
  induction nextHeader, offset using UidFilter.ipv6Transport.induct packet with
  | case1 nextHeader offset hproto =>
    rw [UidFilter.ipv6Transport, if_pos hproto] at h
    obtain ⟨rfl, -⟩ := Prod.mk.inj (Option.some.inj h)
    simpa using hproto
  | case2 nextHeader offset hnot hext hroom =>
    rw [UidFilter.ipv6Transport, if_neg hnot, if_pos hext, if_pos hroom] at h
    cases h
  | case3 nextHeader offset hnot hext hroom ih =>
    rw [UidFilter.ipv6Transport, if_neg hnot, if_pos hext, if_neg hroom] at h
    exact ih h
  | case4 nextHeader offset hnot hext =>
    rw [UidFilter.ipv6Transport, if_neg hnot, if_neg hext] at h
    cases h

variable {w : World} {α β : Type}

theorem located_tcp {offset : Nat} {srcIp dstIp : List UInt8} :
    (match located p.bytes 6 offset srcIp dstIp with
      | some (key, offset) => processLocated w p key offset
      | none => .ok []) =
    if p.len < offset + 20 then .ok []
    else processTcp w p
      {proto := 6, srcIp, srcPort := getShort p.bytes offset, dstIp,
        dstPort := getShort p.bytes (offset + 2)} offset := by
  have hsize : headerSize 6 = 20 := rfl
  rw [located, length_bytes, hsize]
  by_cases hroom : p.len < offset + 20
  · rw [if_pos hroom, if_neg (by omega)]
  · rw [if_neg hroom, if_pos ⟨.inl rfl, by omega⟩]
    dsimp only
    rw [processLocated, if_pos rfl]

theorem located_udp {offset : Nat} {srcIp dstIp : List UInt8} :
    (match located p.bytes 17 offset srcIp dstIp with
      | some (key, offset) => processLocated w p key offset
      | none => .ok []) =
    if p.len < offset + 8 then .ok []
    else processUdp w p
      {proto := 17, srcIp, srcPort := getShort p.bytes offset, dstIp, dstPort := getShort p.bytes (offset + 2)} offset
      (destination p.bytes).1 (destination p.bytes).2 := by
  have hsize : headerSize 17 = 8 := rfl
  rw [located, length_bytes, hsize]
  by_cases hroom : p.len < offset + 8
  · rw [if_pos hroom, if_neg (by omega)]
  · rw [if_neg hroom, if_pos ⟨.inr rfl, by omega⟩]
    dsimp only
    rw [processLocated, if_neg (by simp)]

theorem processIpv4_eq (hversion : UidFilter.version p.bytes = 4) :
    processIpv4 w p = match locateIpv4 p.bytes with
      | some (key, offset) => processLocated w p key offset
      | none => .ok [] := by
  have hdestination : destination p.bytes = (16, 4) := if_pos hversion
  rw [processIpv4, locateIpv4, length_bytes]
  by_cases hshort : p.len < 20
  · rw [if_pos hshort, if_pos hshort]
    rfl
  rw [if_neg hshort, if_neg hshort, byte_bytes (by omega), ok_bind]
  by_cases hproto : getByte p.bytes 9 = 6 ∨ getByte p.bytes 9 = 17
  · rw [if_neg (by omega), byte_bytes (by omega), ok_bind]
    dsimp only
    by_cases hlen : p.len < getByte p.bytes 0 % 16 * 4
    · rw [if_pos hlen, located, length_bytes, if_neg (by omega)]
      rfl
    · rw [if_neg hlen, copy_bytes (by omega) (by omega), ok_bind, copy_bytes (by omega) (by omega), ok_bind]
      rcases hproto with hproto | hproto
      · rw [hproto, if_pos rfl, located_tcp]
        split
        · rfl
        · rw [getShort_bytes (by omega), ok_bind, getShort_bytes (by omega), ok_bind]
      · rw [hproto, if_neg (by decide), located_udp, hdestination]
        split
        · rfl
        · rw [getShort_bytes (by omega), ok_bind, getShort_bytes (by omega), ok_bind]
  · rw [if_pos (by omega), located, if_neg (fun h => hproto h.1)]
    rfl

theorem processIpv6_eq (hversion : UidFilter.version p.bytes ≠ 4) :
    processIpv6 w p = match locateIpv6 p.bytes with
      | some (key, offset) => processLocated w p key offset
      | none => .ok [] := by
  have hdestination : destination p.bytes = (24, 16) := if_neg hversion
  rw [processIpv6, ipv6Transport, locateIpv6, length_bytes]
  by_cases hshort : p.len < 40
  · rw [if_pos hshort, if_pos hshort]
    rfl
  rw [if_neg hshort, if_neg hshort, byte_bytes (by omega), ok_bind, ipv6Chain_eq, ok_bind]
  cases htransport : UidFilter.ipv6Transport p.bytes (getByte p.bytes 6) 40 with
  | none => rfl
  | some found =>
    obtain ⟨proto, offset⟩ := found
    have hproto := ipv6Transport_proto htransport
    dsimp only
    rw [copy_bytes (by omega) (by omega), ok_bind, copy_bytes (by omega) (by omega), ok_bind]
    by_cases hports : p.len < offset + 4
    · have hsize : 8 ≤ headerSize proto := by
        rw [headerSize]
        split <;> omega
      rw [if_pos hports, located, length_bytes, if_neg (by omega)]
      rfl
    · rw [if_neg hports, getShort_bytes (by omega), ok_bind, getShort_bytes (by omega), ok_bind]
      rcases hproto with rfl | rfl
      · rw [if_pos rfl, located_tcp]
        rfl
      · rw [if_neg (by decide), if_pos rfl, located_udp, hdestination]
        rfl

/-- **What is done with a packet is decided where its transport header is.** -/
theorem processPacket_eq (w : World) (p : Packet) :
    processPacket w p = match locate p.bytes with
      | some (key, offset) => processLocated w p key offset
      | none => .ok [] := by
  rw [processPacket, locate, length_bytes]
  by_cases hempty : p.len < 1
  · rw [if_pos hempty, if_pos hempty]
    rfl
  have hversion : getByte p.bytes 0 / 16 = UidFilter.version p.bytes := rfl
  rw [if_neg hempty, if_neg hempty, byte_bytes (by omega), ok_bind, hversion]
  by_cases h4 : UidFilter.version p.bytes = 4
  · rw [if_pos h4, if_pos h4, processIpv4_eq h4]
  rw [if_neg h4, if_neg h4]
  by_cases h6 : UidFilter.version p.bytes = 6
  · rw [if_pos h6, if_pos h6, processIpv6_eq h4]
  · rw [if_neg h6, if_neg h6]
    rfl

end Reads

/-! ### What a packet carries -/

/-- The payload of a complete segment or datagram. -/
def carriedTransport (proto : Nat) (segment : List UInt8) : Option (List UInt8) :=
  if proto = 6 then
    let header := getByte segment 12 / 16 * 4
    if 20 ≤ header ∧ header ≤ segment.length then some (segment.drop header) else none
  else if proto = 17 then
    let length := getShort segment 4
    if 8 ≤ length ∧ length ≤ segment.length then some (copyOfRange segment 8 length) else none
  else none

def carriedIpv4 (packet : List UInt8) : Option (List UInt8) :=
  let header := getByte packet 0 % 16 * 4
  let total := getShort packet 2
  -- No fragment: neither more of them nor an offset.
  if 20 ≤ header ∧ header ≤ total ∧ total ≤ packet.length ∧ getShort packet 6 % 0x4000 = 0 then
    carriedTransport (getByte packet 9) (copyOfRange packet header total)
  else none

def carriedIpv6 (packet : List UInt8) : Option (List UInt8) :=
  let total := 40 + getShort packet 4
  if 40 ≤ packet.length ∧ total ≤ packet.length then
    match UidFilter.ipv6Transport (packet.take total) (getByte packet 6) 40 with
    | some (proto, offset) => carriedTransport proto (copyOfRange packet offset total)
    | none => none
  else none

/-- The payload of a complete packet that is no fragment, by the lengths that it names. -/
def carried (packet : List UInt8) : Option (List UInt8) :=
  if UidFilter.version packet = 4 then carriedIpv4 packet
  else if UidFilter.version packet = 6 then carriedIpv6 packet
  else none

/-- A session is opened or fed. -/
def Effect.Touches : Effect → Prop
  | tcpFed .. | tcpOpened .. | udpFed .. | udpOpened .. => True
  | tcpClosed _ | reset .. | udpClosed _ | refused .. | sniffed _ => False

/-- The payload that a session is handed, if it is handed one. -/
def Effect.Hands (payload : List UInt8) : Effect → Prop
  | tcpFed _ _ handed _ => handed.getD [] = payload
  | udpFed _ handed => handed = payload
  | tcpOpened .. | udpOpened .. | tcpClosed _ | reset .. | udpClosed _ | refused .. | sniffed _ => True

/-- A session is touched only by a packet that carries a payload, and handed no other. -/
def Effect.Carries (packet : List UInt8) (e : Effect) : Prop :=
  e.Touches → ∃ payload, carried packet = some payload ∧ e.Hands payload

/-- The fields that the reader does not look at agree with what it takes them for. -/
structure Whole (packet : List UInt8) (proto offset : Nat) : Prop where
  ipv4 : UidFilter.version packet = 4 →
    5 ≤ getByte packet 0 % 16 ∧ getShort packet 6 % 0x4000 = 0 ∧ getShort packet 2 = packet.length
  ipv6 : UidFilter.version packet = 6 → getShort packet 4 = packet.length - 40
  tcp : proto = 6 →
    5 ≤ getByte packet (offset + 12) / 16 ∧ offset + getByte packet (offset + 12) / 16 * 4 ≤ packet.length
  udp : proto = 17 → getShort packet (offset + 4) = packet.length - offset

/-- What the reader takes for the payload. -/
def taken (packet : List UInt8) (proto offset : Nat) : List UInt8 :=
  packet.drop (offset + if proto = 6 then getByte packet (offset + 12) / 16 * 4 else 8)

theorem getByte_copyOfRange {packet : List UInt8} {start stop i : Nat} (h : start + i < stop) :
    getByte (copyOfRange packet start stop) i = getByte packet (start + i) := by
  rw [getByte, getByte, copyOfRange, List.getD_eq_getElem?_getD, List.getD_eq_getElem?_getD,
    List.getElem?_take_of_lt (by omega), List.getElem?_drop]

theorem length_copyOfRange {packet : List UInt8} (start : Nat) {stop : Nat} (h : stop ≤ packet.length) :
    (copyOfRange packet start stop).length = stop - start := by
  rw [copyOfRange, List.length_take, List.length_drop]
  omega

/-- A transport header is where `located` found it. -/
theorem located_some {packet : List UInt8} {proto offset o : Nat} {srcIp dstIp : List UInt8} {key : FlowKey}
    (h : located packet proto offset srcIp dstIp = some (key, o)) :
    key.proto = proto ∧ o = offset ∧ (proto = 6 ∨ proto = 17) ∧ offset + headerSize proto ≤ packet.length := by
  rw [located] at h
  split at h
  case isTrue hroom =>
    obtain ⟨rfl, rfl⟩ := Prod.mk.inj (Option.some.inj h)
    exact ⟨rfl, rfl, hroom.1, hroom.2⟩
  case isFalse => cases h

section Carried
variable {packet : List UInt8} {proto offset total : Nat}

theorem drop_copyOfRange (hall : total = packet.length) (n : Nat) :
    (copyOfRange packet offset total).drop n = packet.drop (offset + n) := by
  rw [copyOfRange, hall, List.take_of_length_le (by rw [List.length_drop]), List.drop_drop]

/-- A segment carries what the reader takes exactly if it ends with the packet and its
header is whole. -/
theorem carried_segment_iff (hroom : offset + 20 ≤ packet.length) (htotal : total ≤ packet.length) :
    carriedTransport 6 (copyOfRange packet offset total) = some (taken packet 6 offset) ↔
      total = packet.length ∧ 5 ≤ getByte packet (offset + 12) / 16 ∧
        offset + getByte packet (offset + 12) / 16 * 4 ≤ packet.length := by
  have hlen := length_copyOfRange offset htotal
  have htaken : taken packet 6 offset = packet.drop (offset + getByte packet (offset + 12) / 16 * 4) := rfl
  rw [carriedTransport, if_pos rfl, htaken]
  dsimp only
  constructor
  · intro h
    split at h
    case isFalse => cases h
    case isTrue hheader =>
      rw [getByte_copyOfRange (by omega)] at h hheader
      have hdropped := congrArg List.length (Option.some.inj h)
      rw [List.length_drop, List.length_drop, hlen] at hdropped
      omega
  · intro h
    obtain ⟨hall, hwords, hinside⟩ := h
    rw [getByte_copyOfRange (by omega), if_pos (by omega), drop_copyOfRange hall]

/-- A datagram carries what the reader takes exactly if it ends with the packet and names
its own length. -/
theorem carried_datagram_iff (hroom : offset + 8 ≤ packet.length) (htotal : total ≤ packet.length) :
    carriedTransport 17 (copyOfRange packet offset total) = some (taken packet 17 offset) ↔
      total = packet.length ∧ getShort packet (offset + 4) = packet.length - offset := by
  have hlen := length_copyOfRange offset htotal
  have hshort (h : offset + 6 ≤ total) :
      getShort (copyOfRange packet offset total) 4 = getShort packet (offset + 4) := by
    rw [getShort, getShort, getByte_copyOfRange (by omega), getByte_copyOfRange (by omega)]
  have htaken : taken packet 17 offset = packet.drop (offset + 8) := rfl
  rw [carriedTransport, if_neg (by decide), if_pos rfl, htaken]
  dsimp only
  constructor
  · intro h
    split at h
    case isFalse => cases h
    case isTrue hlength =>
      rw [hshort (by omega)] at h hlength
      have hcopied := congrArg List.length (Option.some.inj h)
      rw [length_copyOfRange 8 (by omega), List.length_drop] at hcopied
      omega
  · intro h
    obtain ⟨hall, hnamed⟩ := h
    rw [hshort (by omega), if_pos (by omega), copyOfRange, drop_copyOfRange hall, hnamed,
      List.take_of_length_le (by rw [List.length_drop]; omega)]

theorem carriedTransport_iff (hproto : proto = 6 ∨ proto = 17) (hroom : offset + headerSize proto ≤ packet.length)
    (htotal : total ≤ packet.length) :
    carriedTransport proto (copyOfRange packet offset total) = some (taken packet proto offset) ↔
      total = packet.length ∧
      (proto = 6 →
        5 ≤ getByte packet (offset + 12) / 16 ∧ offset + getByte packet (offset + 12) / 16 * 4 ≤ packet.length) ∧
      (proto = 17 → getShort packet (offset + 4) = packet.length - offset) := by
  rcases hproto with rfl | rfl
  · rw [carried_segment_iff hroom htotal]
    simp
  · rw [carried_datagram_iff hroom htotal]
    simp

/-- What is found in the front of a packet is found in the packet. -/
theorem ipv6Transport_take {nextHeader o : Nat} {r : Nat × Nat}
    (h : UidFilter.ipv6Transport (packet.take total) nextHeader o = some r) :
    UidFilter.ipv6Transport packet nextHeader o = some r := by
  induction nextHeader, o using UidFilter.ipv6Transport.induct (packet.take total) with
  | case1 nextHeader o hproto =>
    rw [UidFilter.ipv6Transport, if_pos hproto] at h ⊢
    exact h
  | case2 nextHeader o hnot hext hroom =>
    rw [UidFilter.ipv6Transport, if_neg hnot, if_pos hext, if_pos hroom] at h
    cases h
  | case3 nextHeader o hnot hext hroom ih =>
    have hlen : o + 2 ≤ (packet.take total).length := by omega
    rw [List.length_take] at hlen
    have hbyte (i : Nat) (hi : i < total) : getByte (packet.take total) i = getByte packet i := by
      rw [getByte, getByte, List.getD_eq_getElem?_getD, List.getD_eq_getElem?_getD, List.getElem?_take_of_lt hi]
    rw [UidFilter.ipv6Transport, if_neg hnot, if_pos hext, if_neg hroom] at h
    have hrest := ih h
    rw [hbyte _ (by omega), hbyte _ (by omega)] at hrest
    rw [UidFilter.ipv6Transport, if_neg hnot, if_pos hext, if_neg (by omega)]
    exact hrest
  | case4 nextHeader o hnot hext =>
    rw [UidFilter.ipv6Transport, if_neg hnot, if_neg hext] at h
    cases h

theorem carriedIpv4_iff {key : FlowKey} (hversion : UidFilter.version packet = 4)
    (h : locateIpv4 packet = some (key, offset)) :
    carriedIpv4 packet = some (taken packet key.proto offset) ↔ Whole packet key.proto offset := by
  rw [locateIpv4] at h
  split at h
  case isTrue => cases h
  case isFalse =>
    obtain ⟨hkey, rfl, hproto, hroom⟩ := located_some h
    rw [hkey, carriedIpv4]
    constructor
    · intro hcarried
      split at hcarried
      case isFalse => cases hcarried
      case isTrue hfields =>
        obtain ⟨hheader, -, htotal, hfragment⟩ := hfields
        obtain ⟨hall, htcp, hudp⟩ := (carriedTransport_iff hproto hroom htotal).mp hcarried
        exact ⟨fun _ => ⟨by omega, hfragment, hall⟩, fun h6 => absurd (hversion.symm.trans h6) (by decide), htcp, hudp⟩
    · intro hwhole
      obtain ⟨hheader, hfragment, htotal⟩ := hwhole.ipv4 hversion
      rw [if_pos ⟨by omega, by omega, by omega, hfragment⟩]
      exact (carriedTransport_iff hproto hroom (by omega)).mpr ⟨htotal, hwhole.tcp, hwhole.udp⟩

theorem carriedIpv6_iff {key : FlowKey} (hversion : UidFilter.version packet = 6)
    (h : locateIpv6 packet = some (key, offset)) :
    carriedIpv6 packet = some (taken packet key.proto offset) ↔ Whole packet key.proto offset := by
  rw [locateIpv6] at h
  split at h
  case isTrue => cases h
  case isFalse =>
    split at h
    case h_2 => cases h
    case h_1 proto o htransport =>
      obtain ⟨hkey, rfl, hproto, hroom⟩ := located_some h
      rw [hkey, carriedIpv6]
      constructor
      · intro hcarried
        split at hcarried
        case isFalse => cases hcarried
        case isTrue hfields =>
          split at hcarried
          case h_2 => cases hcarried
          case h_1 proto' o' htransport' =>
            have hsame := (ipv6Transport_take htransport').symm.trans htransport
            obtain ⟨rfl, rfl⟩ := Prod.mk.inj (Option.some.inj hsame)
            obtain ⟨hall, htcp, hudp⟩ := (carriedTransport_iff hproto hroom hfields.2).mp hcarried
            exact ⟨fun h4 => absurd (h4.symm.trans hversion) (by decide), fun _ => by omega, htcp, hudp⟩
      · intro hwhole
        have htotal := hwhole.ipv6 hversion
        rw [if_pos ⟨by omega, by omega⟩, List.take_of_length_le (by omega), htransport]
        exact (carriedTransport_iff hproto hroom (by omega)).mpr ⟨by omega, hwhole.tcp, hwhole.udp⟩

theorem locate_some {key : FlowKey} (h : locate packet = some (key, offset)) :
    (key.proto = 6 ∨ key.proto = 17) ∧ offset + headerSize key.proto ≤ packet.length ∧
      (destination packet).1 + (destination packet).2 ≤ packet.length := by
  rw [locate] at h
  split_ifs at h with hempty h4 h6
  · rw [locateIpv4] at h
    split at h
    · cases h
    · obtain ⟨hkey, rfl, hproto, hroom⟩ := located_some h
      rw [hkey, destination, if_pos h4]
      exact ⟨hproto, hroom, by omega⟩
  · rw [locateIpv6] at h
    split at h
    · cases h
    · split at h
      · obtain ⟨hkey, rfl, hproto, hroom⟩ := located_some h
        rw [hkey, destination, if_neg h4]
        exact ⟨hproto, hroom, by omega⟩
      · cases h

/-- **A located packet carries what the reader takes exactly if it is whole.** -/
theorem carried_iff {key : FlowKey} (h : locate packet = some (key, offset)) :
    carried packet = some (taken packet key.proto offset) ↔ Whole packet key.proto offset := by
  rw [locate] at h
  split_ifs at h with hempty h4 h6
  · rw [carried, if_pos h4, carriedIpv4_iff h4 h]
  · rw [carried, if_neg h4, if_pos h6, carriedIpv6_iff h6 h]

end Carried

/-! ### What is done with a segment or datagram -/

section Effects
variable {w : World} {p : Packet} {key : FlowKey} {offset : Nat} {effects : List Effect}

/-- A segment without a session is handed to none. -/
theorem openTcp_effects (h : openTcp w p key offset = .ok effects) (payload : List UInt8) :
    ∀ e ∈ effects, e.Hands payload := by
  rw [openTcp] at h
  obtain ⟨flags, -, h⟩ := ok_of_bind h
  split at h
  · dsimp only at h
    obtain ⟨seq, -, h⟩ := ok_of_bind h
    split at h <;> obtain rfl := Except.ok.inj h <;> exact List.forall_mem_singleton.mpr trivial
  · obtain rfl := Except.ok.inj h
    exact fun e he => absurd he List.not_mem_nil

/-- A session is handed what follows the header. -/
theorem feedTcp_eq (key : FlowKey) (hroom : offset + 20 ≤ p.len) (flags : Nat) :
    ∃ seq payload, p.getLong (offset + 4) = .ok seq ∧
      feedTcp p key offset flags = .ok [.tcpFed key seq payload flags] ∧ payload.getD [] = taken p.bytes 6 offset := by
  obtain ⟨seq, hseq⟩ := safe_getLong (p := p) (o := offset + 4) (by omega)
  have htaken : taken p.bytes 6 offset = p.bytes.drop (offset + getByte p.bytes (offset + 12) / 16 * 4) := rfl
  rw [feedTcp, hseq, ok_bind, byte_bytes (by omega), ok_bind, htaken]
  dsimp only
  by_cases hinside : offset + getByte p.bytes (offset + 12) / 16 * 4 < p.len
  · rw [if_pos hinside, copy_bytes (by omega) (Nat.le_refl _), ok_bind]
    refine ⟨seq, _, rfl, rfl, ?_⟩
    rw [Option.getD_some, copyOfRange, List.take_of_length_le (by rw [List.length_drop, length_bytes])]
  · rw [if_neg hinside, List.drop_eq_nil_of_le (by rw [length_bytes]; omega)]
    exact ⟨seq, none, rfl, rfl, rfl⟩

theorem processTcp_effects (hroom : offset + 20 ≤ p.len) (h : processTcp w p key offset = .ok effects) :
    ∀ e ∈ effects, e.Hands (taken p.bytes 6 offset) := by
  rw [processTcp] at h
  split at h
  · exact openTcp_effects h _
  · obtain ⟨flags, -, h⟩ := ok_of_bind h
    split at h
    · split at h
      · obtain ⟨opened, hopened, h⟩ := ok_of_bind h
        obtain rfl := Except.ok.inj h
        exact List.forall_mem_cons.mpr ⟨trivial, openTcp_effects hopened _⟩
      · obtain rfl := Except.ok.inj h
        exact fun e he => absurd he List.not_mem_nil
    · split at h
      · obtain rfl := Except.ok.inj h
        exact List.forall_mem_singleton.mpr trivial
      · obtain ⟨seq, payload, -, hfed, htaken⟩ := feedTcp_eq key hroom flags
        obtain rfl := Except.ok.inj (hfed.symm.trans h)
        exact List.forall_mem_singleton.mpr htaken

theorem feedUdp_effects (payload : List UInt8) : ∀ e ∈ feedUdp w key payload, e.Hands payload := by
  rw [feedUdp]
  split
  · split
    · exact List.forall_mem_singleton.mpr trivial
    · exact List.forall_mem_singleton.mpr rfl
  · dsimp only
    split
    · exact fun e he => absurd he List.not_mem_nil
    · exact List.forall_mem_cons.mpr ⟨trivial, List.forall_mem_singleton.mpr rfl⟩

theorem copy_payload (hroom : offset + 8 ≤ p.len) : p.copy (offset + 8) p.len = .ok (taken p.bytes 17 offset) := by
  have htaken : taken p.bytes 17 offset = p.bytes.drop (offset + 8) := rfl
  rw [copy_bytes (by omega) (Nat.le_refl _), htaken, copyOfRange,
    List.take_of_length_le (by rw [List.length_drop, length_bytes])]

theorem processUdp_effects {destination width : Nat} (hroom : offset + 8 ≤ p.len)
    (h : processUdp w p key offset destination width = .ok effects) :
    ∀ e ∈ effects, e.Hands (taken p.bytes 17 offset) := by
  rw [processUdp, copy_payload hroom, ok_bind] at h
  obtain ⟨answered, hanswered, h⟩ := ok_of_bind h
  cases answered with
  | some effect =>
    have hrefused : effect.Hands (taken p.bytes 17 offset) := by
      rw [answerQuery] at hanswered
      split at hanswered
      · obtain ⟨resolver, -, hrefusal⟩ := ok_of_bind hanswered
        have hrefusal := Except.ok.inj hrefusal
        rw [refusal] at hrefusal
        obtain ⟨domain, -, hrefusal⟩ := Option.bind_eq_some_iff.mp hrefusal
        obtain ⟨answer, -, hrefusal⟩ := Option.bind_eq_some_iff.mp hrefusal
        split at hrefusal
        · rw [← Option.some.inj hrefusal]
          trivial
        · cases hrefusal
      · cases Except.ok.inj hanswered
    obtain rfl := Except.ok.inj h
    exact List.forall_mem_singleton.mpr hrefused
  | none =>
    obtain rfl := Except.ok.inj h
    intro e he
    rcases List.mem_append.mp he with hsniffed | hfed
    · split at hsniffed
      · rw [List.mem_singleton.mp hsniffed]
        trivial
      · exact absurd hsniffed List.not_mem_nil
    · exact feedUdp_effects _ e hfed

theorem processLocated_effects {proto : Nat} (hproto : key.proto = proto) (hkind : proto = 6 ∨ proto = 17)
    (hroom : offset + headerSize proto ≤ p.len) (h : processLocated w p key offset = .ok effects) :
    ∀ e ∈ effects, e.Hands (taken p.bytes proto offset) := by
  rw [processLocated, hproto] at h
  rcases hkind with rfl | rfl
  · rw [if_pos rfl] at h
    exact processTcp_effects hroom h
  · rw [if_neg (by decide)] at h
    exact processUdp_effects hroom h

end Effects

/-- A world where every segment has a session that is connected, no owner and no name is
blocked. -/
def welcoming (platform : Kotlin.Platform) : World where
  platform := platform
  tcpSessions := fun _ => some ⟨true, false, 0⟩
  udpSessions := fun _ => some 0
  ownerUid := fun _ => 0
  isUidBlocked := fun _ => false
  blocksName := fun _ _ => false

theorem refusal_welcoming (platform : Kotlin.Platform) (key : FlowKey) (resolver : String) (payload : List UInt8) :
    refusal (welcoming platform) key resolver payload = none := by
  rw [refusal]
  cases Dns.extractDomainName (welcoming platform).platform payload with
  | none => rfl
  | some domain =>
    cases Dns.buildDnsNXResponse payload with
    | none => rfl
    | some answer => rfl

/-- There a located packet is handed to a session. -/
theorem welcoming_hands (platform : Kotlin.Platform) {p : Packet} {key : FlowKey} {offset : Nat}
    (h : locate p.bytes = some (key, offset)) :
    ∃ effects, processPacket (welcoming platform) p = .ok effects ∧
      ∃ e ∈ effects, e.Touches ∧ ∀ payload, e.Hands payload → payload = taken p.bytes key.proto offset := by
  obtain ⟨hproto, hroom, hdestination⟩ := locate_some h
  rw [length_bytes] at hroom hdestination
  rw [processPacket_eq, h]
  dsimp only
  rw [processLocated]
  rcases hproto with htcp | hudp
  · rw [htcp] at hroom ⊢
    have hsize : headerSize 6 = 20 := rfl
    rw [hsize] at hroom
    obtain ⟨seq, payload, -, hfed, htaken⟩ := feedTcp_eq key hroom (getByte p.bytes (offset + 13))
    refine ⟨_, ?_, .tcpFed key seq payload (getByte p.bytes (offset + 13)), List.mem_singleton.mpr rfl, trivial,
      fun other hother => hother.symm.trans htaken⟩
    rw [if_pos rfl, processTcp]
    have hsession : (welcoming platform).tcpSessions key = some ⟨true, false, 0⟩ := rfl
    rw [hsession]
    dsimp only
    rw [byte_bytes (by omega), ok_bind, if_neg (fun hsyn => Bool.noConfusion hsyn.2)]
    have hfree : (welcoming platform).isUidBlocked 0 = false := rfl
    rw [hfree, if_neg Bool.false_ne_true, hfed]
  · rw [hudp] at hroom ⊢
    have hsize : headerSize 17 = 8 := rfl
    rw [hsize] at hroom
    have hanswer : answerQuery (welcoming platform) p key (destination p.bytes).1 (destination p.bytes).2
        (taken p.bytes 17 offset) = .ok none := by
      rw [answerQuery]
      split
      · rw [copy_bytes (Nat.le_add_right _ _) hdestination, ok_bind, refusal_welcoming]
        rfl
      · rfl
    rw [if_neg (by decide), processUdp, copy_payload hroom, ok_bind, hanswer, ok_bind]
    refine ⟨_, rfl, .udpFed key (taken p.bytes 17 offset), ?_, trivial, fun other hother => hother.symm⟩
    apply List.mem_append_right
    exact List.mem_singleton.mpr rfl

/-- **Only whole packets reach sessions** exactly where the fields that the reader does not
look at agree with it: for every packet, whatever it meets. -/
theorem segments_iff (p : Packet) :
    (∀ w effects, processPacket w p = .ok effects → ∀ e ∈ effects, e.Carries p.bytes) ↔
      ∀ key offset, locate p.bytes = some (key, offset) → Whole p.bytes key.proto offset := by
  constructor
  · intro hcarries key offset hlocate
    obtain ⟨effects, heffects, e, he, htouches, hhands⟩ := welcoming_hands ⟨fun _ => "", id, fun _ => ""⟩ hlocate
    obtain ⟨payload, hcarried, hhanded⟩ := hcarries _ _ heffects e he htouches
    rw [hhands payload hhanded] at hcarried
    exact (carried_iff hlocate).mp hcarried
  · intro hwhole w effects heffects e he _
    rw [processPacket_eq] at heffects
    split at heffects
    case h_2 =>
      obtain rfl := Except.ok.inj heffects
      exact absurd he List.not_mem_nil
    case h_1 key offset hlocate =>
      obtain ⟨hproto, hroom, -⟩ := locate_some hlocate
      rw [length_bytes] at hroom
      exact ⟨_, (carried_iff hlocate).mpr (hwhole key offset hlocate),
        processLocated_effects rfl hproto hroom heffects e he⟩

/-- The last fragment of a datagram: eight octets of its data. -/
def lastFragment : Packet where
  buffer := [0x45, 0, 0, 28, 0, 1, 0, 0xB9, 64, 17, 0, 0, 10, 0, 0, 2, 1, 1, 1, 1, 0, 80, 0, 81, 0, 8, 0, 0]
  len := 28
  le := Nat.le_refl _

/-- Its data is read as a header, and a session opened to the port that stands there. -/
theorem fragment_opens :
    processPacket {welcoming ⟨fun _ => "", id, fun _ => ""⟩ with udpSessions := fun _ => none} lastFragment =
        .ok [.udpOpened ⟨17, [10, 0, 0, 2], 80, [1, 1, 1, 1], 81⟩ 0,
          .udpFed ⟨17, [10, 0, 0, 2], 80, [1, 1, 1, 1], 81⟩ []] ∧
      ¬ (Effect.udpOpened ⟨17, [10, 0, 0, 2], 80, [1, 1, 1, 1], 81⟩ 0).Carries lastFragment.bytes := by
  have hcarried : carried lastFragment.bytes = none := by decide
  refine ⟨by decide, ?_⟩
  intro hcarries
  obtain ⟨payload, hsome, -⟩ := hcarries trivial
  rw [hcarried] at hsome
  cases hsome

end Aether.Bridge.PacketReader
