import Aether.Masque.CapsuleStream
import Aether.Rust.Net

/-! What `drain_capsules` makes of the capsules in the buffer.

Both transports take capsules off the parser until it has none or returns an error. The
capsule of an error is gone by then, but the loop ends all the same, and the capsules
behind it stay in the buffer until the next bytes arrive.

`drained_iff` says when nothing is left: a malformed capsule may only be the last of the
complete ones. -/
namespace Aether.Masque
open Octets Decoding
open Rust (IpAddr)

/-! ### Datagrams and addresses -/

/-- `CONNECT_IP_CONTEXT_ID`. -/
def connectIpContextId : Nat := 0

/-- `looks_like_ip_packet`. -/
def looksLikeIpPacket (data : List UInt8) : Bool :=
  match data.head? with
  | some first => (first >>> 4 == 4 || first >>> 4 == 6) && decide (20 ≤ data.length)
  | none => false

/-- `strip_datagram_context`: the packet behind its context, or a packet without one. -/
def stripDatagramContext (payload : List UInt8) : Option (List UInt8) :=
  if payload = [] then none
  else
    match (getVarint payload).filter fun (ctx, inner) => ctx == connectIpContextId && looksLikeIpPacket inner with
    | some (_, inner) => some inner
    | none => if looksLikeIpPacket payload then some payload else none

/-- `bytes_to_ip`. -/
def bytesToIp (version : UInt8) (bytes : List UInt8) : Option IpAddr :=
  if version = 4 then
    match bytes with
    | [a, b, c, d] => some (.v4 (Rust.ipv4 a b c d))
    | _ => none
  else if version = 6 && bytes.length == 16 then some (.v6 (Rust.ofOctets bytes))
  else none

/-- `AssignedAddr`. -/
structure AssignedAddr where
  ip : IpAddr
  prefixLen : UInt8
  deriving DecidableEq

/-! ### `drain_capsules` -/

inductive Transport where
  | h2
  | h3
  deriving DecidableEq

/-- What the loop writes to: two channels of which it only tries the sends, and what it
returns. A closed inbound channel is `none`. -/
structure Sinks where
  inbound : Option (List (List UInt8))
  inboundCapacity : Nat
  /-- `addr_tx`, whose capacity is 8. -/
  addresses : List AssignedAddr
  delivered : Bool := false

/-- `try_send` on `addr_tx`; a full channel takes nothing. -/
def sendAddress (a : AssignedAddr) (queue : List AssignedAddr) : List AssignedAddr :=
  if queue.length < 8 then queue ++ [a] else queue

/-- One entry of an `ADDRESS_ASSIGN`. -/
def assign (queue : List AssignedAddr) (a : AssignedAddress) : List AssignedAddr :=
  match bytesToIp a.ipVersion a.address with
  | some ip => sendAddress {ip, prefixLen := a.prefixLen} queue
  | none => queue

/-- A packet for the stack, dropped if its channel is full. -/
def Sinks.deliver (packet : List UInt8) (s : Sinks) : Sinks :=
  {s with
    inbound := s.inbound.map fun queue => if queue.length < s.inboundCapacity then queue ++ [packet] else queue
    delivered := true}

/-- The body of the loop for one capsule. The HTTP/3 transport gets its packets as QUIC
datagrams and passes over `DATAGRAM` capsules. -/
def handle (transport : Transport) (s : Sinks) : Capsule → Sinks
  | .datagram payload =>
    match transport, stripDatagramContext payload with
    | .h2, some packet => s.deliver packet
    | _, _ => s
  | .addressAssign addresses => {s with addresses := addresses.foldl assign s.addresses}
  | _ => s

/-- The HTTP/2 loop returns where the inbound channel is closed. -/
def returnsEarly (transport : Transport) (s : Sinks) : Capsule → Bool
  | .datagram payload => transport == .h2 && (stripDatagramContext payload).isSome && s.inbound.isNone
  | _ => false

/-- `drain_capsules`. -/
def drainCapsules (transport : Transport) (t : Target) (p : CapsuleParser) (s : Sinks) : CapsuleParser × Sinks :=
  match h : p.next t with
  | (.ok (some c), p') =>
    have := CapsuleParser.next_shrinks h
    if returnsEarly transport s c then (p', handle transport s c)
    else drainCapsules transport t p' (handle transport s c)
  | (.ok none, p') => (p', s)
  | (.error _, p') => (p', s)
termination_by p.buf.length

theorem drainCapsules_none {transport : Transport} {t : Target} {p : CapsuleParser} (h : readHeader t p.buf = none)
    (s : Sinks) : drainCapsules transport t p s = (p, s) := by
  have hnext : p.next t = (.ok none, p) := by rw [CapsuleParser.next, h]
  rw [drainCapsules]
  split <;> simp_all

theorem drainCapsules_some {transport : Transport} {t : Target} {p : CapsuleParser} {kind : Nat}
    {value rest : List UInt8} {c : Capsule} (h : readHeader t p.buf = some ((kind, value), rest))
    (hc : interpret kind value = .ok c) {s : Sinks} (hs : returnsEarly transport s c = false) :
    drainCapsules transport t p s = drainCapsules transport t ⟨rest⟩ (handle transport s c) := by
  have hnext : p.next t = (.ok (some c), ⟨rest⟩) := by
    rw [CapsuleParser.next, h]
    dsimp only
    rw [hc]
    rfl
  rw [drainCapsules]
  split <;> simp_all

/-- A value that does not parse ends the loop. -/
theorem drainCapsules_error {transport : Transport} {t : Target} {p : CapsuleParser} {kind : Nat}
    {value rest : List UInt8} {e : AetherError} (h : readHeader t p.buf = some ((kind, value), rest))
    (hc : interpret kind value = .error e) (s : Sinks) :
    drainCapsules transport t p s = (⟨rest⟩, s) := by
  have hnext : p.next t = (.error e, ⟨rest⟩) := by
    rw [CapsuleParser.next, h]
    dsimp only
    rw [hc]
    rfl
  rw [drainCapsules]
  split <;> simp_all

/-! ### What is left behind -/

/-- Kind and value of every capsule that is complete in the buffer, in order. -/
def complete (t : Target) (buf : List UInt8) : List (Nat × List UInt8) := ((headers t).drain buf).1

/-- The capsule, if the value is well formed. -/
def wellFormed (q : Nat × List UInt8) : Option Capsule := (interpret q.1 q.2).toOption

/-- No complete capsule is left, and every well-formed one was handled. -/
def Drained (transport : Transport) (t : Target) (p : CapsuleParser) (s : Sinks) : Prop :=
  complete t (drainCapsules transport t p s).1.buf = [] ∧
    (drainCapsules transport t p s).2 = ((complete t p.buf).filterMap wellFormed).foldl (handle transport) s

/-- The channel to the stack is open, as far as the loop uses it. -/
def Open (transport : Transport) (s : Sinks) : Prop := transport = .h2 → s.inbound.isSome = true

theorem complete_eq_nil_iff {t : Target} {buf : List UInt8} : complete t buf = [] ↔ readHeader t buf = none := by
  rw [complete]
  cases h : readHeader t buf with
  | none =>
    have hdrain := (headers t).drain_none h
    rw [hdrain]
    exact ⟨fun _ => rfl, fun _ => rfl⟩
  | some r =>
    obtain ⟨item, rest⟩ := r
    have hdrain := (headers t).drain_some h
    rw [hdrain]
    exact ⟨fun he => absurd he (by simp), fun he => absurd he (by simp)⟩

theorem complete_some {t : Target} {buf rest : List UInt8} {q : Nat × List UInt8}
    (h : readHeader t buf = some (q, rest)) : complete t buf = q :: complete t rest := by
  have hdrain := (headers t).drain_some h
  rw [complete, hdrain, complete]

theorem returnsEarly_of_open {transport : Transport} {s : Sinks} (h : Open transport s) (c : Capsule) :
    returnsEarly transport s c = false := by
  cases c with
  | datagram payload =>
    cases transport with
    | h2 =>
      have hsome := h rfl
      obtain ⟨queue, hqueue⟩ := Option.isSome_iff_exists.mp hsome
      simp [returnsEarly, hqueue]
    | h3 => rfl
  | _ => rfl

theorem Open.handle {transport : Transport} {s : Sinks} (h : Open transport s) (c : Capsule) :
    Open transport (handle transport s c) := by
  intro htransport
  have hsome := h htransport
  cases c with
  | datagram payload =>
    rw [htransport]
    cases hstrip : stripDatagramContext payload with
    | none => simpa [Masque.handle, hstrip] using hsome
    | some packet => simpa [Masque.handle, hstrip, Sinks.deliver] using hsome
  | _ => exact hsome

/-- Draining leaves nothing behind exactly if at most the last complete capsule is
malformed. -/
theorem drained_iff_parsed (transport : Transport) (t : Target) (buf : List UInt8) (s : Sinks) (h : Open transport s) :
    Drained transport t ⟨buf⟩ s ↔ ∀ q ∈ (complete t buf).dropLast, (wellFormed q).isSome = true := by
  induction buf using Decoder.drain.induct (headers t) generalizing s with
  | case1 buf hnone =>
    have hempty : complete t buf = [] := complete_eq_nil_iff.mpr hnone
    have hdrain : drainCapsules transport t ⟨buf⟩ s = (⟨buf⟩, s) := drainCapsules_none hnone s
    rw [Drained, hdrain, hempty]
    exact ⟨fun _ q hq => absurd hq (by simp), fun _ => ⟨rfl, rfl⟩⟩
  | case2 buf q rest hsome _ ih =>
    rw [complete_some hsome]
    cases hc : interpret q.1 q.2 with
    | ok c =>
      have hwell : wellFormed q = some c := by rw [wellFormed, hc]; rfl
      have hdrain : drainCapsules transport t ⟨buf⟩ s = drainCapsules transport t ⟨rest⟩ (handle transport s c) :=
        drainCapsules_some hsome hc (returnsEarly_of_open h c)
      have hstep : Drained transport t ⟨buf⟩ s ↔ Drained transport t ⟨rest⟩ (handle transport s c) := by
        rw [Drained, Drained, hdrain, complete_some hsome, List.filterMap_cons_some hwell]
        rfl
      rw [hstep, ih _ (h.handle c)]
      cases hrest : complete t rest with
      | nil => exact ⟨fun _ q hq => absurd hq (by simp), fun _ q hq => absurd hq (by simp)⟩
      | cons r rs =>
        rw [List.dropLast_cons_cons, List.forall_mem_cons, hwell]
        exact ⟨fun hd => ⟨rfl, hd⟩, fun hd => hd.2⟩
    | error e =>
      have hwell : wellFormed q = none := by rw [wellFormed, hc]; rfl
      have hdrain : drainCapsules transport t ⟨buf⟩ s = (⟨rest⟩, s) := drainCapsules_error hsome hc s
      rw [Drained, hdrain, complete_some hsome, List.filterMap_cons_none hwell]
      cases hrest : complete t rest with
      | nil => exact ⟨fun _ q hq => absurd hq (by simp), fun _ => ⟨rfl, rfl⟩⟩
      | cons r rs =>
        rw [List.dropLast_cons_cons, List.forall_mem_cons, hwell]
        exact ⟨fun hd => absurd hd.1 (by simp), fun hd => absurd hd.1 (by simp)⟩

/-- For every parser and every chunk pushed to it. -/
theorem drained_iff (transport : Transport) (t : Target) (p : CapsuleParser) (data : List UInt8) (s : Sinks)
    (h : Open transport s) :
    Drained transport t (p.push data) s ↔
      ∀ q ∈ (complete t (p.push data).buf).dropLast, (wellFormed q).isSome = true :=
  drained_iff_parsed transport t (p.push data).buf s h

/-- An `ADDRESS_ASSIGN` with one entry, of version 5. -/
def badAssign : List UInt8 := [0x01, 0x02, 0x00, 0x05]

/-- A `DATAGRAM` with an empty IPv4 packet. -/
def packetCapsule : List UInt8 := ([0x00, 0x15, 0x00, 0x45] : List UInt8) ++ List.replicate 19 0

def openSinks : Sinks := {inbound := some [], inboundCapacity := 16, addresses := []}

theorem badAssign_malformed : wellFormed (1, [0x00, 0x05]) = none := by
  have hread : readAssignedAddress [0x00, 0x05] = .error (.capsule ("bad ip version " ++ toString (5 : UInt8))) := rfl
  have hparse : parseAddressAssign [0x00, 0x05] = .error (.capsule ("bad ip version " ++ toString (5 : UInt8))) :=
    EntryReader.readAll_error _ (by simp) hread
  have hkind : interpret 1 [0x00, 0x05] = (parseAddressAssign [0x00, 0x05]).map .addressAssign := if_pos rfl
  rw [wellFormed, hkind, hparse]
  rfl

/-- The malformed capsule alone is taken off and nothing is left. -/
theorem drained_badAssign : Open .h2 openSinks ∧ Drained .h2 .aarch64 (CapsuleParser.push badAssign {}) openSinks := by
  have hopen : Open .h2 openSinks := fun _ => rfl
  have hbuf : (CapsuleParser.push badAssign {}).buf = badAssign := rfl
  have hhead : readHeader .aarch64 badAssign = some ((1, [0x00, 0x05]), []) := by decide
  have hall : complete .aarch64 badAssign = [(1, [0x00, 0x05])] := by
    rw [complete_some hhead, complete_eq_nil_iff.mpr rfl]
  refine ⟨hopen, (drained_iff .h2 .aarch64 {} badAssign openSinks hopen).mpr ?_⟩
  rw [hbuf, hall]
  intro q hq
  cases hq

/-- A packet behind it stays in the buffer. -/
theorem packet_left_behind : ¬ Drained .h2 .aarch64 (CapsuleParser.push (badAssign ++ packetCapsule) {}) openSinks := by
  have hopen : Open .h2 openSinks := fun _ => rfl
  have hbuf : CapsuleParser.push (badAssign ++ packetCapsule) {} = ⟨badAssign ++ packetCapsule⟩ := rfl
  have hhead : readHeader .aarch64 (badAssign ++ packetCapsule) = some ((1, [0x00, 0x05]), packetCapsule) := by decide
  have hpacket : readHeader .aarch64 packetCapsule = some ((0, packetCapsule.drop 2), []) := by decide
  rw [hbuf, drained_iff_parsed .h2 .aarch64 _ openSinks hopen, complete_some hhead, complete_some hpacket]
  intro hall
  have hbad := hall (1, [0x00, 0x05]) (List.mem_cons_self ..)
  rw [badAssign_malformed] at hbad
  cases hbad

end Aether.Masque
