import Aether.Upstream.Datagram
import Aether.Upstream.Detour

/-! A socket behind the upstream relay.

`bind_via_upstream` and `quic::run` bind a socket to the wildcard address of the peer's
family and hand it to `attach_detour`, which registers the address that `local_addr` gives
and starts a pump with it. The pump passes on what comes from that address and sends
back to it.

What the socket sends to the shim comes from 127.0.0.1, though, and the wildcard address
is never a source: `carries_iff` says what is left. -/
namespace Aether.Upstream
open Machine
open Rust (IpAddr SocketAddr)

/-! ### The socket and its addresses -/

/-- `bind_addr_for`, and the address that `bind_via_upstream` binds. -/
def bindAddrFor (peer : SocketAddr) : SocketAddr :=
  match peer with
  | .v4 .. => .v4 0 0
  | .v6 .. => .v6 0 0 0 0

/-- `local_addr` of a socket that was bound to an address without a port. -/
def boundTo (bind : SocketAddr) (port : UInt16) : SocketAddr :=
  match bind with
  | .v4 bits _ => .v4 bits port
  | .v6 bits _ flowinfo scopeId => .v6 bits port flowinfo scopeId

def loopback : BitVec 32 := Rust.ipv4 127 0 0 1

/-- The source of what a socket sends to the loopback. -/
def sourceSeen (addr : SocketAddr) : SocketAddr := if addr.ip.isUnspecified then .v4 loopback addr.port else addr

/-- A shim is a socket of the fourth version: it cannot send to an address of the sixth.
What it sends to 0.0.0.0 reaches the socket with that port on this host. -/
def shimReaches : SocketAddr → Bool
  | .v4 .. => true
  | .v6 .. => false

/-- A socket that is prepared while an upstream is configured, with the ports that the
system gives to it and to its shim. -/
structure Setup where
  peer : SocketAddr
  isPublic : Routing.isPrivate peer.ip = false
  port : UInt16
  shimPort : UInt16

namespace Setup

/-- `local_addr` of the socket, under which it is registered. -/
def client (c : Setup) : SocketAddr := boundTo (bindAddrFor c.peer) c.port

def shim (c : Setup) : SocketAddr := .v4 loopback c.shimPort

/-- The registry, whatever else is in it. -/
def register (map : Detours) (c : Setup) : Detours := Function.update map c.client (some ⟨c.shim, c.peer⟩)

theorem realSource_register (map : Detours) (c : Setup) : realSource (c.register map) c.client c.shim = c.peer := by
  rw [realSource, register, Function.update_self]
  exact if_pos rfl

theorem isUnspecified_client (c : Setup) : c.client.ip.isUnspecified = true := by
  cases hpeer : c.peer with
  | v4 bits port => simp only [client, bindAddrFor, hpeer, boundTo]; rfl
  | v6 bits port flowinfo scopeId => simp only [client, bindAddrFor, hpeer, boundTo]; rfl

end Setup

/-! ### The pump -/

/-- A datagram never comes from the unspecified address. -/
abbrev Source := {addr : SocketAddr // addr.ip.isUnspecified = false}

/-- The bytes of one datagram. -/
abbrev Payload := {bytes : List UInt8 // bytes.length < 65536}

inductive Arrival where
  /-- A datagram at the shim; the relay may fail to take it. -/
  | fromShim (origin : Source) (payload : Payload) (sendOk : Bool)
  /-- A datagram of the relay; the shim may fail to send it. -/
  | fromRelay (datagram : Payload) (sendOk : Bool)
  /-- Reading from one of the sockets fails. -/
  | failure

namespace Pump

structure State where
  ended : Bool := false
  /-- A socket has failed. -/
  broken : Bool := false
  toRelay : List (List UInt8) := []
  /-- What the socket has got, with the source that `real_source` makes of it. -/
  delivered : List (SocketAddr × List UInt8) := []
  /-- What the socket has sent to `relay_target`. -/
  sent : List (List UInt8) := []
  /-- The payloads of the well-formed datagrams of the relay. -/
  answers : List (List UInt8) := []

namespace State

/-- A turn of `pump`; its buffers hold 65535 bytes. -/
def next (map : Detours) (c : Setup) (arrival : Arrival) (s : State) : State :=
  if s.ended then s
  else
    match arrival with
    | .fromShim origin payload sendOk =>
      -- the socket's own datagrams are those it sends to the shim
      let s := if origin.1 = sourceSeen c.client then {s with sent := s.sent ++ [payload.1]} else s
      if origin.1 ≠ c.client then s
      else if sendOk then {s with toRelay := s.toRelay ++ [encodeUdpHeader c.peer ++ payload.1]}
      else {s with ended := true, broken := true}
    | .fromRelay datagram sendOk =>
      match decodeUdpHeader datagram.1 with
      | none => {s with ended := true}
      | some (_, offset) =>
        if shimReaches c.client then
          if sendOk then
            let payload := (datagram.1.drop offset).take 65535
            { s with
              answers := s.answers ++ [datagram.1.drop offset]
              delivered := s.delivered ++ [(realSource (c.register map) c.client c.shim, payload)] }
          else {s with ended := true, broken := true}
        else {s with ended := true, answers := s.answers ++ [datagram.1.drop offset]}
    | .failure => {s with ended := true, broken := true}

end State

/-- The relay has got what the socket sent, for the peer, and nothing else; the socket has
got what the relay sent, from the peer; and only a socket that failed has ended the pump. -/
structure Carries (c : Setup) (s : State) : Prop where
  up : s.toRelay = s.sent.map fun payload => encodeUdpHeader c.peer ++ payload
  down : s.delivered = s.answers.map fun payload => (c.peer, payload)
  lasts : s.ended = true → s.broken = true

/-- The socket sends nothing, and what the relay sends is well formed and for a peer of the
fourth version. -/
def Spared (c : Setup) (arrival : Arrival) (s : State) : Prop :=
  match arrival with
  | .fromShim origin _ _ => s.ended = false → origin.1 ≠ sourceSeen c.client
  | .fromRelay datagram _ =>
    s.ended = false → (decodeUdpHeader datagram.1).isSome = true ∧ shimReaches c.peer = true
  | .failure => True

section Turns

variable {map : Detours} {c : Setup} {s : State}

theorem shimReaches_client (c : Setup) : shimReaches c.client = shimReaches c.peer := by
  cases hpeer : c.peer with
  | v4 bits port => simp only [Setup.client, bindAddrFor, hpeer, boundTo, shimReaches]
  | v6 bits port flowinfo scopeId => simp only [Setup.client, bindAddrFor, hpeer, boundTo, shimReaches]

/-- No datagram at the shim comes from the address that the pump waits for. -/
theorem origin_ne_client (origin : Source) (c : Setup) : origin.1 ≠ c.client := by
  intro he
  have hsource := origin.2
  rw [he, c.isUnspecified_client] at hsource
  cases hsource

theorem length_ne_snoc {α β : Type} {f : α → β} {xs : List α} {ys : List β} (h : ys = xs.map f) (x : α) :
    ys ≠ (xs ++ [x]).map f := by
  intro he
  have hlen := congrArg List.length he
  rw [h, List.length_map, List.length_map, List.length_append] at hlen
  simp at hlen

/-- What the socket sends is dropped, and so is everything else at the shim. -/
theorem carries_fromShim_iff (h : Carries c s) (hended : s.ended = false) (origin : Source) (payload : Payload)
    (sendOk : Bool) :
    Carries c (s.next map c (.fromShim origin payload sendOk)) ↔ origin.1 ≠ sourceSeen c.client := by
  rw [State.next, hended]
  dsimp only
  rw [if_neg (by simp), if_pos (origin_ne_client origin c)]
  split
  case isTrue hown =>
    refine iff_of_false (fun hcarries => ?_) (by simp [hown])
    exact length_ne_snoc h.up payload.1 hcarries.up
  case isFalse hother => exact iff_of_true h hother

theorem carries_fromRelay_iff (h : Carries c s) (hbroken : s.broken = false) (hended : s.ended = false)
    (datagram : Payload) (sendOk : Bool) :
    Carries c (s.next map c (.fromRelay datagram sendOk)) ↔
      (decodeUdpHeader datagram.1).isSome = true ∧ shimReaches c.peer = true := by
  rw [State.next, hended]
  dsimp only
  rw [if_neg (by simp), shimReaches_client]
  cases hdecode : decodeUdpHeader datagram.1 with
  | none =>
    refine iff_of_false (fun hcarries => ?_) (by simp)
    exact absurd (hbroken.symm.trans (hcarries.lasts rfl)) (by simp)
  | some header =>
    have hwhole : (datagram.1.drop header.2).take 65535 = datagram.1.drop header.2 := by
      apply List.take_of_length_le
      have hlen := datagram.2
      rw [List.length_drop]
      omega
    cases hreaches : shimReaches c.peer with
    | false =>
      refine iff_of_false (fun hcarries => ?_) (by simp)
      exact absurd (hbroken.symm.trans (hcarries.lasts rfl)) (by simp)
    | true =>
      refine iff_of_true ?_ ⟨rfl, rfl⟩
      cases sendOk with
      | true =>
        refine ⟨h.up, ?_, fun hfalse => by cases hfalse⟩
        simp [hwhole, c.realSource_register, h.down]
      | false => exact ⟨h.up, h.down, fun _ => rfl⟩

/-- A socket that failed has ended the pump. -/
def Inv (s : State) : Prop := s.broken = true → s.ended = true

theorem inv_step (arrival : Arrival) (s : State) (h : Inv s) : Inv (s.next map c arrival) := by
  rw [State.next.eq_def]
  split
  · exact h
  · cases arrival with
    | fromShim origin payload sendOk =>
      dsimp only
      rw [if_pos (origin_ne_client origin c)]
      split
      · exact h
      · exact h
    | fromRelay datagram sendOk =>
      dsimp only
      split
      · exact fun _ => rfl
      · split
        · split
          · exact h
          · exact fun _ => rfl
        · exact fun _ => rfl
    | failure => exact fun _ => rfl

theorem carries_step (arrival : Arrival) (s : State) (hinv : Inv s) (h : Carries c s) :
    Carries c (s.next map c arrival) ↔ Spared c arrival s := by
  cases hended : s.ended with
  | true =>
    have hstay : s.next map c arrival = s := by rw [State.next.eq_def, hended, if_pos rfl]
    rw [hstay]
    refine iff_of_true h ?_
    cases arrival with
    | fromShim origin payload sendOk => exact fun hfalse => absurd (hended.symm.trans hfalse) (by simp)
    | fromRelay datagram sendOk => exact fun hfalse => absurd (hended.symm.trans hfalse) (by simp)
    | failure => trivial
  | false =>
    have hbroken : s.broken = false := by
      cases hb : s.broken with
      | false => rfl
      | true => exact absurd (hended.symm.trans (hinv hb)) (by simp)
    cases arrival with
    | fromShim origin payload sendOk =>
      rw [carries_fromShim_iff h hended]
      exact ⟨fun hother _ => hother, fun hother => hother hended⟩
    | fromRelay datagram sendOk =>
      rw [carries_fromRelay_iff h hbroken hended]
      exact ⟨fun hformed _ => hformed, fun hformed => hformed hended⟩
    | failure =>
      rw [State.next, hended]
      exact iff_of_true ⟨h.up, h.down, fun _ => rfl⟩ trivial

/-- **When a detour carries its socket**: exactly in the runs in which the socket sends
nothing through it, and what the relay sends is well formed and for a peer of the fourth
version. -/
theorem carries_iff (map : Detours) (c : Setup) (arrivals : List Arrival) :
    (∀ s ∈ visited (State.next map c) {} arrivals, Carries c s) ↔
      Along (State.next map c) (Spared c) {} arrivals := by
  have hinv : Inv {} := fun h => by cases h
  have hinit : Carries c {} := ⟨rfl, rfl, fun h => by cases h⟩
  exact visited_iff_along inv_step carries_step hinv hinit arrivals

/-- The socket 0.0.0.0:40000 sends one datagram to the edge 162.159.192.1:2408. -/
theorem first_datagram_dropped :
    ¬ Carries ⟨.v4 (Rust.ipv4 162 159 192 1) 2408, by decide, 40000, 5000⟩
      (run (State.next (fun _ => none) ⟨.v4 (Rust.ipv4 162 159 192 1) 2408, by decide, 40000, 5000⟩) {}
        [.fromShim ⟨.v4 (Rust.ipv4 127 0 0 1) 40000, by decide⟩ ⟨[1, 2, 3], by decide⟩ true]) := by
  intro h
  exact absurd h.up (by decide)

end Turns

end Pump

end Aether.Upstream
