import Aether.Routing.Rules
import Aether.Machine.Run

/-! The UDP relay of an association.

The relay's port is open to every process that can reach the listener. It is latched to
the first sender whose address is the expected one, the address the client declared or
that of its control connection; from then on it takes datagrams from that socket alone
and sends every reply to it.

One turn of the loop is one `Event`: a datagram at the relay, one from the tunnel, one
from the direct socket, or a read on the control connection. `serves_one_client` is the
invariant over every order of these. -/
namespace Aether.Socks.Udp
open Machine Routing
open Rust (IpAddr SocketAddr)

variable {X : Externs}

/-! ### Who may send -/

/-- `normalize_ip`. -/
def normalizeIp : IpAddr → IpAddr
  | .v6 bits =>
    match IpAddr.toIpv4Mapped bits with
    | some v4 => .v4 v4
    | none => .v6 bits
  | .v4 bits => .v4 bits

/-- `expected_udp_source`. -/
def expectedUdpSource (controlPeer : SocketAddr) : Target → IpAddr
  | .ip ip => if !ip.isUnspecified then normalizeIp ip else normalizeIp controlPeer.ip
  | .domain _ => normalizeIp controlPeer.ip

/-- `udp_source_allowed`. -/
def udpSourceAllowed (expectedIp : IpAddr) (latched : Option SocketAddr) (source : SocketAddr) : Bool :=
  match latched with
  | some known => known == source
  | none => normalizeIp source.ip == normalizeIp expectedIp

theorem normalizeIp_normalizeIp (ip : IpAddr) : normalizeIp (normalizeIp ip) = normalizeIp ip := by
  cases ip with
  | v4 bits => rfl
  | v6 bits =>
    cases h : IpAddr.toIpv4Mapped bits with
    | none =>
      have : normalizeIp (.v6 bits) = .v6 bits := by simp only [normalizeIp, h]
      rw [this, this]
    | some v4 =>
      have : normalizeIp (.v6 bits) = .v4 v4 := by simp only [normalizeIp, h]
      rw [this]
      rfl

/-! ### Datagrams -/

/-- `ATYP_V4`, `ATYP_DOMAIN` and `ATYP_V6` with the address behind them. -/
def parseTarget (atyp : UInt8) (buf : List UInt8) : Option (Target × List UInt8) :=
  match atyp, buf with
  | 0x01, a :: b :: c :: d :: rest => some (.ip (.v4 (Rust.ipv4 a b c d)), rest)
  | 0x04, buf =>
    if buf.length < 16 then none
    else some (.ip (.v6 (buf.take 16 |>.foldl (fun bits b => (bits <<< 8) ||| b.toBitVec.setWidth 128) 0)),
      buf.drop 16)
  | 0x03, len :: rest =>
    if rest.length < len.toNat then none
    else some (.domain (Rust.fromUtf8Lossy (rest.take len.toNat)), rest.drop len.toNat)
  | _, _ => none

/-- `parse_udp_request`: the destination, its port and the payload. -/
def parseUdpRequest (buf : List UInt8) : Option (Target × UInt16 × List UInt8) :=
  match buf with
  | _ :: _ :: frag :: atyp :: rest =>
    if frag != 0 then none
    else
      match parseTarget atyp rest with
      | some (target, hi :: lo :: payload) => some (target, hi.toUInt16 <<< 8 ||| lo.toUInt16, payload)
      | _ => none
  | _ => none

/-- The address type and the octets of an address. -/
def ipOctets : IpAddr → List UInt8
  | .v4 bits => 0x01 :: (List.range 4).map fun i => ⟨bits.extractLsb' (8 * (3 - i)) 8⟩
  | .v6 bits => 0x04 :: (List.range 16).map fun i => ⟨bits.extractLsb' (8 * (15 - i)) 8⟩

/-- `build_udp_reply`. -/
def buildUdpReply (src : SocketAddr) (data : List UInt8) : List UInt8 :=
  ([0x00, 0x00, 0x00] : List UInt8) ++ ipOctets src.ip ++ [(src.port >>> 8).toUInt8, src.port.toUInt8] ++ data

/-! ### The loop -/

/-- What the association was opened with. -/
structure Setup (X : Externs) where
  controlPeer : SocketAddr
  requested : Target
  routes : RuleSet X

def Setup.expectedIp (setup : Setup X) : IpAddr := expectedUdpSource setup.controlPeer setup.requested

/-- A payload handed on, with the socket that its datagram came from. -/
structure Forward where
  source : SocketAddr
  dst : SocketAddr
  payload : List UInt8
  /-- Through `direct_relay` and not through the tunnel. -/
  outside : Bool

structure Reply where
  dst : SocketAddr
  packet : List UInt8

structure State where
  running : Bool := true
  client : Option SocketAddr := none
  refused : Nat := 0
  forwarded : List Forward := []
  replies : List Reply := []

inductive Event where
  /-- A datagram at the relay, with what `lookup_host` finds and `dns_resolve` answers
  should its destination be a name. -/
  | datagram (source : SocketAddr) (bytes : List UInt8) (lookup : Option SocketAddr) (resolved : Option IpAddr)
  | relayFailed
  | fromStack (src : SocketAddr) (data : List UInt8)
  | stackClosed
  | fromDirect (src : SocketAddr) (data : List UInt8)
  | directFailed
  /-- A read on the control connection; `none` is an error. -/
  | control (read : Option Nat)

/-- A request of the client is routed; `lookup` and `resolved` as in `Event.datagram`. -/
def forward (routes : RuleSet X) (source : SocketAddr) (bytes : List UInt8) (lookup : Option SocketAddr)
    (resolved : Option IpAddr) : List Forward :=
  match parseUdpRequest bytes with
  | none => []
  | some (dst, port, payload) =>
    match routes.decide (hostOf dst) port with
    | .block => []
    | .direct =>
      let found := match dst with
        | .ip ip => some (SocketAddr.new ip port)
        | .domain _ => lookup
      (found.map fun dst => {source, dst, payload, outside := true}).toList
    | .proxy =>
      let found := match dst with
        | .ip ip => some (SocketAddr.new ip port)
        | .domain _ => resolved.map fun ip => SocketAddr.new ip port
      (found.map fun dst => {source, dst, payload, outside := false}).toList

/-- A packet for the client, if there is one. -/
def sendBack (src : SocketAddr) (data : List UInt8) (s : State) : State :=
  match s.client with
  | some c => {s with replies := s.replies ++ [{dst := c, packet := buildUdpReply src data}]}
  | none => s

/-- One turn of the loop of `handle_udp_associate`. -/
def turn (setup : Setup X) : Event → State → State
  | .datagram source bytes lookup resolved, s =>
    if !udpSourceAllowed setup.expectedIp s.client source then {s with refused := s.refused + 1}
    else
      let s := if s.client.isNone then {s with client := some source} else s
      {s with forwarded := s.forwarded ++ forward setup.routes source bytes lookup resolved}
  | .fromStack src data, s | .fromDirect src data, s => sendBack src data s
  | .directFailed, s => s
  | .control (some n), s => {s with running := n != 0}
  | .relayFailed, s | .stackClosed, s | .control none, s => {s with running := false}

def next (setup : Setup X) (e : Event) (s : State) : State := if s.running then turn setup e s else s

/-! ### One client -/

/-- The address that the association is for: the declared one if it is specified, and
otherwise that of the control connection. -/
def Setup.servedAddress (setup : Setup X) : IpAddr :=
  match setup.requested with
  | .ip ip => if ip.isUnspecified then setup.controlPeer.ip else ip
  | .domain _ => setup.controlPeer.ip

theorem expectedIp_eq (setup : Setup X) : setup.expectedIp = normalizeIp setup.servedAddress := by
  unfold Setup.expectedIp Setup.servedAddress
  cases setup.requested with
  | domain name => rfl
  | ip ip => cases h : ip.isUnspecified <;> simp [expectedUdpSource, h]

/-- A source that is not the client, nor one that could become it. -/
def Foreign (setup : Setup X) (s : State) (source : SocketAddr) : Prop :=
  match s.client with
  | some c => source ≠ c
  | none => normalizeIp source.ip ≠ normalizeIp setup.servedAddress

theorem udpSourceAllowed_iff (setup : Setup X) (s : State) (source : SocketAddr) :
    udpSourceAllowed setup.expectedIp s.client source = true ↔ ¬ Foreign setup s source := by
  unfold udpSourceAllowed Foreign
  cases s.client with
  | some c =>
    rw [beq_iff_eq, not_not]
    exact eq_comm
  | none =>
    rw [beq_iff_eq, expectedIp_eq, normalizeIp_normalizeIp, not_not]

/-- What was taken came from the client, what was sent went to it, and its address is the
one served. -/
structure Latched (setup : Setup X) (s : State) : Prop where
  forwarded : ∀ f ∈ s.forwarded, s.client = some f.source
  replies : ∀ r ∈ s.replies, s.client = some r.dst
  client : ∀ c, s.client = some c → normalizeIp c.ip = normalizeIp setup.servedAddress

theorem forward_source {routes : RuleSet X} {source : SocketAddr} {bytes : List UInt8}
    {lookup : Option SocketAddr} {resolved : Option IpAddr} {f : Forward}
    (h : f ∈ forward routes source bytes lookup resolved) : f.source = source := by
  unfold forward at h
  split at h
  · cases h
  · split at h
    · cases h
    all_goals
      obtain ⟨dst, -, rfl⟩ := Option.map_eq_some_iff.mp (Option.mem_toList.mp h)
      rfl

/-- A foreign datagram is only counted. -/
theorem turn_foreign {setup : Setup X} {s : State} {source : SocketAddr} (h : Foreign setup s source)
    (bytes : List UInt8) (lookup : Option SocketAddr) (resolved : Option IpAddr) :
    turn setup (.datagram source bytes lookup resolved) s = {s with refused := s.refused + 1} := by
  have hrefused : udpSourceAllowed setup.expectedIp s.client source = false := by
    rw [Bool.eq_false_iff, ne_eq, udpSourceAllowed_iff, not_not]
    exact h
  simp only [turn, hrefused, Bool.not_false, if_true]

/-- The client that was there stays, whatever is taken. -/
theorem client_of_own {setup : Setup X} {s : State} {source c : SocketAddr} (h : ¬ Foreign setup s source)
    (hc : s.client = some c) : source = c := by
  simpa [Foreign, hc] using h

/-- A datagram that is taken comes from what is the client afterwards. -/
theorem turn_own {setup : Setup X} {s : State} {source : SocketAddr} (h : ¬ Foreign setup s source)
    (bytes : List UInt8) (lookup : Option SocketAddr) (resolved : Option IpAddr) :
    turn setup (.datagram source bytes lookup resolved) s =
      {s with
        client := some source
        forwarded := s.forwarded ++ forward setup.routes source bytes lookup resolved} := by
  have hallowed := (udpSourceAllowed_iff setup s source).mpr h
  have hclient : (if s.client.isNone then {s with client := some source} else s) =
      {s with client := some source} := by
    cases hc : s.client with
    | none => rfl
    | some c =>
      have hsame : s = {s with client := some c} := by rw [← hc]
      rw [client_of_own h hc]
      exact hsame
  simp only [turn, hallowed, Bool.not_true, Bool.false_eq_true, if_false, hclient]

theorem sendBack_of_client {s : State} {c : SocketAddr} (hc : s.client = some c) (src : SocketAddr)
    (data : List UInt8) :
    sendBack src data s = {s with replies := s.replies ++ [{dst := c, packet := buildUdpReply src data}]} := by
  unfold sendBack
  split
  · rename_i c' hc'
    rw [Option.some.inj (hc.symm.trans hc')]
  · rename_i hnone
    rw [hnone] at hc
    cases hc

theorem sendBack_latched {setup : Setup X} {s : State} (h : Latched setup s) (src : SocketAddr)
    (data : List UInt8) : Latched setup (sendBack src data s) := by
  cases hc : s.client with
  | none =>
    rw [sendBack, hc]
    exact h
  | some c =>
    rw [sendBack_of_client hc]
    refine ⟨h.forwarded, ?_, h.client⟩
    intro r hr
    rcases List.mem_append.mp hr with hr | hr
    · exact h.replies r hr
    · rw [List.mem_singleton.mp hr]
      exact hc

theorem latched_turn {setup : Setup X} {s : State} (h : Latched setup s) (e : Event) :
    Latched setup (turn setup e s) := by
  cases e with
  | datagram source bytes lookup resolved =>
    by_cases hf : Foreign setup s source
    · rw [turn_foreign hf]
      exact ⟨h.forwarded, h.replies, h.client⟩
    · rw [turn_own hf]
      refine ⟨?_, ?_, ?_⟩
      · intro f hmem
        rcases List.mem_append.mp hmem with hmem | hmem
        · rw [client_of_own hf (h.forwarded f hmem)]
        · rw [forward_source hmem]
      · intro r hr
        rw [client_of_own hf (h.replies r hr)]
      · intro c hc
        obtain rfl := Option.some.inj hc
        cases hold : s.client with
        | none => simpa [Foreign, hold] using hf
        | some known =>
          rw [client_of_own hf hold]
          exact h.client known hold
  | fromStack src data => exact sendBack_latched h src data
  | fromDirect src data => exact sendBack_latched h src data
  | directFailed => exact h
  | control read => cases read <;> exact ⟨h.forwarded, h.replies, h.client⟩
  | relayFailed => exact ⟨h.forwarded, h.replies, h.client⟩
  | stackClosed => exact ⟨h.forwarded, h.replies, h.client⟩

theorem latched_next {setup : Setup X} (e : Event) (s : State) (h : Latched setup s) :
    Latched setup (next setup e s) := by
  unfold next
  split_ifs
  · exact latched_turn h e
  · exact h

theorem client_turn {setup : Setup X} {s : State} {c : SocketAddr} (hc : s.client = some c) (e : Event) :
    (turn setup e s).client = some c := by
  cases e with
  | datagram source bytes lookup resolved =>
    by_cases hf : Foreign setup s source
    · rw [turn_foreign hf]
      exact hc
    · rw [turn_own hf, client_of_own hf hc]
  | fromStack src data | fromDirect src data =>
    show (sendBack src data s).client = some c
    rw [sendBack_of_client hc]
    exact hc
  | control read => cases read <;> exact hc
  | _ => exact hc

/-- A latched client stays for the rest of the run. -/
theorem client_run {setup : Setup X} {s : State} {c : SocketAddr} (hc : s.client = some c) (es : List Event) :
    (run (next setup) s es).client = some c := by
  have step (e : Event) (s : State) (hs : s.client = some c) : (next setup e s).client = some c := by
    unfold next
    split_ifs
    · exact client_turn hs e
    · exact hs
  exact run_invariant step hc es

/-- **An association serves exactly one client**: in every state of every run what was
forwarded came from the client, whose address is the one served, and every reply went to
it; a client once latched is the client for the rest of the run; and a datagram from any
other source is counted and changes nothing else. -/
theorem serves_one_client (setup : Setup X) (es : List Event) :
    (∀ s ∈ visited (next setup) {} es, Latched setup s) ∧
    (∀ before after, before ++ after = es → ∀ c, (run (next setup) {} before).client = some c →
      (run (next setup) {} es).client = some c) ∧
    (∀ s ∈ visited (next setup) {} es, s.running = true → ∀ source, Foreign setup s source →
      ∀ bytes lookup resolved, next setup (.datagram source bytes lookup resolved) s =
        {s with refused := s.refused + 1}) := by
  refine ⟨?_, ?_, ?_⟩
  · have hinitial : Latched setup {} := by
      refine ⟨?_, ?_, ?_⟩ <;> intro _ h <;> cases h
    exact visited_invariant latched_next hinitial es
  · rintro before after rfl c hc
    rw [run_append]
    exact client_run hc after
  · intro s _ hrunning source hforeign bytes lookup resolved
    rw [next, if_pos hrunning]
    exact turn_foreign hforeign bytes lookup resolved

end Aether.Socks.Udp
