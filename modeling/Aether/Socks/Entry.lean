import Aether.Socks.Sniff
import Aether.Socks.HttpRequest
import Aether.Rust.AddressText

/-! The action each entry point of the engine applies to a destination.

The SOCKS listener decides a `CONNECT` on the target as it arrived, and on the name in
its first bytes when it arrived as an address; the HTTP listener parses the authority
before it decides and never sniffs; a datagram of `UDP ASSOCIATE` is decided on the
target alone. All of them dial the same address in the end: a literal that came as a
domain is parsed after the decision.

So the entry points agree on a name, and on a literal exactly if its text, its address
and the name it announces are caught by the same lists (`routesAlike_iff`). -/
namespace Aether.Socks
open Routing
open Rust (IpAddr)

variable {X : Externs}

/-- The name `handle_connect` reads from the first flight, `sniffing` being
`AETHER_ROUTE_SNIFF`. An empty flight is one that did not come in time. -/
def announced (set : RuleSet X) (sniffing : Bool) : Target → List UInt8 → Option String
  | .ip _, head =>
    if sniffing && set.hasDomainRules then if head.isEmpty then none else Sniff.hostname X head else none
  | .domain _, _ => none

/-- The action of `handle_connect`. -/
def connectAction (set : RuleSet X) (sniffing : Bool) (target : Target) (port : UInt16)
    (head : List UInt8) : Action :=
  decideRoute set target (announced set sniffing target head) port

/-- The target of `handle_http_client`. -/
def httpTarget (authority : String) : Target :=
  match Rust.parseIp authority with
  | some ip => .ip ip
  | none => .domain authority

/-- The action of `handle_http_client`; a line it cannot read is refused. -/
def httpAction (set : RuleSet X) (line : String) : Option Action :=
  (Http.parseRequestLine line).map fun request => set.decide (hostOf (httpTarget request.authority)) request.port

/-- The action of `handle_udp_associate`. -/
def udpAction (set : RuleSet X) (dst : Target) (port : UInt16) : Action := set.decide (hostOf dst) port

/-- `resolve` without its name query: what a literal is dialled as. -/
def resolveLiteral : Target → Option IpAddr
  | .ip ip => some ip
  | .domain name => Rust.parseIp name

/-! ### Agreement -/

/-- Every way of naming `host` at `port` gets the same action. -/
def RoutesAlike (set : RuleSet X) (sniffing : Bool) (host : String) (port : UInt16) (head : List UInt8) : Prop :=
  httpAction set (Http.connectLine host port) = some (connectAction set sniffing (.domain host) port head) ∧
  ∀ ip, resolveLiteral (.domain host) = some ip →
    connectAction set sniffing (.ip ip) port head = connectAction set sniffing (.domain host) port head ∧
    udpAction set (.ip ip) port = udpAction set (.domain host) port

/-- Neither list catches the host. -/
def Uncaught (set : RuleSet X) (a : Host) (port : UInt16) : Prop :=
  caught set.block a port = false ∧ caught set.direct a port = false

/-- The block list catches both hosts or neither, and so does the direct list unless they
are blocked. -/
def CaughtAlike (set : RuleSet X) (a b : Host) (port : UInt16) : Prop :=
  caught set.block a port = caught set.block b port ∧
    (caught set.block b port = true ∨ caught set.direct a port = caught set.direct b port)

/-- A literal's text is caught by the same lists as its address, and so is the name that
its first bytes announce, if any list catches that. -/
def LiteralListed (set : RuleSet X) (sniffing : Bool) (host : String) (port : UInt16)
    (head : List UInt8) : Prop :=
  ∀ ip, Rust.parseIp host = some ip →
    CaughtAlike set (.domain host) (.ip ip) port ∧
    ∀ name, announced set sniffing (.ip ip) head = some name →
      Uncaught set (.domain name) port ∨ CaughtAlike set (.domain name) (.ip ip) port

theorem decide_eq_iff_caughtAlike {set : RuleSet X} {a b : Host} {port : UInt16} :
    set.decide a port = set.decide b port ↔ CaughtAlike set a b port :=
  RuleSet.decide_eq_decide_iff

/-- An address is decided as without sniffing exactly if the name it announces is caught by
no list or by those that catch the address. -/
theorem decideRoute_eq_iff {set : RuleSet X} {target : Target} {sniffed : Option String} {port : UInt16} :
    decideRoute set target sniffed port = set.decide (hostOf target) port ↔
      ∀ name, sniffed = some name →
        Uncaught set (.domain name) port ∨ CaughtAlike set (.domain name) (hostOf target) port := by
  cases sniffed with
  | none => exact iff_of_true rfl nofun
  | some name =>
    have hsingle (p : String → Prop) : (∀ n, some name = some n → p n) ↔ p name :=
      ⟨fun h => h name rfl, fun h n hn => Option.some.inj hn ▸ h⟩
    rw [hsingle]
    by_cases hname : set.decide (.domain name) port = .proxy
    · rw [decideRoute_of_proxy hname]
      exact iff_of_true rfl (.inl (RuleSet.decide_eq_proxy_iff.mp hname))
    · rw [decideRoute_of_decided hname, decide_eq_iff_caughtAlike]
      refine ⟨.inr, fun h => h.resolve_left fun hun => ?_⟩
      exact hname (RuleSet.decide_eq_proxy_iff.mpr hun)

theorem httpAction_connectLine (set : RuleSet X) {host : String} (h : Http.Solid host) (port : UInt16) :
    httpAction set (Http.connectLine host port) = some (set.decide (hostOf (httpTarget host)) port) := by
  rw [httpAction, Http.parseRequestLine_connectLine h, Option.map_some]

/-- **The entry points agree on every name, and on a literal exactly if the same lists
catch its text, its address and the name it announces.** -/
theorem routesAlike_iff (set : RuleSet X) (sniffing : Bool) {host : String} (h : Http.Solid host)
    (port : UInt16) (head : List UInt8) :
    RoutesAlike set sniffing host port head ↔ LiteralListed set sniffing host port head := by
  have hdomain : connectAction set sniffing (.domain host) port head = set.decide (.domain host) port := rfl
  rw [RoutesAlike, httpAction_connectLine set h, hdomain]
  cases hip : Rust.parseIp host with
  | none =>
    have hnone : resolveLiteral (.domain host) = none := hip
    have hhttp : httpTarget host = .domain host := by rw [httpTarget, hip]
    rw [hnone, hhttp]
    refine iff_of_true ⟨rfl, nofun⟩ ?_
    intro ip hsome
    rw [hip] at hsome
    cases hsome
  | some ip =>
    have hsome : resolveLiteral (.domain host) = some ip := hip
    have hhttp : httpTarget host = .ip ip := by rw [httpTarget, hip]
    rw [hsome, hhttp]
    constructor
    · intro halike ip' hip'
      obtain ⟨hfirst, hall⟩ := halike
      obtain rfl : ip = ip' := Option.some.inj (hip.symm.trans hip')
      have hsame : set.decide (.domain host) port = set.decide (.ip ip) port := (Option.some.inj hfirst).symm
      refine ⟨decide_eq_iff_caughtAlike.mp hsame, ?_⟩
      have hroute := (hall ip rfl).1
      rw [connectAction, hsame] at hroute
      exact decideRoute_eq_iff.mp hroute
    · intro hlisted
      obtain ⟨htext, hname⟩ := hlisted ip hip
      have hsame : set.decide (.domain host) port = set.decide (.ip ip) port :=
        decide_eq_iff_caughtAlike.mpr htext
      refine ⟨congrArg some hsame.symm, ?_⟩
      intro ip' hip'
      obtain rfl := Option.some.inj hip'
      refine ⟨?_, hsame.symm⟩
      rw [connectAction, hsame]
      exact decideRoute_eq_iff.mpr hname

/-! ### Literals are hosts -/

/-- Every literal can stand as a host. -/
theorem solid_of_parseIp {host : String} {ip : IpAddr} (h : Rust.parseIp host = some ip) : Http.Solid host := by
  refine ⟨?_, ?_⟩
  · intro hnone
    have hempty : Rust.parseIp "" = none := by decide
    rw [hnone, hempty] at h
    cases h
  · intro c hc
    have hbounds := Rust.literal_bounds ((Rust.parseIp_text h).1 c hc)
    refine ⟨?_, ?_, ?_⟩
    · exact Rust.isWhitespace_of_visible ⟨by omega, by omega⟩
    · intro hbracket
      rw [hbracket] at hbounds
      exact absurd hbounds (by decide)
    · intro hbracket
      rw [hbracket] at hbounds
      exact absurd hbounds (by decide)

/-- A blocked network and a literal outside it. -/
theorem routesAlike_outside :
    RoutesAlike {block := [tenNet]} true "11.1.2.3" 443 [] := by
  have hip : Rust.parseIp "11.1.2.3" = some (.v4 (Rust.ipv4 11 1 2 3)) := by decide
  refine (routesAlike_iff _ _ (solid_of_parseIp hip) _ _).mpr ?_
  intro ip hip'
  obtain rfl : .v4 (Rust.ipv4 11 1 2 3) = ip := Option.some.inj (hip.symm.trans hip')
  exact ⟨⟨by decide, .inr (by decide)⟩, nofun⟩

/-- The network `10.0.0.0/8` is blocked, and `10.1.2.3` sent as a domain is tunneled. -/
theorem literal_bypasses_block : ¬ RoutesAlike {block := [tenNet]} true "10.1.2.3" 443 [] := by
  intro halike
  have hip : resolveLiteral (.domain "10.1.2.3") = some (.v4 (Rust.ipv4 10 1 2 3)) := by decide
  have h := (halike.2 _ hip).2
  exact absurd h (by decide)

end Aether.Socks
