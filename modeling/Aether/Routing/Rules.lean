import Aether.Rust.Net
import Aether.Rust.Text

/-! The engine's routing rules.

A rule set has two lists of matchers. A destination is blocked when a matcher of the
first list catches it, sent outside the tunnel when one of the second does, and tunneled
otherwise. Names are caught by the domain matchers, addresses by networks, and either by
port; `private` catches both.

A connection that arrived as an address may have a second identity, the name read from
its first bytes. `decideRoute` asks for the name first and for the address only when the
name says nothing. A block rule wins over a direct rule on the same identity, but not
over a direct rule on the name when it is on the address (`blockWins_iff`). -/
namespace Aether.Routing
open Rust (IpAddr)

inductive Action where
  | proxy | direct | block
  deriving DecidableEq, Repr

inductive Host where
  | domain (name : String)
  | ip (ip : IpAddr)
  deriving DecidableEq, Repr

/-- What the rules use of other crates and of the Unicode tables. -/
structure Externs where
  /-- `ipnet::IpNet` -/
  IpNet : Type
  contains : IpNet → IpAddr → Bool
  /-- `regex::Regex` -/
  Regex : Type
  isMatch : Regex → String → Bool
  /-- `str::to_lowercase` -/
  toLowercase : String → String

inductive Matcher (X : Externs) where
  | domainSuffix (suffix : String)
  | domainFull (full : String)
  | domainKeyword (needle : String)
  | domainRegex (pattern : X.Regex)
  | net (net : X.IpNet)
  | ports (lo hi : UInt16)
  | privateRange

/-- `is_private`. -/
def isPrivate : IpAddr → Bool
  | .v4 bits =>
    let within (length : Nat) (a b c d : UInt8) := Rust.sameNetwork length (Rust.ipv4 a b c d) bits
    -- is_private
    (within 8 10 0 0 0 || within 12 172 16 0 0 || within 16 192 168 0 0)
      -- is_loopback, is_link_local, is_broadcast
      || within 8 127 0 0 0 || within 16 169 254 0 0 || within 32 255 255 255 255
      -- is_documentation
      || (within 24 192 0 2 0 || within 24 198 51 100 0 || within 24 203 0 113 0)
      -- is_unspecified, and the shared address space
      || within 32 0 0 0 0 || within 10 100 64 0 0
  | .v6 bits =>
    bits == 1 || bits == 0 || Rust.sameNetwork 7 (0xfc00#16 ++ 0#112) bits
      || Rust.sameNetwork 10 (0xfe80#16 ++ 0#112) bits

variable {X : Externs}

namespace Matcher

def matchesHost : Matcher X → Host → UInt16 → Bool
  | ports lo hi, _, port => port ≥ lo && port ≤ hi
  | privateRange, .ip ip, _ => isPrivate ip
  | privateRange, .domain name, _ => Rust.eqIgnoreAsciiCase name "localhost"
  | net n, .ip ip, _ => X.contains n ip
  | net _, .domain _, _ => false
  | domainSuffix suffix, .domain name, _ =>
    let name := X.toLowercase name
    name == suffix || Rust.endsWith ("." ++ suffix) name
  | domainSuffix _, .ip _, _ => false
  | domainFull full, .domain name, _ => Rust.eqIgnoreAsciiCase name full
  | domainFull _, .ip _, _ => false
  | domainKeyword needle, .domain name, _ => Rust.contains needle (X.toLowercase name)
  | domainKeyword _, .ip _, _ => false
  | domainRegex pattern, .domain name, _ => X.isMatch pattern name
  | domainRegex _, .ip _, _ => false

def isDomainRule : Matcher X → Bool
  | domainSuffix _ | domainFull _ | domainKeyword _ | domainRegex _ => true
  | net _ | ports .. | privateRange => false

end Matcher

/-- Some matcher of a list catches the destination. -/
def caught (rules : List (Matcher X)) (host : Host) (port : UInt16) : Bool :=
  rules.any fun rule => rule.matchesHost host port

structure RuleSet (X : Externs) where
  block : List (Matcher X) := []
  direct : List (Matcher X) := []

namespace RuleSet

def hasDomainRules (set : RuleSet X) : Bool := (set.block ++ set.direct).any Matcher.isDomainRule

def decide (set : RuleSet X) (host : Host) (port : UInt16) : Action :=
  if caught set.block host port then .block
  else if caught set.direct host port then .direct
  else .proxy

theorem decide_eq_block_iff {set : RuleSet X} {host : Host} {port : UInt16} :
    set.decide host port = .block ↔ caught set.block host port = true := by
  unfold decide
  split_ifs with hb hd
  · exact iff_of_true rfl hb
  · exact iff_of_false nofun hb
  · exact iff_of_false nofun hb

theorem decide_eq_direct_iff {set : RuleSet X} {host : Host} {port : UInt16} :
    set.decide host port = .direct ↔
      caught set.block host port = false ∧ caught set.direct host port = true := by
  unfold decide
  split_ifs with hb hd
  · exact iff_of_false nofun (by simp [hb])
  · exact iff_of_true rfl ⟨by simpa using hb, hd⟩
  · exact iff_of_false nofun (by simp [hd])

theorem decide_eq_proxy_iff {set : RuleSet X} {host : Host} {port : UInt16} :
    set.decide host port = .proxy ↔
      caught set.block host port = false ∧ caught set.direct host port = false := by
  unfold decide
  split_ifs with hb hd
  · exact iff_of_false nofun (by simp [hb])
  · exact iff_of_false nofun (by simp [hd])
  · exact iff_of_true rfl ⟨by simpa using hb, by simpa using hd⟩

/-- Two destinations are decided alike exactly if the block list catches both or neither
and, when it catches neither, the direct list does. -/
theorem decide_eq_decide_iff {set : RuleSet X} {a b : Host} {port : UInt16} :
    set.decide a port = set.decide b port ↔
      caught set.block a port = caught set.block b port ∧
        (caught set.block b port = true ∨ caught set.direct a port = caught set.direct b port) := by
  unfold decide
  cases caught set.block a port <;> cases caught set.block b port <;>
    cases caught set.direct a port <;> cases caught set.direct b port <;> simp

end RuleSet

/-! ### Targets -/

inductive Target where
  | ip (ip : IpAddr)
  | domain (name : String)
  deriving DecidableEq, Repr

/-- `host_of`. -/
def hostOf : Target → Host
  | .domain name => .domain name
  | .ip ip => .ip ip

/-- `decide_route`. -/
def decideRoute (set : RuleSet X) (target : Target) (sniffed : Option String) (port : UInt16) : Action :=
  match sniffed with
  | some name =>
    match set.decide (.domain name) port with
    | .proxy => set.decide (hostOf target) port
    | decided => decided
  | none => set.decide (hostOf target) port

theorem decideRoute_of_proxy {set : RuleSet X} {name : String} {port : UInt16}
    (h : set.decide (.domain name) port = .proxy) (target : Target) :
    decideRoute set target (some name) port = set.decide (hostOf target) port := by
  simp only [decideRoute, h]

theorem decideRoute_of_decided {set : RuleSet X} {name : String} {port : UInt16}
    (h : set.decide (.domain name) port ≠ .proxy) (target : Target) :
    decideRoute set target (some name) port = set.decide (.domain name) port := by
  unfold decideRoute
  dsimp only
  split
  · rename_i hp
    exact absurd hp h
  · rfl

/-! ### Block rules and the two identities -/

/-- What a destination goes by: the target, and the name its first bytes announced. -/
def identities (target : Target) (sniffed : Option String) : List Host :=
  hostOf target :: (sniffed.map Host.domain).toList

/-- A block rule on any identity blocks; what is sent outside the tunnel is blocked under
no identity, and what is tunneled is caught under none. -/
def BlockWins (set : RuleSet X) (target : Target) (sniffed : Option String) (port : UInt16) : Prop :=
  ((∃ host ∈ identities target sniffed, caught set.block host port = true) →
      decideRoute set target sniffed port = .block) ∧
  (decideRoute set target sniffed port = .direct →
      ∀ host ∈ identities target sniffed, caught set.block host port = false) ∧
  (decideRoute set target sniffed port = .proxy →
      ∀ host ∈ identities target sniffed,
        caught set.block host port = false ∧ caught set.direct host port = false)

/-- The name is sent outside the tunnel and the address it was announced for is blocked. -/
def Overruled (set : RuleSet X) (target : Target) (sniffed : Option String) (port : UInt16) : Prop :=
  ∃ name, sniffed = some name ∧ set.decide (.domain name) port = .direct ∧
    caught set.block (hostOf target) port = true

theorem blockWins_none (set : RuleSet X) (target : Target) (port : UInt16) :
    BlockWins set target none port := by
  refine ⟨?_, ?_, ?_⟩
  · intro hcaught
    obtain ⟨host, hmem, hb⟩ := hcaught
    obtain rfl := List.mem_singleton.mp hmem
    exact RuleSet.decide_eq_block_iff.mpr hb
  · intro h host hmem
    obtain rfl := List.mem_singleton.mp hmem
    exact (RuleSet.decide_eq_direct_iff.mp h).1
  · intro h host hmem
    obtain rfl := List.mem_singleton.mp hmem
    exact RuleSet.decide_eq_proxy_iff.mp h

theorem mem_identities_some {target : Target} {name : String} {host : Host} :
    host ∈ identities target (some name) ↔ host = hostOf target ∨ host = .domain name := by
  simp [identities]

/-- **A block rule wins except on an address whose announced name is sent outside**: for
every rule set, target, announced name and port. -/
theorem blockWins_iff (set : RuleSet X) (target : Target) (sniffed : Option String) (port : UInt16) :
    BlockWins set target sniffed port ↔ ¬ Overruled set target sniffed port := by
  cases sniffed with
  | none => exact iff_of_true (blockWins_none set target port) (by rintro ⟨name, h, -⟩; cases h)
  | some name =>
    constructor
    · rintro ⟨hblock, -, -⟩ ⟨name', hname, hdirect, hb⟩
      obtain rfl := Option.some.inj hname
      have hdecided : decideRoute set target (some name) port = .direct := by
        rw [decideRoute_of_decided (by rw [hdirect]; nofun), hdirect]
      have hwins := hblock ⟨_, mem_identities_some.mpr (.inl rfl), hb⟩
      rw [hdecided] at hwins
      cases hwins
    · intro hnot
      -- The name decides unless no rule catches it.
      cases hname : set.decide (.domain name) port with
      | proxy =>
        have hroute := decideRoute_of_proxy hname target
        obtain ⟨hnb, hnd⟩ := RuleSet.decide_eq_proxy_iff.mp hname
        refine ⟨?_, ?_, ?_⟩ <;> rw [hroute]
        · intro hcaught
          obtain ⟨host, hmem, hb⟩ := hcaught
          rcases mem_identities_some.mp hmem with rfl | rfl
          · exact RuleSet.decide_eq_block_iff.mpr hb
          · rw [hnb] at hb
            cases hb
        · intro h host hmem
          rcases mem_identities_some.mp hmem with rfl | rfl
          · exact (RuleSet.decide_eq_direct_iff.mp h).1
          · exact hnb
        · intro h host hmem
          rcases mem_identities_some.mp hmem with rfl | rfl
          · exact RuleSet.decide_eq_proxy_iff.mp h
          · exact ⟨hnb, hnd⟩
      | block =>
        have hroute : decideRoute set target (some name) port = .block := by
          rw [decideRoute_of_decided (by rw [hname]; nofun), hname]
        refine ⟨fun _ => hroute, ?_, ?_⟩ <;> rw [hroute] <;> nofun
      | direct =>
        have hroute : decideRoute set target (some name) port = .direct := by
          rw [decideRoute_of_decided (by rw [hname]; nofun), hname]
        have htarget : caught set.block (hostOf target) port = false := by
          rw [Bool.eq_false_iff]
          exact fun hb => hnot ⟨name, rfl, hname, hb⟩
        have hclear : ∀ host ∈ identities target (some name), caught set.block host port = false := by
          intro host hmem
          rcases mem_identities_some.mp hmem with rfl | rfl
          · exact htarget
          · exact (RuleSet.decide_eq_direct_iff.mp hname).1
        refine ⟨?_, fun _ => hclear, ?_⟩
        · intro hcaught
          obtain ⟨host, hmem, hb⟩ := hcaught
          rw [hclear host hmem] at hb
          cases hb
        · rw [hroute]
          nofun

/-! ### A concrete library -/

/-- Networks as an address and a number of leading bits, no regular expressions, and the
lower case of ASCII letters. -/
def plain : Externs where
  IpNet := IpAddr × Nat
  contains := fun
    | (.v4 net, length), .v4 ip => Rust.sameNetwork length net ip
    | (.v6 net, length), .v6 ip => Rust.sameNetwork length net ip
    | _, _ => false
  Regex := Empty
  isMatch := nofun
  toLowercase := fun name => String.ofList (name.toList.map Char.toLower)

/-- `10.0.0.0/8` -/
def tenNet : Matcher plain := .net (.v4 (Rust.ipv4 10 0 0 0), 8)

/-- `10.0.0.0/8` is blocked and `internal.example` direct: an address of the network that
announces the name goes outside the tunnel. -/
theorem blocked_address_direct :
    ¬ BlockWins {block := [tenNet], direct := [.domainSuffix "internal.example"]}
      (.ip (.v4 (Rust.ipv4 10 1 2 3))) (some "internal.example") 443 := by
  intro hwins
  have h := hwins.1 ⟨_, List.mem_cons_self .., by decide⟩
  exact absurd h (by decide)

end Aether.Routing
