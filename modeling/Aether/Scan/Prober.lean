import Aether.Scan.WgProber

/-! The scanner for MASQUE gateways.

`buildCandidates` lists what is probed: every address on the first port, the addresses known
beforehand in front, and then those on the other ports as well. `huntBestGateway` takes the
answers in the order in which they come and keeps the quickest. -/
namespace Aether.Scan
open Profile (Env)
open Rust (IpAddr firstOfEach parseIpv4 parseIpv6)

def masqueCidrsV4 : List String :=
  ["162.159.196.0/24", "162.159.195.0/24", "162.159.192.0/24", "162.159.193.0/24", "162.159.204.0/24",
    "162.159.197.0/24", "162.159.198.0/24", "172.65.251.0/24", "188.114.96.0/24", "188.114.97.0/24",
    "188.114.98.0/24", "188.114.99.0/24", "162.159.36.0/24", "162.159.46.0/24"]

def masqueSeeds : List String :=
  ["162.159.196.1", "162.159.195.1", "162.159.192.1", "162.159.197.3", "162.159.197.1", "162.159.198.2",
    "162.159.198.1", "162.159.193.1"]

def masqueCidrsV6 : List String := ["2606:4700:d0::/48", "2606:4700:102::/48", "2606:4700:d1::/48"]

def masqueZtCidrsV4 : List String := ["162.159.197.0/24"]

def masqueZtCidrsV6 : List String := ["2606:4700:102::/48"]

def masqueSeedsV6 : List String :=
  ["2606:4700:d0::a29f:c602", "2606:4700:d1::a29f:c602", "2606:4700:d0::a29f:c601", "2606:4700:d0::a29f:c001"]

/-- `Strategy` -/
structure Strategy where
  overallDeadline : Nat
  quietAfterFirst : Nat
  targetSuccesses : Nat
  earlyExitFirst : Bool
  fullSubnet : Bool
  samplePerCidr : Nat

/-- `ScanMode::strategy` -/
def ScanMode.masqueStrategy : ScanMode → Strategy
  | turbo => {
      overallDeadline := secs 45
      quietAfterFirst := secs 0
      targetSuccesses := 1
      earlyExitFirst := true
      fullSubnet := false
      samplePerCidr := 64 }
  | balanced => {
      overallDeadline := secs 120
      quietAfterFirst := secs 20
      targetSuccesses := 6
      earlyExitFirst := false
      fullSubnet := false
      samplePerCidr := 140 }
  | thorough => {
      overallDeadline := secs 300
      quietAfterFirst := secs 30
      targetSuccesses := 0
      earlyExitFirst := false
      fullSubnet := true
      samplePerCidr := 0 }
  | stealth => {
      overallDeadline := secs 180
      quietAfterFirst := secs 25
      targetSuccesses := 4
      earlyExitFirst := false
      fullSubnet := false
      samplePerCidr := 64 }
  | ironclad => {
      overallDeadline := secs 180
      quietAfterFirst := secs 15
      targetSuccesses := 3
      earlyExitFirst := false
      fullSubnet := false
      samplePerCidr := 140 }

/-! ### Candidates -/

section Candidates
variable (env : Env) (st : Strategy) (ports : List UInt16) (dice : Dice)

/-- The first port. -/
def primary : UInt16 := ports.head?.getD 443

/-- The hosts of every range of the fourth version. -/
def masqueHostsV4 (cidrs : List String) : List (List (BitVec 32)) :=
  cidrs.mapIdx fun i c => if st.fullSubnet then enumerateCidrV4 c else sampleCidrV4 c st.samplePerCidr (dice.v4 i)

/-- Addresses on the first port. -/
def onPrimary (ips : List IpAddr) : List (IpAddr × UInt16) := ips.map fun ip => (ip, primary ports)

/-- Addresses on every other port. -/
def onOthers (ips : List IpAddr) : List (IpAddr × UInt16) :=
  ips.flatMap fun ip => (ports.filter (· ≠ primary ports)).map fun port => (ip, port)

/-- `custom_masque_cidrs_v4` -/
def customMasqueCidrsV4 : Option (List String) := customCidrsV4 "AETHER_MASQUE_CIDRS" env

def manualMasqueCandidates (cidrs : List String) : List (IpAddr × UInt16) :=
  let hosts := (interleave (masqueHostsV4 st dice cidrs)).map IpAddr.v4
  firstOfEach id [] (onPrimary ports hosts ++ onOthers ports hosts)

/-- The known addresses of the fourth version, if it is wanted. -/
def seedsV4 (ip : IpScan) : List IpAddr :=
  if ip.wantV4 then masqueSeeds.filterMap fun s => (parseIpv4 s).map .v4 else []

def seedsV6 (ip : IpScan) : List IpAddr :=
  if ip.wantV6 then masqueSeedsV6.filterMap fun s => (parseIpv6 s).map .v6 else []

/-- The sampled addresses of the fourth version, if it is wanted. -/
def sampledV4 (ip : IpScan) : List IpAddr :=
  if ip.wantV4 then (interleave (masqueHostsV4 st dice (prioritize env masqueCidrsV4 masqueZtCidrsV4))).map .v4 else []

def sampledV6 (ip : IpScan) : List IpAddr :=
  if ip.wantV6 then
    let per := if st.samplePerCidr = 0 then 96 else st.samplePerCidr
    let cidr6 := (prioritize env masqueCidrsV6 masqueZtCidrsV6).mapIdx fun i c => sampleCidrV6 c per masqueCidrsV4 (dice.v6 i)
    (interleave cidr6).map .v6
  else []

def buildCandidates (ip : IpScan) : List (IpAddr × UInt16) :=
  match if ip.wantV4 then customMasqueCidrsV4 env else none with
  | some cidrs => manualMasqueCandidates st ports dice cidrs
  | none =>
    firstOfEach id [] (onPrimary ports
        (seedsV4 ip ++ sampledV4 env st dice ip ++ (seedsV6 ip ++ sampledV6 env st dice ip)) ++
      onOthers ports (seedsV4 ip ++ seedsV6 ip))

end Candidates

/-! ### The hunt -/

/-- `ProbeResult` has the fields of the other scanner's. -/
abbrev ProbeResult := WgProbeResult

/-- When the loop ends by itself. -/
def gatewayEnd (st : Strategy) (quietUntil : Option Nat) : Nat :=
  match quietUntil with
  | some q => min q st.overallDeadline
  | none => st.overallDeadline

/-- The quicker of two answers, the earlier of equally quick ones. -/
def quicker (best : Option ProbeResult) (pr : ProbeResult) : ProbeResult :=
  match best with
  | some cur => if cur.rtt ≤ pr.rtt then cur else pr
  | none => pr

/-- The loop of `hunt_best_gateway`. Where no more turns are given, the deadline passes. -/
def gatewayLoop (st : Strategy) (candidates : List (IpAddr × UInt16)) :
    (best : Option ProbeResult) → (found : Nat) → (quietUntil : Option Nat) → List ProbeTurn → Option ProbeResult
  | best, _, _, [] => best
  | best, found, quietUntil, t :: rest =>
    if gatewayEnd st quietUntil ≤ t.now then best
    else
      match t.waited with
      | .finished | .slept => best
      | .failed => gatewayLoop st candidates best found quietUntil rest
      | .verified i rtt =>
        match candidates[i]? with
        | none => gatewayLoop st candidates best found quietUntil rest
        | some (ip, port) =>
          let pr : ProbeResult := {ip, port, rtt}
          if st.earlyExitFirst then some pr
          else
            let best := some (quicker best pr)
            let found := found + 1
            if 0 < st.targetSuccesses ∧ st.targetSuccesses ≤ found ∧ quietUntil = none then
              if st.quietAfterFirst ≠ 0 then
                gatewayLoop st candidates best found (some (t.later + st.quietAfterFirst)) rest
              else best
            else gatewayLoop st candidates best found quietUntil rest

/-- `hunt_best_gateway`; nothing stands for `NoCleanEndpoint`. -/
def huntBestGateway (env : Env) (ports : List UInt16) (mode : ScanMode) (ip : IpScan) (p : Probing) : Option ProbeResult :=
  let st := mode.masqueStrategy
  match effectiveIp ip p.hasIpv6 with
  | none => none
  | some ip => gatewayLoop st (buildCandidates env st ports p.dice ip) none 0 none p.turns

end Aether.Scan
