import Aether.Account.Identity
import Aether.Machine.Run
import Aether.Scan.WgProber

/-! The loops that keep a tunnel up.

Both loops connect to a peer, wait for the tunnel to end and connect again: to the peer of
the last tunnel where it still answers, and else to what a scan finds. A run may start from
an endpoint that the organization assigned or that the last session left behind, without a
scan. A pass of a loop takes what it meets from a `Pass`; what it does is noted in a log.

The loop for WireGuard counts the tunnels that ended on one peer, and keeps a peer that two of
them ended on from being scanned for a while. -/
namespace Aether.Engine
open Scan
open Account (AetherError Identity)
open Profile (Env)
open Rust (IpAddr SocketAddr eqIgnoreAsciiCase parseIpv4 parseSocketAddr parseUnsigned)

/-- `LastConnection`. -/
structure LastConnection where
  peer : String
  profile : String

/-- What a run meets before its loop: the answers at the prompts, the last connection as it was
saved, and whether the assigned endpoint (with each profile) and the saved one work. -/
structure Before where
  answers : Answers := {}
  cached : Option LastConnection := none
  assignedWorks : Nat → Bool := fun _ => false
  cachedWorks : Bool := false

def wantQuickReconnect (env : Env) (answers : Answers) : Bool :=
  match env "AETHER_QUICK_RECONNECT" with
  | some "1" | some "true" | some "yes" | some "on" => true
  | some "0" | some "false" | some "no" | some "off" => false
  | _ =>
    match answers.reconnect with
    | some a => !(eqIgnoreAsciiCase a "n" || eqIgnoreAsciiCase a "no")
    | none => true

/-- The endpoint that the organization assigned. -/
def teamEndpoint (env : Env) : Option SocketAddr := (env "AETHER_TEAM_ENDPOINT").bind parseSocketAddr

/-- The last connection, where it is wanted and works. -/
def cachedPeer (env : Env) (before : Before) : Option (SocketAddr × LastConnection) := do
  let cached ← before.cached
  let peer ← parseSocketAddr cached.peer
  if wantQuickReconnect env before.answers && before.cachedWorks then some (peer, cached) else none

/-- What a loop scans with, fixed before it starts: nothing and the fourth version, where a peer
is forced or there is one to start with. -/
def scanChoice (env : Env) (before : Before) (ready : Bool) : String × IpScan :=
  if ready then ("", .v4) else (selectScanModeStr env before.answers, selectIpVersion env before.answers)

/-! ### MASQUE -/

namespace MasqueLoop

structure Config where
  forced : Option String
  modeStr : String
  ip : IpScan

inductive Act where
  | hunted (modeStr : String) (ip : IpScan)
  | tunnel (peer : SocketAddr)
  deriving DecidableEq, Repr

/-- What a pass meets: whether the last gateway still answers, and what a scan finds. -/
structure Pass where
  responds : Bool := false
  found : Option SocketAddr := none

structure State where
  quickPeer : Option SocketAddr
  lastGoodPeer : Option SocketAddr := none
  ended : Option AetherError := none
  log : List Act := []

def quickPeer (env : Env) (before : Before) : Option SocketAddr :=
  if (env "AETHER_PEER").isSome then none
  else
    let assigned := (teamEndpoint env).filter fun _ => before.assignedWorks 0
    assigned.or ((cachedPeer env before).map Prod.fst)

def config (env : Env) (before : Before) : Config :=
  let choice := scanChoice env before ((env "AETHER_PEER").isSome || (quickPeer env before).isSome)
  {forced := env "AETHER_PEER", modeStr := choice.1, ip := choice.2}

def start (env : Env) (before : Before) : State := {quickPeer := quickPeer env before}

/-- The tunnel runs, and ends one way or the other. -/
def connect (peer : SocketAddr) (s : State) : State :=
  {s with lastGoodPeer := some peer, log := s.log ++ [.tunnel peer]}

def findPeer (cfg : Config) (pass : Pass) (s : State) : State :=
  match cfg.forced with
  | some p =>
    match parseSocketAddr p with
    | some peer => connect peer s
    | none => {s with ended := some (.other ("bad peer address " ++ p))}
  | none =>
    let s := {s with log := s.log ++ [.hunted cfg.modeStr cfg.ip]}
    match pass.found with
    | some peer => connect peer s
    | none => s

/-- A pass of the loop of `run_masque`. -/
def next (cfg : Config) (pass : Pass) (s : State) : State :=
  if s.ended.isSome then s
  else
    match s.quickPeer with
    | some peer => connect peer {s with quickPeer := none}
    | none =>
      match s.lastGoodPeer with
      | some peer => if pass.responds then connect peer s else findPeer cfg pass s
      | none => findPeer cfg pass s

end MasqueLoop

/-! ### WireGuard -/

namespace WireguardLoop

/-- `AetherNoizeConfig`, by the profile it comes from. -/
inductive Noize where
  | off
  | light
  | aggressive
  | balanced
  deriving DecidableEq, Repr

def Noize.fromProfile : String → Noize
  | "off" | "none" => off
  | "light" => light
  | "aggressive" | "heavy" => aggressive
  | _ => balanced

def wgProfileCandidates (env : Env) : List (String × Noize) :=
  let names := [(env "AETHER_NOIZE").getD "balanced"]
  let names :=
    if (env "AETHER_WG_NO_PROFILE_RETRY").isNone then
      ["balanced", "aggressive", "light", "off"].foldl
        (fun names fallback => if names.any (eqIgnoreAsciiCase · fallback) then names else names ++ [fallback]) names
    else names
  names.map fun n => (n, Noize.fromProfile n)

/-- `wg_endpoint_cooldown`, in nanoseconds. -/
def wgEndpointCooldown (env : Env) : Nat :=
  secs ((((env "AETHER_WG_ENDPOINT_COOLDOWN_SECS").bind (parseUnsigned 64)).filter (0 < ·)).getD 300)

/-- The end of the clock: an `Instant` has a signed number of 64 bits for its seconds. -/
def instantEnd : Nat := secs (2 ^ 63)

/-- A peer with the profile that it works with. -/
structure Chosen where
  peer : SocketAddr
  profile : Noize
  profileName : String
  deriving DecidableEq, Repr

structure Config where
  env : Env
  identity : Identity
  candidates : List (String × Noize)
  forced : Option String
  modeStr : String
  ip : IpScan

/-- A scan that was made, with what it met. -/
structure ScanMade where
  began : Nat
  probing : Probing
  candidates : List (IpAddr × UInt16)

inductive Act where
  | cooled (peer : SocketAddr) (stop : Nat)
  /-- A call of `hunt_wg_peer`, in the pass that began at a reading of the clock. -/
  | hunted (modeStr : String) (ip : IpScan) (reading : Nat) (scans : List ScanMade)
  | tunnel (peer : SocketAddr) (started : Nat)

/-- What a pass meets: how long it waits before, whether the last peer still answers and how
long it takes to know, what the scan with each profile meets, whether the forced peer works with
each of them, and how long the tunnel lasts. -/
structure Pass where
  waited : Nat := 0
  responds : Bool := false
  verifying : Nat := 0
  probing : Nat → Probing := fun _ => {}
  forcedWorks : Nat → Bool := fun _ => false
  tunnelled : Nat := 0

inductive Ending where
  | failed (e : AetherError)
  | panicked
  deriving DecidableEq

structure State where
  clock : Nat := 0
  quick : Option Chosen
  lastGood : Option Chosen := none
  consecutiveFailsOnPeer : Nat := 0
  endpointCooldowns : SocketAddr → Option Nat := fun _ => none
  ended : Option Ending := none
  log : List Act := []

def forced (env : Env) : Option String := (env "AETHER_WG_PEER").or (env "AETHER_PEER")

/-- The first of the profiles that a verification passes with. -/
def firstWorking (candidates : List (String × Noize)) (works : Nat → Bool) (peer : SocketAddr) : Option Chosen :=
  (candidates.zipIdx.find? fun (_, i) => works i).map fun ((name, profile), _) => {peer, profile, profileName := name}

def quick (env : Env) (before : Before) : Option Chosen :=
  if (forced env).isSome then none
  else
    let assigned := (teamEndpoint env).bind (firstWorking (wgProfileCandidates env) before.assignedWorks)
    assigned.or ((cachedPeer env before).map fun (peer, cached) =>
      {peer, profile := Noize.fromProfile cached.profile, profileName := cached.profile})

def config (env : Env) (identity : Identity) (before : Before) : Config :=
  let choice := scanChoice env before ((forced env).isSome || (quick env before).isSome)
  {env, identity, candidates := wgProfileCandidates env, forced := forced env, modeStr := choice.1, ip := choice.2}

def start (env : Env) (identity : Identity) (before : Before) : State :=
  match parseIpv4 identity.ipv4 with
  | none => {quick := none, ended := some (.failed (.other "invalid ipv4"))}
  | some _ => {quick := quick env before}

/-! #### The scan -/

section Hunt
variable (cfg : Config) (excluded : SocketAddr → Bool)

/-- The candidates of a scan of this run. -/
def candidatesOf (p : Probing) : List (IpAddr × UInt16) :=
  scanCandidates cfg.env wgPorts (ScanMode.parse cfg.modeStr) cfg.ip excluded p

def huntWgPeerWithProfile (p : Probing) : Except AetherError SocketAddr :=
  match parseIpv4 cfg.identity.ipv4 with
  | none => .error (.other "invalid ipv4")
  | some _ =>
    match huntBestWgEndpoint cfg.env wgPorts (ScanMode.parse cfg.modeStr) cfg.ip excluded p with
    | none => .error .noCleanEndpoint
    | some best => .ok best.address

/-- `hunt_wg_peer`: a scan with each profile until one finds a peer. What is found, the scans made
and the reading of the clock at the end. -/
def huntWgPeer (clock : Nat) (probing : Nat → Probing) : List (String × Noize) → Option Chosen × List ScanMade × Nat
  | [] => (none, [], clock)
  | (name, profile) :: rest =>
    let p := probing 0
    let made : ScanMade := {began := clock, probing := p, candidates := candidatesOf cfg excluded p}
    match huntWgPeerWithProfile cfg excluded p with
    | .ok peer => (some {peer, profile, profileName := name}, [made], clock + p.took)
    | .error _ =>
      let (found, scans, clock) := huntWgPeer (clock + p.took) (fun i => probing (i + 1)) rest
      (found, made :: scans, clock)

end Hunt

/-! #### A pass -/

def maxConsecutiveFails : Nat := 2

/-- Cooldowns that are over at a reading of the clock are dropped. -/
def retain (now : Nat) (s : State) : State :=
  {s with clock := now, endpointCooldowns := fun e => (s.endpointCooldowns e).filter (now < ·)}

/-- A peer is no longer the last good one, and is not scanned for until a time. -/
def cool (peer : SocketAddr) (stop : Nat) (s : State) : State :=
  {s with
    lastGood := none
    consecutiveFailsOnPeer := 0
    endpointCooldowns := Function.update s.endpointCooldowns peer (some stop)
    log := s.log ++ [.cooled peer stop]}

/-- The end of a cooldown cannot be represented. -/
def crash (s : State) : State := {s with ended := some .panicked}

/-- The top of the loop: a peer that too many tunnels ended on in a row is cooled down. -/
def bench (cfg : Config) (now : Nat) (s : State) : State :=
  if maxConsecutiveFails ≤ s.consecutiveFailsOnPeer then
    match s.lastGood with
    | none => {s with consecutiveFailsOnPeer := 0}
    | some c =>
      let stop := now + wgEndpointCooldown cfg.env
      if stop < instantEnd then cool c.peer stop s else crash s
  else s

/-- Time passes. -/
def tick (n : Nat) (s : State) : State := {s with clock := s.clock + n}

/-- The tunnel runs, and ends one way or the other. -/
def connect (pass : Pass) (c : Chosen) (s : State) : State :=
  let fails := if s.lastGood.map Chosen.peer = some c.peer then s.consecutiveFailsOnPeer else 0
  {s with
    lastGood := some c
    consecutiveFailsOnPeer := fails + 1
    log := s.log ++ [.tunnel c.peer s.clock]
    clock := s.clock + pass.tunnelled}

def note (clock : Nat) (act : Act) (s : State) : State := {s with clock, log := s.log ++ [act]}

def findPeer (cfg : Config) (pass : Pass) (now : Nat) (s : State) : State :=
  match cfg.forced with
  | some p =>
    match parseSocketAddr p with
    | none => {s with ended := some (.failed (.other ("bad peer address " ++ p)))}
    | some peer =>
      match firstWorking cfg.candidates pass.forcedWorks peer with
      | some c => connect pass c s
      | none => {s with ended := some (.failed .noCleanEndpoint)}
  | none =>
    let excluded := fun e => (s.endpointCooldowns e).isSome
    let (found, scans, clock) := huntWgPeer cfg excluded s.clock pass.probing cfg.candidates
    let s := note clock (.hunted cfg.modeStr cfg.ip now scans) s
    match found with
    | some c => connect pass c s
    | none => s

/-- Where the pass takes its peer from. -/
def choosePeer (cfg : Config) (pass : Pass) (now : Nat) (s : State) : State :=
  match s.quick with
  | some q => connect pass q {s with quick := none}
  | none =>
    match s.lastGood with
    | some c =>
      let s := tick pass.verifying s
      if pass.responds then connect pass c s else findPeer cfg pass now s
    | none => findPeer cfg pass now s

/-- A pass of the loop of `run_wireguard`. -/
def next (cfg : Config) (pass : Pass) (s : State) : State :=
  if s.ended.isSome then s
  else
    let now := s.clock + pass.waited
    let s := bench cfg now (retain now s)
    if s.ended.isSome then s else choosePeer cfg pass now s

end WireguardLoop

end Aether.Engine
