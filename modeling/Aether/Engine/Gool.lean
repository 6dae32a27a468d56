import Aether.Account.Identity
import Aether.Machine.History
import Aether.Machine.Run
import Aether.Scan.WgProber

/-! Warp in warp: a tunnel inside a tunnel, over two endpoints.

The loop keeps its pair of endpoints until two tunnels over it have ended, then it logs that the
outer endpoint is blacklisted and scans. The scan is not told: `select_wg_peers` excludes
nothing, so that the pair used next has the blacklisted endpoint as its outer hop exactly if the
scan finds it quickest again (`pairs_lawful_iff`). The two hops never share an address. -/
namespace Aether.Engine.Gool
open Machine Scan
open Account (AetherError Identity)
open Profile (Env)
open Rust (SocketAddr parseIpv4)

/-- `select_wg_peers`. -/
def selectWgPeers (env : Env) (identity : Identity) (modeStr : String) (ip : IpScan) (want : Nat) (p : Probing) :
    Except AetherError (List SocketAddr) :=
  match parseIpv4 identity.ipv4 with
  | none => .error (.other "invalid ipv4")
  | some _ =>
    match huntWgEndpoints env wgPorts (ScanMode.parse modeStr) ip (fun _ => false) want p with
    | none => .error .noCleanEndpoint
    | some found => .ok (found.map WgProbeResult.address)

inductive Act where
  | blacklisted (peer : SocketAddr)
  | used (outer inner : SocketAddr)
  deriving DecidableEq, Repr

structure State where
  lastPeer : Option SocketAddr := none
  lastInner : Option SocketAddr := none
  consecutiveFails : Nat := 0
  panicked : Bool := false
  log : List Act := []

/-- What a pass meets: the answers at the prompts, and what its scan does. -/
structure Pass where
  answers : Answers := {}
  probing : Probing := {}

def maxConsecutiveFails : Nat := 2

section Pass
variable (env : Env) (primary : Identity)

/-- What the scan of a pass finds. -/
def Pass.scan (pass : Pass) : Except AetherError (List SocketAddr) :=
  selectWgPeers env primary (selectScanModeStr env pass.answers) (selectIpVersion env pass.answers) 2 pass.probing

/-- A pair is used and its tunnel ends; an endpoint alone is given up. -/
def attempt (outer : SocketAddr) (inner : Option SocketAddr) (s : State) : State :=
  match inner with
  | none => {s with lastPeer := none, lastInner := none}
  | some inner =>
    {s with
      lastPeer := some outer
      lastInner := some inner
      consecutiveFails := s.consecutiveFails + 1
      log := s.log ++ [.used outer inner]}

def rescan (pass : Pass) (s : State) : State :=
  match pass.scan env primary with
  | .error _ => s
  | .ok [] => {s with panicked := true}
  | .ok (outer :: rest) => attempt outer rest.head? {s with consecutiveFails := 0}

/-- The top of the loop: an endpoint that too many tunnels failed over is blacklisted. -/
def blacklist (s : State) : State :=
  if s.consecutiveFails < maxConsecutiveFails then s
  else {s with log := s.log ++ s.lastPeer.toList.map .blacklisted}

/-- The outer endpoint of the last pair, where it is used again. -/
def State.peer (s : State) : Option SocketAddr :=
  if s.consecutiveFails < maxConsecutiveFails then s.lastPeer else none

/-- A pass of the loop of `run_gool`. -/
def next (pass : Pass) (s : State) : State :=
  if s.panicked then s
  else
    match s.peer with
    | some p => attempt p s.lastInner (blacklist s)
    | none => rescan env primary pass (blacklist s)

end Pass

/-! ### The law -/

/-- The endpoints that were blacklisted since the last pair was used. -/
def barred (log : List Act) : List SocketAddr :=
  log.foldl (fun peers act => match act with
    | .blacklisted p => p :: peers
    | .used _ _ => []) []

/-- A pair has two addresses, and no outer hop that was blacklisted since the last pair. -/
def Heeds (before : List Act) : Act → Prop
  | .used outer inner => outer.ip ≠ inner.ip ∧ outer ∉ barred before
  | .blacklisted _ => True

def Lawful (s : State) : Prop := Always Heeds s.log

/-- A scan in this pass does not find an endpoint quickest, of at least two, that is blacklisted. -/
def ScansAway (env : Env) (primary : Identity) (pass : Pass) (s : State) : Prop :=
  s.peer = none → ∀ outer inner rest, pass.scan env primary = .ok (outer :: inner :: rest) →
    outer ∉ barred (blacklist s).log

structure Inv (s : State) : Prop where
  running : s.panicked = false
  /-- The last pair has two addresses; where it is used again, nothing is blacklisted. -/
  pair : ∀ p, s.lastPeer = some p → ∃ i, s.lastInner = some i ∧ p.ip ≠ i.ip ∧
    (s.consecutiveFails < maxConsecutiveFails → barred s.log = [])

theorem barred_used (log : List Act) (outer inner : SocketAddr) : barred (log ++ [.used outer inner]) = [] := by
  rw [barred, List.foldl_append]
  rfl

section Step
variable {env : Env} {primary : Identity} {s : State}

/-- A scan that finds endpoints finds one at least, with an address each. -/
theorem scan_ok {pass : Pass} {found : List SocketAddr} (h : pass.scan env primary = .ok found) :
    found.Pairwise (fun a b => a.ip ≠ b.ip) ∧ found ≠ [] := by
  rw [Pass.scan, selectWgPeers] at h
  split at h
  · cases h
  · split at h
    · cases h
    · rename_i results hresults
      cases h
      obtain ⟨-, hapart, hne⟩ := huntWgEndpoints_ok hresults
      refine ⟨?_, fun hnil => hne (List.map_eq_nil_iff.mp hnil)⟩
      rw [List.pairwise_map]
      exact hapart.imp fun {a b} hab => by
        rw [WgProbeResult.address, WgProbeResult.address, SocketAddr.ip_new, SocketAddr.ip_new]
        exact hab

/-- Blacklisting says nothing about pairs. -/
theorem lawful_blacklist : Lawful (blacklist s) ↔ Lawful s := by
  rw [blacklist]
  split
  · exact Iff.rfl
  · cases s.lastPeer with
    | none => exact iff_of_eq (congrArg (Always Heeds) (List.append_nil _))
    | some p => exact always_snoc.trans (and_iff_left trivial)

theorem Inv.blacklist (h : Inv s) : Inv (blacklist s) := by
  rw [Gool.blacklist]
  split
  · exact h
  · rename_i hmany
    refine ⟨h.running, fun p hp => ?_⟩
    obtain ⟨i, hi, hapart, -⟩ := h.pair p hp
    exact ⟨i, hi, hapart, fun hfew => absurd hfew hmany⟩

/-- A pair with two addresses is used. -/
theorem Inv.attempt (h : Inv s) {outer inner : SocketAddr} (hapart : outer.ip ≠ inner.ip) :
    Inv (attempt outer (some inner) s) := by
  refine ⟨h.running, fun p hp => ?_⟩
  cases hp
  exact ⟨inner, rfl, hapart, fun _ => barred_used _ _ _⟩

theorem lawful_attempt {outer inner : SocketAddr} (hapart : outer.ip ≠ inner.ip) :
    Lawful (attempt outer (some inner) s) ↔ Lawful s ∧ outer ∉ barred s.log :=
  always_snoc.trans (and_congr_right fun _ => and_iff_right hapart)

/-- What a scan leads to. -/
theorem rescan_spec (h : Inv s) (pass : Pass) :
    Inv (rescan env primary pass s) ∧
      (Lawful (rescan env primary pass s) ↔ Lawful s ∧
        ∀ outer inner rest, pass.scan env primary = .ok (outer :: inner :: rest) → outer ∉ barred s.log) := by
  rw [rescan]
  cases hscan : pass.scan env primary with
  | error e => exact ⟨h, (and_iff_left fun _ _ _ hok => by cases hok).symm⟩
  | ok found =>
    obtain ⟨hapart, hne⟩ := scan_ok hscan
    match found with
    | [] => exact absurd rfl hne
    | [outer] =>
      refine ⟨?_, (and_iff_left fun _ _ _ hok => by cases hok).symm⟩
      refine ⟨h.running, fun p hp => ?_⟩
      cases hp
    | outer :: inner :: rest =>
      have htwo : outer.ip ≠ inner.ip := (List.pairwise_cons.mp hapart).1 inner (List.mem_cons_self ..)
      refine ⟨⟨h.running, fun p hp => ?_⟩, ?_⟩
      · cases hp
        exact ⟨inner, rfl, htwo, fun _ => barred_used _ _ _⟩
      · refine (lawful_attempt htwo).trans (and_congr_right fun _ => ⟨?_, fun hall => hall outer inner rest rfl⟩)
        rintro hout _ _ _ ⟨⟩
        exact hout

theorem Inv.next (h : Inv s) (pass : Pass) : Inv (next env primary pass s) := by
  rw [Gool.next, h.running, if_neg Bool.false_ne_true]
  split
  · rename_i p hp
    rw [State.peer] at hp
    split at hp
    · obtain ⟨i, hi, hapart, -⟩ := h.pair p hp
      rw [hi]
      exact h.blacklist.attempt hapart
    · cases hp
  · exact (rescan_spec h.blacklist pass).1

/-- A pass keeps the law exactly if its scan does not come back to what is blacklisted. -/
theorem lawful_next (h : Inv s) (hlawful : Lawful s) (pass : Pass) :
    Lawful (next env primary pass s) ↔ ScansAway env primary pass s := by
  rw [Gool.next, h.running, if_neg Bool.false_ne_true, ScansAway]
  split
  · rename_i p hp
    rw [hp]
    rw [State.peer] at hp
    split at hp
    · rename_i hfew
      obtain ⟨i, hi, hapart, hnothing⟩ := h.pair p hp
      have hsame : Gool.blacklist s = s := by rw [Gool.blacklist, if_pos hfew]
      rw [hi, hsame, lawful_attempt hapart, hnothing hfew]
      exact ⟨fun _ hnone => absurd hnone (Option.some_ne_none _), fun _ => ⟨hlawful, List.not_mem_nil⟩⟩
    · cases hp
  · rename_i hp
    rw [(rescan_spec h.blacklist pass).2, lawful_blacklist, and_iff_right hlawful]
    exact ⟨fun hall _ => hall, fun hall => hall hp⟩

end Step

theorem Inv.initial : Inv {} := ⟨rfl, fun _ h => by cases h⟩

/-- In every run of the loop, each pair that is used has two addresses and an outer hop that was not
blacklisted since the last pair, in every state that is reached, exactly if no scan that is made
while an endpoint is blacklisted finds it quickest of at least two. -/
theorem pairs_lawful_iff (env : Env) (primary : Identity) (passes : List Pass) :
    (∀ s ∈ visited (next env primary) {} passes, Lawful s) ↔
      Along (next env primary) (ScansAway env primary) {} passes := by
  have hinv (pass : Pass) (s : State) (h : Inv s) : Inv (next env primary pass s) := h.next pass
  have hstep (pass : Pass) (s : State) (h : Inv s) (hlawful : Lawful s) :
      Lawful (next env primary pass s) ↔ ScansAway env primary pass s := lawful_next h hlawful pass
  have hinit : Lawful {} := .nil
  exact visited_iff_along hinv hstep .initial hinit passes

/-! ### An endpoint that is used again -/

/-- Two ranges of the user, of one endpoint each. -/
def twoEndpoints : Env := fun key =>
  if key = "AETHER_WG_CIDRS" then some "162.159.192.1 162.159.195.1"
  else if key = "AETHER_SCAN" then some "turbo"
  else none

def device : Identity where
  deviceId := "device-1"
  accessToken := "token-1"
  certPem := []
  keyPem := []
  certIssuedAt := 0
  ipv4 := "172.16.0.2"
  ipv6 := ""
  wgPrivateKey := List.Vector.replicate 32 1
  wgPeerPublicKey := List.Vector.replicate 32 2
  clientId := List.Vector.replicate 3 0
  organization := ""
  gatewayProxy := ""
  assignedEndpoint := ""
  refused := false

/-- Both endpoints answer, the first one sooner. -/
def bothAnswer : Pass where
  probing := {turns := [{waited := .verified 0 20}, {waited := .verified 1 30}]}

/-- Two tunnels end, the outer endpoint is blacklisted, and the next pair is the same. -/
theorem blacklisted_again :
    (run (next twoEndpoints device) {} [bothAnswer, {}, bothAnswer]).log =
      [.used (.v4 (Rust.ipv4 162 159 192 1) 2408) (.v4 (Rust.ipv4 162 159 195 1) 500),
        .used (.v4 (Rust.ipv4 162 159 192 1) 2408) (.v4 (Rust.ipv4 162 159 195 1) 500),
        .blacklisted (.v4 (Rust.ipv4 162 159 192 1) 2408),
        .used (.v4 (Rust.ipv4 162 159 192 1) 2408) (.v4 (Rust.ipv4 162 159 195 1) 500)] := by
  decide +kernel

end Aether.Engine.Gool
