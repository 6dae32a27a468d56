import Aether.Scan.Cidr

/-! The scanner for WireGuard endpoints.

`buildWgCandidates` lists what is probed: the known addresses, then the sampled ones, each
on a port of its own in every wave, without the endpoints that are excluded. `huntWgEndpoints`
takes the answers in the order in which they come and picks the quickest of each address
(`huntWgEndpoints_ok`). -/
namespace Aether.Scan
open Profile (Env)
open Rust (IpAddr SocketAddr firstOfEach sortByKey parseIpv4 parseIpv6)

def wgPrefixesV4 : List String :=
  ["162.159.192.0/24", "162.159.195.0/24", "188.114.96.0/24", "188.114.97.0/24", "188.114.98.0/24",
    "188.114.99.0/24", "162.159.193.0/24"]

def wgPrefixesV6 : List String := ["2606:4700:d0::/64", "2606:4700:d1::/64", "2606:4700:100::/48"]

def wgZtPrefixesV4 : List String := ["162.159.193.0/24"]

def wgZtPrefixesV6 : List String := ["2606:4700:100::/48"]

def wgPorts : List UInt16 :=
  [2408, 500, 1701, 4500, 854, 859, 864, 878, 880, 890, 891, 894, 903, 908, 928, 934, 939, 942, 943, 945,
    946, 955, 968, 987, 988, 1002, 1010, 1014, 1018, 1070, 1074, 1180, 1387, 1843, 2371, 2506, 3138, 3476,
    3581, 3854, 4177, 4198, 4233, 5279, 5956, 7103, 7152, 7156, 7281, 7559, 8319, 8742, 8854, 8886]

def wgSeedsV4 : List String :=
  ["162.159.192.1", "162.159.195.1", "188.114.96.1", "188.114.97.1", "162.159.193.1"]

def wgSeedsV6 : List String :=
  ["2606:4700:d0::a29f:c001", "2606:4700:d1::a29f:c001", "2606:4700:d0::a29f:c301", "2606:4700:d0::bc72:6001"]

/-! ### Candidates -/

/-- What the random generator draws, by the number of the range. -/
structure Dice where
  v4 : Nat → List Nat := fun _ => []
  v6 : Nat → Nat → Nat × BitVec 32 := fun _ _ => (0, 0)

section Candidates
variable (env : Env) (st : WgStrategy) (ports : List UInt16) (dice : Dice)

/-- The hosts of every range of the fourth version. -/
def hostsV4 (cidrs : List String) : List (List (BitVec 32)) :=
  cidrs.mapIdx fun i c => if st.fullSubnet then enumerateCidrV4 c else sampleCidrV4 c st.samplePerCidr (dice.v4 i)

/-- The ports to try, the first of equal ones; the default where there are none. -/
def distinctPorts : List UInt16 :=
  match firstOfEach id [] ports with
  | [] => [2408]
  | deduped => deduped

/-- Every wave tries every address, on the next port. -/
def waves (ips : List IpAddr) : List (IpAddr × UInt16) :=
  (List.range (max st.poolPortWaves 1)).flatMap fun wave =>
    ips.zipIdx.map fun (ip, idx) => (ip, ports.getD ((idx + wave) % ports.length) 0)

/-- What is pushed: no endpoint that is excluded, and none twice. -/
def pushed (excluded : SocketAddr → Bool) (tried : List (IpAddr × UInt16)) : List (IpAddr × UInt16) :=
  firstOfEach id [] (tried.filter fun (ip, port) => !excluded (.new ip port))

def manualWgCandidates (cidrs : List String) (excluded : SocketAddr → Bool) : List (IpAddr × UInt16) :=
  let ips := (interleave (hostsV4 st dice cidrs)).map IpAddr.v4
  let ports := if ports.isEmpty then [2408] else ports
  pushed excluded (waves st ports ips)

/-- The known addresses. -/
def anchors (ip : IpScan) : List IpAddr :=
  (if ip.wantV4 then (prioritize env wgSeedsV4 ["162.159.193.1"]).filterMap fun s => (parseIpv4 s).map .v4 else []) ++
    if ip.wantV6 then wgSeedsV6.filterMap fun s => (parseIpv6 s).map .v6 else []

/-- The sampled addresses. -/
def pool (ip : IpScan) : List IpAddr :=
  (if ip.wantV4 then (interleave (hostsV4 st dice (prioritize env wgPrefixesV4 wgZtPrefixesV4))).map .v4 else []) ++
    if ip.wantV6 then
      let per := if st.samplePerCidr = 0 then 80 else st.samplePerCidr
      let cidr6 := (prioritize env wgPrefixesV6 wgZtPrefixesV6).mapIdx fun i c =>
        sampleCidrV6 c per wgPrefixesV4 (dice.v6 i)
      (interleave cidr6).map .v6
    else []

def buildWgCandidates (ip : IpScan) (excluded : SocketAddr → Bool) : List (IpAddr × UInt16) :=
  let ports := distinctPorts ports
  match if ip.wantV4 then customWgCidrsV4 env else none with
  | some cidrs => manualWgCandidates st ports dice cidrs excluded
  | none => pushed excluded (waves st ports (anchors env ip ++ pool env st dice ip))

theorem mem_pushed {excluded : SocketAddr → Bool} {tried : List (IpAddr × UInt16)} {c : IpAddr × UInt16} :
    c ∈ pushed excluded tried ↔ c ∈ tried ∧ excluded (.new c.1 c.2) = false := by
  rw [pushed, Rust.mem_firstOfEach_id, List.mem_filter, Bool.not_eq_true']

/-- The candidates are those of a scan without exclusions that are not excluded. -/
theorem mem_buildWgCandidates {ip : IpScan} {excluded : SocketAddr → Bool} {c : IpAddr × UInt16} :
    c ∈ buildWgCandidates env st ports dice ip excluded ↔
      c ∈ buildWgCandidates env st ports dice ip (fun _ => false) ∧ excluded (.new c.1 c.2) = false := by
  have hpushed : ∀ tried, c ∈ pushed excluded tried ↔
      c ∈ pushed (fun _ => false) tried ∧ excluded (.new c.1 c.2) = false := by
    intro tried
    rw [mem_pushed, mem_pushed]
    constructor
    · exact fun ⟨htried, hout⟩ => ⟨⟨htried, rfl⟩, hout⟩
    · exact fun ⟨⟨htried, _⟩, hout⟩ => ⟨htried, hout⟩
  rw [buildWgCandidates, buildWgCandidates]
  cases (if ip.wantV4 then customWgCidrsV4 env else none) with
  | none => exact hpushed _
  | some cidrs => exact hpushed _

end Candidates

/-! ### The hunt -/

structure WgProbeResult where
  ip : IpAddr
  port : UInt16
  rtt : Nat
  deriving DecidableEq, Repr

def WgProbeResult.address (pr : WgProbeResult) : SocketAddr := .new pr.ip pr.port

def distinctByIp (found : List WgProbeResult) : List WgProbeResult :=
  firstOfEach WgProbeResult.ip [] (sortByKey WgProbeResult.rtt found)

/-- What a turn of the loop waits for. -/
inductive Waited where
  /-- The probe of a candidate answers with a round trip time. -/
  | verified (candidate rtt : Nat)
  /-- A probe fails. -/
  | failed
  /-- There are no more probes. -/
  | finished
  /-- The time that remained has passed. -/
  | slept
  deriving DecidableEq, Repr

/-- A turn of the loop: the readings of the clock before and after it waits, from the start of
the scan, and what came. -/
structure ProbeTurn where
  now : Nat := 0
  waited : Waited
  later : Nat := 0

/-- What a scan meets: whether there is a route of the sixth version, the draws, the turns of the
loop and how long it takes in all. -/
structure Probing where
  hasIpv6 : Bool := true
  dice : Dice := {}
  turns : List ProbeTurn := []
  took : Nat := 0

/-- How the loop ends: at once with the first answer, or with all that was verified. -/
inductive HuntEnd where
  | early (pr : WgProbeResult)
  | verified (found : List WgProbeResult)

/-- When the loop ends by itself: at the deadline, or when the quiet after the last success is over. -/
def effectiveEnd (st : WgStrategy) (quietUntil : Option Nat) : Nat :=
  match quietUntil with
  | some q => min q st.overallDeadline
  | none => st.overallDeadline

/-- The loop of `hunt_wg_endpoints`. Where no more turns are given, the deadline passes. -/
def huntLoop (st : WgStrategy) (want : Nat) (candidates : List (IpAddr × UInt16)) :
    (verified : List WgProbeResult) → (quietUntil : Option Nat) → List ProbeTurn → HuntEnd
  | verified, _, [] => .verified verified
  | verified, quietUntil, t :: rest =>
    if effectiveEnd st quietUntil ≤ t.now then .verified verified
    else
      match t.waited with
      | .finished | .slept => .verified verified
      | .failed => huntLoop st want candidates verified quietUntil rest
      | .verified i rtt =>
        match candidates[i]? with
        | none => huntLoop st want candidates verified quietUntil rest
        | some (ip, port) =>
          let pr : WgProbeResult := {ip, port, rtt}
          if st.earlyExitFirst then .early pr
          else
            -- as many as were found so far
            let verified := verified ++ [pr]
            if want ≤ (distinctByIp verified).length ∧ 1 < want then .verified verified
            else if 0 < st.targetSuccesses ∧ st.targetSuccesses ≤ verified.length ∧ quietUntil = none then
              if st.quietAfterFirst ≠ 0 then
                huntLoop st want candidates verified (some (t.later + st.quietAfterFirst)) rest
              else .verified verified
            else huntLoop st want candidates verified quietUntil rest

/-- The addresses that a scan looks for, where there may be no route of the sixth version. -/
def effectiveIp (ip : IpScan) (hasIpv6 : Bool) : Option IpScan :=
  if ip.wantV6 && !hasIpv6 then if ip.wantV4 then some .v4 else none else some ip

section Hunt
variable (env : Env) (ports : List UInt16) (mode : ScanMode) (ip : IpScan)

/-- The candidates of a scan. -/
def scanCandidates (excluded : SocketAddr → Bool) (p : Probing) : List (IpAddr × UInt16) :=
  match effectiveIp ip p.hasIpv6 with
  | none => []
  | some ip => buildWgCandidates env mode.strategy ports p.dice ip excluded

/-- `hunt_wg_endpoints`; nothing stands for `NoCleanEndpoint`. -/
def huntWgEndpoints (excluded : SocketAddr → Bool) (want : Nat) (p : Probing) : Option (List WgProbeResult) :=
  let want := max want 1
  let st := mode.strategy
  match effectiveIp ip p.hasIpv6 with
  | none => none
  | some ip =>
    let candidates := buildWgCandidates env st ports p.dice ip excluded
    let st := if 1 < want then
      {st with earlyExitFirst := false, targetSuccesses := max st.targetSuccesses (want * 3)} else st
    match huntLoop st want candidates [] none p.turns with
    | .early pr => some [pr]
    | .verified found =>
      let picked := distinctByIp found
      if picked.isEmpty then none else some (picked.take want)

/-- `hunt_best_wg_endpoint`. -/
def huntBestWgEndpoint (excluded : SocketAddr → Bool) (p : Probing) : Option WgProbeResult :=
  (huntWgEndpoints env ports mode ip excluded 1 p).bind List.head?

end Hunt

/-! ### What is found -/

/-- What came out of candidates. -/
def FoundAmong (candidates : List (IpAddr × UInt16)) (found : List WgProbeResult) : Prop :=
  ∀ pr ∈ found, (pr.ip, pr.port) ∈ candidates

def HuntEnd.FoundAmong (candidates : List (IpAddr × UInt16)) : HuntEnd → Prop
  | early pr => (pr.ip, pr.port) ∈ candidates
  | verified found => Scan.FoundAmong candidates found

theorem huntLoop_foundAmong (st : WgStrategy) (want : Nat) (candidates : List (IpAddr × UInt16))
    (turns : List ProbeTurn) : ∀ {verified : List WgProbeResult} (quietUntil : Option Nat),
    FoundAmong candidates verified → (huntLoop st want candidates verified quietUntil turns).FoundAmong candidates := by
  induction turns with
  | nil => exact fun _ h => h
  | cons t rest ih =>
    intro verified quietUntil h
    rw [huntLoop.eq_def]
    dsimp only
    split
    · exact h
    · split
      · exact h
      · exact h
      · exact ih _ h
      · rename_i i rtt _
        cases hc : candidates[i]? with
        | none => exact ih _ h
        | some c =>
          have hmem : c ∈ candidates := List.mem_of_getElem? hc
          have hmore : FoundAmong candidates (verified ++ [{ip := c.1, port := c.2, rtt}]) := by
            intro pr hpr
            rcases List.mem_append.mp hpr with hpr | hpr
            · exact h pr hpr
            · rw [List.mem_singleton.mp hpr]
              exact hmem
          dsimp only
          split
          · exact hmem
          · split
            · exact hmore
            · split
              · split
                · exact ih _ hmore
                · exact hmore
              · exact ih _ hmore

theorem mem_distinctByIp {found : List WgProbeResult} {pr : WgProbeResult} (h : pr ∈ distinctByIp found) :
    pr ∈ found :=
  Rust.mem_sortByKey.mp ((Rust.firstOfEach_sublist _ _ _).mem h)

/-- What a hunt gives are candidates of its scan, with an address each; there is at least one. -/
theorem huntWgEndpoints_ok {env : Env} {ports : List UInt16} {mode : ScanMode} {ip : IpScan}
    {excluded : SocketAddr → Bool} {want : Nat} {p : Probing} {found : List WgProbeResult}
    (h : huntWgEndpoints env ports mode ip excluded want p = some found) :
    FoundAmong (scanCandidates env ports mode ip excluded p) found ∧
      found.Pairwise (fun a b => a.ip ≠ b.ip) ∧ found ≠ [] := by
  rw [huntWgEndpoints] at h
  dsimp only at h
  rw [scanCandidates]
  cases hip : effectiveIp ip p.hasIpv6 with
  | none =>
    rw [hip] at h
    cases h
  | some effective =>
    rw [hip] at h
    dsimp only at h ⊢
    generalize hst : (if 1 < max want 1 then _ else mode.strategy) = st at h
    have hloop := huntLoop_foundAmong st (max want 1)
      (buildWgCandidates env mode.strategy ports p.dice effective excluded) p.turns none
      (fun _ hpr => absurd hpr List.not_mem_nil)
    cases hend : huntLoop st (max want 1) (buildWgCandidates env mode.strategy ports p.dice effective excluded) [] none
        p.turns with
    | early pr =>
      rw [hend] at h hloop
      cases h
      refine ⟨fun q hq => ?_, List.pairwise_singleton _ _, List.cons_ne_nil _ _⟩
      rw [List.mem_singleton.mp hq]
      exact hloop
    | verified all =>
      rw [hend] at h hloop
      dsimp only at h
      split at h
      · cases h
      · rename_i hsome
        cases h
        refine ⟨fun q hq => hloop q (mem_distinctByIp (List.mem_of_mem_take hq)), ?_, ?_⟩
        · exact (Rust.firstOfEach_pairwise _ _ _).sublist (List.take_sublist _ _)
        · intro hnil
          rcases List.take_eq_nil_iff.mp hnil with hzero | hnil
          · omega
          · exact hsome (List.isEmpty_iff.mpr hnil)

/-- No candidate of a scan is excluded. -/
theorem mem_scanCandidates {env : Env} {ports : List UInt16} {mode : ScanMode} {ip : IpScan}
    {excluded : SocketAddr → Bool} {p : Probing} {c : IpAddr × UInt16} :
    c ∈ scanCandidates env ports mode ip excluded p ↔
      c ∈ scanCandidates env ports mode ip (fun _ => false) p ∧ excluded (.new c.1 c.2) = false := by
  rw [scanCandidates, scanCandidates]
  cases effectiveIp ip p.hasIpv6 with
  | none => exact ⟨fun h => absurd h List.not_mem_nil, fun h => absurd h.1 List.not_mem_nil⟩
  | some ip => exact mem_buildWgCandidates ..

end Aether.Scan
