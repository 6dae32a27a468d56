import Aether.Kotlin.SortedWith
import Aether.Profile.Arguments
import Aether.Rust.Collections
import Aether.Vpn.Service

/-! The ladder of Smart Auto.

`buildPlan` turns what the probes found out about the network into an ordered list of
candidates. Each rung is the user's profile with a strategy laid over it: the protocol of the
rung and, where it asks for more than the user did, obfuscation, HTTP/2, fragmentation and
ECH; a user who leaves the endpoint open gets the two ranges that answered fastest. The last
resort is the first rung again with the user's own scan mode and the full ranges.

`Respects` is what a rung owes the user, and `cand` pays it (`respects_cand`). -/
namespace Aether.Vpn
open Profile Kotlin EnumClass

deriving instance DecidableEq for ConnectionProfile

/-- How hostile the filtering of the network looks. -/
inductive DpiClass where
  /-- `OPEN`. -/
  | openNetwork
  | sniFiltering
  | udpThrottled
  | hostile
  deriving DecidableEq, Repr

/-- What `buildPlan` reads of what Smart Auto learned about the network. -/
structure NetworkFingerprint where
  dpiClass : DpiClass
  /-- Cellular, in Iran. -/
  iranCellular : Bool
  /-- The latency of each range in milliseconds; negative where it is unreachable. -/
  edgeLatencyMs : List (String × Int)

structure AutoCandidate where
  profile : ConnectionProfile
  timeoutMs : Nat
  label : String

end Aether.Vpn

namespace Aether.Profile.ConnectionProfile

def connectTimeoutMs (p : ConnectionProfile) : Nat :=
  if p.hasManualPeer then 45000
  else
    match p.scanMode with
    | .turbo => 60000
    | .balanced => 150000
    | .stealth => 240000
    | .thorough => 300000
    | .ironclad => 360000

end Aether.Profile.ConnectionProfile

namespace Aether.Vpn
open Profile Kotlin EnumClass

/-- `ordinal`. -/
def ordinal (noize : Noize) : Nat := (entries : List Noize).idxOf noize

/-! ### The rungs -/

section Ladder
variable (user : ConnectionProfile) (fp : NetworkFingerprint)

/-- The ranges that answered, the fastest first. -/
def reachable : List (String × Int) :=
  sortedWith (fun a b => a.2 ≤ b.2) (fp.edgeLatencyMs.filter fun range => 0 ≤ range.2)

def bestRanges : String := String.intercalate ", " (((reachable fp).take 2).map Prod.fst)

/-- The user pinned an endpoint or a range. -/
def keepUserEndpoint : Bool := user.endpointMode != .auto

/-- The candidate is narrowed to the ranges that answered. -/
def narrows : Bool := !keepUserEndpoint user && !(bestRanges fp).isEmpty

/-- The user's obfuscation where it is the stronger one, and never none on Iranian cellular. -/
def mergedNoize (noize : Noize) : Noize :=
  let merged := if ordinal user.noize ≥ ordinal noize then user.noize else noize
  if merged = .off ∧ fp.iranCellular = true then .light else merged

/-- The profile of a candidate before it is narrowed. -/
def merged (proto : Protocol) (noize : Noize) (h2 frag ech : Bool) : ConnectionProfile :=
  {user with
    protocol := proto
    noize := mergedNoize user fp noize
    masqueHttp2 := user.masqueHttp2 || (h2 && proto == .masque)
    fragment := user.fragment || frag
    ech := user.ech || ech
    scanMode := .turbo}

/-- The profile of a candidate. -/
def candProfile (proto : Protocol) (noize : Noize) (h2 frag ech : Bool) : ConnectionProfile :=
  let p := merged user fp proto noize h2 frag ech
  if narrows user fp then {p with endpointMode := .manualRange, manualRange := bestRanges fp} else p

def candLabel (p : ConnectionProfile) : String :=
  name p.protocol ++ " · noize=" ++ asciiLowercase (name p.noize)
  ++ (if p.masqueHttp2 then " · h2" else "") ++ (if p.fragment then " · fragment" else "")
  ++ (if p.ech then " · ech" else "")
  ++ (if narrows user fp then " · ranges[" ++ bestRanges fp ++ "]" else "") ++ " · scan=turbo"

def cand (proto : Protocol) (noize : Noize) (h2 frag ech : Bool) : AutoCandidate :=
  let p := candProfile user fp proto noize h2 frag ech
  ⟨p, p.connectTimeoutMs, candLabel user fp p⟩

def ladder : List AutoCandidate :=
  match fp.dpiClass with
  | .openNetwork =>
    [cand user fp .wireguard .off false false false,
      cand user fp .masque .off false false false,
      cand user fp .gool .light false false false]
  | .sniFiltering =>
    [cand user fp .wireguard .balanced false false false,
      cand user fp .gool .balanced false false false,
      cand user fp .masque .firewall false true true]
  | .udpThrottled =>
    [cand user fp .masque .light true true true,
      cand user fp .gool .aggressive false false false,
      cand user fp .wireguard .gfw false false false]
  | .hostile =>
    [cand user fp .masque .gfw true true true,
      cand user fp .gool .aggressive false false false,
      cand user fp .wireguard .aggressive false false false]

theorem ladder_ne_nil : ladder user fp ≠ [] := by
  rw [ladder]
  split <;> exact List.cons_ne_nil _ _

/-- The profile of the last resort. -/
def fallbackProfile : ConnectionProfile :=
  let first := (ladder user fp).head (ladder_ne_nil user fp)
  let p := {first.profile with scanMode := user.scanMode}
  if keepUserEndpoint user then p else {p with endpointMode := .auto, manualRange := user.manualRange}

def fallback : AutoCandidate :=
  let p := fallbackProfile user fp
  ⟨p, p.connectTimeoutMs, name p.protocol ++ " · noize=" ++ asciiLowercase (name p.noize) ++
    " · full built-in ranges · scan=" ++ asciiLowercase (name user.scanMode) ++ " (last resort)"⟩

/-- The rungs and the last resort; `distinctBy` keeps the first of equal profiles. -/
def buildPlan : List AutoCandidate :=
  Rust.firstOfEach AutoCandidate.profile [] (ladder user fp ++ [fallback user fp])

end Ladder

/-! ### What a rung owes the user -/

/-- Nothing the user asked for is taken back, and nothing but the strategy differs. -/
structure Respects (user p : ConnectionProfile) : Prop where
  protocol : p.protocol ≠ .auto
  noize : ordinal user.noize ≤ ordinal p.noize
  masqueHttp2 : user.masqueHttp2 = true → p.masqueHttp2 = true
  fragment : user.fragment = true → p.fragment = true
  ech : user.ech = true → p.ech = true
  pinned : user.endpointMode ≠ .auto → p.endpointMode = user.endpointMode ∧ p.manualRange = user.manualRange
  frame : p = {user with
    protocol := p.protocol
    noize := p.noize
    masqueHttp2 := p.masqueHttp2
    fragment := p.fragment
    ech := p.ech
    scanMode := p.scanMode
    endpointMode := p.endpointMode
    manualRange := p.manualRange}

section
variable {user : ConnectionProfile} {fp : NetworkFingerprint}

theorem ordinal_mergedNoize (noize : Noize) : ordinal user.noize ≤ ordinal (mergedNoize user fp noize) := by
  have hmerged : ordinal user.noize ≤ ordinal (if ordinal user.noize ≥ ordinal noize then user.noize else noize) := by
    split <;> omega
  rw [mergedNoize]
  generalize (if ordinal user.noize ≥ ordinal noize then user.noize else noize) = merged at hmerged ⊢
  split
  · rename_i h
    rw [h.1] at hmerged
    exact Nat.le_trans hmerged (Nat.zero_le _)
  · exact hmerged

theorem respects_merged {proto : Protocol} (hproto : proto ≠ .auto) (noize : Noize) (h2 frag ech : Bool) :
    Respects user (merged user fp proto noize h2 frag ech) where
  protocol := hproto
  noize := ordinal_mergedNoize noize
  masqueHttp2 h := by rw [merged, h]; rfl
  fragment h := by rw [merged, h]; rfl
  ech h := by rw [merged, h]; rfl
  pinned _ := ⟨rfl, rfl⟩
  frame := rfl

/-- The scan mode may be any, and a user without a pinned endpoint may be given any. -/
theorem Respects.scanned {p : ConnectionProfile} (h : Respects user p) (mode : ScanMode) :
    Respects user {p with scanMode := mode} where
  protocol := h.protocol
  noize := h.noize
  masqueHttp2 := h.masqueHttp2
  fragment := h.fragment
  ech := h.ech
  pinned := h.pinned
  frame := congrArg (fun q : ConnectionProfile => {q with scanMode := mode}) h.frame

theorem Respects.placed {p : ConnectionProfile} (h : Respects user p) (hkeep : keepUserEndpoint user = false)
    (mode : EndpointMode) (range : String) : Respects user {p with endpointMode := mode, manualRange := range} where
  protocol := h.protocol
  noize := h.noize
  masqueHttp2 := h.masqueHttp2
  fragment := h.fragment
  ech := h.ech
  pinned hpinned := absurd (by simpa [keepUserEndpoint] using hkeep) hpinned
  frame := congrArg (fun q : ConnectionProfile => {q with endpointMode := mode, manualRange := range}) h.frame

theorem respects_cand {proto : Protocol} (hproto : proto ≠ .auto) (noize : Noize) (h2 frag ech : Bool) :
    Respects user (cand user fp proto noize h2 frag ech).profile := by
  show Respects user (candProfile user fp proto noize h2 frag ech)
  rw [candProfile]
  have hmerged : Respects user (merged user fp proto noize h2 frag ech) := respects_merged hproto ..
  split
  · rename_i hnarrows
    rw [narrows, Bool.and_eq_true, Bool.not_eq_true'] at hnarrows
    exact hmerged.placed hnarrows.1 ..
  · exact hmerged

/-- Every rung is a candidate of a protocol. -/
theorem ladder_cand {c : AutoCandidate} (h : c ∈ ladder user fp) :
    ∃ proto noize h2 frag ech, proto ≠ .auto ∧ c = cand user fp proto noize h2 frag ech := by
  rw [ladder] at h
  split at h <;> simp only [List.mem_cons, List.not_mem_nil, or_false] at h <;> rcases h with rfl | rfl | rfl <;>
    refine ⟨_, _, _, _, _, ?_, rfl⟩ <;> decide

theorem respects_ladder : ∀ c ∈ ladder user fp, Respects user c.profile := by
  intro c hc
  obtain ⟨proto, noize, h2, frag, ech, hproto, rfl⟩ := ladder_cand hc
  exact respects_cand hproto ..

theorem respects_fallback : Respects user (fallback user fp).profile := by
  show Respects user (fallbackProfile user fp)
  rw [fallbackProfile]
  have hscanned := (respects_ladder _ (List.head_mem (ladder_ne_nil user fp))).scanned user.scanMode
  split
  · exact hscanned
  · rename_i hkeep
    exact hscanned.placed (by simpa using hkeep) ..

theorem scanMode_fallback : (fallback user fp).profile.scanMode = user.scanMode := by
  show (fallbackProfile user fp).scanMode = _
  rw [fallbackProfile]
  split <;> rfl

theorem endpointMode_fallback (h : user.endpointMode = .auto) : (fallback user fp).profile.endpointMode = .auto := by
  have hkeep : keepUserEndpoint user = false := by rw [keepUserEndpoint, h]; rfl
  show (fallbackProfile user fp).endpointMode = _
  rw [fallbackProfile, hkeep]
  rfl

end

/-! ### The plans -/

/-- The strategy of a rung. -/
def Strategy.of (p : ConnectionProfile) : Strategy where
  protocol := p.protocol
  scanMode := p.scanMode
  masqueHttp2 := p.masqueHttp2
  noize := p.noize
  endpointMode := p.endpointMode
  manualRange := p.manualRange
  fragment := p.fragment
  ech := p.ech

theorem Respects.candidate {user p : ConnectionProfile} (h : Respects user p) : (Strategy.of p).candidate user = p :=
  h.frame.symm

theorem respects_buildPlan {user : ConnectionProfile} {fp : NetworkFingerprint} :
    ∀ c ∈ buildPlan user fp, Respects user c.profile := by
  intro c hc
  rcases List.mem_append.mp ((Rust.firstOfEach_sublist ..).subset hc) with hc | hc
  · exact respects_ladder c hc
  · rw [List.mem_singleton.mp hc]
    exact respects_fallback

/-- What the service walks is a list of strategies laid over the user's profile. -/
theorem buildPlan_candidates (user : ConnectionProfile) (fp : NetworkFingerprint) :
    (buildPlan user fp).map AutoCandidate.profile =
      ((buildPlan user fp).map fun c => Strategy.of c.profile).map (Strategy.candidate user) := by
  rw [List.map_map]
  apply List.map_congr_left
  intro c hc
  exact (respects_buildPlan c hc).candidate.symm

/-- `FIRST_PASS_MAX_MS` -/
def firstPassMaxMs : Nat := 75000

/-- `directPlan` with its budgets. -/
def directCandidates (p : ConnectionProfile) : List AutoCandidate :=
  let fullBudget := p.connectTimeoutMs
  let asConfigured := name p.protocol ++ " · as configured"
  if hardened p = p then [⟨p, fullBudget, asConfigured⟩]
  else
    [⟨p, min fullBudget firstPassMaxMs, asConfigured⟩,
      ⟨hardened p, fullBudget, name p.protocol ++ " · noize=" ++ asciiLowercase (name (hardened p).noize) ++
        (if p.protocol = .masque then " · h2 · fragment · ech" else "") ++ " (anti-DPI pass)"⟩]

theorem hardened_eq_self (p : ConnectionProfile) :
    hardened p = p ↔ (hardened p).noize = p.noize ∧ (hardened p).masqueHttp2 = p.masqueHttp2 ∧
      (hardened p).fragment = p.fragment ∧ (hardened p).ech = p.ech := by
  constructor
  · intro h
    rw [h]
    exact ⟨rfl, rfl, rfl, rfl⟩
  · intro h
    obtain ⟨hnoize, hh2, hfragment, hech⟩ := h
    have hframe : hardened p = {p with
      noize := (hardened p).noize
      masqueHttp2 := (hardened p).masqueHttp2
      fragment := (hardened p).fragment
      ech := (hardened p).ech} := rfl
    rw [hframe, hnoize, hh2, hfragment, hech]

theorem directCandidates_profiles (p : ConnectionProfile) :
    (directCandidates p).map AutoCandidate.profile = directPlan p := by
  rw [directCandidates, directPlan]
  by_cases h : hardened p = p
  · rw [if_pos h, if_pos ((hardened_eq_self p).mp h)]
    rfl
  · rw [if_neg h, if_neg fun heq => h ((hardened_eq_self p).mpr heq)]
    rfl

/-- **The ladder of Smart Auto respects the user's profile, for every fingerprint, and a plan for
a protocol picked by hand keeps to it.** -/
theorem plans_respect (user : ConnectionProfile) (fp : NetworkFingerprint) :
    buildPlan user fp ≠ [] ∧ ((buildPlan user fp).map AutoCandidate.profile).Nodup ∧
      (∀ c ∈ buildPlan user fp, Respects user c.profile) ∧
      (∃ c ∈ buildPlan user fp, c.profile.scanMode = user.scanMode ∧
        (user.endpointMode = .auto → c.profile.endpointMode = .auto)) ∧
      ((directCandidates user).map AutoCandidate.profile).head? = some user ∧
      ∀ c ∈ directCandidates user, c.profile.protocol = user.protocol := by
  have hlast : fallback user fp ∈ ladder user fp ++ [fallback user fp] :=
    List.mem_append_right _ (List.mem_singleton.mpr rfl)
  obtain ⟨c, hc, hprofile⟩ := Rust.exists_mem_firstOfEach AutoCandidate.profile hlast List.not_mem_nil
  refine ⟨List.ne_nil_of_mem hc, List.pairwise_map.mpr (Rust.firstOfEach_pairwise ..), respects_buildPlan, ⟨c, hc, ?_, ?_⟩, ?_, ?_⟩
  · rw [hprofile]
    exact scanMode_fallback
  · intro hauto
    rw [hprofile]
    exact endpointMode_fallback hauto
  · rw [directCandidates]
    split <;> rfl
  · intro d hd
    rw [directCandidates] at hd
    split at hd
    · rw [List.mem_singleton.mp hd]
    · rcases List.mem_pair.mp hd with rfl | rfl <;> rfl

end Aether.Vpn
