import Aether.Rust.Collections
import Aether.Rust.Parse
import Aether.Scan.Mode

/-! The addresses of a range, enumerated or sampled.

Addresses are added as the release build adds them, around the end of the address space. A
sample is given by the draws that made it: a draw that names an address again is not used. -/
namespace Aether.Scan
open Profile (Env)
open Rust (firstOfEach parseIpv4 parseIpv6 parseUnsigned showUnsigned splitOnce trim)

def parseCidrV4 (cidr : String) : Option (BitVec 32 × Nat) := do
  let (ip, length) ← splitOnce '/' cidr
  some (← parseIpv4 ip, ← parseUnsigned 8 length)

def enumerateCidrV4 (cidr : String) : List (BitVec 32) :=
  match parseCidrV4 cidr with
  | none => []
  | some (base, length) =>
    let hostBits := 32 - length
    if hostBits = 0 then [base]
    else if 12 < hostBits then []
    else (List.range' 1 (2 ^ hostBits - 2)).map fun off => base + BitVec.ofNat 32 off

/-- `sample_cidr_v4`; the draws are those up to the one that completes the sample. -/
def sampleCidrV4 (cidr : String) (n : Nat) (draws : List Nat) : List (BitVec 32) :=
  match parseCidrV4 cidr with
  | none => []
  | some (base, length) =>
    let hostBits := 32 - length
    let size := if 32 ≤ hostBits then 2 ^ 32 - 1 else 2 ^ hostBits
    if size ≤ 2 then [base]
    else
      let usable := size - 2
      let want := min (n % 2 ^ 32) usable
      let chosen := firstOfEach id [] (draws.map fun draw => 1 + draw % usable)
      (chosen.take want).map fun off => base + BitVec.ofNat 32 off

def parseCidrV6 (cidr : String) : Option (BitVec 128 × Nat) := do
  let (ip, length) ← splitOnce '/' cidr
  some (← parseIpv6 ip, ← parseUnsigned 8 length)

/-- `sample_cidr_v6`; a draw is the range it takes the embedded address from and 32 bits. -/
def sampleCidrV6 (cidr : String) (n : Nat) (v4Cidrs : List String) (draws : Nat → Nat × BitVec 32) :
    List (BitVec 128) :=
  match parseCidrV6 cidr with
  | none => []
  | some (base, length) =>
    if 128 - length = 0 then [base]
    else
      let v4 := v4Cidrs.filterMap parseCidrV4
      (List.range n).map fun i =>
        let (which, bits) := draws i
        let embedded := match v4[which % v4.length]? with
          | none => bits
          | some (b, p) =>
            let hostBits := 32 - p
            b ||| if hostBits = 0 then 0 else bits &&& ((1#32 <<< (hostBits % 32)) - 1)
        base ||| embedded.setWidth 128

/-- The ranges in turn, so that no single one takes the whole scan. -/
def interleave {α : Type} (hosts : List (List α)) : List α :=
  let maxLen := (hosts.map List.length).max?.getD 0
  (List.range maxLen).flatMap fun i => hosts.filterMap (·[i]?)

/-! ### Ranges of the user -/

/-- `app_normalize_cidr_v4`. -/
def appNormalizeCidrV4 (raw : String) : Option String :=
  let v := trim raw
  if v.isEmpty then none
  else
    match splitOnce '/' v with
    | some (ip, length) => do
      let addr ← parseIpv4 (trim ip)
      let bits ← parseUnsigned 8 (trim length)
      if 32 < bits then none else some (Rust.IpAddr.showV4 addr ++ "/" ++ showUnsigned bits)
    | none =>
      if Rust.endsWith ".x" v || Rust.endsWith ".X" v || Rust.endsWith ".*" v then do
        let addr ← parseIpv4 (String.ofList v.toList.dropLast ++ "0")
        some (Rust.IpAddr.showV4 addr ++ "/24")
      else do
        let addr ← parseIpv4 v
        some (Rust.IpAddr.showV4 addr ++ "/32")

/-- The ranges of a scanner's own variable, else those of `AETHER_SCAN_CIDRS`. -/
def customCidrsV4 (own : String) (env : Env) : Option (List String) := do
  let given (name : String) := (env name).filter fun s => !(trim s).isEmpty
  let raw ← (given own).or (given "AETHER_SCAN_CIDRS")
  let list := (raw.toList.splitOnP (· ∈ [',', ';', ' ', '\n'])).filterMap (appNormalizeCidrV4 ∘ String.ofList)
  if list.isEmpty then none else some list

/-- `custom_wg_cidrs_v4`. -/
def customWgCidrsV4 (env : Env) : Option (List String) := customCidrsV4 "AETHER_WG_CIDRS" env

def zeroTrustMode (env : Env) : Bool := ((env "AETHER_TEAM").map fun team => !(trim team).isEmpty).getD false

/-- `prioritize`. -/
def prioritize (env : Env) (all first : List String) : List String :=
  if !zeroTrustMode env then all
  else
    all.foldl (fun out entry => if entry ∈ out then out else out ++ [entry]) (first.filter (· ∈ all))

end Aether.Scan
