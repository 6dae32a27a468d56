import Aether.Profile.Arguments
import Aether.Rust.Text

/-! How hard a scan looks, and for which addresses.

Both are texts of the environment, or answers at the prompt where the environment does not
name them; every text means something. The two scanners read them alike: `ScanMode` is the
`ScanMode` of the one and the `WgScanMode` of the other. -/
namespace Aether.Scan
open Profile (Env)
open Rust (trim toLowercase)

inductive ScanMode where
  | turbo
  | balanced
  | thorough
  | stealth
  | ironclad
  deriving DecidableEq, Repr

def ScanMode.parse (s : String) : ScanMode :=
  match toLowercase (trim s) with
  | "turbo" | "fast" => turbo
  | "thorough" | "deep" | "pro" => thorough
  | "stealth" | "quiet" => stealth
  | "ironclad" | "real" | "verify" | "guaranteed" => ironclad
  | _ => balanced

inductive IpScan where
  | v4
  | v6
  | both
  deriving DecidableEq, Repr

namespace IpScan

def parse (s : String) : IpScan :=
  match toLowercase (trim s) with
  | "6" | "v6" | "ipv6" => v6
  | "both" | "all" | "dual" => both
  | _ => v4

def wantV4 : IpScan → Bool
  | v4 | both => true
  | v6 => false

def wantV6 : IpScan → Bool
  | v6 | both => true
  | v4 => false

end IpScan

/-- What the prompts answer, where there is someone to ask. -/
structure Answers where
  scan : Option String := none
  ip : Option String := none
  reconnect : Option String := none

/-- `select_scan_mode_str`. -/
def selectScanModeStr (env : Env) (answers : Answers) : String :=
  match env "AETHER_SCAN" with
  | some v => v
  | none =>
    match answers.scan with
    | some "1" => "turbo"
    | some "3" => "thorough"
    | some "4" => "stealth"
    | some "5" => "ironclad"
    | _ => "balanced"

def selectIpVersion (env : Env) (answers : Answers) : IpScan :=
  match env "AETHER_IP" with
  | some v => .parse v
  | none =>
    match answers.ip with
    | some "2" => .v6
    | some "3" => .both
    | _ => .v4

/-- No text at all is the default. -/
theorem parse_empty : ScanMode.parse "" = .balanced := by decide +kernel

/-! ### Strategies -/

/-- Durations are in nanoseconds. -/
def secs (n : Nat) : Nat := n * 1000000000

/-- `WgStrategy`. -/
structure WgStrategy where
  overallDeadline : Nat
  quietAfterFirst : Nat
  targetSuccesses : Nat
  earlyExitFirst : Bool
  fullSubnet : Bool
  samplePerCidr : Nat
  poolPortWaves : Nat

/-- `WgScanMode::strategy`. -/
def ScanMode.strategy : ScanMode → WgStrategy
  | turbo => {
      overallDeadline := secs 30
      quietAfterFirst := secs 0
      targetSuccesses := 1
      earlyExitFirst := true
      fullSubnet := false
      samplePerCidr := 40
      poolPortWaves := 1 }
  | balanced => {
      overallDeadline := secs 80
      quietAfterFirst := secs 12
      targetSuccesses := 5
      earlyExitFirst := false
      fullSubnet := false
      samplePerCidr := 120
      poolPortWaves := 3 }
  | thorough => {
      overallDeadline := secs 250
      quietAfterFirst := secs 25
      targetSuccesses := 0
      earlyExitFirst := false
      fullSubnet := true
      samplePerCidr := 0
      poolPortWaves := 4 }
  | stealth => {
      overallDeadline := secs 150
      quietAfterFirst := secs 20
      targetSuccesses := 3
      earlyExitFirst := false
      fullSubnet := false
      samplePerCidr := 50
      poolPortWaves := 2 }
  | ironclad => {
      overallDeadline := secs 180
      quietAfterFirst := secs 15
      targetSuccesses := 3
      earlyExitFirst := false
      fullSubnet := false
      samplePerCidr := 120
      poolPortWaves := 3 }

end Aether.Scan
