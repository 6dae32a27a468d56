import Aether.Kotlin.Text

/-! The connection profile.

`ConnectionProfile` is the record every other part of the app is configured by:
the UI edits it, the store keeps it, the codec carries it to the VPN service and
the service turns it into the engine's arguments. Its enumerations, fields and
defaults are the app's own, in the order of its declaration. -/
namespace Aether.Profile
open Kotlin (EnumClass)

/-- Transport protocol. -/
inductive Protocol where
  | auto | masque | wireguard | gool
  deriving DecidableEq, Repr

/-- Endpoint scanning strategy. -/
inductive ScanMode where
  | turbo | balanced | thorough | stealth | ironclad
  deriving DecidableEq, Repr

/-- IP family preference. -/
inductive IpVersion where
  | v4 | v6 | both
  deriving DecidableEq, Repr

/-- Anti-DPI obfuscation profile. -/
inductive Noize where
  | off | light | firewall | balanced | gfw | aggressive
  deriving DecidableEq, Repr

/-- Where the engine gets its endpoint from. -/
inductive EndpointMode where
  | auto | manualPeer | manualRange
  deriving DecidableEq, Repr

/-- Per-app tunneling policy. -/
inductive SplitMode where
  | off | include | exclude
  deriving DecidableEq, Repr

/-- How the device enrols into an organization. -/
inductive TeamAuth where
  | off | serviceToken | email | token
  deriving DecidableEq, Repr

/-- Engine core log verbosity. -/
inductive CoreLogLevel where
  | off | error | warn | info | debug
  deriving DecidableEq, Repr

/-- Psiphon egress country. -/
inductive PsiphonRegion where
  | auto | direct | us | de | gb | nl | fr | ca | jp | sg | ch | se | it | es | tr | pl | at | be
  | no | fi | ro | au | in | br | bg | cz | dk | ee | id | ie | lt | rs
  deriving DecidableEq, Repr

/-! ### The declared names -/

instance : EnumClass Protocol where
  entries := [.auto, .masque, .wireguard, .gool]
  name := fun
    | .auto => "AUTO"
    | .masque => "MASQUE"
    | .wireguard => "WIREGUARD"
    | .gool => "GOOL"
  mem_entries := by intro a; cases a <;> decide
  name_nodup := by decide
  name_oneLine := by decide

instance : EnumClass ScanMode where
  entries := [.turbo, .balanced, .thorough, .stealth, .ironclad]
  name := fun
    | .turbo => "TURBO"
    | .balanced => "BALANCED"
    | .thorough => "THOROUGH"
    | .stealth => "STEALTH"
    | .ironclad => "IRONCLAD"
  mem_entries := by intro a; cases a <;> decide
  name_nodup := by decide
  name_oneLine := by decide

instance : EnumClass IpVersion where
  entries := [.v4, .v6, .both]
  name := fun
    | .v4 => "V4"
    | .v6 => "V6"
    | .both => "BOTH"
  mem_entries := by intro a; cases a <;> decide
  name_nodup := by decide
  name_oneLine := by decide

instance : EnumClass Noize where
  entries := [.off, .light, .firewall, .balanced, .gfw, .aggressive]
  name := fun
    | .off => "OFF"
    | .light => "LIGHT"
    | .firewall => "FIREWALL"
    | .balanced => "BALANCED"
    | .gfw => "GFW"
    | .aggressive => "AGGRESSIVE"
  mem_entries := by intro a; cases a <;> decide
  name_nodup := by decide
  name_oneLine := by decide

instance : EnumClass EndpointMode where
  entries := [.auto, .manualPeer, .manualRange]
  name := fun
    | .auto => "AUTO"
    | .manualPeer => "MANUAL_PEER"
    | .manualRange => "MANUAL_RANGE"
  mem_entries := by intro a; cases a <;> decide
  name_nodup := by decide
  name_oneLine := by decide

instance : EnumClass SplitMode where
  entries := [.off, .include, .exclude]
  name := fun
    | .off => "OFF"
    | .include => "INCLUDE"
    | .exclude => "EXCLUDE"
  mem_entries := by intro a; cases a <;> decide
  name_nodup := by decide
  name_oneLine := by decide

instance : EnumClass CoreLogLevel where
  entries := [.off, .error, .warn, .info, .debug]
  name := fun
    | .off => "OFF"
    | .error => "ERROR"
    | .warn => "WARN"
    | .info => "INFO"
    | .debug => "DEBUG"
  mem_entries := by intro a; cases a <;> decide
  name_nodup := by decide
  name_oneLine := by decide

instance : EnumClass PsiphonRegion where
  entries := [.auto, .direct, .us, .de, .gb, .nl, .fr, .ca, .jp, .sg, .ch, .se, .it, .es, .tr, .pl,
    .at, .be, .no, .fi, .ro, .au, .in, .br, .bg, .cz, .dk, .ee, .id, .ie, .lt, .rs]
  name := fun
    | .auto => "AUTO"
    | .direct => "DIRECT"
    | .us => "US"
    | .de => "DE"
    | .gb => "GB"
    | .nl => "NL"
    | .fr => "FR"
    | .ca => "CA"
    | .jp => "JP"
    | .sg => "SG"
    | .ch => "CH"
    | .se => "SE"
    | .it => "IT"
    | .es => "ES"
    | .tr => "TR"
    | .pl => "PL"
    | .at => "AT"
    | .be => "BE"
    | .no => "NO"
    | .fi => "FI"
    | .ro => "RO"
    | .au => "AU"
    | .in => "IN"
    | .br => "BR"
    | .bg => "BG"
    | .cz => "CZ"
    | .dk => "DK"
    | .ee => "EE"
    | .id => "ID"
    | .ie => "IE"
    | .lt => "LT"
    | .rs => "RS"
  mem_entries := by intro a; cases a <;> decide
  name_nodup := by decide
  name_oneLine := by decide

/-! ### The profile -/

/-- `DEFAULT_MTU`. -/
def defaultMtu : Int32 := 1280

structure ConnectionProfile where
  protocol : Protocol := .auto
  scanMode : ScanMode := .turbo
  ipVersion : IpVersion := .v4
  quickReconnect : Bool := true
  masqueHttp2 : Bool := false
  lanShare : Bool := false
  noize : Noize := .off
  endpointMode : EndpointMode := .auto
  manualPeer : String := ""
  manualRange : String := ""
  keepalive : Int32 := 0
  fragment : Bool := false
  ech : Bool := false
  mtu : Int32 := defaultMtu
  proxyMode : Bool := false
  splitMode : SplitMode := .off
  splitApps : List String := []
  dnsServers : String := ""
  team : String := ""
  teamAuth : TeamAuth := .off
  accessClientId : String := ""
  accessClientSecret : String := ""
  accessEmail : String := ""
  accessToken : String := ""
  gateway : Bool := false
  routeBlock : String := ""
  routeDirect : String := ""
  killSwitch : Bool := false
  strictKillSwitch : Bool := false
  ipv6LeakProtection : Bool := true
  smartReconnect : Bool := true
  reconnectRetryLimit : Int32 := 5
  fragmentSize : String := ""
  fragmentDelay : String := ""
  noDataCheck : Bool := false
  tlsGroups : String := ""
  validateSecs : Int32 := 0
  reconnectSecs : Int32 := 0
  noProfileRetry : Bool := false
  coreLogLevel : CoreLogLevel := .warn
  blockedApps : List String := []
  upstreamProxy : String := ""
  routeSniff : Bool := true
  routeSniffMs : Int32 := 0
  autoReprovision : Bool := true
  psiphonEnabled : Bool := false
  psiphonRegion : PsiphonRegion := .auto
  psiphonProtocols : String := ""
  psiphonTimeout : Int32 := 25
  psiphonDns : String := ""

/-- Psiphon is chained behind the engine: enabled, with an exit country other than direct. -/
def ConnectionProfile.isChainedPsiphon (p : ConnectionProfile) : Bool :=
  p.psiphonEnabled && p.psiphonRegion != .direct

end Aether.Profile
