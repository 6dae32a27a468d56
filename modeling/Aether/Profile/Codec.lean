import Aether.Profile.Model

/-! The codec that carries a profile to the VPN service.

`AetherController.connect` puts `encode p` into the intent and
`AetherVpnService.onStartCommand` runs `decode` on what it finds there. The text
is one `key=value` pair a line; unknown keys are ignored and a missing key leaves
the model's default. A text with no `=` and a `|` is the older one-line format. -/
namespace Aether.Profile.Codec
open Kotlin

/-! ### Writing -/

/-- The pairs `encode` writes, in order. -/
def entries (p : ConnectionProfile) : List (String × String) :=
  [("protocol", name p.protocol),
    ("scan", name p.scanMode),
    ("ip", name p.ipVersion),
    ("quick", boolToString p.quickReconnect),
    ("h2", boolToString p.masqueHttp2),
    ("share", boolToString p.lanShare),
    ("noize", name p.noize),
    ("endpoint", name p.endpointMode),
    ("peer", p.manualPeer),
    ("range", p.manualRange),
    ("keepalive", intToString p.keepalive),
    ("fragment", boolToString p.fragment),
    ("ech", boolToString p.ech),
    ("mtu", intToString p.mtu),
    ("proxy", boolToString p.proxyMode),
    ("split", name p.splitMode),
    ("splitApps", joinToString ',' p.splitApps),
    ("kill", boolToString p.killSwitch),
    ("strictKill", boolToString p.strictKillSwitch),
    ("v6leak", boolToString p.ipv6LeakProtection),
    ("smartRe", boolToString p.smartReconnect),
    ("reLimit", intToString p.reconnectRetryLimit),
    ("fSize", p.fragmentSize),
    ("fDelay", p.fragmentDelay),
    ("noDataCheck", boolToString p.noDataCheck),
    ("tlsGroups", p.tlsGroups),
    ("valSecs", intToString p.validateSecs),
    ("recSecs", intToString p.reconnectSecs),
    ("noProfRetry", boolToString p.noProfileRetry),
    ("coreLog", name p.coreLogLevel),
    ("blockedApps", joinToString ',' p.blockedApps),
    ("psiOn", boolToString p.psiphonEnabled),
    ("psiReg", name p.psiphonRegion),
    ("psiProt", remove '\r' (remove '\n' p.psiphonProtocols)),
    ("psiTimeout", intToString p.psiphonTimeout),
    ("psiDns", p.psiphonDns)]

/-- One line of the text. -/
def entryLine (e : String × String) : String := e.1 ++ "=" ++ e.2

def encode (p : ConnectionProfile) : String := joinToString '\n' ((entries p).map entryLine)

/-! ### Reading -/

/-- The key before the first `=` and the value after it; a line without a key is skipped. -/
def parseLine (line : List Char) : Option (String × String) :=
  match line.takeWhile (· != '='), line.dropWhile (· != '=') with
  | [], _ => none
  | _, [] => none
  | key, _ :: value => some (String.ofList key, String.ofList value)

/-- `toMap`: of two pairs with one key the later stays. -/
def toMap (pairs : List (String × String)) (key : String) : Option String :=
  (pairs.reverse.find? fun e => e.1 == key).map Prod.snd

/-- A comma list of packages; blank pieces are dropped. -/
def appList (value : String) : List String := ((split ',' value).map trim).filter (· ≠ "")

/-- The profile a map of values stands for. A value that its reader refuses counts as missing. -/
def fromMap (map : String → Option String) : ConnectionProfile :=
  let d : ConnectionProfile := {}
  { protocol := ((map "protocol").bind (enumValueOf Protocol)).getD d.protocol
    scanMode := ((map "scan").bind (enumValueOf ScanMode)).getD d.scanMode
    ipVersion := ((map "ip").bind (enumValueOf IpVersion)).getD d.ipVersion
    quickReconnect := ((map "quick").bind toBooleanStrictOrNull).getD d.quickReconnect
    masqueHttp2 := ((map "h2").bind toBooleanStrictOrNull).getD d.masqueHttp2
    lanShare := ((map "share").bind toBooleanStrictOrNull).getD d.lanShare
    noize := ((map "noize").bind (enumValueOf Noize)).getD d.noize
    endpointMode := ((map "endpoint").bind (enumValueOf EndpointMode)).getD d.endpointMode
    manualPeer := (map "peer").getD d.manualPeer
    manualRange := (map "range").getD d.manualRange
    keepalive := ((map "keepalive").bind toIntOrNull).getD d.keepalive
    fragment := ((map "fragment").bind toBooleanStrictOrNull).getD d.fragment
    ech := ((map "ech").bind toBooleanStrictOrNull).getD d.ech
    mtu := ((map "mtu").bind toIntOrNull).getD d.mtu
    proxyMode := ((map "proxy").bind toBooleanStrictOrNull).getD d.proxyMode
    splitMode := ((map "split").bind (enumValueOf SplitMode)).getD d.splitMode
    splitApps := ((map "splitApps").map appList).getD d.splitApps
    killSwitch := ((map "kill").bind toBooleanStrictOrNull).getD d.killSwitch
    strictKillSwitch := ((map "strictKill").bind toBooleanStrictOrNull).getD d.strictKillSwitch
    ipv6LeakProtection := ((map "v6leak").bind toBooleanStrictOrNull).getD d.ipv6LeakProtection
    smartReconnect := ((map "smartRe").bind toBooleanStrictOrNull).getD d.smartReconnect
    reconnectRetryLimit := ((map "reLimit").bind toIntOrNull).getD d.reconnectRetryLimit
    fragmentSize := (map "fSize").getD d.fragmentSize
    fragmentDelay := (map "fDelay").getD d.fragmentDelay
    noDataCheck := ((map "noDataCheck").bind toBooleanStrictOrNull).getD d.noDataCheck
    tlsGroups := (map "tlsGroups").getD d.tlsGroups
    validateSecs := ((map "valSecs").bind toIntOrNull).getD d.validateSecs
    reconnectSecs := ((map "recSecs").bind toIntOrNull).getD d.reconnectSecs
    noProfileRetry := ((map "noProfRetry").bind toBooleanStrictOrNull).getD d.noProfileRetry
    coreLogLevel := ((map "coreLog").bind (enumValueOf CoreLogLevel)).getD d.coreLogLevel
    blockedApps := ((map "blockedApps").map appList).getD d.blockedApps
    psiphonEnabled := ((map "psiOn").bind toBooleanStrictOrNull).getD d.psiphonEnabled
    psiphonRegion := ((map "psiReg").bind (enumValueOf PsiphonRegion)).getD d.psiphonRegion
    psiphonProtocols := (map "psiProt").getD d.psiphonProtocols
    psiphonTimeout := ((map "psiTimeout").bind toIntOrNull).getD d.psiphonTimeout
    psiphonDns := (map "psiDns").getD d.psiphonDns }

/-- The 1.0/1.1 format: `|`-separated fields by position. An unknown enum name
throws, and the exception is answered with the default profile. -/
def decodeLegacy (raw : String) : ConnectionProfile :=
  match split '|' raw with
  | protocol :: scan :: ip :: quick :: h2 :: rest =>
    match enumValueOf Protocol protocol, enumValueOf ScanMode scan, enumValueOf IpVersion ip with
    | some protocol, some scanMode, some ipVersion =>
      { protocol := protocol
        scanMode := scanMode
        ipVersion := ipVersion
        quickReconnect := toBoolean quick
        masqueHttp2 := toBoolean h2
        lanShare := (rest.head?.map toBoolean).getD false }
    | _, _, _ => {}
  | _ => {}

def decode (raw : Option String) : ConnectionProfile :=
  match raw with
  | none => {}
  | some raw =>
    if isBlank raw then {}
    else if '=' ∉ raw.toList ∧ '|' ∈ raw.toList then decodeLegacy raw
    else fromMap (toMap ((lineSequence raw.toList).filterMap parseLine))

end Aether.Profile.Codec
