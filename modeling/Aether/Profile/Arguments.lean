import Aether.Kotlin.Pattern
import Aether.Profile.Model

/-! The engine's arguments and environment of a profile.

`toTokens` is the command line with, for every word, whether it stands in the program or
holds what the user typed; `toArgs` is its text. What the user typed is cut down to
entries that match a pattern, except the pinned peer and the team name, which are only
trimmed. `toEnv` is what travels in the environment instead: credentials and the upstream
proxy among it. -/
namespace Aether.Profile
open Kotlin

/-- A process environment. -/
abbrev Env := String → Option String

def Env.put (key value : String) (env : Env) : Env := Function.update env key (some value)

/-- The variables of a table that have a value are put, one after another. -/
def Env.overlay (table : List (String × Option String)) (env : Env) : Env :=
  table.foldl (fun env entry => match entry.2 with
    | some value => env.put entry.1 value
    | none => env) env

theorem Env.overlay_append (a b : List (String × Option String)) (env : Env) :
    Env.overlay (a ++ b) env = Env.overlay b (Env.overlay a env) := by
  rw [overlay, List.foldl_append]
  rfl

/-- Where no variable occurs twice, a variable has the value of its entry, or else the one
it had. -/
theorem Env.overlay_eq {table : List (String × Option String)} (h : (table.map Prod.fst).Nodup) (env : Env) :
    Env.overlay table env = fun key => ((table.lookup key).join).or (env key) := by
  induction table generalizing env with
  | nil =>
    funext key
    simp [overlay]
  | cons entry rest ih =>
    obtain ⟨name, value⟩ := entry
    obtain ⟨hname, hrest⟩ := List.nodup_cons.mp h
    have habsent : rest.lookup name = none := by
      rw [List.lookup_eq_none_iff]
      intro e he
      rw [bne_iff_ne]
      rintro rfl
      exact hname (List.mem_map.mpr ⟨e, he, rfl⟩)
    have hstep : Env.overlay ((name, value) :: rest) env = Env.overlay rest (Env.overlay [(name, value)] env) :=
      Env.overlay_append [_] rest env
    rw [hstep, ih hrest]
    funext key
    by_cases hkey : key = name
    · subst hkey
      rw [habsent]
      cases value with
      | none => simp [overlay]
      | some v => simp [overlay, put]
    · have hlookup : ((name, value) :: rest).lookup key = rest.lookup key := by
        rw [List.lookup_cons, beq_eq_false_iff_ne.mpr hkey]
      rw [hlookup]
      cases value with
      | none => rfl
      | some v => simp [overlay, put, Function.update_of_ne hkey]

def coerceIn (x low high : Int32) : Int32 := if x < low then low else if x > high then high else x

/-- One word of the command line. -/
inductive Token where
  | word (text : String)
  /-- A word made of what the user typed. -/
  | typed (text : String)
  deriving DecidableEq

def Token.text : Token → String
  | word text => text
  | typed text => text

def Token.isTyped : Token → Bool
  | word _ => false
  | typed _ => true

/-! ### Patterns -/

/-- `:` and up to five digits, an option's end. -/
def portEnd : Pattern := .seq (.char ':') (.chars isDecimalDigit 1 (some 5))

/-- `DNS_ENTRY` -/
def dnsEntry : Pattern :=
  let octet := Pattern.chars isDecimalDigit 1 (some 3)
  let dotted := Pattern.seq (.char '.') octet
  .seq (.alt (.seq octet (.seq dotted (.seq dotted dotted)))
      (.seq (.char '[') (.seq (.chars (fun c => isHexClass c || c == ':') 1 none) (.char ']'))))
    (.opt portEnd)

/-- `RULE_ENTRY` -/
def ruleEntry : Pattern :=
  .chars (fun c => c.isAlphanum || "_.:/*-[]^$+?()|\x7b\x7d\\".toList.contains c) 1 (some 200)

/-- `UPSTREAM_ENTRY` -/
def upstreamEntry : Pattern :=
  let scheme := Pattern.seq (.alt (.text "socks5".toList) (.text "http".toList)) (.text "://".toList)
  let plain := fun c => !isSpaceClass c && !":@/".toList.contains c
  let credentials := Pattern.seq (.chars plain 1 (some 64))
    (.seq (.opt (.seq (.char ':') (.chars plain 0 (some 64)))) (.char '@'))
  let bracketed := Pattern.seq (.char '[')
    (.seq (.chars (fun c => isHexClass c || c == ':') 2 (some 45)) (.char ']'))
  let name := Pattern.chars (fun c => c.isAlphanum || "._-".toList.contains c) 1 (some 253)
  .seq (.opt scheme) (.seq (.opt credentials) (.seq (.alt bracketed name) portEnd))

/-- `^\d{1,5}(-\d{1,5})?$` -/
def rangeEntry : Pattern :=
  .seq (.chars isDecimalDigit 1 (some 5)) (.opt (.seq (.char '-') (.chars isDecimalDigit 1 (some 5))))

/-- `^[A-Za-z0-9:_-]{1,64}$` -/
def tlsGroupsEntry : Pattern := .chars (fun c => c.isAlphanum || ":_-".toList.contains c) 1 (some 64)

/-- `MAX_DNS_SERVERS` -/
def maxDnsServers : Nat := 8

/-- `MAX_ROUTE_RULES` -/
def maxRouteRules : Nat := 256

/-- The distinct entries that match a pattern, up to a number of them. -/
def cleanEntries (delimiters : List Char) (entry : Pattern) (most : Nat) (raw : String) : List String :=
  ((((splitAny delimiters raw).map trim).filter fun s => !s.isEmpty && entry.fullMatch s).eraseDups).take most

/-- `takeIf` a pattern matches the trimmed text. -/
def cleanEntry (entry : Pattern) (raw : String) : Option String :=
  if entry.fullMatch (trim raw) then some (trim raw) else none

namespace ConnectionProfile
variable (p : ConnectionProfile)

def sanitizedDns : List String := cleanEntries [',', ' ', ';', '\n'] dnsEntry maxDnsServers p.dnsServers

def sanitizedRules (raw : String) : List String := cleanEntries [',', '\n'] ruleEntry maxRouteRules raw

def sanitizedRange (raw : String) : Option String := cleanEntry rangeEntry raw

def sanitizedTlsGroups : Option String := cleanEntry tlsGroupsEntry p.tlsGroups

def sanitizedUpstream : Option String :=
  (cleanEntry upstreamEntry p.upstreamProxy).filter fun s => 1 ≤ utf16Length s && utf16Length s ≤ 200

def hasTeam : Bool := p.teamAuth != .off && !isBlank p.team

def hasManualPeer : Bool := p.endpointMode == .manualPeer && !isBlank p.manualPeer

/-! ### The command line -/

def protocolTokens : List Token :=
  match p.protocol with
  | .auto => []
  | .masque => [.word "--masque"]
  | .wireguard => [.word "--wg"]
  | .gool => [.word "--gool"]

def scanFlag : String :=
  match p.scanMode with
  | .turbo => "--turbo"
  | .balanced => "--balanced"
  | .thorough => "--thorough"
  | .stealth => "--stealth"
  | .ironclad => "--ironclad"

def ipFlag : String :=
  match p.ipVersion with
  | .v4 => "-4"
  | .v6 => "-6"
  | .both => "--dual"

/-- An option with what the user typed, if there is anything to pass. -/
def typedOption (flag : String) : Option String → List Token
  | some value => [.word flag, .typed value]
  | none => []

/-- A list of entries joined by commas, unless it is empty. -/
def joined (l : List String) : Option String := if l.isEmpty then none else some (joinToString ',' l)

/-- The words of the connection itself. -/
def connectionTokens : List Token :=
  p.protocolTokens
  ++ (if !p.hasManualPeer then [Token.word p.scanFlag] else [])
  ++ [Token.word p.ipFlag]
  ++ [Token.word (if p.quickReconnect then "--quick-reconnect" else "--no-quick-reconnect")]
  ++ (if p.noize != .off then [Token.word "--noize", Token.word (asciiLowercase (name p.noize))] else [])
  ++ (if p.hasManualPeer then [Token.word "--peer", Token.typed (trim p.manualPeer)] else [])
  ++ (if p.fragment then [Token.word "--fragment"] else [])
  ++ (if p.ech then [Token.word "--ech", Token.word "auto"] else [])
  ++ (if p.keepalive > 0 then [Token.word "--keepalive", Token.word (intToString p.keepalive)] else [])

/-- The words of the resolvers, the organization and the routing rules. -/
def routingTokens : List Token :=
  typedOption "--dns" (joined p.sanitizedDns)
  ++ (if p.hasTeam then [Token.word "--team", Token.typed (trim p.team)] else [])
  ++ (if p.hasTeam && p.gateway then [Token.word "--gateway"] else [])
  ++ typedOption "--route-block" (joined (sanitizedRules p.routeBlock))
  ++ typedOption "--route-direct" (joined (sanitizedRules p.routeDirect))

/-- The words of the engine's tuning. -/
def tuningTokens : List Token :=
  typedOption "--fragment-size" (if p.fragment then sanitizedRange p.fragmentSize else none)
  ++ typedOption "--fragment-delay" (if p.fragment then sanitizedRange p.fragmentDelay else none)
  ++ typedOption "--tls-groups" p.sanitizedTlsGroups
  ++ (if p.validateSecs > 0 then
      [Token.word "--validate-secs", Token.word (intToString (coerceIn p.validateSecs 1 3600))] else [])
  ++ (if p.reconnectSecs > 0 then
      [Token.word "--reconnect-secs", Token.word (intToString (coerceIn p.reconnectSecs 1 600))] else [])
  ++ (if p.noProfileRetry then [Token.word "--no-profile-retry"] else [])

def toTokens : List Token := p.connectionTokens ++ p.routingTokens ++ p.tuningTokens

def toArgs : List String := p.toTokens.map Token.text

/-! ### The environment -/

/-- `CoreLogLevel.raw` -/
def logLevel : String :=
  match p.coreLogLevel with
  | .off => "off"
  | .error => "error"
  | .warn => "warn"
  | .info => "info"
  | .debug => "debug"

/-- A credential of the enrolment method `auth`, unless it is blank. -/
def credential (auth : TeamAuth) (value : String) : Option String :=
  if p.hasTeam && p.teamAuth == auth && !(trim value).isEmpty then some (trim value) else none

/-- The variables of `toEnv` in the order they are put. -/
def toVariables : List (String × Option String) :=
  let httpUpstream := p.sanitizedUpstream.any fun s => "http://".toList.isPrefixOf s.toList
  let range := if p.endpointMode == .manualRange && !isBlank (trim p.manualRange) then
    some (trim p.manualRange) else none
  let validate := if p.validateSecs > 0 then some (intToString (coerceIn p.validateSecs 1 3600)) else none
  let reconnect := if p.reconnectSecs > 0 then some (intToString (coerceIn p.reconnectSecs 1 600)) else none
  let noCheck := if p.noDataCheck then some "1" else none
  [("AETHER_MASQUE_HTTP2", some (if p.masqueHttp2 || httpUpstream then "1" else "0")),
    ("AETHER_SCAN_CIDRS", range),
    ("AETHER_MASQUE_CIDRS", range),
    ("AETHER_WG_CIDRS", range),
    ("AETHER_ACCESS_CLIENT_ID", p.credential .serviceToken p.accessClientId),
    ("AETHER_ACCESS_CLIENT_SECRET", p.credential .serviceToken p.accessClientSecret),
    ("AETHER_ACCESS_EMAIL", p.credential .email p.accessEmail),
    ("AETHER_ACCESS_TOKEN", p.credential .token p.accessToken),
    ("AETHER_MASQUE_NO_DATA_CHECK", noCheck),
    ("AETHER_WG_NO_DATA_CHECK", noCheck),
    ("AETHER_MASQUE_VALIDATE_SECS", validate),
    ("AETHER_MASQUE_RECONNECT_SECS", reconnect),
    ("AETHER_WG_RECONNECT_SECS", reconnect),
    ("AETHER_WG_NO_PROFILE_RETRY", if p.noProfileRetry then some "1" else none),
    ("AETHER_TLS_GROUPS", p.sanitizedTlsGroups),
    ("AETHER_LOG_LEVEL", if p.coreLogLevel != .warn then some p.logLevel else none),
    ("AETHER_ROUTE_SNIFF", if !p.routeSniff then some "0" else none),
    ("AETHER_ROUTE_SNIFF_MS", if p.routeSniff && decide (p.routeSniffMs > 0) then
      some (intToString (coerceIn p.routeSniffMs 50 5000)) else none),
    ("AETHER_REPROVISION", if !p.autoReprovision then some "0" else none),
    ("AETHER_UPSTREAM", p.sanitizedUpstream)]

def toEnv : Env := Env.overlay p.toVariables fun _ => none

end ConnectionProfile

end Aether.Profile
