import Aether.Profile.Arguments

/-! The engine's command line.

`parse_args` reads option by option and sets the variable each one stands for; an option
that takes a value takes the next word whatever it is. A value with a NUL character cannot
be put into an environment, and the attempt panics.

The app's command line is made of options the engine knows, each with the words it takes,
so that no word the user typed is read as an option, and the environment ends up with the
values of the profile's fields over what the app put there (`parseArgs_toArgs`). -/
namespace Aether.Engine
open Kotlin
open Profile (Env Token ConnectionProfile)

/-- What an option does, an arm of the match. -/
inductive Arm where
  /-- It sets vars to fixed values. -/
  | sets (vars : List (String × String))
  /-- It sets vars to the next word. -/
  | takes (vars : List String)
  /-- It prints and exits. -/
  | exits
  deriving DecidableEq, Repr

/-- The arms of `parse_args`. -/
def arm : String → Option Arm
  | "-v" | "--version" | "-h" | "--help" => some .exits
  | "--bind" => some (.takes ["AETHER_SOCKS"])
  | "--http-proxy" => some (.takes ["AETHER_HTTP_PROXY"])
  | "--upstream" => some (.takes ["AETHER_UPSTREAM"])
  | "--quick-reconnect" => some (.sets [("AETHER_QUICK_RECONNECT", "1")])
  | "--no-quick-reconnect" => some (.sets [("AETHER_QUICK_RECONNECT", "0")])
  | "-4" => some (.sets [("AETHER_IP", "v4")])
  | "-6" => some (.sets [("AETHER_IP", "v6")])
  | "--dual" => some (.sets [("AETHER_IP", "both")])
  | "--ip" => some (.takes ["AETHER_IP"])
  | "--peer" => some (.takes ["AETHER_PEER"])
  | "--wg-peer" => some (.takes ["AETHER_WG_PEER"])
  | "--masque" => some (.sets [("AETHER_PROTOCOL", "masque")])
  | "--wg" | "--wireguard" | "--warp" => some (.sets [("AETHER_PROTOCOL", "wg")])
  | "--gool" | "--wiw" => some (.sets [("AETHER_PROTOCOL", "gool")])
  | "--protocol" => some (.takes ["AETHER_PROTOCOL"])
  | "--scan" => some (.takes ["AETHER_SCAN"])
  | "--turbo" => some (.sets [("AETHER_SCAN", "turbo")])
  | "--balanced" => some (.sets [("AETHER_SCAN", "balanced")])
  | "--thorough" => some (.sets [("AETHER_SCAN", "thorough")])
  | "--stealth" => some (.sets [("AETHER_SCAN", "stealth")])
  | "--ironclad" => some (.sets [("AETHER_SCAN", "ironclad")])
  | "--noize" => some (.takes ["AETHER_NOIZE"])
  | "--h2" | "--http2" => some (.sets [("AETHER_MASQUE_HTTP2", "1")])
  | "--h2-peer" => some (.takes ["AETHER_MASQUE_H2_PEER"])
  | "--ech" => some (.takes ["AETHER_ECH"])
  | "--no-data-check" =>
    some (.sets [("AETHER_MASQUE_NO_DATA_CHECK", "1"), ("AETHER_WG_NO_DATA_CHECK", "1")])
  | "--validate-secs" => some (.takes ["AETHER_MASQUE_VALIDATE_SECS", "AETHER_WG_VALIDATE_SECS"])
  | "--startup-secs" => some (.takes ["AETHER_MASQUE_STARTUP_SECS"])
  | "--reconnect-secs" => some (.takes ["AETHER_MASQUE_RECONNECT_SECS", "AETHER_WG_RECONNECT_SECS"])
  | "--dns" => some (.takes ["AETHER_DNS"])
  | "--fragment" => some (.sets [("AETHER_MASQUE_H2_FRAGMENT", "1")])
  | "--fragment-size" => some (.takes ["AETHER_MASQUE_H2_FRAGMENT_SIZE"])
  | "--fragment-delay" => some (.takes ["AETHER_MASQUE_H2_FRAGMENT_DELAY"])
  | "--keepalive" => some (.takes ["AETHER_WG_KEEPALIVE"])
  | "--no-profile-retry" => some (.sets [("AETHER_WG_NO_PROFILE_RETRY", "1")])
  | "--config" => some (.takes ["AETHER_CONFIG"])
  | "--wg-config" => some (.takes ["AETHER_WG_CONFIG"])
  | "--masque-config" => some (.takes ["AETHER_MASQUE_CONFIG"])
  | "--team" | "--organization" => some (.takes ["AETHER_TEAM"])
  | "--access-id" => some (.takes ["AETHER_ACCESS_CLIENT_ID"])
  | "--access-secret" => some (.takes ["AETHER_ACCESS_CLIENT_SECRET"])
  | "--access-token" => some (.takes ["AETHER_ACCESS_TOKEN"])
  | "--access-email" => some (.takes ["AETHER_ACCESS_EMAIL"])
  | "--gateway" => some (.sets [("AETHER_GATEWAY", "1")])
  | "--route-block" => some (.takes ["AETHER_ROUTE_BLOCK"])
  | "--route-direct" => some (.takes ["AETHER_ROUTE_DIRECT"])
  | "--routes" => some (.takes ["AETHER_ROUTES_FILE"])
  | "--tls-groups" => some (.takes ["AETHER_TLS_GROUPS"])
  | "--perf" => some (.takes ["AETHER_PERF_PROFILE"])
  | "--log-level" => some (.takes ["AETHER_LOG_LEVEL"])
  | "--verbose" => some (.sets [("AETHER_LOG_LEVEL", "debug")])
  | _ => none

/-- How `parse_args` ends. -/
inductive Outcome where
  | ok (env : Env)
  /-- `{arg} requires a value` -/
  | requiresValue (arg : String)
  /-- `unknown option '{other}'` and the usage -/
  | unknownOption (other : String)
  | exited
  | panicked

/-- `std::env::set_var`, which panics on a value with a NUL character. -/
def setVar (key value : String) (env : Env) : Option Env :=
  if value.toList.contains '\x00' then none else some (env.put key value)

/-- Variables set one after another. -/
def setVars : List (String × String) → Env → Option Env
  | [], env => some env
  | (key, value) :: rest, env => (setVar key value env).bind (setVars rest)

def parseArgs : List String → Env → Outcome
  | [], env => .ok env
  | arg :: rest, env =>
    match arm arg with
    | none => .unknownOption arg
    | some .exits => .exited
    | some (.sets vars) =>
      match setVars vars env with
      | some env => parseArgs rest env
      | none => .panicked
    | some (.takes vars) =>
      match rest with
      | [] => .requiresValue arg
      | value :: rest =>
        match setVars (vars.map fun key => (key, value)) env with
        | some env => parseArgs rest env
        | none => .panicked

/-- How `parse_args` reads a word. -/
inductive Role where
  | option | value | unread
  deriving DecidableEq

/-- The role of each word of a command line. -/
def roles : List String → List Role
  | [] => []
  | arg :: rest =>
    match arm arg with
    | none | some .exits => .option :: rest.map fun _ => .unread
    | some (.sets _) => .option :: roles rest
    | some (.takes _) =>
      match rest with
      | [] => [.option]
      | _ :: rest => .option :: .value :: roles rest

/-! ### Options with their words -/

/-- A text without a NUL character. -/
def NulFree (s : String) : Prop := '\x00' ∉ s.toList

instance (s : String) : Decidable (NulFree s) := inferInstanceAs (Decidable (¬ '\x00' ∈ s.toList))

theorem setVar_of_nulFree {value : String} (h : NulFree value) (key : String) (env : Env) :
    setVar key value env = some (env.put key value) := by
  rw [setVar, if_neg]
  rw [List.contains_iff_mem]
  exact h

theorem setVars_of_nulFree {vars : List (String × String)} (h : ∀ v ∈ vars, NulFree v.2) (env : Env) :
    setVars vars env = some (env.overlay (vars.map fun v => (v.1, some v.2))) := by
  induction vars generalizing env with
  | nil => rfl
  | cons v rest ih =>
    obtain ⟨hv, hrest⟩ := List.forall_mem_cons.mp h
    rw [setVars, setVar_of_nulFree hv, Option.bind_some, ih hrest]
    rfl

/-- The words set the variables of the table and leave the rest of the line to be read. -/
def Sets (tokens : List Token) (table : List (String × Option String)) : Prop :=
  ∀ rest env, parseArgs (tokens.map Token.text ++ rest) env = parseArgs rest (env.overlay table)

theorem sets_nil (names : List String) : Sets [] (names.map fun name => (name, none)) := by
  intro rest env
  have hsame : env.overlay (names.map fun name => (name, none)) = env := by
    induction names with
    | nil => rfl
    | cons name names ih => exact ih
  rw [hsame]
  rfl

theorem Sets.append {a b : List Token} {s t : List (String × Option String)} (ha : Sets a s) (hb : Sets b t) :
    Sets (a ++ b) (s ++ t) := by
  intro rest env
  rw [List.map_append, List.append_assoc, ha, hb, Env.overlay_append]

theorem sets_flag {flag name value : String} (harm : arm flag = some (.sets [(name, value)]))
    (hvalue : NulFree value) : Sets [.word flag] [(name, some value)] := by
  intro rest env
  have hset := setVars_of_nulFree (List.forall_mem_singleton.mpr hvalue : ∀ v ∈ [(name, value)], NulFree v.2) env
  show parseArgs (flag :: rest) env = _
  rw [parseArgs, harm]
  simp only [hset]
  rfl

theorem sets_option {flag : String} {names : List String} (harm : arm flag = some (.takes names))
    {t : Token} (ht : NulFree t.text) :
    Sets [.word flag, t] (names.map fun name => (name, some t.text)) := by
  intro rest env
  have hset : setVars (names.map fun name => (name, t.text)) env =
      some (env.overlay (names.map fun name => (name, some t.text))) := by
    rw [setVars_of_nulFree, List.map_map]
    · rfl
    · intro v hv
      obtain ⟨name, -, rfl⟩ := List.mem_map.mp hv
      exact ht
  show parseArgs (flag :: t.text :: rest) env = _
  rw [parseArgs, harm]
  simp only [hset]

/-- A flag that is passed under a condition. -/
theorem sets_flagIf {flag name value : String} (harm : arm flag = some (.sets [(name, value)]))
    (hvalue : NulFree value) (c : Prop) [Decidable c] :
    Sets (if c then [.word flag] else []) [(name, if c then some value else none)] := by
  split_ifs
  · exact sets_flag harm hvalue
  · exact sets_nil [name]

/-- An option that is passed under a condition. -/
theorem sets_optionIf {flag : String} {names : List String} (harm : arm flag = some (.takes names)) {t : Token}
    (c : Prop) [Decidable c] (ht : c → NulFree t.text) :
    Sets (if c then [.word flag, t] else []) (names.map fun name => (name, if c then some t.text else none)) := by
  split_ifs with hc
  · exact sets_option harm (ht hc)
  · exact sets_nil names

theorem sets_typedOption {flag name : String} (harm : arm flag = some (.takes [name])) {value : Option String}
    (hvalue : ∀ v ∈ value, NulFree v) : Sets (ConnectionProfile.typedOption flag value) [(name, value)] := by
  cases value with
  | none => exact sets_nil [name]
  | some v => exact sets_option harm (hvalue v rfl)

/-- Every word the user typed is read as a value. -/
def Guarded (tokens : List Token) (rs : List Role) : Prop :=
  List.Forall₂ (fun t r => t.isTyped = true → r = .value) tokens rs

/-- The words are read in known roles and leave the rest of the line to be read. -/
def Framed (tokens : List Token) : Prop :=
  ∃ rs, Guarded tokens rs ∧ ∀ rest, roles (tokens.map Token.text ++ rest) = rs ++ roles rest

theorem framed_nil : Framed [] := ⟨[], .nil, fun _ => rfl⟩

theorem Framed.append {a b : List Token} (ha : Framed a) (hb : Framed b) : Framed (a ++ b) := by
  obtain ⟨ra, hga, hra⟩ := ha
  obtain ⟨rb, hgb, hrb⟩ := hb
  refine ⟨ra ++ rb, List.rel_append hga hgb, ?_⟩
  intro rest
  rw [List.map_append, List.append_assoc, hra, hrb, List.append_assoc]

theorem framed_flag {flag : String} {vars : List (String × String)} (harm : arm flag = some (.sets vars)) :
    Framed [.word flag] := by
  refine ⟨[.option], .cons nofun .nil, ?_⟩
  intro rest
  show roles (flag :: rest) = _
  rw [roles.eq_def]
  simp only [harm]
  rfl

theorem framed_option {flag : String} {names : List String} (harm : arm flag = some (.takes names)) (t : Token) :
    Framed [.word flag, t] := by
  refine ⟨[.option, .value], .cons nofun (.cons (fun _ => rfl) .nil), ?_⟩
  intro rest
  show roles (flag :: t.text :: rest) = _
  rw [roles.eq_def]
  simp only [harm]
  rfl

theorem Framed.ite {tokens : List Token} (h : Framed tokens) (c : Prop) [Decidable c] :
    Framed (if c then tokens else []) := by
  split_ifs
  · exact h
  · exact framed_nil

theorem framed_typedOption {flag name : String} (harm : arm flag = some (.takes [name]))
    (value : Option String) : Framed (ConnectionProfile.typedOption flag value) := by
  cases value with
  | none => exact framed_nil
  | some v => exact framed_option harm _

/-! ### The app's command line -/

/-- What the user typed is passed to the engine without a NUL character where it is only
trimmed. -/
structure Passable (p : ConnectionProfile) : Prop where
  peer : p.hasManualPeer = true → NulFree p.manualPeer
  team : p.hasTeam = true → NulFree p.team

def protocolValue : Profile.Protocol → Option String
  | .auto => none
  | .masque => some "masque"
  | .wireguard => some "wg"
  | .gool => some "gool"

def scanValue : Profile.ScanMode → String
  | .turbo => "turbo"
  | .balanced => "balanced"
  | .thorough => "thorough"
  | .stealth => "stealth"
  | .ironclad => "ironclad"

def ipValue : Profile.IpVersion → String
  | .v4 => "v4"
  | .v6 => "v6"
  | .both => "both"

def noizeValue : Profile.Noize → Option String
  | .off => none
  | .light => some "light"
  | .firewall => some "firewall"
  | .balanced => some "balanced"
  | .gfw => some "gfw"
  | .aggressive => some "aggressive"

def connectionVariables (p : ConnectionProfile) : List (String × Option String) :=
  [("AETHER_PROTOCOL", protocolValue p.protocol),
    ("AETHER_SCAN", if p.hasManualPeer then none else some (scanValue p.scanMode)),
    ("AETHER_IP", some (ipValue p.ipVersion)),
    ("AETHER_QUICK_RECONNECT", some (if p.quickReconnect then "1" else "0")),
    ("AETHER_NOIZE", noizeValue p.noize),
    ("AETHER_PEER", if p.hasManualPeer then some (trim p.manualPeer) else none),
    ("AETHER_MASQUE_H2_FRAGMENT", if p.fragment then some "1" else none),
    ("AETHER_ECH", if p.ech then some "auto" else none),
    ("AETHER_WG_KEEPALIVE", if p.keepalive > 0 then some (intToString p.keepalive) else none)]

def routingVariables (p : ConnectionProfile) : List (String × Option String) :=
  [("AETHER_DNS", ConnectionProfile.joined p.sanitizedDns),
    ("AETHER_TEAM", if p.hasTeam then some (trim p.team) else none),
    ("AETHER_GATEWAY", if p.hasTeam && p.gateway then some "1" else none),
    ("AETHER_ROUTE_BLOCK", ConnectionProfile.joined (ConnectionProfile.sanitizedRules p.routeBlock)),
    ("AETHER_ROUTE_DIRECT", ConnectionProfile.joined (ConnectionProfile.sanitizedRules p.routeDirect))]

def tuningVariables (p : ConnectionProfile) : List (String × Option String) :=
  let validate := if p.validateSecs > 0 then some (intToString (Profile.coerceIn p.validateSecs 1 3600)) else none
  let reconnect := if p.reconnectSecs > 0 then some (intToString (Profile.coerceIn p.reconnectSecs 1 600)) else none
  [("AETHER_MASQUE_H2_FRAGMENT_SIZE",
      if p.fragment then ConnectionProfile.sanitizedRange p.fragmentSize else none),
    ("AETHER_MASQUE_H2_FRAGMENT_DELAY",
      if p.fragment then ConnectionProfile.sanitizedRange p.fragmentDelay else none),
    ("AETHER_TLS_GROUPS", p.sanitizedTlsGroups),
    ("AETHER_MASQUE_VALIDATE_SECS", validate),
    ("AETHER_WG_VALIDATE_SECS", validate),
    ("AETHER_MASQUE_RECONNECT_SECS", reconnect),
    ("AETHER_WG_RECONNECT_SECS", reconnect),
    ("AETHER_WG_NO_PROFILE_RETRY", if p.noProfileRetry then some "1" else none)]

/-- The variables that the fields of a profile prescribe. -/
def prescribed (p : ConnectionProfile) : List (String × Option String) :=
  connectionVariables p ++ routingVariables p ++ tuningVariables p

theorem nulFree_trim {s : String} (h : NulFree s) : NulFree (trim s) := fun hc => h ((trim_sublist s).mem hc)

theorem nulFree_of_fullMatch {a : Pattern} (ha : a.accepts '\x00' = false) {s : String}
    (h : a.fullMatch s = true) : NulFree s := by
  intro hc
  rw [Pattern.fullMatch_accepts h _ hc] at ha
  cases ha

theorem nulFree_entry {a : Pattern} (ha : a.accepts '\x00' = false) {raw v : String}
    (h : Profile.cleanEntry a raw = some v) : NulFree v := by
  unfold Profile.cleanEntry at h
  split_ifs at h with hmatch
  rw [← Option.some.inj h]
  exact nulFree_of_fullMatch ha hmatch

theorem nulFree_joined {delimiters : List Char} {a : Pattern} (ha : a.accepts '\x00' = false) {most : Nat}
    {raw v : String} (h : ConnectionProfile.joined (Profile.cleanEntries delimiters a most raw) = some v) : NulFree v := by
  unfold ConnectionProfile.joined at h
  split_ifs at h
  rw [← Option.some.inj h]
  intro hc
  rcases joinToString_mem hc with hc | ⟨s, hs, hc⟩
  · cases hc
  · have hs' := List.mem_of_mem_take hs
    rw [List.mem_eraseDups] at hs'
    have hmatch := (List.mem_filter.mp hs').2
    exact nulFree_of_fullMatch ha (Bool.and_eq_true_iff.mp hmatch).2 hc

theorem nulFree_intToString (n : Int32) : NulFree (intToString n) := by
  intro hc
  have hdigits : '\x00' ∉ Nat.toDigits 10 n.toInt.natAbs := by
    intro h
    exact absurd (Nat.isDigit_of_mem_toDigits (by decide) (by decide) h) (by decide)
  rw [intToString, String.toList_ofList] at hc
  split_ifs at hc
  · exact hdigits ((List.mem_cons.mp hc).resolve_left (by decide))
  · exact hdigits hc

/-! The arms of the options that the app passes with a value, or under a condition. -/

theorem arm_noize : arm "--noize" = some (.takes ["AETHER_NOIZE"]) := by rfl
theorem arm_peer : arm "--peer" = some (.takes ["AETHER_PEER"]) := by rfl
theorem arm_fragment : arm "--fragment" = some (.sets [("AETHER_MASQUE_H2_FRAGMENT", "1")]) := by rfl
theorem arm_ech : arm "--ech" = some (.takes ["AETHER_ECH"]) := by rfl
theorem arm_keepalive : arm "--keepalive" = some (.takes ["AETHER_WG_KEEPALIVE"]) := by rfl
theorem arm_dns : arm "--dns" = some (.takes ["AETHER_DNS"]) := by rfl
theorem arm_team : arm "--team" = some (.takes ["AETHER_TEAM"]) := by rfl
theorem arm_gateway : arm "--gateway" = some (.sets [("AETHER_GATEWAY", "1")]) := by rfl
theorem arm_routeBlock : arm "--route-block" = some (.takes ["AETHER_ROUTE_BLOCK"]) := by rfl
theorem arm_routeDirect : arm "--route-direct" = some (.takes ["AETHER_ROUTE_DIRECT"]) := by rfl
theorem arm_fragmentSize : arm "--fragment-size" = some (.takes ["AETHER_MASQUE_H2_FRAGMENT_SIZE"]) := by rfl
theorem arm_fragmentDelay : arm "--fragment-delay" = some (.takes ["AETHER_MASQUE_H2_FRAGMENT_DELAY"]) := by rfl
theorem arm_tlsGroups : arm "--tls-groups" = some (.takes ["AETHER_TLS_GROUPS"]) := by rfl
theorem arm_validateSecs : arm "--validate-secs" =
    some (.takes ["AETHER_MASQUE_VALIDATE_SECS", "AETHER_WG_VALIDATE_SECS"]) := by rfl
theorem arm_reconnectSecs : arm "--reconnect-secs" =
    some (.takes ["AETHER_MASQUE_RECONNECT_SECS", "AETHER_WG_RECONNECT_SECS"]) := by rfl
theorem arm_noProfileRetry :
    arm "--no-profile-retry" = some (.sets [("AETHER_WG_NO_PROFILE_RETRY", "1")]) := by rfl

theorem arm_scanFlag (p : ConnectionProfile) :
    arm p.scanFlag = some (.sets [("AETHER_SCAN", scanValue p.scanMode)]) := by
  unfold ConnectionProfile.scanFlag
  cases p.scanMode <;> rfl

theorem arm_ipFlag (p : ConnectionProfile) : arm p.ipFlag = some (.sets [("AETHER_IP", ipValue p.ipVersion)]) := by
  unfold ConnectionProfile.ipFlag
  cases p.ipVersion <;> rfl

theorem arm_quickReconnect (quick : Bool) :
    arm (if quick then "--quick-reconnect" else "--no-quick-reconnect") =
      some (.sets [("AETHER_QUICK_RECONNECT", if quick then "1" else "0")]) := by
  cases quick <;> rfl

theorem sets_protocol (p : ConnectionProfile) :
    Sets p.protocolTokens [("AETHER_PROTOCOL", protocolValue p.protocol)] := by
  unfold ConnectionProfile.protocolTokens
  cases p.protocol with
  | auto => exact sets_nil ["AETHER_PROTOCOL"]
  | masque => exact sets_flag rfl (by decide)
  | wireguard => exact sets_flag rfl (by decide)
  | gool => exact sets_flag rfl (by decide)

theorem sets_scan (p : ConnectionProfile) : Sets (if !p.hasManualPeer then [.word p.scanFlag] else [])
    [("AETHER_SCAN", if p.hasManualPeer then none else some (scanValue p.scanMode))] := by
  have hvalue : NulFree (scanValue p.scanMode) := by cases p.scanMode <;> decide
  cases p.hasManualPeer with
  | true => exact sets_nil ["AETHER_SCAN"]
  | false => exact sets_flag (arm_scanFlag p) hvalue

theorem sets_noize (p : ConnectionProfile) :
    Sets (if p.noize != .off then [.word "--noize", .word (asciiLowercase (name p.noize))] else [])
      [("AETHER_NOIZE", noizeValue p.noize)] := by
  cases p.noize with
  | off => exact sets_nil ["AETHER_NOIZE"]
  | light => exact sets_option arm_noize (t := .word "light") (by decide)
  | firewall => exact sets_option arm_noize (t := .word "firewall") (by decide)
  | balanced => exact sets_option arm_noize (t := .word "balanced") (by decide)
  | gfw => exact sets_option arm_noize (t := .word "gfw") (by decide)
  | aggressive => exact sets_option arm_noize (t := .word "aggressive") (by decide)

theorem sets_connectionTokens {p : ConnectionProfile} (h : Passable p) :
    Sets p.connectionTokens (connectionVariables p) := by
  have hip : NulFree (ipValue p.ipVersion) := by cases p.ipVersion <;> decide
  have hquick : NulFree (if p.quickReconnect then "1" else "0") := by cases p.quickReconnect <;> decide
  exact (sets_protocol p)
    |>.append (sets_scan p)
    |>.append (sets_flag (arm_ipFlag p) hip)
    |>.append (sets_flag (arm_quickReconnect p.quickReconnect) hquick)
    |>.append (sets_noize p)
    |>.append (sets_optionIf arm_peer (t := .typed (trim p.manualPeer)) (p.hasManualPeer = true)
      fun hp => nulFree_trim (h.peer hp))
    |>.append (sets_flagIf arm_fragment (by decide) (p.fragment = true))
    |>.append (sets_optionIf arm_ech (t := .word "auto") (p.ech = true) fun _ => by decide)
    |>.append (sets_optionIf arm_keepalive (t := .word (intToString p.keepalive)) (p.keepalive > 0)
      fun _ => nulFree_intToString _)

theorem sets_routingTokens {p : ConnectionProfile} (h : Passable p) :
    Sets p.routingTokens (routingVariables p) := by
  have hdns : ∀ v ∈ ConnectionProfile.joined p.sanitizedDns, NulFree v :=
    fun v hv => nulFree_joined (by decide) hv
  have hrules (raw : String) : ∀ v ∈ ConnectionProfile.joined (ConnectionProfile.sanitizedRules raw), NulFree v :=
    fun v hv => nulFree_joined (by decide) hv
  exact (sets_typedOption arm_dns hdns)
    |>.append (sets_optionIf arm_team (t := .typed (trim p.team)) (p.hasTeam = true)
      fun ht => nulFree_trim (h.team ht))
    |>.append (sets_flagIf arm_gateway (by decide) ((p.hasTeam && p.gateway) = true))
    |>.append (sets_typedOption arm_routeBlock (hrules p.routeBlock))
    |>.append (sets_typedOption arm_routeDirect (hrules p.routeDirect))

theorem sets_tuningTokens (p : ConnectionProfile) : Sets p.tuningTokens (tuningVariables p) := by
  have hrange (raw : String) :
      ∀ v ∈ (if p.fragment then ConnectionProfile.sanitizedRange raw else none), NulFree v := by
    intro v hv
    split_ifs at hv
    · exact nulFree_entry (by decide) hv
    · cases hv
  have htls : ∀ v ∈ p.sanitizedTlsGroups, NulFree v := fun v hv => nulFree_entry (by decide) hv
  exact (sets_typedOption arm_fragmentSize (hrange p.fragmentSize))
    |>.append (sets_typedOption arm_fragmentDelay (hrange p.fragmentDelay))
    |>.append (sets_typedOption arm_tlsGroups htls)
    |>.append (sets_optionIf arm_validateSecs (t := .word (intToString (Profile.coerceIn p.validateSecs 1 3600)))
      (p.validateSecs > 0) fun _ => nulFree_intToString _)
    |>.append (sets_optionIf arm_reconnectSecs (t := .word (intToString (Profile.coerceIn p.reconnectSecs 1 600)))
      (p.reconnectSecs > 0) fun _ => nulFree_intToString _)
    |>.append (sets_flagIf arm_noProfileRetry (by decide) (p.noProfileRetry = true))

/-- The words of the whole line set exactly what the profile prescribes. -/
theorem sets_toTokens {p : ConnectionProfile} (h : Passable p) : Sets p.toTokens (prescribed p) :=
  ((sets_connectionTokens h).append (sets_routingTokens h)).append (sets_tuningTokens p)

theorem framed_protocol (p : ConnectionProfile) : Framed p.protocolTokens := by
  unfold ConnectionProfile.protocolTokens
  cases p.protocol with
  | auto => exact framed_nil
  | masque => exact framed_flag rfl
  | wireguard => exact framed_flag rfl
  | gool => exact framed_flag rfl

/-- The words of the whole line are read in the roles they were written for. -/
theorem framed_toTokens (p : ConnectionProfile) : Framed p.toTokens := by
  have hconnection : Framed p.connectionTokens := (framed_protocol p)
    |>.append ((framed_flag (arm_scanFlag p)).ite _)
    |>.append (framed_flag (arm_ipFlag p))
    |>.append (framed_flag (arm_quickReconnect p.quickReconnect))
    |>.append ((framed_option arm_noize _).ite _)
    |>.append ((framed_option arm_peer _).ite _)
    |>.append ((framed_flag arm_fragment).ite _)
    |>.append ((framed_option arm_ech _).ite _)
    |>.append ((framed_option arm_keepalive _).ite _)
  have hrouting : Framed p.routingTokens := (framed_typedOption arm_dns _)
    |>.append ((framed_option arm_team _).ite _)
    |>.append ((framed_flag arm_gateway).ite _)
    |>.append (framed_typedOption arm_routeBlock _)
    |>.append (framed_typedOption arm_routeDirect _)
  have htuning : Framed p.tuningTokens := (framed_typedOption arm_fragmentSize _)
    |>.append (framed_typedOption arm_fragmentDelay _)
    |>.append (framed_typedOption arm_tlsGroups _)
    |>.append ((framed_option arm_validateSecs _).ite _)
    |>.append ((framed_option arm_reconnectSecs _).ite _)
    |>.append ((framed_flag arm_noProfileRetry).ite _)
  exact (hconnection.append hrouting).append htuning

theorem guarded_roles (p : ConnectionProfile) : Guarded p.toTokens (roles p.toArgs) := by
  obtain ⟨rs, hg, hrs⟩ := framed_toTokens p
  have hroles : roles p.toArgs = rs := by
    have h := hrs []
    rw [List.append_nil, roles, List.append_nil] at h
    exact h
  rw [hroles]
  exact hg

theorem prescribed_nodup (p : ConnectionProfile) : ((prescribed p).map Prod.fst).Nodup := by
  show ["AETHER_PROTOCOL", "AETHER_SCAN", "AETHER_IP", "AETHER_QUICK_RECONNECT", "AETHER_NOIZE",
    "AETHER_PEER", "AETHER_MASQUE_H2_FRAGMENT", "AETHER_ECH", "AETHER_WG_KEEPALIVE", "AETHER_DNS",
    "AETHER_TEAM", "AETHER_GATEWAY", "AETHER_ROUTE_BLOCK", "AETHER_ROUTE_DIRECT",
    "AETHER_MASQUE_H2_FRAGMENT_SIZE", "AETHER_MASQUE_H2_FRAGMENT_DELAY", "AETHER_TLS_GROUPS",
    "AETHER_MASQUE_VALIDATE_SECS", "AETHER_WG_VALIDATE_SECS", "AETHER_MASQUE_RECONNECT_SECS",
    "AETHER_WG_RECONNECT_SECS", "AETHER_WG_NO_PROFILE_RETRY"].Nodup
  decide

/-- **The engine reads the app's command line as it was meant**: parsing succeeds; a
variable that the profile prescribes has the prescribed value and every other one is as
the app put it; no word the user typed is read as an option; and the credentials and the
upstream proxy do not show on the command line. -/
theorem parseArgs_toArgs (p : ConnectionProfile) (h : Passable p) :
    parseArgs p.toArgs p.toEnv =
        .ok (fun key => (((prescribed p).lookup key).join).or (p.toEnv key)) ∧
      Guarded p.toTokens (roles p.toArgs) ∧
      ∀ secret token id email proxy, ConnectionProfile.toArgs
        {p with
          accessClientSecret := secret
          accessToken := token
          accessClientId := id
          accessEmail := email
          upstreamProxy := proxy} = p.toArgs := by
  refine ⟨?_, guarded_roles p, fun _ _ _ _ _ => rfl⟩
  have hsets := sets_toTokens h [] p.toEnv
  rw [List.append_nil] at hsets
  rw [ConnectionProfile.toArgs, hsets, parseArgs, Env.overlay_eq (prescribed_nodup p)]

/-- A profile whose pinned peer is an option's name. -/
def dashes : ConnectionProfile := {protocol := .masque, endpointMode := .manualPeer, manualPeer := "--help"}

theorem parseArgs_dashes : Passable dashes ∧
    parseArgs dashes.toArgs dashes.toEnv =
      .ok (fun key => (((prescribed dashes).lookup key).join).or (dashes.toEnv key)) := by
  have h : Passable dashes := ⟨fun _ => by decide, fun _ => by decide⟩
  exact ⟨h, (parseArgs_toArgs dashes h).1⟩

/-- A profile whose pinned peer is a NUL character. -/
def nulPeer : ConnectionProfile := {protocol := .masque, endpointMode := .manualPeer, manualPeer := "\x00"}

/-- The value of `--peer` cannot be put into the environment. -/
theorem parseArgs_nulPeer : nulPeer.protocol ≠ .auto ∧ ¬ ∃ env, parseArgs nulPeer.toArgs nulPeer.toEnv = .ok env := by
  have hpanic : parseArgs nulPeer.toArgs nulPeer.toEnv = .panicked := rfl
  refine ⟨nofun, ?_⟩
  rw [hpanic]
  intro hok
  obtain ⟨env, h⟩ := hok
  cases h

end Aether.Engine
