import Aether.Profile.Transport

/-! Where the profile is kept between two starts of the app.

`save` writes every field but two to the preferences file, in one edit, and then the client
secret and the enrolment token to the secret store, which seals them. `load` is the profile
that the two stores hold.

The secret store is a `Vault`. Of one that gives back what was written, a profile with plain
package lists is loaded as it was saved (`loads_saved`); the app's own drops a blank value, and
nothing else (`loads_saved_secretStore`). -/
namespace Aether.Profile.Store
open Kotlin Codec

instance : EnumClass TeamAuth where
  entries := [.off, .serviceToken, .email, .token]
  name := fun
    | .off => "OFF"
    | .serviceToken => "SERVICE_TOKEN"
    | .email => "EMAIL"
    | .token => "TOKEN"
  mem_entries := by intro a; cases a <;> decide
  name_nodup := by decide
  name_oneLine := by decide

/-! ### Tables -/

section Tables
variable {κ α : Type} [DecidableEq κ]

/-- The entries of a table are written one after another. -/
def putAll (table : List (κ × α)) (map : κ → Option α) : κ → Option α :=
  table.foldl (fun map entry => Function.update map entry.1 (some entry.2)) map

theorem putAll_of_notMem {table : List (κ × α)} {key : κ} (h : key ∉ table.map Prod.fst) (map : κ → Option α) :
    putAll table map key = map key := by
  induction table generalizing map with
  | nil => rfl
  | cons entry rest ih =>
    rw [List.map_cons, List.mem_cons, not_or] at h
    have hrest : putAll rest (Function.update map entry.1 (some entry.2)) key = _ := ih h.2 _
    exact hrest.trans (Function.update_of_ne h.1 ..)

/-- Where no key is written twice, every entry is found, whatever was there before. -/
theorem putAll_of_mem {table : List (κ × α)} (hnodup : (table.map Prod.fst).Nodup) {entry : κ × α}
    (h : entry ∈ table) (map : κ → Option α) : putAll table map entry.1 = some entry.2 := by
  induction table generalizing map with
  | nil => cases h
  | cons first rest ih =>
    rw [List.map_cons, List.nodup_cons] at hnodup
    rcases List.mem_cons.mp h with rfl | h
    · have hrest : putAll rest (Function.update map entry.1 (some entry.2)) entry.1 = _ :=
        putAll_of_notMem hnodup.1 _
      exact hrest.trans (Function.update_self ..)
    · exact ih hnodup.2 h _

end Tables

/-! ### The preferences file -/

/-- A value under a key of a preferences file. -/
inductive Value where
  | string (s : String)
  | boolean (b : Bool)
  | int (n : Int32)
  deriving DecidableEq

abbrev Preferences := String → Option Value

namespace Preferences
variable (prefs : Preferences) (key : String)

/-- The value under a `stringPreferencesKey`. -/
def string : Option String := (prefs key).bind fun
  | .string s => some s
  | _ => none

/-- The value under a `booleanPreferencesKey`. -/
def boolean : Option Bool := (prefs key).bind fun
  | .boolean b => some b
  | _ => none

/-- The value under an `intPreferencesKey`. -/
def int : Option Int32 := (prefs key).bind fun
  | .int n => some n
  | _ => none

/-- The constant whose name is under the key. -/
def enum (α : Type) [EnumClass α] : Option α := (string prefs key).bind (enumValueOf α)

def apps : Option (List String) := (string prefs key).map appList

end Preferences

/-- What `save` writes in its edit. -/
def entries (p : ConnectionProfile) : List (String × Value) :=
  [("protocol", .string (name p.protocol)),
    ("scan", .string (name p.scanMode)),
    ("ip", .string (name p.ipVersion)),
    ("quick", .boolean p.quickReconnect),
    ("h2", .boolean p.masqueHttp2),
    ("share", .boolean p.lanShare),
    ("noize", .string (name p.noize)),
    ("endpoint", .string (name p.endpointMode)),
    ("peer", .string p.manualPeer),
    ("range", .string p.manualRange),
    ("keepalive", .int p.keepalive),
    ("fragment", .boolean p.fragment),
    ("ech", .boolean p.ech),
    ("mtu", .int p.mtu),
    ("proxy", .boolean p.proxyMode),
    ("split", .string (name p.splitMode)),
    ("splitApps", .string (joinToString ',' p.splitApps)),
    ("dns", .string p.dnsServers),
    ("team", .string p.team),
    ("teamAuth", .string (name p.teamAuth)),
    ("accessId", .string p.accessClientId),
    ("accessEmail", .string p.accessEmail),
    ("gateway", .boolean p.gateway),
    ("routeBlock", .string p.routeBlock),
    ("routeDirect", .string p.routeDirect),
    ("killSwitch", .boolean p.killSwitch),
    ("strictKillSwitch", .boolean p.strictKillSwitch),
    ("ipv6Leak", .boolean p.ipv6LeakProtection),
    ("smartReconnect", .boolean p.smartReconnect),
    ("reconnectRetryLimit", .int p.reconnectRetryLimit),
    ("fragmentSize", .string p.fragmentSize),
    ("fragmentDelay", .string p.fragmentDelay),
    ("noDataCheck", .boolean p.noDataCheck),
    ("tlsGroups", .string p.tlsGroups),
    ("validateSecs", .int p.validateSecs),
    ("reconnectSecs", .int p.reconnectSecs),
    ("noProfileRetry", .boolean p.noProfileRetry),
    ("coreLogLevel", .string (name p.coreLogLevel)),
    ("blockedApps", .string (joinToString ',' p.blockedApps)),
    ("upstreamProxy", .string p.upstreamProxy),
    ("routeSniff", .boolean p.routeSniff),
    ("routeSniffMs", .int p.routeSniffMs),
    ("autoReprovision", .boolean p.autoReprovision),
    ("psiphonEnabled", .boolean p.psiphonEnabled),
    ("psiphonRegion", .string (name p.psiphonRegion)),
    ("psiphonProtocols", .string p.psiphonProtocols),
    ("psiphonTimeout", .int p.psiphonTimeout),
    ("psiphonDns", .string p.psiphonDns)]

/-- The edit of `save`. -/
def edit (p : ConnectionProfile) (prefs : Preferences) : Preferences := putAll (entries p) prefs

/-- The profile of the preferences and the two secrets: the mapping of `profile`. -/
def profileOf (prefs : Preferences) (secret token : String) : ConnectionProfile :=
  let d : ConnectionProfile := {}
  -- a file from before Psiphon is given the default scan mode
  let isUpgrade := (prefs "psiphonEnabled").isNone
  let loadedScanMode := prefs.enum "scan" ScanMode
  { protocol := (prefs.enum "protocol" Protocol).getD .auto
    scanMode := if isUpgrade then .turbo else loadedScanMode.getD .turbo
    ipVersion := (prefs.enum "ip" IpVersion).getD .v4
    quickReconnect := (prefs.boolean "quick").getD true
    masqueHttp2 := (prefs.boolean "h2").getD false
    lanShare := (prefs.boolean "share").getD false
    noize := (prefs.enum "noize" Noize).getD .off
    endpointMode := (prefs.enum "endpoint" EndpointMode).getD .auto
    manualPeer := (prefs.string "peer").getD ""
    manualRange := (prefs.string "range").getD ""
    keepalive := (prefs.int "keepalive").getD 0
    fragment := (prefs.boolean "fragment").getD false
    ech := (prefs.boolean "ech").getD false
    mtu := (prefs.int "mtu").getD d.mtu
    proxyMode := (prefs.boolean "proxy").getD false
    splitMode := (prefs.enum "split" SplitMode).getD .off
    splitApps := (prefs.apps "splitApps").getD []
    dnsServers := (prefs.string "dns").getD ""
    team := (prefs.string "team").getD ""
    teamAuth := (prefs.enum "teamAuth" TeamAuth).getD .off
    accessClientId := (prefs.string "accessId").getD ""
    accessClientSecret := secret
    accessEmail := (prefs.string "accessEmail").getD ""
    accessToken := token
    gateway := (prefs.boolean "gateway").getD false
    routeBlock := (prefs.string "routeBlock").getD ""
    routeDirect := (prefs.string "routeDirect").getD ""
    killSwitch := (prefs.boolean "killSwitch").getD false
    strictKillSwitch := (prefs.boolean "strictKillSwitch").getD false
    ipv6LeakProtection := (prefs.boolean "ipv6Leak").getD true
    smartReconnect := (prefs.boolean "smartReconnect").getD true
    reconnectRetryLimit := (prefs.int "reconnectRetryLimit").getD 5
    fragmentSize := (prefs.string "fragmentSize").getD ""
    fragmentDelay := (prefs.string "fragmentDelay").getD ""
    noDataCheck := (prefs.boolean "noDataCheck").getD false
    tlsGroups := (prefs.string "tlsGroups").getD ""
    validateSecs := (prefs.int "validateSecs").getD 0
    reconnectSecs := (prefs.int "reconnectSecs").getD 0
    noProfileRetry := (prefs.boolean "noProfileRetry").getD false
    coreLogLevel := (prefs.enum "coreLogLevel" CoreLogLevel).getD .warn
    blockedApps := (prefs.apps "blockedApps").getD []
    upstreamProxy := (prefs.string "upstreamProxy").getD ""
    routeSniff := (prefs.boolean "routeSniff").getD true
    routeSniffMs := (prefs.int "routeSniffMs").getD 0
    autoReprovision := (prefs.boolean "autoReprovision").getD true
    psiphonEnabled := (prefs.boolean "psiphonEnabled").getD d.psiphonEnabled
    psiphonRegion := (prefs.enum "psiphonRegion" PsiphonRegion).getD d.psiphonRegion
    psiphonProtocols := (prefs.string "psiphonProtocols").getD d.psiphonProtocols
    psiphonTimeout := (prefs.int "psiphonTimeout").getD d.psiphonTimeout
    psiphonDns := (prefs.string "psiphonDns").getD d.psiphonDns }

/-! ### The secret store -/

/-- A store of named secrets, with states `σ`. -/
structure Vault (σ : Type) where
  read : String → σ → String
  write : String → String → σ → σ

/-- `ACCESS_SECRET` -/
def accessSecret : String := "access_client_secret"

/-- `ACCESS_TOKEN` -/
def accessTokenName : String := "access_token"

/-- A value that is written is read back. -/
def Vault.Returns {σ : Type} (vault : Vault σ) (value : String) : Prop :=
  ∀ name s, vault.read name (vault.write name value s) = value

/-- A write under one name leaves the others alone. -/
def Vault.Apart {σ : Type} (vault : Vault σ) : Prop :=
  ∀ name other value s, other ≠ name → vault.read other (vault.write name value s) = vault.read other s

/-- `SecretStore`, but for the cipher: a blank value clears the entry. -/
def secretStore : Vault (String → Option String) where
  read name s := (s name).getD ""
  write name value s := Function.update s name (if isBlank value then none else some value)

/-- What the secret store gives back for a value. -/
def kept (value : String) : String := if isBlank value then "" else value

theorem read_write_secretStore (name value : String) (s : String → Option String) :
    secretStore.read name (secretStore.write name value s) = kept value := by
  show (Function.update s name _ name).getD "" = _
  rw [Function.update_self, kept]
  split <;> rfl

theorem apart_secretStore : secretStore.Apart := by
  intro name other value s hne
  show (Function.update s name _ other).getD "" = _
  rw [Function.update_of_ne hne]
  rfl

theorem returns_secretStore {value : String} (h : isBlank value = false) : secretStore.Returns value := by
  intro name s
  rw [read_write_secretStore, kept, h]
  rfl

/-! ### Saving and loading -/

structure Stores (σ : Type) where
  prefs : Preferences
  secrets : σ

section
variable {σ : Type} (vault : Vault σ)

def load (stores : Stores σ) : ConnectionProfile :=
  profileOf stores.prefs (vault.read accessSecret stores.secrets) (vault.read accessTokenName stores.secrets)

def save (p : ConnectionProfile) (stores : Stores σ) : Stores σ where
  prefs := edit p stores.prefs
  secrets := vault.write accessTokenName p.accessToken (vault.write accessSecret p.accessClientSecret stores.secrets)

end

/-- No two fields have one key. -/
theorem entries_nodup (p : ConnectionProfile) : ((entries p).map Prod.fst).Nodup := by
  have hkeys : (entries p).map Prod.fst = (entries {}).map Prod.fst := rfl
  rw [hkeys]
  decide +kernel

/-- The preferences of a profile, with its secrets, are the profile. -/
theorem profileOf_edit {p : ConnectionProfile} (hsplit : PlainApps p.splitApps) (hblocked : PlainApps p.blockedApps)
    (prefs : Preferences) (secret token : String) :
    profileOf (edit p prefs) secret token = {p with accessClientSecret := secret, accessToken := token} := by
  have h : ∀ e ∈ entries p, edit p prefs e.1 = some e.2 := fun e he => putAll_of_mem (entries_nodup p) he prefs
  generalize edit p prefs = prefs at h
  simp only [entries, List.forall_mem_cons, List.not_mem_nil, false_imp_iff, implies_true, and_true] at h
  simp only [profileOf, Preferences.apps, Preferences.enum, Preferences.string, Preferences.boolean, Preferences.int,
    h, Option.bind_some, Option.map_some, Option.getD_some, Option.isNone_some, Bool.false_eq_true, ↓reduceIte,
    enumValueOf_name, appList_joinToString hsplit, appList_joinToString hblocked]

/-- **A saved profile is loaded as it was, whatever was stored before**, from a secret store that
gives back what was written last. -/
theorem loads_saved {σ : Type} {vault : Vault σ} (hapart : vault.Apart) {p : ConnectionProfile}
    (hsplit : PlainApps p.splitApps) (hblocked : PlainApps p.blockedApps)
    (hsecret : vault.Returns p.accessClientSecret) (htoken : vault.Returns p.accessToken) (stores : Stores σ) :
    load vault (save vault p stores) = p := by
  have hfirst : vault.read accessSecret (save vault p stores).secrets = p.accessClientSecret := by
    show vault.read accessSecret (vault.write accessTokenName _ _) = _
    rw [hapart _ _ _ _ (by decide), hsecret]
  have hsecond : vault.read accessTokenName (save vault p stores).secrets = p.accessToken := htoken ..
  rw [load, hfirst, hsecond]
  exact profileOf_edit hsplit hblocked ..

/-- From the app's own secret store it comes back without its blank secrets. -/
theorem loads_saved_secretStore {p : ConnectionProfile} (hsplit : PlainApps p.splitApps)
    (hblocked : PlainApps p.blockedApps) (stores : Stores (String → Option String)) :
    load secretStore (save secretStore p stores) =
      {p with accessClientSecret := kept p.accessClientSecret, accessToken := kept p.accessToken} := by
  have hfirst : secretStore.read accessSecret (save secretStore p stores).secrets = kept p.accessClientSecret := by
    show secretStore.read accessSecret (secretStore.write accessTokenName _ _) = _
    rw [apart_secretStore _ _ _ _ (by decide), read_write_secretStore]
  have hsecond : secretStore.read accessTokenName (save secretStore p stores).secrets = kept p.accessToken :=
    read_write_secretStore ..
  rw [load, hfirst, hsecond]
  exact profileOf_edit hsplit hblocked ..

/-- A profile of an organization, with an app left out of the tunnel. -/
def enrolled : ConnectionProfile where
  splitMode := .exclude
  splitApps := ["com.example.bank", "com.example.mail"]
  team := "acme"
  teamAuth := .serviceToken
  accessClientId := "id"
  accessClientSecret := "secret"
  accessToken := "token"
  killSwitch := true

theorem plainApps_enrolled : PlainApps enrolled.splitApps ∧ PlainApps enrolled.blockedApps := by
  rw [PlainApps, PlainApps]
  decide +kernel

theorem loads_saved_enrolled :
    load secretStore (save secretStore enrolled ⟨fun _ => none, fun _ => none⟩) = enrolled :=
  loads_saved apart_secretStore plainApps_enrolled.1 plainApps_enrolled.2 (returns_secretStore (by decide +kernel))
    (returns_secretStore (by decide +kernel)) _

end Aether.Profile.Store
