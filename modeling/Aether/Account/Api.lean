import Aether.Account.Identity
import Aether.Rust.Text

/-! The account API.

A request goes over the direct route, up to five times, and over a camouflaged one when that
fails. An answer of 401, 404 or 410 says that the identity is no longer accepted; on the
direct route it ends the attempts. What becomes of it then depends on the other route:
`fetch_device` gives the second error, and `enroll_key` an error that says neither
(`fetchDevice_refused`, `throughBoth_refused`).

A message is cut at a byte, and where that lies inside a character the task panics
(`describeRejection`). -/
namespace Aether.Account

/-! ### Answers -/

/-- `serde_json::Value`; a number as far as `as_i64` has it. -/
inductive Json where
  | null
  | bool (value : Bool)
  | number (value : Option Int)
  | string (value : String)
  | array (items : List Json)
  | object (fields : List (String × Json))

namespace Json

def get (key : String) : Json → Option Json
  | object fields => fields.lookup key
  | _ => none

def asArray : Json → Option (List Json)
  | array items => some items
  | _ => none

def asStr : Json → Option String
  | string value => some value
  | _ => none

def asInt : Json → Option Int
  | number value => value
  | _ => none

end Json

structure Peer where
  publicKey : String
  /-- `endpoint.v4`. -/
  endpoint : String
  deriving DecidableEq

structure AccountData where
  id : String
  token : String := ""
  /-- `config.interface.addresses`. -/
  ipv4 : String := ""
  ipv6 : String := ""
  peers : List Peer := []
  clientId : String := ""
  /-- `config.services.http_proxy`. -/
  httpProxy : String := ""
  /-- `account.organization`. -/
  organization : String := ""
  deriving DecidableEq

/-- What an attempt on the direct route comes to. -/
inductive Attempt where
  /-- There is no client to send it with. -/
  | unbuilt (error : String)
  | unsent (error : String)
  /-- An answer, whose body may break off. -/
  | answered (status : UInt16) (body : Except String String)

structure ApiResponse where
  status : UInt16
  body : String
  route : String
  deriving DecidableEq

/-- What an exchange with an edge comes to; it fails with its own errors only. -/
inductive Exchange where
  | answered (response : ApiResponse)
  | api (error : String)
  | tls (error : String)
  /-- A chunked body was cut inside a character. -/
  | panicked

/-- One request: the attempts on the direct route, and the exchanges over the camouflaged one
in the order in which edges and fingerprints are tried. -/
structure Call where
  direct : List.Vector Attempt 5
  exchanges : List Exchange

/-- What ends a task early. -/
inductive Failure where
  | error (e : AetherError)
  | panicked
  deriving DecidableEq

abbrev Outcome (α : Type) := Except Failure α

def failed {α : Type} (e : AetherError) : Outcome α := .error (.error e)

/-- JSON, base64 and the texts of status codes. -/
structure Wire where
  json : String → Option Json
  account : String → Except String AccountData
  status : UInt16 → String
  decode : String → Except String Bytes

section Api
variable (wire : Wire)

/-! ### Rejections -/

def isSuccess (status : UInt16) : Bool := 200 ≤ status && status < 300

def refusesIdentity (status : UInt16) : Bool := status == 401 || status == 404 || status == 410

def worthRetrying (status : UInt16) : Bool := status == 429 || status == 408 || (500 ≤ status && status < 600)

def describeEntry (entry : Json) : String :=
  let message := ((entry.get "message").bind Json.asStr).getD "unknown"
  match (entry.get "code").bind Json.asInt with
  | some code => message ++ " (code " ++ toString code ++ ")"
  | none => message

def extractApiError (body : String) : Option String := do
  let value ← wire.json body
  let errors ← (← value.get "errors").asArray
  let parts := errors.map describeEntry
  if parts.isEmpty then none else some (String.intercalate "; " parts)

/-- What a body says of a rejection, as far as it can be cut. -/
def rejectionDetail (body : String) : Option String :=
  match extractApiError wire body with
  | some detail => some detail
  | none =>
    let trimmed := Rust.trim body
    if trimmed.isEmpty then some "no details returned"
    else if 220 < trimmed.utf8ByteSize then (Rust.sliceTo 220 trimmed).map (· ++ "…")
    else some trimmed

def rejectionHint (status : UInt16) : String :=
  if status = 403 then
    " (cloudflare refused this network; the address looks flagged, " ++
      "try again later, switch network, or import an existing identity)"
  else if status = 429 then
    " (too many registrations from this address; wait a few minutes " ++ "before trying again)"
  else ""

/-- `describe_rejection`; `none` where the slice panics. -/
def describeRejection (status : UInt16) (body : String) : Option String :=
  (rejectionDetail wire body).map fun detail =>
    "status " ++ wire.status status ++ ": " ++ detail ++ rejectionHint status

/-- `describe_status`. -/
def describeStatus (status : UInt16) (body : String) : Option String :=
  if 100 ≤ status ∧ status ≤ 999 then describeRejection wire status body
  else some ("status " ++ toString status.toNat ++ ": " ++ body)

/-! ### Routes -/

/-- The error of an answer that is not a success. -/
def rejection (label : String) (status : UInt16) (described : String) : AetherError :=
  if refusesIdentity status then .identityRefused (label ++ ": " ++ described)
  else .api (label ++ ": " ++ described)

/-- `send_with_retry`, from an attempt on. -/
def sendFrom (label : String) (lastError : AetherError) : List Attempt → Outcome AccountData
  | [] => failed lastError
  | .unbuilt e :: _ => failed (.api e)
  | .unsent e :: rest => sendFrom label (.api (label ++ ": " ++ e)) rest
  | .answered _ (.error e) :: _ => failed (.api (label ++ ": " ++ e))
  | .answered status (.ok body) :: rest =>
    if isSuccess status then
      match wire.account body with
      | .ok account => .ok account
      | .error e => failed (.api (label ++ " decode: " ++ e ++ "; body=" ++ body))
    else
      match describeRejection wire status body with
      | none => .error .panicked
      | some described =>
        if worthRetrying status then sendFrom label (rejection label status described) rest
        else failed (rejection label status described)

/-- `send_with_retry`. -/
def sendWithRetry (label : String) (direct : List.Vector Attempt 5) : Outcome AccountData :=
  sendFrom wire label (.api (label ++ ": no attempt was made")) direct.toList

/-- `apifront::fetch`, from an exchange on. -/
def fetchFrom (rejection : Option ApiResponse) (failure : Option AetherError) : List Exchange → Outcome ApiResponse
  | [] =>
    match rejection with
    | some response => .ok response
    | none => failed (failure.getD (.api "every camouflaged route failed"))
  | .answered response :: rest =>
    if isSuccess response.status then .ok response
    else fetchFrom (if rejection.isNone || response.status != 403 then some response else rejection) failure rest
  | .api e :: rest => fetchFrom rejection (some (.api e)) rest
  | .tls e :: rest => fetchFrom rejection (some (.tls e)) rest
  | .panicked :: _ => .error .panicked

/-- `apifront::fetch`. -/
def fetch (exchanges : List Exchange) : Outcome ApiResponse :=
  if exchanges.isEmpty then failed (.api "no camouflaged route to the api was available")
  else fetchFrom none none exchanges

/-- `fallback_call`. -/
def fallbackCall (label : String) (exchanges : List Exchange) : Outcome AccountData :=
  match fetch exchanges with
  | .error e => .error e
  | .ok response =>
    if isSuccess response.status then
      match wire.account response.body with
      | .ok account => .ok account
      | .error e =>
        failed (.api (label ++ " decode over " ++ response.route ++ ": " ++ e ++ "; body=" ++ response.body))
    else
      match describeStatus wire response.status response.body with
      | none => .error .panicked
      | some described => failed (rejection (label ++ " over " ++ response.route) response.status described)

/-- `fetch_device`. -/
def fetchDevice (call : Call) : Outcome AccountData :=
  match sendWithRetry wire "device refresh" call.direct with
  | .error (.error _) => fallbackCall wire "device refresh" call.exchanges
  | direct => direct

/-- A request whose error names both routes. -/
def throughBoth (label : String) (call : Call) : Outcome AccountData :=
  match sendWithRetry wire label call.direct with
  | .error (.error direct) =>
    match fallbackCall wire label call.exchanges with
    | .error (.error camouflaged) =>
      failed (.api (label ++ ": direct route -> " ++ direct.display ++ "; camouflaged route -> " ++
        camouflaged.display))
    | other => other
  | direct => direct

def enrollKey (call : Call) : Outcome AccountData := throughBoth wire "key enrollment" call

def register (call : Call) : Outcome AccountData := throughBoth wire "registration" call

def registerWithTeam (call : Call) : Outcome AccountData := throughBoth wire "team registration" call

/-! ### Profiles -/

/-- `endpoint_from`. -/
def endpointFrom (reg : AccountData) : String :=
  let raw := (reg.peers.head?.map fun peer => Rust.trim peer.endpoint).getD ""
  match Rust.rsplitOnce ':' raw with
  | some (host, _) => if host.isEmpty then raw else host
  | none => raw

/-- `refresh_profile`. -/
def refreshProfile (call : Call) (identity : Identity) : Outcome Identity :=
  match fetchDevice wire call with
  | .error .panicked => .error .panicked
  | .error (.error (.identityRefused _)) => .ok {identity with refused := true}
  | .error (.error _) => .ok identity
  | .ok reg =>
    let ipv4 := Rust.trim reg.ipv4
    let ipv6 := Rust.trim reg.ipv6
    .ok {identity with
      ipv4 := if ipv4.isEmpty then identity.ipv4 else ipv4
      ipv6 := if ipv6.isEmpty then identity.ipv6 else ipv6
      organization := Rust.trim reg.organization
      gatewayProxy := Rust.trim reg.httpProxy
      assignedEndpoint := endpointFrom reg
      refused := false}

/-- `extract_wg_peer`. -/
def extractWgPeer (reg : AccountData) : Except AetherError (List.Vector UInt8 32) :=
  match reg.peers with
  | [] => .error (.api "no peers in registration response")
  | peer :: _ =>
    match wire.decode peer.publicKey with
    | .error e => .error (.api ("decode peer pubkey: " ++ e))
    | .ok decoded =>
      if h : decoded.length = 32 then .ok ⟨decoded, h⟩ else .error (.api "invalid peer pubkey length")

/-- The client of a registration; zeros where it is not three bytes. -/
def registeredClient (reg : AccountData) : List.Vector UInt8 3 :=
  match wire.decode reg.clientId with
  | .ok decoded => if h : decoded.length = 3 then ⟨decoded, h⟩ else List.Vector.replicate 3 0
  | .error _ => List.Vector.replicate 3 0

/-- `finish_provision`. -/
def finishProvision (reg : AccountData) (wgPrivate : List.Vector UInt8 32) : Except AetherError Identity :=
  if reg.token.isEmpty then .error (.api "registration returned empty token")
  else
    match extractWgPeer wire reg with
    | .error e => .error e
    | .ok wgPeerPublicKey => .ok {
        deviceId := reg.id
        accessToken := reg.token
        certPem := []
        keyPem := []
        certIssuedAt := 0
        ipv4 := reg.ipv4
        ipv6 := reg.ipv6
        wgPrivateKey := wgPrivate
        wgPeerPublicKey
        clientId := if reg.clientId.isEmpty then List.Vector.replicate 3 0 else registeredClient wire reg
        organization := Rust.trim reg.organization
        gatewayProxy := Rust.trim reg.httpProxy
        assignedEndpoint := endpointFrom reg
        refused := false}

/-! ### Certificates -/

structure MasqueKeyPair where
  keyPem : Bytes
  certPem : Bytes

/-- What an enrolment meets: the clock when the certificate is looked at, when an old one is
kept and when a new one is dated, a new pair of keys, and the request. -/
structure Enrolment where
  checked : Nat
  kept : Nat
  issued : UInt64
  keypair : Except String MasqueKeyPair
  call : Call

structure MasqueEnrollment where
  certPem : Bytes
  keyPem : Bytes
  issuedAt : UInt64
  renewed : Bool
  deriving DecidableEq

/-- The enrolment that keeps the certificate that is there. -/
def Identity.enrollment (identity : Identity) : MasqueEnrollment :=
  ⟨identity.certPem, identity.keyPem, identity.certIssuedAt, false⟩

/-- `ensure_masque_enrolled`. -/
def ensureMasqueEnrolled (e : Enrolment) (identity : Identity) : Outcome MasqueEnrollment :=
  if identity.hasMasqueCredentials e.checked then .ok identity.enrollment
  else
    match e.keypair with
    | .error error => failed (.tls error)
    | .ok keypair =>
      match enrollKey wire e.call with
      | .ok _ => .ok ⟨keypair.certPem, keypair.keyPem, e.issued, true⟩
      | .error .panicked => .error .panicked
      | .error (.error error) =>
        if identity.certStillUsable e.kept then .ok identity.enrollment else failed error

/-! ### Refusals -/

/-- After this attempt there is another. -/
def goesOn : Attempt → Bool
  | .unsent _ => true
  | .answered status (.ok body) =>
    !isSuccess status && (describeRejection wire status body).isSome && worthRetrying status
  | _ => false

/-- The attempt that the direct route ends with. -/
def lastAttempt : List Attempt → Option Attempt
  | [] => none
  | [attempt] => some attempt
  | attempt :: next :: rest => if goesOn wire attempt then lastAttempt (next :: rest) else some attempt

/-- The direct route ends with a status that refuses the identity. -/
def RefusedDirectly (call : Call) : Prop :=
  ∃ status body, lastAttempt wire call.direct.toList = some (.answered status body) ∧ refusesIdentity status = true

/-- No message about what the direct route ends with is cut inside a character. -/
def Legible (call : Call) : Prop :=
  ∀ status body, lastAttempt wire call.direct.toList = some (.answered status (.ok body)) →
    (describeRejection wire status body).isSome = true

/-- The answer that the camouflaged route settles on refuses the identity as well. -/
def RefusedAgain (call : Call) : Prop :=
  ∃ response, fetch call.exchanges = .ok response ∧ refusesIdentity response.status = true ∧
    (describeRejection wire response.status response.body).isSome = true

/-- The camouflaged route does not succeed. -/
def Fails (label : String) (call : Call) : Prop := ∀ account, fallbackCall wire label call.exchanges ≠ .ok account

/-- Neither route ends with a panic. -/
def Settles (label : String) (call : Call) : Prop :=
  Legible wire call ∧ fallbackCall wire label call.exchanges ≠ .error .panicked

variable {wire}

theorem not_isSuccess {status : UInt16} (h : refusesIdentity status = true) : isSuccess status = false := by
  rw [refusesIdentity, Bool.or_eq_true, Bool.or_eq_true, beq_iff_eq, beq_iff_eq, beq_iff_eq] at h
  rcases h with (rfl | rfl) | rfl <;> rfl

theorem not_worthRetrying {status : UInt16} (h : refusesIdentity status = true) : worthRetrying status = false := by
  rw [refusesIdentity, Bool.or_eq_true, Bool.or_eq_true, beq_iff_eq, beq_iff_eq, beq_iff_eq] at h
  rcases h with (rfl | rfl) | rfl <;> rfl

theorem describeStatus_refused {status : UInt16} (h : refusesIdentity status = true) (body : String) :
    describeStatus wire status body = describeRejection wire status body := by
  rw [refusesIdentity, Bool.or_eq_true, Bool.or_eq_true, beq_iff_eq, beq_iff_eq, beq_iff_eq] at h
  apply if_pos
  rcases h with (rfl | rfl) | rfl <;> decide

/-- A route goes on to the attempt that it ends with. -/
theorem sendFrom_goesOn (label : String) (lastError : AetherError) {attempt : Attempt} (rest : List Attempt)
    (h : goesOn wire attempt = true) :
    ∃ e, sendFrom wire label lastError (attempt :: rest) = sendFrom wire label e rest := by
  cases attempt with
  | unbuilt e => cases h
  | unsent e => exact ⟨_, rfl⟩
  | answered status body =>
    cases body with
    | error e => cases h
    | ok body =>
      rw [goesOn, Bool.and_eq_true, Bool.and_eq_true, Bool.not_eq_true', Option.isSome_iff_exists] at h
      obtain ⟨⟨hfailed, described, hdescribed⟩, hretry⟩ := h
      refine ⟨rejection label status described, ?_⟩
      rw [sendFrom, hfailed, if_neg Bool.false_ne_true, hdescribed]
      dsimp only
      rw [hretry, if_pos rfl]

theorem sendFrom_last (label : String) {last : Attempt} (attempts : List Attempt)
    (h : lastAttempt wire attempts = some last) (lastError : AetherError) :
    ∃ e rest, sendFrom wire label lastError attempts = sendFrom wire label e (last :: rest) := by
  induction attempts generalizing lastError with
  | nil => cases h
  | cons attempt rest ih =>
    cases rest with
    | nil =>
      rw [← Option.some.inj h]
      exact ⟨lastError, [], rfl⟩
    | cons next rest =>
      rw [lastAttempt] at h
      split at h
      case isTrue hgoes =>
        obtain ⟨e, he⟩ := sendFrom_goesOn label lastError (next :: rest) hgoes
        rw [he]
        exact ih h e
      case isFalse =>
        rw [← Option.some.inj h]
        exact ⟨lastError, next :: rest, rfl⟩

/-- A direct route that ends with a refusal fails, or panics over the message. -/
theorem sendWithRetry_refused (label : String) {call : Call} (h : RefusedDirectly wire call) :
    (Legible wire call → ∃ e, sendWithRetry wire label call.direct = failed e) ∧
      (¬ Legible wire call → sendWithRetry wire label call.direct = .error .panicked) := by
  obtain ⟨status, body, hlast, hrefuses⟩ := h
  obtain ⟨e, rest, hsend⟩ := sendFrom_last label _ hlast (.api (label ++ ": no attempt was made"))
  rw [sendWithRetry, hsend]
  cases body with
  | error broken =>
    constructor
    · intro _
      exact ⟨_, rfl⟩
    · intro hillegible
      apply absurd _ hillegible
      intro status' body' hlast'
      rw [hlast] at hlast'
      cases hlast'
  | ok body =>
    rw [sendFrom, not_isSuccess hrefuses, if_neg Bool.false_ne_true]
    cases hdescribed : describeRejection wire status body with
    | none =>
      constructor
      · intro hlegible
        have hsome := hlegible status body hlast
        rw [hdescribed] at hsome
        cases hsome
      · intro _
        rfl
    | some described =>
      dsimp only
      rw [not_worthRetrying hrefuses, if_neg Bool.false_ne_true]
      constructor
      · intro _
        exact ⟨_, rfl⟩
      · intro hillegible
        apply absurd _ hillegible
        intro status' body' hlast'
        rw [hlast] at hlast'
        cases hlast'
        rw [hdescribed]
        rfl

/-- The error of an answer says that the identity is refused exactly if the status does. -/
theorem rejection_eq (label : String) (status : UInt16) (described : String) :
    (∃ reason, rejection label status described = .identityRefused reason) ↔ refusesIdentity status = true := by
  rw [rejection]
  cases refusesIdentity status with
  | false =>
    constructor
    · rintro ⟨_, ⟨⟩⟩
    · intro h
      cases h
  | true => exact iff_of_true ⟨_, rfl⟩ rfl

theorem fetchFrom_error (rejection : Option ApiResponse) (failure : Option AetherError) (exchanges : List Exchange)
    (hfailure : ∀ reason, failure ≠ some (.identityRefused reason)) (reason : String) :
    fetchFrom rejection failure exchanges ≠ failed (.identityRefused reason) := by
  induction exchanges generalizing rejection failure with
  | nil =>
    cases rejection with
    | some response =>
      intro h
      cases h
    | none =>
      intro h
      rw [fetchFrom] at h
      cases failure with
      | none => cases h
      | some e =>
        obtain rfl : e = .identityRefused reason := by
          rw [Option.getD_some] at h
          cases h
          rfl
        exact hfailure reason rfl
  | cons exchange rest ih =>
    cases exchange with
    | answered response =>
      rw [fetchFrom]
      split
      · intro h
        cases h
      · exact ih _ _ hfailure
    | api e =>
      apply ih
      intro reason h
      cases h
    | tls e =>
      apply ih
      intro reason h
      cases h
    | panicked =>
      intro h
      cases h

/-- The camouflaged route says that the identity is refused exactly if the answer that it
settles on does. -/
theorem fallbackCall_refused (label : String) (call : Call) :
    (∃ reason, fallbackCall wire label call.exchanges = failed (.identityRefused reason)) ↔ RefusedAgain wire call := by
  have hfetch : ∀ reason, fetch call.exchanges ≠ failed (.identityRefused reason) := by
    intro reason
    rw [fetch]
    split
    · intro h
      cases h
    · apply fetchFrom_error
      intro reason h
      cases h
  rw [fallbackCall, RefusedAgain]
  cases hresponse : fetch call.exchanges with
  | error e =>
    constructor
    · rintro ⟨reason, h⟩
      obtain rfl : e = .error (.identityRefused reason) := Except.error.inj h
      exact absurd hresponse (hfetch reason)
    · rintro ⟨_, h, -⟩
      cases h
  | ok response =>
    dsimp only
    constructor
    · rintro ⟨reason, h⟩
      refine ⟨response, rfl, ?_⟩
      split at h
      · split at h <;> cases h
      · cases hdescribed : describeStatus wire response.status response.body with
        | none =>
          rw [hdescribed] at h
          cases h
        | some described =>
          rw [hdescribed] at h
          have hrejected : rejection (label ++ " over " ++ response.route) response.status described =
              .identityRefused reason := Failure.error.inj (Except.error.inj h)
          have hrefuses := (rejection_eq _ _ _).mp ⟨reason, hrejected⟩
          rw [describeStatus_refused hrefuses] at hdescribed
          rw [hdescribed]
          exact ⟨hrefuses, rfl⟩
    · rintro ⟨response', hsame, hrefuses, hdescribed⟩
      obtain rfl := Except.ok.inj hsame
      obtain ⟨described, hdescribed⟩ := Option.isSome_iff_exists.mp hdescribed
      rw [not_isSuccess hrefuses, if_neg Bool.false_ne_true, describeStatus_refused hrefuses, hdescribed]
      obtain ⟨reason, hreason⟩ := (rejection_eq (label ++ " over " ++ response.route) response.status described).mpr hrefuses
      exact ⟨reason, congrArg failed hreason⟩

/-- `fetch_device` gives the second route's error. -/
theorem fetchDevice_refused {call : Call} (h : RefusedDirectly wire call) :
    (∃ reason, fetchDevice wire call = failed (.identityRefused reason)) ↔ Legible wire call ∧ RefusedAgain wire call := by
  obtain ⟨hfails, hpanics⟩ := sendWithRetry_refused "device refresh" h
  rw [fetchDevice]
  by_cases hlegible : Legible wire call
  · obtain ⟨e, he⟩ := hfails hlegible
    rw [he]
    exact (fallbackCall_refused "device refresh" call).trans (and_iff_right hlegible).symm
  · rw [hpanics hlegible]
    constructor
    · rintro ⟨_, ⟨⟩⟩
    · rintro ⟨h, -⟩
      exact absurd h hlegible

/-- An identity that is not marked is marked exactly if the second route refuses it too. -/
theorem refreshProfile_refused {call : Call} (h : RefusedDirectly wire call) {identity : Identity}
    (hunmarked : identity.refused = false) :
    (∃ marked, refreshProfile wire call identity = .ok marked ∧ marked.refused = true) ↔
      Legible wire call ∧ RefusedAgain wire call := by
  rw [← fetchDevice_refused h, refreshProfile]
  constructor
  · rintro ⟨marked, hmarked, hrefused⟩
    split at hmarked
    · cases hmarked
    · exact ⟨_, by assumption⟩
    · rw [← Except.ok.inj hmarked, hunmarked] at hrefused
      cases hrefused
    · rw [← Except.ok.inj hmarked] at hrefused
      cases hrefused
  · rintro ⟨reason, hreason⟩
    rw [hreason]
    exact ⟨_, rfl, rfl⟩

/-- A request that fails on both routes says of neither that the identity is refused. -/
theorem throughBoth_refused {label : String} {call : Call} (h : RefusedDirectly wire call) (hfails : Fails wire label call) :
    (Settles wire label call → ∃ text, throughBoth wire label call = failed (.api text)) ∧
      (¬ Settles wire label call → throughBoth wire label call = .error .panicked) := by
  obtain ⟨hlegible, hillegible⟩ := sendWithRetry_refused label h
  rw [throughBoth]
  by_cases hdirect : Legible wire call
  · obtain ⟨direct, hsend⟩ := hlegible hdirect
    rw [hsend]
    show (_ → ∃ text, (match fallbackCall wire label call.exchanges with
      | .error (.error camouflaged) => failed (.api (label ++ ": direct route -> " ++ direct.display ++
          "; camouflaged route -> " ++ camouflaged.display))
      | other => other) = failed (.api text)) ∧ (_ → _ = _)
    cases hfallback : fallbackCall wire label call.exchanges with
    | ok account => exact absurd hfallback (hfails account)
    | error failure =>
      cases failure with
      | error camouflaged =>
        constructor
        · intro _
          exact ⟨_, rfl⟩
        · intro hsettles
          apply absurd _ hsettles
          refine ⟨hdirect, ?_⟩
          rw [hfallback]
          rintro ⟨⟩
      | panicked =>
        constructor
        · rintro ⟨-, hpanicked⟩
          exact absurd hfallback hpanicked
        · intro _
          rfl
  · rw [hillegible hdirect]
    constructor
    · rintro ⟨h, -⟩
      exact absurd h hdirect
    · intro _
      rfl

/-- What a refused enrolment comes to: the old certificate, or an error that does not say so. -/
theorem ensureMasqueEnrolled_refused {e : Enrolment} {identity : Identity} {keypair : MasqueKeyPair}
    (hexpiring : identity.hasMasqueCredentials e.checked = false) (hkeypair : e.keypair = .ok keypair)
    (h : RefusedDirectly wire e.call) (hfails : Fails wire "key enrollment" e.call) :
    (Settles wire "key enrollment" e.call → identity.certStillUsable e.kept = true →
        ensureMasqueEnrolled wire e identity = .ok identity.enrollment) ∧
      (Settles wire "key enrollment" e.call → identity.certStillUsable e.kept = false →
        ∃ text, ensureMasqueEnrolled wire e identity = failed (.api text)) ∧
      (¬ Settles wire "key enrollment" e.call → ensureMasqueEnrolled wire e identity = .error .panicked) := by
  obtain ⟨hsettles, hpanics⟩ := throughBoth_refused h hfails
  rw [ensureMasqueEnrolled, hexpiring, if_neg Bool.false_ne_true, hkeypair, enrollKey]
  dsimp only
  refine ⟨?_, ?_, ?_⟩
  · intro hok husable
    obtain ⟨text, htext⟩ := hsettles hok
    rw [htext]
    exact if_pos husable
  · intro hok husable
    obtain ⟨text, htext⟩ := hsettles hok
    refine ⟨text, ?_⟩
    rw [htext]
    show (if identity.certStillUsable e.kept = true then _ else _) = _
    rw [husable, if_neg Bool.false_ne_true]
  · intro hpanicked
    rw [hpanics hpanicked]

/-- An enrolment that is refused keeps a usable certificate, or says nothing of the refusal. -/
theorem ensureMasqueEnrolled_recognised {e : Enrolment} {identity : Identity} {keypair : MasqueKeyPair}
    (hexpiring : identity.hasMasqueCredentials e.checked = false) (hkeypair : e.keypair = .ok keypair)
    (h : RefusedDirectly wire e.call) (hfails : Fails wire "key enrollment" e.call) :
    (∃ reason, ensureMasqueEnrolled wire e identity = failed (.identityRefused reason)) ∨
        (ensureMasqueEnrolled wire e identity = .ok identity.enrollment ∧ identity.certStillUsable e.kept = true) ↔
      identity.certStillUsable e.kept = true ∧ Settles wire "key enrollment" e.call := by
  obtain ⟨hkeeps, hfailed, hpanicked⟩ := ensureMasqueEnrolled_refused hexpiring hkeypair h hfails
  by_cases hsettles : Settles wire "key enrollment" e.call
  · cases husable : identity.certStillUsable e.kept with
    | true => exact iff_of_true (.inr ⟨hkeeps hsettles husable, rfl⟩) ⟨rfl, hsettles⟩
    | false =>
      obtain ⟨text, htext⟩ := hfailed hsettles husable
      rw [htext]
      refine iff_of_false ?_ fun h => Bool.false_ne_true h.1
      rintro (⟨reason, hreason⟩ | ⟨-, hfalse⟩)
      · cases hreason
      · exact Bool.false_ne_true hfalse
  · rw [hpanicked hsettles]
    refine iff_of_false ?_ fun h => hsettles h.2
    rintro (⟨reason, hreason⟩ | ⟨hok, -⟩)
    · cases hreason
    · cases hok

/-- The error of a request over both routes is of one kind. -/
theorem throughBoth_error {label : String} {call : Call} {e : AetherError} (h : throughBoth wire label call = failed e) :
    ∃ text, e = .api text := by
  rw [throughBoth] at h
  cases hdirect : sendWithRetry wire label call.direct with
  | ok account =>
    rw [hdirect] at h
    cases h
  | error failure =>
    rw [hdirect] at h
    cases failure with
    | panicked => cases h
    | error direct =>
      dsimp only at h
      cases hfallback : fallbackCall wire label call.exchanges with
      | ok account =>
        rw [hfallback] at h
        cases h
      | error failure =>
        rw [hfallback] at h
        cases failure with
        | panicked => cases h
        | error camouflaged =>
          cases h
          exact ⟨_, rfl⟩

/-- An enrolment never says that the identity is refused. -/
theorem ensureMasqueEnrolled_ne_refused (e : Enrolment) (identity : Identity) (reason : String) :
    ensureMasqueEnrolled wire e identity ≠ failed (.identityRefused reason) := by
  intro h
  rw [ensureMasqueEnrolled] at h
  split at h
  · cases h
  · cases hkeypair : e.keypair with
    | error error =>
      rw [hkeypair] at h
      cases h
    | ok keypair =>
      rw [hkeypair] at h
      dsimp only at h
      cases henrolled : enrollKey wire e.call with
      | ok account =>
        rw [henrolled] at h
        cases h
      | error failure =>
        rw [henrolled] at h
        cases failure with
        | panicked => cases h
        | error error =>
          obtain ⟨text, rfl⟩ := throughBoth_error henrolled
          dsimp only at h
          split at h <;> cases h

end Api

end Aether.Account
