import Aether.Machine.History
import Aether.Rust.Text

/-! Enrolment tokens.

`TOKEN_CACHE` holds one token for the whole process, whatever team it is for, and
`resolve_token` looks there first. Its lock is held until a sign-in has ended, so that the
calls come one after another.

A state keeps besides the cache which tokens were granted for which team; a call is lawful
if it gives the token that was supplied or, without one, a token of its team. Which runs are
lawful is said of the calls alone (`lawful_iff_sameCaller`): `lastGrant` reads off them which
call's token still counts, and the next call must come from the same caller. -/
namespace Aether.Identity
open Machine

/-! ### Tokens -/

structure TeamSettings where
  team : String
  clientId : Option String := none
  clientSecret : Option String := none
  token : Option String := none
  email : Option String := none
  deriving DecidableEq

namespace TeamSettings
variable (settings : TeamSettings)

def hasServiceToken : Bool := settings.clientId.isSome && settings.clientSecret.isSome

def teamDomain : String := "https://" ++ settings.team ++ ".cloudflareaccess.com"

def loginUrl : String := settings.teamDomain ++ "/warp"

end TeamSettings

/-- What base64 and JSON make of the segments of a token: whether the first decodes, and the
expiry in the second. -/
structure Jwt where
  decodes : String → Bool
  expiry : String → Option Nat

section Tokens

variable (jwt : Jwt)

/-- `looks_like_jwt`. -/
def looksLikeJwt (token : String) : Bool :=
  let token := Rust.trim token
  let segments := Rust.split '.' token
  32 ≤ token.utf8ByteSize && segments.length == 3 && !segments.any (·.isEmpty) &&
    token.toList.all (fun c => c.isAlphanum || c == '.' || c == '-' || c == '_') && jwt.decodes (segments.headD "")

/-- `jwt_expiry`. -/
def jwtExpiry (token : String) : Option Nat :=
  match Rust.split '.' token with
  | [_, payload, _] => jwt.expiry payload
  | _ => none

/-- `jwt_expired`. -/
def jwtExpired (token : String) (now : Nat) : Bool :=
  match jwtExpiry jwt token with
  | some exp => exp ≤ now
  | none => false

/-! ### The cache -/

/-- `sign_in`; the service answers what it is asked with a service token or a code. -/
def signIn (settings : TeamSettings) (now : Nat) (answer : Except String String) : Except String String :=
  match settings.token with
  | some token =>
    if !looksLikeJwt jwt token then
      .error ("the supplied access token is not a jwt; copy the value that follows token= on the enrolment page")
    else if jwtExpired jwt token now then
      .error "the supplied access token has expired; sign in again to get a fresh one"
    else .ok token
  | none =>
    if settings.hasServiceToken then answer
    else if settings.email.isSome then answer
    else
      .error ("team " ++ settings.team ++ " needs a way to sign in. pick one: a service token via " ++
        "AETHER_ACCESS_CLIENT_ID and AETHER_ACCESS_CLIENT_SECRET, an email one-time code via " ++
        "AETHER_ACCESS_EMAIL, or a token you already hold via AETHER_ACCESS_TOKEN (sign in at " ++
        settings.loginUrl ++ ")")

/-- The cached token, unless it has expired. -/
def live (cache : Option String) (now : Nat) : Option String := cache.filter fun cached => !jwtExpired jwt cached now

/-- `resolve_token`, with the clock when the cache is looked at and when a supplied token is. -/
def resolveToken (settings : TeamSettings) (now later : Nat) (answer : Except String String) (cache : Option String) :
    Except String String × Option String :=
  match live jwt cache now with
  | some cached => (.ok cached, cache)
  | none =>
    match signIn jwt settings later answer with
    | .ok token => (.ok token, some token)
    | .error e => (.error e, none)

/-- `store_token`. -/
def storeToken (token : String) (now : Nat) (cache : Option String) : Except String Unit × Option String :=
  let token := Rust.trim token
  if !looksLikeJwt jwt token then
    (.error "that value is not a jwt; copy the value that follows token= on the enrolment page", cache)
  else if jwtExpired jwt token now then
    (.error "that token has already expired; sign in again to get a fresh one", cache)
  else (.ok (), some token)

/-! ### Calls -/

/-- A token that a sign-in for the team gave, or that the user stored for it. -/
structure Grant where
  team : String
  token : String
  deriving DecidableEq

structure State where
  cache : Option String := none
  granted : List Grant := []
  deriving DecidableEq

inductive Event where
  /-- `resolve_token`, by `team_sign_in`, `provision_team` or at the prompt. -/
  | resolve (settings : TeamSettings) (now later : Nat) (answer : Except String String)
  /-- `team_use_token` while a team is being enrolled, or `team_email_code_submit` of a team's
  session that got a token. -/
  | store (team token : String) (now : Nat)
  /-- `team_forget_token`. -/
  | clear

def State.grant (team : String) (result : Except String String) (s : State) : State :=
  match result with
  | .ok token => {s with granted := s.granted ++ [⟨team, token⟩]}
  | .error _ => s

def State.next (event : Event) (s : State) : State :=
  match event with
  | .resolve settings now later answer =>
    let resolved := resolveToken jwt settings now later answer s.cache
    -- a token that was not cached comes from a sign-in
    if (live jwt s.cache now).isSome then {s with cache := resolved.2}
    else {s with cache := resolved.2}.grant settings.team resolved.1
  | .store team token now =>
    let stored := storeToken jwt token now s.cache
    {s with cache := stored.2}.grant team (stored.1.map fun _ => Rust.trim token)
  | .clear => {s with cache := none}

/-- The token was supplied with the call, or none was and the token is one of the team. -/
def Rightful (settings : TeamSettings) (granted : List Grant) (token : String) : Prop :=
  settings.token = some token ∨ (settings.token = none ∧ ⟨settings.team, token⟩ ∈ granted)

instance (settings : TeamSettings) (granted : List Grant) (token : String) :
    Decidable (Rightful settings granted token) :=
  inferInstanceAs (Decidable (_ ∨ _))

/-- `resolve_token` gives a token that is the caller's. -/
def Lawful (event : Event) (s : State) : Prop :=
  match event with
  | .resolve settings now later answer => ∀ token, (resolveToken jwt settings now later answer s.cache).1 = .ok token →
      Rightful settings (s.next jwt event).granted token
  | _ => True

/-- What lies in the cache and has not expired is the caller's already. -/
def Own (event : Event) (s : State) : Prop :=
  match event with
  | .resolve settings now _ _ => ∀ cached ∈ live jwt s.cache now, Rightful settings s.granted cached
  | _ => True

/-! ### Whose token counts -/

/-- A call, after the one that got the last token: a stored token takes its place, a cleared one
has none, and a call of `resolve_token` gets a new one only after its expiry. -/
def record (last : Option Grant) (event : Event) : Option Grant :=
  match event with
  | .resolve settings now later answer =>
    match last.filter fun grant => !jwtExpired jwt grant.token now with
    | some grant => some grant
    | none => (signIn jwt settings later answer).toOption.map fun token => ⟨settings.team, token⟩
  | .store team token now =>
    if looksLikeJwt jwt (Rust.trim token) && !jwtExpired jwt (Rust.trim token) now then some ⟨team, Rust.trim token⟩
    else last
  | .clear => none

/-- The last call that got a token and that no later one made void: its team, and the token. -/
def lastGrant (calls : List Event) : Option Grant := calls.foldl (record jwt) none

/-- A call of `resolve_token` before the expiry of the last token: it supplies that token, or
it supplies none and is for the team of the call that got it. -/
def SameCaller (before : List Event) (event : Event) : Prop :=
  match event with
  | .resolve settings now _ _ => ∀ grant ∈ lastGrant jwt before, jwtExpired jwt grant.token now = false →
      settings.token = some grant.token ∨ (settings.token = none ∧ settings.team = grant.team)
  | _ => True

/-- No token was granted to two teams. -/
def OneTeam (granted : List Grant) : Prop :=
  ∀ grant ∈ granted, ∀ grant' ∈ granted, grant.token = grant'.token → grant.team = grant'.team

/-- A sign-in gives the supplied token if there is one. -/
theorem signIn_token {settings : TeamSettings} {now : Nat} {answer : Except String String} {token supplied : String}
    (hsupplied : settings.token = some supplied) (h : signIn jwt settings now answer = .ok token) :
      token = supplied := by
  rw [signIn, hsupplied] at h
  dsimp only at h
  split at h
  · cases h
  · split at h
    · cases h
    · exact (Except.ok.inj h).symm

theorem lawful_resolve (settings : TeamSettings) (now later : Nat) (answer : Except String String) (s : State) :
    Lawful jwt (.resolve settings now later answer) s ↔ Own jwt (.resolve settings now later answer) s := by
  cases hlive : live jwt s.cache now with
  | some cached =>
    have hresolved : resolveToken jwt settings now later answer s.cache = (.ok cached, s.cache) := by
      rw [resolveToken, hlive]
    have hnext : (s.next jwt (.resolve settings now later answer)).granted = s.granted := by
      rw [State.next, hlive, Option.isSome_some, if_pos rfl]
    rw [Lawful, Own, hlive, hresolved, hnext]
    constructor
    · rintro h _ ⟨⟩
      exact h cached rfl
    · rintro h _ ⟨⟩
      exact h cached rfl
  | none =>
    rw [Lawful, Own, hlive]
    refine iff_of_true ?_ nofun
    intro token hresolved
    rw [resolveToken, hlive] at hresolved
    dsimp only at hresolved
    cases hsigned : signIn jwt settings later answer with
    | error e =>
      rw [hsigned] at hresolved
      cases hresolved
    | ok signed =>
      rw [hsigned] at hresolved
      obtain rfl := Except.ok.inj hresolved
      cases hsupplied : settings.token with
      | some supplied =>
        rw [signIn_token jwt hsupplied hsigned]
        exact .inl hsupplied
      | none =>
        have hnext : (s.next jwt (.resolve settings now later answer)).granted =
            s.granted ++ [⟨settings.team, signed⟩] := by
          rw [State.next, hlive, resolveToken, hlive, hsigned, Option.isSome_none, if_neg Bool.false_ne_true]
          rfl
        rw [hnext]
        exact .inr ⟨hsupplied, by simp⟩

/-- The cache holds the last token, and that was granted. -/
structure Recorded (last : Option Grant) (s : State) : Prop where
  cache : s.cache = last.map Grant.token
  granted : ∀ grant ∈ last, grant ∈ s.granted

variable {jwt}

theorem Recorded.live {last : Option Grant} {s : State} (h : Recorded last s) (now : Nat) :
    Identity.live jwt s.cache now = (last.filter fun grant => !jwtExpired jwt grant.token now).map Grant.token := by
  rw [Identity.live, h.cache]
  cases last with
  | none => rfl
  | some grant =>
    cases hexpired : jwtExpired jwt grant.token now <;> simp [Option.filter, hexpired]

/-- A store. -/
theorem recorded_store {last : Option Grant} {s : State} (h : Recorded last s) (team token : String) (now : Nat) :
    Recorded (record jwt last (.store team token now)) (s.next jwt (.store team token now)) := by
  cases hshape : looksLikeJwt jwt (Rust.trim token) with
  | false =>
    have hrefused : record jwt last (.store team token now) = last := by simp [record, hshape]
    have hsame : s.next jwt (.store team token now) = s := by simp [State.next, storeToken, hshape,
      State.grant, Except.map]
    rw [hrefused, hsame]
    exact h
  | true =>
    cases hexpired : jwtExpired jwt (Rust.trim token) now with
    | true =>
      have hrefused : record jwt last (.store team token now) = last := by simp [record, hexpired]
      have hsame : s.next jwt (.store team token now) = s := by
        simp [State.next, storeToken, hshape, hexpired, State.grant, Except.map]
      rw [hrefused, hsame]
      exact h
    | false =>
      have htaken : record jwt last (.store team token now) = some ⟨team, Rust.trim token⟩ := by
        simp [record, hshape, hexpired]
      rw [htaken]
      refine ⟨?_, ?_⟩
      · simp [State.next, storeToken, hshape, hexpired, State.grant, Except.map]
      · simp [State.next, storeToken, hshape, hexpired, State.grant, Except.map]

/-- A call of `resolve_token`. -/
theorem recorded_resolve {last : Option Grant} {s : State} (h : Recorded last s) (settings : TeamSettings)
    (now later : Nat) (answer : Except String String) : Recorded (record jwt last (.resolve settings now later answer))
      (s.next jwt (.resolve settings now later answer)) := by
  have hlive : Identity.live jwt s.cache now = _ := h.live now
  rw [record, State.next, resolveToken, hlive]
  cases hlast : last.filter fun grant => !jwtExpired jwt grant.token now with
  | some grant =>
    have hgrant : last = some grant := (Option.filter_eq_some_iff.mp hlast).1
    refine ⟨h.cache.trans (by rw [hgrant]), fun g hg => h.granted g ?_⟩
    rw [hgrant]
    exact hg
  | none =>
    cases hsigned : signIn jwt settings later answer with
    | error e => exact ⟨rfl, fun g hg => by cases hg⟩
    | ok token =>
      refine ⟨rfl, fun g hg => ?_⟩
      obtain rfl := Option.some.inj hg
      exact List.mem_append_right _ (List.mem_singleton_self _)

theorem recorded_run (calls : List Event) : Recorded (lastGrant jwt calls) (run (State.next jwt) {} calls) := by
  induction calls using List.reverseRecOn with
  | nil => exact ⟨rfl, fun grant h => by cases h⟩
  | append_singleton calls event ih =>
    rw [run_append, lastGrant, List.foldl_append, List.foldl_cons, List.foldl_nil, run, run]
    cases event with
    | resolve settings now later answer => exact recorded_resolve ih settings now later answer
    | store team token now => exact recorded_store ih team token now
    | clear => exact ⟨rfl, fun grant h => by cases h⟩

theorem granted_next {grant : Grant} (event : Event) (s : State) (h : grant ∈ s.granted) :
    grant ∈ (s.next jwt event).granted := by
  have hgrant (team : String) (result : Except String String) (t : State) (ht : grant ∈ t.granted) :
      grant ∈ (t.grant team result).granted := by
    cases result with
    | ok token => exact List.mem_append_left _ ht
    | error e => exact ht
  cases event with
  | resolve settings now later answer =>
    rw [State.next]
    split
    · exact h
    · exact hgrant _ _ _ h
  | store team token now =>
    rw [State.next]
    exact hgrant team _ _ h
  | clear => exact h

/-- The same caller finds its own token. -/
theorem own_of_sameCaller {before : List Event} {event : Event} (h : SameCaller jwt before event) :
    Own jwt event (run (State.next jwt) {} before) := by
  cases event with
  | resolve settings now later answer =>
    have hrecorded : Recorded (lastGrant jwt before) (run (State.next jwt) {} before) := recorded_run before
    intro cached hcached
    rw [hrecorded.live] at hcached
    obtain ⟨grant, hgrant, rfl⟩ := Option.map_eq_some_iff.mp hcached
    obtain ⟨hlast, hlive⟩ := Option.filter_eq_some_iff.mp hgrant
    rcases h grant hlast (by simpa using hlive) with hsupplied | ⟨hnone, hteam⟩
    · exact .inl hsupplied
    · rw [Rightful, hteam]
      exact .inr ⟨hnone, hrecorded.granted grant hlast⟩
  | _ => trivial

/-- Where no token is granted to two teams, only the same caller does. -/
theorem sameCaller_of_own {before : List Event} {event : Event}
    (hteams : OneTeam (run (State.next jwt) {} before).granted) (h : Own jwt event (run (State.next jwt) {} before)) :
    SameCaller jwt before event := by
  cases event with
  | resolve settings now later answer =>
    have hrecorded : Recorded (lastGrant jwt before) (run (State.next jwt) {} before) := recorded_run before
    intro grant hlast hlive
    have hfound : grant.token ∈ live jwt (run (State.next jwt) {} before).cache now := by
      rw [hrecorded.live]
      exact Option.map_eq_some_iff.mpr ⟨grant, Option.filter_eq_some_iff.mpr ⟨hlast, by simpa using hlive⟩, rfl⟩
    rcases h _ hfound with hsupplied | ⟨hnone, hgranted⟩
    · exact .inl hsupplied
    · exact .inr ⟨hnone, hteams _ hgranted _ (hrecorded.granted grant hlast) rfl⟩
  | _ => trivial

theorem lawful_iff_own (event : Event) (s : State) : Lawful jwt event s ↔ Own jwt event s := by
  cases event with
  | resolve settings now later answer => exact lawful_resolve jwt settings now later answer s
  | store team token now => exact iff_of_true trivial trivial
  | clear => exact iff_of_true trivial trivial

variable (jwt)

/-- **Every call of `resolve_token` gives a token of its own** (the one that was supplied with
the call or, without one, one that was granted to the team of the call) **in every run in which
a call that comes before the expiry of the last token is of the same caller**, and in no other,
unless one token was granted to two teams. -/
theorem lawful_iff_sameCaller (calls : List Event) :
    (Always (SameCaller jwt) calls → Along (State.next jwt) (Lawful jwt) {} calls) ∧
      (OneTeam (run (State.next jwt) {} calls).granted →
        Along (State.next jwt) (Lawful jwt) {} calls → Always (SameCaller jwt) calls) := by
  rw [along_iff_always]
  constructor
  · intro h before event after heq
    exact (lawful_iff_own event _).mpr (own_of_sameCaller (h before event after heq))
  · intro hteams h before event after heq
    apply sameCaller_of_own _ ((lawful_iff_own event _).mp (h before event after heq))
    have hkept : ∀ grant ∈ (run (State.next jwt) {} before).granted,
      grant ∈ (run (State.next jwt) {} calls).granted := by
      intro grant hgrant
      rw [heq, run_append]
      exact run_invariant granted_next hgrant (event :: after)
    intro grant hgrant grant' hgrant'
    exact hteams grant (hkept grant hgrant) grant' (hkept grant' hgrant')

end Tokens

/-- Two teams with service tokens. -/
def twoTeams : List Event :=
  [.resolve {team := "acme", clientId := some "id", clientSecret := some "secret"} 0 0 (.ok "acme-token"),
    .resolve {team := "globex", clientId := some "id", clientSecret := some "secret"} 0 0 (.ok "globex-token")]

/-- The second team gets the first one's token. -/
theorem token_crosses_teams :
    ¬ Along (State.next ⟨fun _ => true, fun _ => none⟩) (Lawful ⟨fun _ => true, fun _ => none⟩) {} twoTeams := by
  rintro ⟨-, hlawful, -⟩
  have hrightful := hlawful "acme-token" (by decide +kernel)
  revert hrightful
  decide +kernel

end Aether.Identity
