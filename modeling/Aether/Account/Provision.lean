import Aether.Account.Api
import Aether.Account.Storage
import Aether.Identity.Tokens
import Aether.Identity.Paths
import Aether.Profile.Arguments
import Aether.Rust.Net

/-! Which identity a run goes with.

A saved identity is checked with the account API before it is used, and replaced by a fresh
one where it is refused; a team's profile is adopted on the way. The functions are jobs over
the process: its environment, the gateway proxy that is set once, and a log of what was done.

A refusal is recognised exactly if both routes refuse, and by the check of the profile only
(`refusal_iff`). -/
namespace Aether.Account
open Machine
open Profile (Env)
open Rust (SocketAddr)

/-! ### The process -/

inductive Act where
  /-- `adopt_team_profile` gave this identity. -/
  | adopted (identity : Identity)
  /-- A fresh account is asked for. -/
  | provisioned
  /-- `config::save` wrote this identity. -/
  | saved (identity : Identity)
  deriving DecidableEq

structure World where
  env : Env
  /-- `GATEWAY_PROXY`. -/
  gateway : Option SocketAddr
  log : List Act

def World.start (env : Env) (gateway : Option SocketAddr) : World := ⟨env, gateway, []⟩

def World.note (act : Act) (w : World) : World := {w with log := w.log ++ [act]}

/-- An identity as `config::load` gives it: not marked as refused (`refused_of_load`). -/
structure Saved where
  identity : Identity
  unmarked : identity.refused = false

/-- What a run meets: the file, the clock, the API and the errors of saving. -/
structure Answers where
  loaded : Except AetherError (Option Saved)
  /-- The check of a saved identity. -/
  refresh : Call
  /-- The clock when the certificate is looked at, once or twice. -/
  looked : Nat
  lookedAgain : Nat
  enrolment : Enrolment
  saving : Option AetherError
  /-- `resolve_token`. -/
  token : Except AetherError String
  registration : Call
  wgPrivate : List.Vector UInt8 32
  /-- The check of a team's fresh identity. -/
  confirmation : Call
  freshEnrolment : Enrolment
  /-- The check of the identity that is adopted after it was provisioned. -/
  adoption : Call
  freshSaving : Option AetherError

section Provision
variable (wire : Wire)

/-! ### A team's profile -/

/-- The address of a gateway proxy. -/
def proxyOf (address : String) : Option SocketAddr := Rust.parseSocketAddr (Rust.trim address)

/-- `set_gateway_proxy`: the first address stays. -/
def setGatewayProxy (address : String) (gateway : Option SocketAddr) : Option SocketAddr :=
  if (Rust.trim address).isEmpty then gateway
  else
    match proxyOf address with
    | some parsed => gateway.or (some parsed)
    | none => gateway

/-- The endpoint that the organization assigned, with the port of the protocol. -/
def teamEndpoint (env : Env) (identity : Identity) : Option String :=
  if identity.assignedEndpoint.isEmpty then none
  else
    let port := if env "AETHER_PROTOCOL" = some "wg" || env "AETHER_PROTOCOL" = some "gool" then 2408 else 443
    let peer := identity.assignedEndpoint ++ ":" ++ toString port
    if (Rust.parseSocketAddr peer).isSome then some peer else none

/-- What the adoption of a profile does to the process. -/
def World.adopt (identity : Identity) (w : World) : World where
  env :=
    if (w.env "AETHER_PEER").isNone then
      match teamEndpoint w.env identity with
      | some peer => w.env.put "AETHER_TEAM_ENDPOINT" peer
      | none => w.env
    else w.env
  gateway :=
    if !identity.gatewayProxy.isEmpty && (w.env "AETHER_GATEWAY").isSome then
      setGatewayProxy identity.gatewayProxy w.gateway
    else w.gateway
  log := w.log ++ [.adopted identity]

/-- The outcome of a call of the API. -/
def lift {α : Type} (outcome : Outcome α) : Job Failure World α := fun w =>
  match outcome with
  | .ok a => .ok a w
  | .error failure => .error failure w

/-- `adopt_team_profile`. -/
def adoptTeamProfile (call : Call) (identity : Identity) : Job Failure World Identity := do
  if (Identity.teamScope (← get).env).isNone then return identity
  let identity ← lift (refreshProfile wire call identity)
  modify (·.adopt identity)
  return identity

/-! ### Identities -/

/-- `config::save`. -/
def saveIdentity (fault : Option AetherError) (identity : Identity) : Job Failure World Unit :=
  Machine.call (fault.map .error) (·.note (.saved identity)) id

def keepSavedIdentity (env : Env) : Bool :=
  !(env "AETHER_REPROVISION" = some "0" || env "AETHER_REPROVISION" = some "off" || env "AETHER_REPROVISION" = some "false")

/-- `provision_team`. -/
def provisionTeam (answers : Answers) : Outcome Identity :=
  match answers.token with
  | .error e => failed e
  | .ok _ =>
    match registerWithTeam wire answers.registration with
    | .error failure => .error failure
    | .ok reg =>
      match finishProvision wire reg answers.wgPrivate with
      | .error e => failed e
      | .ok identity => .ok identity

/-- `provision_wg`. -/
def provisionWg (answers : Answers) : Outcome Identity :=
  match register wire answers.registration with
  | .error failure => .error failure
  | .ok reg =>
    match finishProvision wire reg answers.wgPrivate with
    | .error e => failed e
    | .ok identity => .ok identity

/-- `provision_account`. -/
def provisionAccount (answers : Answers) (team : Bool) : Outcome Identity :=
  if team then
    match provisionTeam wire answers with
    | .error failure => .error failure
    | .ok identity => refreshProfile wire answers.confirmation identity
  else provisionWg wire answers

def Identity.withEnrollment (identity : Identity) (enrollment : MasqueEnrollment) : Identity :=
  {identity with certPem := enrollment.certPem, keyPem := enrollment.keyPem, certIssuedAt := enrollment.issuedAt}

/-- The last part of `load_or_provision_warp`. -/
def provisionWarp (answers : Answers) : Job Failure World Identity := do
  modify (·.note .provisioned)
  let identity ← lift (provisionAccount wire answers (Identity.teamScope (← get).env).isSome)
  let identity ← adoptTeamProfile wire answers.adoption identity
  saveIdentity answers.freshSaving identity
  return identity

def loadOrProvisionWarp (answers : Answers) : Job Failure World Identity := do
  match answers.loaded with
  | .error e => throw (.error e)
  | .ok none => provisionWarp wire answers
  | .ok (some saved) =>
    let identity ← adoptTeamProfile wire answers.refresh saved.identity
    if !identity.refused then
      saveIdentity answers.saving identity
      return identity
    else if !keepSavedIdentity (← get).env then return identity
    else provisionWarp wire answers

/-- The last part of `load_or_provision_masque`. -/
def provisionMasque (answers : Answers) : Job Failure World Identity := do
  modify (·.note .provisioned)
  let identity ← lift (provisionAccount wire answers (Identity.teamScope (← get).env).isSome)
  let enrollment ← lift (ensureMasqueEnrolled wire answers.freshEnrolment identity)
  let identity ← adoptTeamProfile wire answers.adoption (identity.withEnrollment enrollment)
  saveIdentity answers.freshSaving identity
  return identity

def loadOrProvisionMasque (answers : Answers) : Job Failure World Identity := do
  match answers.loaded with
  | .error e => throw (.error e)
  | .ok none => provisionMasque wire answers
  | .ok (some saved) =>
    if saved.identity.hasMasqueCredentials answers.looked then
      let identity ← adoptTeamProfile wire answers.refresh saved.identity
      if !identity.refused then
        saveIdentity answers.saving identity
        return identity
      else if !keepSavedIdentity (← get).env then return identity
      else provisionMasque wire answers
    else
      match ensureMasqueEnrolled wire answers.enrolment saved.identity with
      | .ok enrollment =>
        let identity := saved.identity.withEnrollment enrollment
        saveIdentity answers.saving identity
        return identity
      | .error (.error (.identityRefused _)) =>
        if !keepSavedIdentity (← get).env then return {saved.identity with refused := true}
        else provisionMasque wire answers
      | .error failure => throw failure

/-- `ProvisionRequest`, as far as it decides anything. -/
structure ProvisionRequest where
  team : Option Identity.TeamSettings
  masqueCert : Bool

/-- `attach_masque_cert`, at two readings of the clock. -/
def attachMasqueCert (looked lookedAgain : Nat) (enrolment : Enrolment) (identity : Identity) : Outcome Identity :=
  if identity.hasMasqueCredentials looked && !masqueCertExpiring lookedAgain identity.certIssuedAt then .ok identity
  else
    match ensureMasqueEnrolled wire enrolment identity with
    | .error failure => .error failure
    | .ok enrollment => .ok (identity.withEnrollment enrollment)

/-- `provision_identity`. -/
def provisionIdentity (request : ProvisionRequest) (answers : Answers) : Outcome Identity :=
  match provisionAccount wire answers request.team.isSome with
  | .error failure => .error failure
  | .ok identity =>
    if request.masqueCert then
      attachMasqueCert wire answers.looked answers.lookedAgain answers.freshEnrolment identity
    else .ok identity

/-- `open_identity`. -/
def openIdentity (request : ProvisionRequest) (answers : Answers) : Job Failure World Identity := do
  match answers.loaded with
  | .error e => throw (.error e)
  | .ok (some saved) =>
    let identity ← lift (if request.team.isSome then refreshProfile wire answers.refresh saved.identity else .ok saved.identity)
    let identity ← lift (if request.masqueCert then
      attachMasqueCert wire answers.looked answers.lookedAgain answers.enrolment identity else .ok identity)
    saveIdentity answers.saving identity
    return identity
  | .ok none =>
    modify (·.note .provisioned)
    let identity ← lift (provisionIdentity wire request answers)
    saveIdentity answers.freshSaving identity
    return identity

/-! ### Adoption -/

variable {wire}

theorem proxyOf_empty : proxyOf "" = none := by decide +kernel

theorem setGatewayProxy_eq (address : String) (gateway : Option SocketAddr) :
    setGatewayProxy address gateway = gateway.or (proxyOf address) := by
  rw [setGatewayProxy]
  split
  case isTrue hempty =>
    have hnone : proxyOf address = none := by
      rw [proxyOf, String.isEmpty_iff.mp hempty]
      decide +kernel
    rw [hnone, Option.or_none]
  case isFalse =>
    cases proxyOf address with
    | some parsed => rfl
    | none => exact (Option.or_none ..).symm

/-- The first gateway proxy stays in place. -/
theorem World.adopt_gateway (identity : Identity) (w : World) (h : (w.env "AETHER_GATEWAY").isSome = true) :
    (w.adopt identity).gateway = w.gateway.or (proxyOf identity.gatewayProxy) := by
  rw [World.adopt, h, Bool.and_true]
  dsimp only
  cases hempty : identity.gatewayProxy.isEmpty with
  | true =>
    have hnone : proxyOf identity.gatewayProxy = none := by
      rw [String.isEmpty_iff.mp hempty]
      exact proxyOf_empty
    rw [hnone, Option.or_none, Bool.not_true, if_neg Bool.false_ne_true]
  | false =>
    rw [Bool.not_false, if_pos rfl]
    exact setGatewayProxy_eq _ _

/-- Only the endpoint of the team is exported. -/
theorem World.adopt_env (identity : Identity) (w : World) {key : String} (h : key ≠ "AETHER_TEAM_ENDPOINT") :
    (w.adopt identity).env key = w.env key := by
  rw [World.adopt]
  dsimp only
  split
  · cases teamEndpoint w.env identity with
    | some peer => exact Function.update_of_ne h ..
    | none => rfl
  · rfl

/-- A process whose environment is as it was, but for the team's endpoint. -/
def World.Follows (env : Env) (w : World) : Prop := ∀ key ≠ "AETHER_TEAM_ENDPOINT", w.env key = env key

theorem World.Follows.adopt {env : Env} {w : World} (h : w.Follows env) (identity : Identity) :
    (w.adopt identity).Follows env := by
  intro key hkey
  rw [World.adopt_env identity w hkey]
  exact h key hkey

theorem World.Follows.note {env : Env} {w : World} (h : w.Follows env) (act : Act) : (w.note act).Follows env := h

theorem World.Follows.start (env : Env) (gateway : Option SocketAddr) : (World.start env gateway).Follows env :=
  fun _ _ => rfl

theorem World.Follows.team {env : Env} {w : World} (h : w.Follows env) : Identity.teamScope w.env = Identity.teamScope env := by
  rw [Identity.teamScope, h "AETHER_TEAM" (by decide), Identity.teamScope]

theorem World.Follows.keeps {env : Env} {w : World} (h : w.Follows env) : keepSavedIdentity w.env = keepSavedIdentity env := by
  rw [keepSavedIdentity, h "AETHER_REPROVISION" (by decide), keepSavedIdentity]

theorem World.Follows.endpoint {env : Env} {w : World} (h : w.Follows env) (identity : Identity) :
    teamEndpoint w.env identity = teamEndpoint env identity := by
  rw [teamEndpoint, h "AETHER_PROTOCOL" (by decide), teamEndpoint]

/-- `adopt_team_profile` with a team. -/
theorem adoptTeamProfile_team {w : World} (hteam : (Identity.teamScope w.env).isSome = true) (call : Call)
    (identity : Identity) :
    adoptTeamProfile wire call identity w =
      match refreshProfile wire call identity with
      | .ok profile => .ok profile (w.adopt profile)
      | .error failure => .error failure w := by
  have hsome : (Identity.teamScope w.env).isNone = false := by
    rw [← Option.not_isSome, hteam]
    rfl
  have hget : (get : Job Failure World World) w = .ok w w := rfl
  rw [adoptTeamProfile, bind_of_ok hget, hsome, if_neg Bool.false_ne_true]
  cases hrefresh : refreshProfile wire call identity with
  | ok profile =>
    have hlift : lift (.ok profile) w = .ok profile w := rfl
    rw [bind_of_ok hlift]
    rfl
  | error failure =>
    have hlift : lift (.error failure : Outcome Identity) w = .error failure w := rfl
    rw [bind_of_error hlift]

/-- What both functions do with a saved identity that needs no certificate, where `replace`
provisions a fresh one. -/
def checkSaved (wire : Wire) (answers : Answers) (saved : Saved) (replace : Job Failure World Identity) :
    Job Failure World Identity := do
  let identity ← adoptTeamProfile wire answers.refresh saved.identity
  if !identity.refused then
    saveIdentity answers.saving identity
    return identity
  else if !keepSavedIdentity (← get).env then return identity
  else replace

variable {answers : Answers} {saved : Saved}

theorem checkSaved_eq {w : World} (hteam : (Identity.teamScope w.env).isSome = true)
    (replace : Job Failure World Identity) :
    checkSaved wire answers saved replace w =
      match refreshProfile wire answers.refresh saved.identity with
      | .error failure => .error failure w
      | .ok profile =>
        if profile.refused then
          if keepSavedIdentity (w.adopt profile).env then replace (w.adopt profile) else .ok profile (w.adopt profile)
        else
          match answers.saving with
          | none => .ok profile ((w.adopt profile).note (.saved profile))
          | some e => .error (.error e) (w.adopt profile) := by
  have hadopt := @adoptTeamProfile_team wire _ hteam answers.refresh saved.identity
  rw [checkSaved]
  cases hrefresh : refreshProfile wire answers.refresh saved.identity with
  | error failure =>
    rw [hrefresh] at hadopt
    rw [bind_of_error hadopt]
  | ok profile =>
    rw [hrefresh] at hadopt
    rw [bind_of_ok hadopt]
    dsimp only
    cases profile.refused with
    | false =>
      rw [Bool.not_false, if_pos rfl, if_neg Bool.false_ne_true, saveIdentity]
      cases answers.saving with
      | none => rfl
      | some e => rfl
    | true =>
      have hget : (get : Job Failure World World) (w.adopt profile) = .ok (w.adopt profile) (w.adopt profile) := rfl
      rw [Bool.not_true, if_neg Bool.false_ne_true, if_pos rfl, bind_of_ok hget]
      cases keepSavedIdentity (w.adopt profile).env with
      | true => rfl
      | false => rfl

/-- The log of a process goes on from here. -/
def Appends (log : List Act) (w : World) : Prop := ∃ after, w.log = log ++ after

theorem Appends.note {log : List Act} {w : World} (h : Appends log w) (act : Act) : Appends log (w.note act) := by
  obtain ⟨after, hafter⟩ := h
  refine ⟨after ++ [act], ?_⟩
  rw [World.note, hafter, List.append_assoc]

theorem Appends.adopt {log : List Act} {w : World} (h : Appends log w) (identity : Identity) :
    Appends log (w.adopt identity) := h.note (.adopted identity)

theorem ensures_lift {α : Type} (outcome : Outcome α) {log : List Act} {w : World} (h : Appends log w) :
    Ensures (lift outcome) w (fun _ t => Appends log t) (Appends log) := by
  cases outcome with
  | ok a => exact ensures_pure h
  | error failure =>
    constructor
    · rintro _ _ ⟨⟩
    · rintro _ _ ⟨⟩
      exact h

theorem ensures_adoptTeamProfile (call : Call) (identity : Identity) {log : List Act} {w : World} (h : Appends log w) :
    Ensures (adoptTeamProfile wire call identity) w (fun _ t => Appends log t) (Appends log) := by
  rw [adoptTeamProfile]
  apply ensures_get
  by_cases hteam : (Identity.teamScope w.env).isNone = true
  · rw [if_pos hteam]
    exact ensures_pure h
  · rw [if_neg hteam]
    apply (ensures_lift _ h).bind
    intro profile t ht
    apply ensures_modify
    exact ensures_pure (ht.adopt profile)

theorem ensures_saveIdentity (fault : Option AetherError) (identity : Identity) {log : List Act} {w : World}
    (h : Appends log w) : Ensures (saveIdentity fault identity) w (fun _ t => Appends log t) (Appends log) :=
  ensures_call (fun _ => h.note _) fun _ => h

/-- Whatever it comes to, a fresh account is asked for first. -/
theorem ensures_provisionWarp (answers : Answers) (w : World) :
    Ensures (provisionWarp wire answers) w (fun _ => Appends (w.log ++ [.provisioned])) (Appends (w.log ++ [.provisioned])) := by
  have hnoted : Appends (w.log ++ [.provisioned]) (w.note .provisioned) := ⟨[], (List.append_nil _).symm⟩
  rw [provisionWarp]
  apply ensures_modify
  apply ensures_get
  apply (ensures_lift _ hnoted).bind
  intro identity t ht
  apply (ensures_adoptTeamProfile _ _ ht).bind
  intro profile t ht
  apply (ensures_saveIdentity _ _ ht).bind
  intro _ t ht
  exact ensures_pure ht

theorem ensures_provisionMasque (answers : Answers) (w : World) :
    Ensures (provisionMasque wire answers) w (fun _ => Appends (w.log ++ [.provisioned]))
      (Appends (w.log ++ [.provisioned])) := by
  have hnoted : Appends (w.log ++ [.provisioned]) (w.note .provisioned) := ⟨[], (List.append_nil _).symm⟩
  rw [provisionMasque]
  apply ensures_modify
  apply ensures_get
  apply (ensures_lift _ hnoted).bind
  intro identity t ht
  apply (ensures_lift _ ht).bind
  intro enrollment t ht
  apply (ensures_adoptTeamProfile _ _ ht).bind
  intro profile t ht
  apply (ensures_saveIdentity _ _ ht).bind
  intro _ t ht
  exact ensures_pure ht

/-! ### Refused identities -/

def logOf : EStateM.Result Failure World Identity → List Act
  | .ok _ w => w.log
  | .error _ w => w.log

/-- A refused identity is neither saved nor given as good: a fresh account is asked for
before anything is saved or, where that is disabled, it is given with its mark. -/
def Handled (env : Env) (run : EStateM.Result Failure World Identity) : Prop :=
  if keepSavedIdentity env then
    ∃ before after, logOf run = before ++ .provisioned :: after ∧ ∀ identity, .saved identity ∉ before
  else ∃ identity w, run = .ok identity w ∧ identity.refused = true ∧ ∀ other, .saved other ∉ w.log

theorem logOf_appends {job : Job Failure World Identity} {w : World} {log : List Act}
    (h : Ensures job w (fun _ => Appends log) (Appends log)) : ∃ after, logOf (job w) = log ++ after := by
  cases hjob : job w with
  | ok identity t => exact h.of_ok _ _ hjob
  | error failure t => exact h.of_error _ _ hjob

/-- A run that asks for no account and gives no marked identity without saving. -/
theorem not_handled {env : Env} {run : EStateM.Result Failure World Identity} (hlog : Act.provisioned ∉ logOf run)
    (hrun : ∀ identity w, run = .ok identity w → identity.refused = true → ∃ other, .saved other ∈ w.log) :
    ¬ Handled env run := by
  rw [Handled]
  split
  · rintro ⟨before, after, heq, -⟩
    apply hlog
    rw [heq]
    exact List.mem_append_right _ List.mem_cons_self
  · rintro ⟨identity, w, hok, hmarked, hnone⟩
    obtain ⟨other, hsaved⟩ := hrun identity w hok hmarked
    exact hnone other hsaved

/-- A saved identity that both routes refuse is replaced, or given with its mark. -/
theorem handled_checkSaved {env : Env} {gateway : Option SocketAddr} (hteam : (Identity.teamScope env).isSome = true)
    (hrefused : RefusedDirectly wire answers.refresh) {replace : Job Failure World Identity}
    (hreplace : ∀ w, Ensures replace w (fun _ => Appends (w.log ++ [.provisioned])) (Appends (w.log ++ [.provisioned]))) :
    Handled env (checkSaved wire answers saved replace (.start env gateway)) ↔
      Legible wire answers.refresh ∧ RefusedAgain wire answers.refresh := by
  have hstart : (Identity.teamScope (World.start env gateway).env).isSome = true := hteam
  rw [← refreshProfile_refused hrefused saved.unmarked, checkSaved_eq hstart]
  have hkeeps (profile : Identity) := (World.Follows.start env gateway).adopt profile |>.keeps
  cases hrefresh : refreshProfile wire answers.refresh saved.identity with
  | error failure =>
    refine iff_of_false (not_handled List.not_mem_nil ?_) ?_
    · rintro _ _ ⟨⟩
    · rintro ⟨_, ⟨⟩, -⟩
  | ok profile =>
    dsimp only
    cases hmark : profile.refused with
    | false =>
      have hsound : ¬ ∃ marked, Except.ok (ε := Failure) profile = .ok marked ∧ marked.refused = true := by
        rintro ⟨_, ⟨⟩, hmarked⟩
        exact Bool.false_ne_true (hmark.symm.trans hmarked)
      refine iff_of_false ?_ hsound
      rw [if_neg Bool.false_ne_true]
      cases answers.saving with
      | none =>
        apply not_handled
        · show Act.provisioned ∉ [Act.adopted profile, .saved profile]
          simp
        · rintro _ _ ⟨⟩ hmarked
          exact absurd (hmark.symm.trans hmarked) Bool.false_ne_true
      | some e =>
        apply not_handled
        · show Act.provisioned ∉ [Act.adopted profile]
          simp
        · rintro _ _ ⟨⟩
    | true =>
      refine iff_of_true ?_ ⟨profile, rfl, hmark⟩
      rw [if_pos rfl, hkeeps, Handled]
      cases keepSavedIdentity env with
      | true =>
        rw [if_pos rfl, if_pos rfl]
        obtain ⟨after, hafter⟩ := logOf_appends (hreplace ((World.start env gateway).adopt profile))
        refine ⟨[.adopted profile], after, hafter, ?_⟩
        intro identity hmem
        simp at hmem
      | false =>
        rw [if_neg Bool.false_ne_true, if_neg Bool.false_ne_true]
        refine ⟨profile, _, rfl, hmark, ?_⟩
        intro identity hmem
        have hmem' : Act.saved identity ∈ [Act.adopted profile] := hmem
        simp at hmem'

/-- `load_or_provision_masque` gives up where an enrolment is refused. -/
theorem not_handled_enrolment {env : Env} {gateway : Option SocketAddr} {keypair : MasqueKeyPair}
    (hloaded : answers.loaded = .ok (some saved)) (hlooked : saved.identity.hasMasqueCredentials answers.looked = false)
    (hchecked : saved.identity.hasMasqueCredentials answers.enrolment.checked = false)
    (hkeypair : answers.enrolment.keypair = .ok keypair) (hrefused : RefusedDirectly wire answers.enrolment.call)
    (hfails : Fails wire "key enrollment" answers.enrolment.call)
    (hkept : saved.identity.certStillUsable answers.enrolment.kept = false) :
    ¬ Handled env (loadOrProvisionMasque wire answers (.start env gateway)) := by
  obtain ⟨-, hfailed, hpanicked⟩ := ensureMasqueEnrolled_refused hchecked hkeypair hrefused hfails
  have herror : ∃ failure, loadOrProvisionMasque wire answers (.start env gateway) = .error failure (.start env gateway) := by
    rw [loadOrProvisionMasque, hloaded]
    dsimp only
    rw [hlooked, if_neg Bool.false_ne_true]
    by_cases hsettles : Settles wire "key enrollment" answers.enrolment.call
    · obtain ⟨text, htext⟩ := hfailed hsettles hkept
      rw [htext]
      exact ⟨_, rfl⟩
    · rw [hpanicked hsettles]
      exact ⟨_, rfl⟩
  obtain ⟨failure, herror⟩ := herror
  rw [herror]
  apply not_handled
  · exact List.not_mem_nil
  · rintro _ _ ⟨⟩

/-- `open_identity` saves what it gives, marked or not. -/
theorem ensures_openIdentity (request : ProvisionRequest) (hloaded : answers.loaded = .ok (some saved)) (w : World) :
    Ensures (openIdentity wire request answers) w (fun identity t => t.log = w.log ++ [.saved identity])
      (fun t => t.log = w.log) := by
  have hlift {outcome : Outcome Identity} : Ensures (lift outcome) w (fun _ t => t = w) (fun t => t.log = w.log) := by
    cases outcome with
    | ok identity => exact ensures_pure rfl
    | error failure =>
      constructor
      · intro _ _ h
        cases h
      · intro _ _ h
        cases h
        rfl
  rw [openIdentity, hloaded]
  dsimp only
  apply hlift.bind
  rintro identity _ rfl
  apply hlift.bind
  rintro identity _ rfl
  apply ensures_bind
  apply ensures_call
  · intro _
    exact ensures_pure rfl
  · intro _
    rfl

theorem not_handled_openIdentity {env : Env} {gateway : Option SocketAddr} (request : ProvisionRequest)
    (hloaded : answers.loaded = .ok (some saved)) :
    ¬ Handled env (openIdentity wire request answers (.start env gateway)) := by
  have hensures := @ensures_openIdentity wire answers saved request hloaded (.start env gateway)
  cases hopen : openIdentity wire request answers (.start env gateway) with
  | ok identity t =>
    have hlog := hensures.of_ok _ _ hopen
    apply not_handled
    · show Act.provisioned ∉ t.log
      rw [hlog]
      simp [World.start]
    · rintro _ _ ⟨⟩ -
      refine ⟨identity, ?_⟩
      rw [hlog]
      exact List.mem_append_right _ List.mem_cons_self
  | error failure t =>
    have hlog := hensures.of_error _ _ hopen
    apply not_handled
    · show Act.provisioned ∉ t.log
      rw [hlog]
      exact List.not_mem_nil
    · rintro _ _ ⟨⟩

variable (wire)

/-- The direct route refuses the identity and the camouflaged one does not succeed. -/
def Refused (label : String) (call : Call) : Prop := RefusedDirectly wire call ∧ Fails wire label call

/-- **A refused identity is recognised exactly if both routes refuse it, and by the check of
the profile only.** Where the direct route refuses and the other does not succeed,
`refresh_profile` marks the identity, and what is built on it replaces the identity, exactly
if the camouflaged route settles on a refusal too and no message is cut inside a character;
an enrolment meets its part exactly if it keeps a usable certificate and does not panic; and
neither the enrolling branch of `load_or_provision_masque` nor `open_identity` ever does. -/
theorem refusal_iff (env : Env) (gateway : Option SocketAddr) (answers : Answers) (saved : Saved) :
    (∀ call, Refused wire "device refresh" call →
        ((∃ marked, refreshProfile wire call saved.identity = .ok marked ∧ marked.refused = true) ↔
          Legible wire call ∧ RefusedAgain wire call)) ∧
      (∀ e keypair, saved.identity.hasMasqueCredentials e.checked = false → e.keypair = .ok keypair →
        Refused wire "key enrollment" e.call →
        ((∃ reason, ensureMasqueEnrolled wire e saved.identity = failed (.identityRefused reason)) ∨
            (ensureMasqueEnrolled wire e saved.identity = .ok saved.identity.enrollment ∧
              saved.identity.certStillUsable e.kept = true) ↔
          saved.identity.certStillUsable e.kept = true ∧ Settles wire "key enrollment" e.call)) ∧
      (answers.loaded = .ok (some saved) →
        ((Identity.teamScope env).isSome = true → Refused wire "device refresh" answers.refresh →
          (Handled env (loadOrProvisionWarp wire answers (.start env gateway)) ↔
              Legible wire answers.refresh ∧ RefusedAgain wire answers.refresh) ∧
            (saved.identity.hasMasqueCredentials answers.looked = true →
              (Handled env (loadOrProvisionMasque wire answers (.start env gateway)) ↔
                Legible wire answers.refresh ∧ RefusedAgain wire answers.refresh))) ∧
        (∀ keypair, saved.identity.hasMasqueCredentials answers.looked = false →
          saved.identity.hasMasqueCredentials answers.enrolment.checked = false → answers.enrolment.keypair = .ok keypair →
          Refused wire "key enrollment" answers.enrolment.call →
          saved.identity.certStillUsable answers.enrolment.kept = false →
          ¬ Handled env (loadOrProvisionMasque wire answers (.start env gateway))) ∧
        ∀ request : ProvisionRequest,
          (request.team.isSome = true ∧ Refused wire "device refresh" answers.refresh) ∨
              (request.masqueCert = true ∧ Refused wire "key enrollment" answers.enrolment.call) →
            ¬ Handled env (openIdentity wire request answers (.start env gateway))) := by
  refine ⟨?_, ?_, ?_⟩
  · intro call hrefused
    exact refreshProfile_refused hrefused.1 saved.unmarked
  · intro e keypair hchecked hkeypair hrefused
    exact ensureMasqueEnrolled_recognised hchecked hkeypair hrefused.1 hrefused.2
  · intro hloaded
    refine ⟨?_, ?_, ?_⟩
    · intro hteam hrefused
      constructor
      · rw [loadOrProvisionWarp, hloaded]
        exact handled_checkSaved hteam hrefused.1 (ensures_provisionWarp answers)
      · intro hlooked
        rw [loadOrProvisionMasque, hloaded]
        dsimp only
        rw [hlooked, if_pos rfl]
        exact handled_checkSaved hteam hrefused.1 (ensures_provisionMasque answers)
    · intro keypair hlooked hchecked hkeypair hrefused hkept
      exact not_handled_enrolment hloaded hlooked hchecked hkeypair hrefused.1 hrefused.2 hkept
    · intro request _
      exact not_handled_openIdentity request hloaded

end Provision

/-! ### Refused on one route -/

/-- JSON and base64, as far as the sample goes. -/
def sampleWire : Wire where
  json _ := none
  account body := if body = "\x7b\"id\":\"device-1\"\x7d" then .ok {id := "device-1"} else .error "expected value at line 1 column 1"
  status status := if status = 401 then "401 Unauthorized" else "200 OK"
  decode := sampleDecode

def acmeEnv : Env := fun key => if key = "AETHER_TEAM" then some "acme" else none

/-- The direct route refuses, and no edge can be reached. -/
def refusedCall : Call := ⟨List.Vector.replicate 5 (.answered 401 (.ok "")), [.api "connect to 104.16.0.1:443 timed out"]⟩

def refusedEnrolment : Enrolment := ⟨1700000000, 1700000000, 1700000000, .error "", refusedCall⟩

def refusedAnswers : Answers where
  loaded := .ok (some ⟨sample, rfl⟩)
  refresh := refusedCall
  looked := 1700000000
  lookedAgain := 1700000000
  enrolment := refusedEnrolment
  saving := none
  token := .error .cancelled
  registration := refusedCall
  wgPrivate := List.Vector.replicate 32 7
  confirmation := refusedCall
  freshEnrolment := refusedEnrolment
  adoption := refusedCall
  freshSaving := none

theorem acme_team : (Identity.teamScope acmeEnv).isSome = true := by decide +kernel

/-- The identity is given and saved as if nothing had been said against it. -/
theorem refusal_lost :
    Refused sampleWire "device refresh" refusedCall ∧ refreshProfile sampleWire refusedCall sample = .ok sample ∧
      sample.refused = false ∧ ¬ Handled acmeEnv (loadOrProvisionWarp sampleWire refusedAnswers (.start acmeEnv none)) := by
  have hfallback : fallbackCall sampleWire "device refresh" refusedCall.exchanges =
      failed (.api "connect to 104.16.0.1:443 timed out") := rfl
  have hrefresh : refreshProfile sampleWire refusedCall sample = .ok sample := by decide +kernel
  refine ⟨⟨⟨401, .ok "", rfl, rfl⟩, ?_⟩, hrefresh, rfl, ?_⟩
  · intro account h
    rw [hfallback] at h
    cases h
  · have hstart : (Identity.teamScope (World.start acmeEnv none).env).isSome = true := acme_team
    have hrun : loadOrProvisionWarp sampleWire refusedAnswers (.start acmeEnv none) =
        checkSaved sampleWire refusedAnswers ⟨sample, rfl⟩ (provisionWarp sampleWire refusedAnswers) (.start acmeEnv none) := rfl
    have hrefreshed : refreshProfile sampleWire refusedAnswers.refresh sample = .ok sample := hrefresh
    rw [hrun, checkSaved_eq hstart, hrefreshed]
    apply not_handled
    · show Act.provisioned ∉ [Act.adopted sample, .saved sample]
      simp
    · rintro _ _ ⟨⟩ hmarked
      cases hmarked

end Aether.Account
