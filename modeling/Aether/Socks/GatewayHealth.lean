import Aether.Socks.Gateway
import Aether.Machine.Run

/-! The flag that all requests share.

`GATEWAY_HEALTHY` is one flag for the process: `retire_gateway` clears it on the first
error of any exchange and nothing sets it again. A refusal is such an error, so one
filtered destination takes every later request past the gateway, and the refused request
itself goes on to open its destination in the tunnel.

Requests move one await at a time, in any order. Filtering holds in every state of a run
exactly if no refusal reaches a healthy gateway and no refused request finds its
destination open (`filtered_iff`). -/
namespace Aether.Socks.GatewayHealth
open Machine Routing
open Rust (SocketAddr)

/-! ### The system -/

/-- A request that was decided to go through the tunnel, in `handle_connect` or in
`open_tunneled`. -/
structure Request where
  target : Target
  port : UInt16
  opening : Opening
  /-- The gateway answered with a status that is no success. -/
  refused : Bool := false
  /-- The gateway would have been used had it not been retired, for this reason. -/
  bypassed : Option GatewayError := none

structure System where
  /-- `GATEWAY_HEALTHY` -/
  healthy : Bool := true
  /-- What the warning of `retire_gateway` gives as its reason. -/
  reason : Option GatewayError := none
  requests : Nat → Option Request := fun _ => none

inductive Action where
  | request (id : Nat) (target : Target) (port : UInt16)
  | await (id : Nat) (event : OpeningEvent)

/-- The error with which an await ends an exchange. -/
def Request.error (event : OpeningEvent) (r : Request) : Option GatewayError :=
  match r.opening, event with
  | .exchange x, .gateway event =>
    match x.next (buildProxyConnect (authority r.target) r.port) event with
    | .failed error => some error
    | _ => none
  | _, _ => none

def Request.next (event : OpeningEvent) (r : Request) : Request :=
  {r with
    opening := r.opening.next r.target r.port event
    refused := r.refused || r.error event == some .refused}

namespace System

/-- `gateway_proxy` -/
def gatewayProxy (proxy : SocketAddr) (s : System) : Option SocketAddr := if s.healthy then some proxy else none

/-- `retire_gateway` -/
def retireGateway (reason : GatewayError) (s : System) : System :=
  if s.healthy then {s with healthy := false, reason := some reason} else s

def put (id : Nat) (r : Request) (s : System) : System := {s with requests := Function.update s.requests id (some r)}

/-- A request as it begins. -/
def fresh (proxy : SocketAddr) (target : Target) (port : UInt16) (s : System) : Request where
  target := target
  port := port
  opening := .start (s.gatewayProxy proxy) port
  bypassed := if shouldUseGateway port && !s.healthy then s.reason else none

/-- A request begins, under an id that is not in use. -/
def begin (proxy : SocketAddr) (id : Nat) (target : Target) (port : UInt16) (s : System) : System :=
  match s.requests id with
  | some _ => s
  | none => s.put id (s.fresh proxy target port)

/-- The error of an exchange retires the gateway. -/
def report (error : Option GatewayError) (s : System) : System :=
  match error with
  | some error => s.retireGateway error
  | none => s

def await (id : Nat) (event : OpeningEvent) (s : System) : System :=
  match s.requests id with
  | none => s
  | some r => (s.report (r.error event)).put id (r.next event)

def next (proxy : SocketAddr) : Action → System → System
  | .request id target port, s => s.begin proxy id target port
  | .await id event, s => s.await id event

end System

/-! ### Filtering -/

/-- A refusal is final for its request and has no effect on others. -/
structure Filtered (s : System) : Prop where
  served : ∀ id r, s.requests id = some r → r.refused = true → ∀ leftover, r.opening ≠ .opened false leftover
  bypassed : ∀ id r, s.requests id = some r → r.bypassed ≠ some .refused
  retired : s.healthy = false → ∃ error, s.reason = some error ∧ error ≠ .refused

/-- The await is a refusal while the gateway is healthy, or `open_tcp` succeeds for a
request that was refused. -/
def Defeated (a : Action) (s : System) : Prop :=
  ∃ id event r, a = .await id event ∧ s.requests id = some r ∧
    (s.healthy = true ∧ r.error event = some .refused ∨
      r.refused = true ∧ (∃ dst, r.opening = .dialling dst) ∧ event = .openTcp true)

/-- The error of an exchange is followed by the name query. -/
theorem Request.opening_of_error {r : Request} {event : OpeningEvent} {error : GatewayError}
    (h : r.error event = some error) : (r.next event).opening = .resolving := by
  unfold Request.error at h
  split at h
  · rename_i x e hx
    split at h
    · rename_i hfail
      show r.opening.next r.target r.port (.gateway e) = .resolving
      rw [hx]
      show Opening.settle (x.next (buildProxyConnect (authority r.target) r.port) e) = .resolving
      rw [hfail]
      rfl
    · cases h
  · cases h

theorem requests_put {s : System} {id i : Nat} {r q : Request} (h : (s.put id r).requests i = some q) :
    i = id ∧ q = r ∨ s.requests i = some q := by
  by_cases hi : i = id
  · subst hi
    simp only [System.put, Function.update_self] at h
    exact .inl ⟨rfl, (Option.some.inj h).symm⟩
  · simp only [System.put, Function.update_of_ne hi] at h
    exact .inr h

theorem requests_report (error : Option GatewayError) (s : System) : (s.report error).requests = s.requests := by
  cases error with
  | none => rfl
  | some error =>
    show (s.retireGateway error).requests = s.requests
    rw [System.retireGateway]
    split <;> rfl

/-- A system stays filtered when a request is put that is. -/
theorem Filtered.put {s : System} (h : Filtered s) {r : Request} (id : Nat)
    (hserved : r.refused = true → ∀ leftover, r.opening ≠ .opened false leftover)
    (hbypassed : r.bypassed ≠ some .refused) : Filtered (s.put id r) := by
  refine ⟨?_, ?_, h.retired⟩
  · intro i q hq
    rcases requests_put hq with ⟨-, rfl⟩ | hq
    · exact hserved
    · exact h.served i q hq
  · intro i q hq
    rcases requests_put hq with ⟨-, rfl⟩ | hq
    · exact hbypassed
    · exact h.bypassed i q hq

theorem Filtered.begin {s : System} (h : Filtered s) (proxy : SocketAddr) (id : Nat) (target : Target)
    (port : UInt16) : Filtered (s.begin proxy id target port) := by
  rw [System.begin]
  split
  · exact h
  · apply h.put id (fun hrefused => by cases hrefused)
    rw [System.fresh]
    dsimp only
    split
    · rename_i hpast
      have hsick : s.healthy = false := by
        have := (Bool.and_eq_true_iff.mp hpast).2
        simpa using this
      obtain ⟨error, hreason, hne⟩ := h.retired hsick
      rw [hreason]
      exact fun he => hne (Option.some.inj he)
    · exact nofun

/-- An error keeps the filtering exactly if it does not retire the gateway as a refusal. -/
theorem filtered_report_iff {s : System} (h : Filtered s) (error : Option GatewayError) :
    Filtered (s.report error) ↔ ¬ (s.healthy = true ∧ error = some .refused) := by
  cases error with
  | none => exact iff_of_true h nofun
  | some error =>
    show Filtered (s.retireGateway error) ↔ _
    unfold System.retireGateway
    split
    · rename_i hhealthy
      constructor
      · intro hf hboth
        obtain ⟨e, hreason, hne⟩ := hf.retired rfl
        exact hne (Option.some.inj (hreason.symm.trans hboth.2))
      · intro hne
        refine ⟨h.served, h.bypassed, fun _ => ⟨error, rfl, ?_⟩⟩
        intro hrefused
        exact hne ⟨hhealthy, congrArg some hrefused⟩
    · rename_i hsick
      exact iff_of_true h fun hboth => hsick hboth.1

/-- An await keeps the filtering exactly if it does not defeat it. -/
theorem filtered_await_iff {s : System} (h : Filtered s) {id : Nat} {r : Request} (hr : s.requests id = some r)
    (event : OpeningEvent) :
    Filtered ((s.report (r.error event)).put id (r.next event)) ↔
      ¬ (s.healthy = true ∧ r.error event = some .refused) ∧
      ¬ (r.refused = true ∧ (∃ dst, r.opening = .dialling dst) ∧ event = .openTcp true) := by
  constructor
  · intro hf
    have hput : ((s.report (r.error event)).put id (r.next event)).requests id = some (r.next event) :=
      Function.update_self ..
    have hreport : Filtered (s.report (r.error event)) := by
      refine ⟨?_, ?_, hf.retired⟩
      · rw [requests_report]
        exact h.served
      · rw [requests_report]
        exact h.bypassed
    refine ⟨(filtered_report_iff h _).mp hreport, ?_⟩
    intro hopen
    obtain ⟨hrefused, ⟨dst, hdst⟩, rfl⟩ := hopen
    apply hf.served id _ hput _ []
    · show r.opening.next r.target r.port (.openTcp true) = .opened false []
      rw [hdst]
      rfl
    · show (r.refused || _) = true
      rw [hrefused, Bool.true_or]
  · intro hkept
    obtain ⟨hreport, hopen⟩ := hkept
    apply ((filtered_report_iff h _).mpr hreport).put id
    · intro hrefused leftover hout
      rcases Bool.or_eq_true_iff.mp hrefused with hbefore | hnow
      · rcases Opening.opened_outside hout with hsame | hdial
        · exact h.served id r hr hbefore leftover hsame
        · exact hopen ⟨hbefore, hdial⟩
      · rw [Request.opening_of_error (beq_iff_eq.mp hnow)] at hout
        cases hout
    · exact h.bypassed id r hr

/-- A step keeps the filtering exactly if it does not defeat it. -/
theorem filtered_next_iff (proxy : SocketAddr) (a : Action) (s : System) (h : Filtered s) :
    Filtered (s.next proxy a) ↔ ¬ Defeated a s := by
  cases a with
  | request id target port =>
    refine iff_of_true (h.begin proxy id target port) ?_
    intro hd
    obtain ⟨_, _, _, ha, -⟩ := hd
    cases ha
  | await id event =>
    show Filtered (s.await id event) ↔ _
    unfold System.await
    split
    · rename_i hnone
      refine iff_of_true h ?_
      intro hd
      obtain ⟨i, e, r, ha, hr, -⟩ := hd
      cases ha
      rw [hnone] at hr
      cases hr
    · rename_i r hr
      rw [filtered_await_iff h hr, ← not_or, not_iff_not]
      constructor
      · exact fun hd => ⟨id, event, r, rfl, hr, hd⟩
      · intro hd
        obtain ⟨i, e, q, ha, hq, hd⟩ := hd
        cases ha
        obtain rfl := Option.some.inj (hr.symm.trans hq)
        exact hd

/-- **A refusal stays one in every state of a run exactly if none reaches a healthy gateway
and no refused request then finds its destination open.** -/
theorem filtered_iff (proxy : SocketAddr) (actions : List Action) :
    (∀ s ∈ visited (System.next proxy) {} actions, Filtered s) ↔
      Along (System.next proxy) (fun a s => ¬ Defeated a s) {} actions := by
  have hstart : Filtered {} := by
    refine ⟨?_, ?_, ?_⟩
    · intro id r hr
      cases hr
    · intro id r hr
      cases hr
    · intro hsick
      cases hsick
  exact visited_iff_along_of_step (filtered_next_iff proxy) hstart actions

/-- The gateway refuses a name with `403` and the request is served in the tunnel; the
next request does not ask the gateway. -/
theorem refusal_retires_gateway :
    ¬ ∀ s ∈ visited (System.next (.v4 (Rust.ipv4 10 0 0 1) 3128)) {}
      [.request 0 (.domain "blocked.example") 443, .await 0 (.gateway .connected), .await 0 (.gateway .sent),
        .await 0 (.gateway (.chunk [72, 84, 84, 80, 47, 49, 46, 49, 32, 52, 48, 51, 13, 10, 13, 10])),
        .await 0 (.resolved (some (.v4 (Rust.ipv4 93 184 216 34)))), .await 0 (.openTcp true),
        .request 1 (.domain "other.example") 443],
      Filtered s := by
  intro h
  have hlast := h _ (run_visited _ _ _)
  exact hlast.served 0 _ rfl rfl [] rfl

end Aether.Socks.GatewayHealth
