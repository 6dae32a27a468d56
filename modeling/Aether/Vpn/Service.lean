import Aether.Vpn.Supervisor

/-! The VPN service.

`onStartCommand` runs on the main thread and launches coroutines: a session for
each connect request, and one that stops or locks down for each disconnect. They
share the service's fields, of which `tun` and `lockdownTunActive` decide what
leaves the device. Here each coroutine is a program counter and the service takes
one step at a time, of the main thread or of any coroutine: a step of a coroutine
runs to the next statement that reads or writes one of the two fields, waits, or
may throw.

A cancelled coroutine goes on until it waits, and not every wait notices: the
outcome of a step says whether it did. -/
namespace Aether.Vpn
open Profile

/-! ### Plans -/

/-- What a candidate of Smart Auto changes in the user's profile. -/
structure Strategy where
  protocol : Protocol
  scanMode : ScanMode
  masqueHttp2 : Bool
  noize : Noize
  endpointMode : EndpointMode
  manualRange : String
  fragment : Bool
  ech : Bool

def Strategy.candidate (user : ConnectionProfile) (t : Strategy) : ConnectionProfile :=
  {user with
    protocol := t.protocol
    scanMode := t.scanMode
    masqueHttp2 := t.masqueHttp2
    noize := t.noize
    endpointMode := t.endpointMode
    manualRange := t.manualRange
    fragment := t.fragment
    ech := t.ech}

/-- The profile with anti-DPI hardening. -/
def hardened (p : ConnectionProfile) : ConnectionProfile :=
  {p with
    noize := if p.noize = .off then .firewall else p.noize
    masqueHttp2 := p.masqueHttp2 || p.protocol = .masque
    fragment := p.fragment || p.protocol = .masque
    ech := p.ech || p.protocol = .masque}

/-- The plan for a protocol picked by hand: as configured, then hardened, unless that is
the same. -/
def directPlan (p : ConnectionProfile) : List ConnectionProfile :=
  if (hardened p).noize = p.noize ∧ (hardened p).masqueHttp2 = p.masqueHttp2 ∧
      (hardened p).fragment = p.fragment ∧ (hardened p).ech = p.ech then [p]
  else [p, hardened p]

/-! ### Coroutines -/

/-- Where a coroutine is. -/
inductive Pc where
  /-- `startTunnel`, before the previous session is cancelled. -/
  | cancelling (p : ConnectionProfile) (previousRun previousStop : Option Nat)
  | clearing (p : ConnectionProfile) (previousRun previousStop : Option Nat)
  | joiningRun (p : ConnectionProfile) (previousRun previousStop : Option Nat)
  | joiningStop (p : ConnectionProfile) (previousStop : Option Nat)
  /-- `connectFlow`. -/
  | planning (p : ConnectionProfile)
  /-- `runLadder` with these candidates left. -/
  | rung (plan : List ConnectionProfile)
  /-- `connectAttempt`, after `lockdownTunActive` is reset. -/
  | leaving (c : ConnectionProfile) (rest : List ConnectionProfile)
  | launching (c : ConnectionProfile) (rest : List ConnectionProfile)
  | establishing (c : ConnectionProfile) (rest : List ConnectionProfile)
  | forwarding (c : ConnectionProfile) (rest : List ConnectionProfile)
  | verifying (c : ConnectionProfile) (rest : List ConnectionProfile)
  /-- The handler of a rung that failed. -/
  | falling (rest : List ConnectionProfile)
  | supervising (c : ConnectionProfile) (sup : Supervisor)
  /-- The handler of `startTunnel`. -/
  | recovering
  /-- `enterLockdown`. -/
  | holding (p : ConnectionProfile) (job : Option Nat)
  /-- `ensureLockdownTun`. -/
  | closing (p : ConnectionProfile) (job : Option Nat)
  | blackholing (p : ConnectionProfile) (job : Option Nat)
  | locking (job : Option Nat)
  /-- `stopEverything`. -/
  | stopping (job : Option Nat)
  | joining (job : Option Nat)
  | done

structure Service where
  /-- `tun` is not null. -/
  tun : Bool := false
  lockdownTunActive : Bool := false
  lastProfile : Option ConnectionProfile := none
  probeFailures : Nat := 0
  runJob : Option Nat := none
  stopJob : Option Nat := none
  tasks : Nat → Pc := fun _ => .done
  cancelled : Nat → Bool := fun _ => false
  launched : Nat := 0
  /-- A TUN was established. -/
  opened : Bool := false
  /-- The last word of the user is a disconnect that lifts the kill switch. -/
  lifted : Bool := false

/-- What a step of a coroutine comes to: whether what it calls succeeds, whether a
cancelled one notices, the plan of Smart Auto and the events of the supervision loop. -/
structure Outcome where
  ok : Bool := true
  notices : Bool := true
  plan : List Strategy := []
  wake : Wake := ⟨true, true, true⟩
  restart : Restart := {}

namespace Service

def goto (j : Nat) (pc : Pc) (s : Service) : Service := {s with tasks := Function.update s.tasks j pc}

@[simp] theorem goto_self (j : Nat) (pc : Pc) (s : Service) : (s.goto j pc).tasks j = pc :=
  Function.update_self ..

theorem goto_of_ne {i j : Nat} (h : i ≠ j) (pc : Pc) (s : Service) : (s.goto j pc).tasks i = s.tasks i :=
  Function.update_of_ne h ..

def cancel (job : Option Nat) (s : Service) : Service :=
  match job with
  | some j => {s with cancelled := Function.update s.cancelled j true}
  | none => s

def finished (job : Option Nat) (s : Service) : Bool :=
  match job with
  | some j => match s.tasks j with
    | .done => true
    | _ => false
  | none => true

/-- A coroutine is launched. -/
def launch (pc : Pc) (s : Service) : Service := {s.goto s.launched pc with launched := s.launched + 1}

/-- The engines of a session that supervises them. -/
def stopEngine : Pc → Pc
  | .supervising c sup => .supervising c sup.stopBoth
  | pc => pc

/-- The forwarder and both engines are stopped and `tun` is kept. -/
def cleanupForwardingOnly (s : Service) : Service := {s with tasks := fun j => stopEngine (s.tasks j)}

def cleanupNativeOnly (s : Service) : Service := {s.cleanupForwardingOnly with tun := false}

/-- `runJob?.isActive ?: false`. -/
def currentScopeActive (s : Service) : Bool :=
  match s.runJob with
  | some j => !s.cancelled j && !s.finished (some j)
  | none => false

/-! ### The main thread -/

def startTunnel (p : ConnectionProfile) (s : Service) : Service :=
  {s.launch (.cancelling p s.runJob s.stopJob) with
    lastProfile := some p, runJob := some s.launched, lifted := false}

def enterLockdown (p : ConnectionProfile) (s : Service) : Service :=
  {(s.cancel s.runJob).launch (.holding p s.runJob) with runJob := none, stopJob := some s.launched}

def stopEverything (s : Service) : Service :=
  {(s.cancel s.runJob).launch (.stopping s.runJob) with
    runJob := none, stopJob := some s.launched, lifted := true}

/-- `ACTION_DISCONNECT`. -/
def disconnect (s : Service) : Service :=
  if s.lockdownTunActive then s.stopEverything
  else
    match s.lastProfile with
    | some last => if last.strictKillSwitch then s.enterLockdown last else s.stopEverything
    | none => s.stopEverything

/-! ### Steps of a coroutine -/

/-- A turn of `superviseEngine`. -/
def supervise (j : Nat) (c : ConnectionProfile) (sup : Supervisor) (o : Outcome) (s : Service) : Service :=
  let sup := sup.turn c o.wake o.restart
  let s := {s with probeFailures := sup.probeFailures}
  match sup.ending with
  | .running => s.goto j (.supervising c sup)
  | .lockdown => (s.enterLockdown c).goto j .done
  | .threw => s.goto j .recovering
  | .cancelled => s.goto j .done

/-- Coroutine `j` goes on from `pc`. -/
def resume (j : Nat) (o : Outcome) (pc : Pc) (s : Service) : Service :=
  let cancelled := s.cancelled j && o.notices
  match pc with
  | .cancelling p previousRun previousStop =>
    if cancelled then s.goto j .done
    else if previousRun.isNone then s.goto j (.joiningStop p previousStop)
    else (s.cancel previousRun).goto j (.clearing p previousRun previousStop)
  | .clearing p previousRun previousStop =>
    s.cleanupNativeOnly.goto j (.joiningRun p previousRun previousStop)
  | .joiningRun p previousRun previousStop =>
    if cancelled then s.goto j .done
    else if s.finished previousRun then s.goto j (.joiningStop p previousStop) else s
  | .joiningStop p previousStop =>
    if cancelled && previousStop.isSome then s.goto j .done
    else if s.finished previousStop then s.goto j (.planning p) else s
  | .planning p =>
    if p.protocol = .auto then
      if cancelled then s.goto j .done
      else if o.ok then s.goto j (.rung (o.plan.map (Strategy.candidate p))) else s.goto j .recovering
    else s.goto j (.rung (directPlan p))
  | .rung [] => s.goto j .recovering
  | .rung (c :: rest) => {s with lockdownTunActive := false}.goto j (.leaving c rest)
  | .leaving c rest => s.cleanupNativeOnly.goto j (.launching c rest)
  -- The engine and Psiphon are started and their ports open, or something throws.
  | .launching c rest =>
    if cancelled then s.goto j .done
    else if !o.ok then s.goto j (.falling rest)
    else if c.proxyMode then s.goto j (.verifying c rest) else s.goto j (.establishing c rest)
  | .establishing c rest =>
    if o.ok then {s with tun := true, opened := true}.goto j (.forwarding c rest) else s.goto j (.falling rest)
  | .forwarding c rest => s.goto j (if o.ok then .verifying c rest else .falling rest)
  -- A cancellation that arrives here is taken for a self-test that failed.
  | .verifying c rest =>
    if o.ok then
      s.goto j (.supervising c (Supervisor.start o.restart.engine o.restart.psiphon s.probeFailures))
    else s.goto j (.falling rest)
  | .falling rest => s.cleanupNativeOnly.goto j (.rung rest)
  | .supervising c sup =>
    if cancelled || !s.currentScopeActive then s.goto j .done else s.supervise j c sup o
  | .recovering => s.cleanupNativeOnly.goto j .done
  | .holding p job => s.cleanupForwardingOnly.goto j (.closing p job)
  | .closing p job => {s with tun := false}.goto j (.blackholing p job)
  | .blackholing _ job => {s with tun := o.ok}.goto j (.locking job)
  | .locking job => {s with lockdownTunActive := true}.goto j (.joining job)
  | .stopping job => s.cleanupNativeOnly.goto j (.joining job)
  | .joining job => if s.finished job then s.goto j .done else s
  | .done => s

/-! ### The machine -/

inductive Action where
  /-- A connect request, which `onStartCommand` takes every other intent for. -/
  | connect (p : ConnectionProfile)
  | disconnect
  | step (j : Nat) (o : Outcome)
  | engineDies (j : Nat)
  | psiphonDies (j : Nat)

/-- A process of the session dies. -/
def dies (j : Nat) (f : Supervisor → Supervisor) (s : Service) : Service :=
  match s.tasks j with
  | .supervising c sup => s.goto j (.supervising c (f sup))
  | _ => s

def next (a : Action) (s : Service) : Service :=
  match a with
  | .connect p => s.startTunnel p
  | .disconnect => s.disconnect
  | .step j o => s.resume j o (s.tasks j)
  | .engineDies j => s.dies j fun sup => {sup with engine := false}
  | .psiphonDies j => s.dies j fun sup => {sup with psiphon := false}

end Service

end Aether.Vpn
