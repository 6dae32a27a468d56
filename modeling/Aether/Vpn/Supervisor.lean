import Aether.Machine.Run
import Aether.Profile.Model

/-! The supervision loop of a session.

`superviseEngine` watches the engine, and Psiphon when it is chained behind it,
and restarts both when one has died. It counts its attempts and gives up after
`maxRetries` of them. The counter is reset by a restart that passes the self-test,
and also whenever the loop finds both processes alive. The second is meant for the
first, but an engine that is alive and has not opened its port passes for healthy:
`bounded_of_prompt` says that the restarts are bounded in every run in which that
does not happen. -/
namespace Aether.Vpn
open Profile

/-! ### The loop -/

def watchdogFailCycles : Nat := 3

def coerceIn (x low high : Int32) : Int32 := if x < low then low else if x > high then high else x

/-- Max automatic engine restarts. -/
def maxRetries (p : ConnectionProfile) : Nat :=
  if p.smartReconnect then (coerceIn p.reconnectRetryLimit 1 50).toInt.toNat else 50

def locksDown (p : ConnectionProfile) : Bool := p.killSwitch || p.strictKillSwitch

inductive Ending where
  | running
  /-- `enterLockdown` was called. -/
  | lockdown
  | threw
  | cancelled
  deriving DecidableEq

structure Supervisor where
  /-- The engine's process is alive. -/
  engine : Bool := true
  psiphon : Bool := true
  attempt : Nat := 0
  probeFailures : Nat := 0
  ending : Ending := .running
  /-- The restarts since the last self-test that passed. -/
  failed : Nat := 0
  deriving DecidableEq

/-- What a wait for the engine to exit ends with. -/
structure Wake where
  engine : Bool
  psiphon : Bool
  /-- `probeTunnelCycle`. -/
  probe : Bool

/-- What the steps of a restart come to. -/
structure Restart where
  /-- The process could be started; otherwise `start` throws. -/
  started : Bool := true
  /-- The SOCKS port opened before the timeout. -/
  opened : Bool := true
  psiphonStarted : Bool := true
  psiphonOpened : Bool := true
  selfTest : Bool := true
  /-- The processes that are alive at the end, of those that are not stopped. -/
  engine : Bool := true
  psiphon : Bool := true

namespace Supervisor

def bothAlive (p : ConnectionProfile) (s : Supervisor) : Bool :=
  s.engine && if p.isChainedPsiphon then s.psiphon else true

def stopBoth (s : Supervisor) : Supervisor := {s with engine := false, psiphon := false}

/-- Both were alive at the top of the loop. -/
def watch (p : ConnectionProfile) (w : Wake) (s : Supervisor) : Supervisor :=
  let woken := {s with attempt := 0, engine := s.engine && w.engine, psiphon := s.psiphon && w.psiphon}
  if !woken.bothAlive p then woken
  else if w.probe then {woken with probeFailures := 0}
  else if woken.probeFailures + 1 ≥ watchdogFailCycles then {woken with probeFailures := 0}.stopBoth
  else {woken with probeFailures := woken.probeFailures + 1}

/-- A restart that came to nothing. -/
def fail (s : Supervisor) : Supervisor := {s with failed := s.failed + 1}

def verify (p : ConnectionProfile) (r : Restart) (s : Supervisor) : Supervisor :=
  if r.selfTest then
    {s with attempt := 0, failed := 0, engine := r.engine, psiphon := p.isChainedPsiphon && r.psiphon}
  else s.stopBoth.fail

/-- The engine and Psiphon are stopped and started again. -/
def restart (p : ConnectionProfile) (r : Restart) (s : Supervisor) : Supervisor :=
  let stopped := {s with attempt := s.attempt + 1}.stopBoth
  if !r.started then {stopped with ending := .threw}.fail
  -- Nothing stops an engine that has not opened its port.
  else if !r.opened then {stopped with engine := r.engine}.fail
  else if p.isChainedPsiphon then
    if !r.psiphonStarted then {stopped with ending := .threw}.fail
    else if !r.psiphonOpened then stopped.fail
    else stopped.verify p r
  else stopped.verify p r

def giveUp (p : ConnectionProfile) (s : Supervisor) : Supervisor :=
  {s with ending := if locksDown p then .lockdown else .threw}

/-- One turn of the loop. -/
def turn (p : ConnectionProfile) (w : Wake) (r : Restart) (s : Supervisor) : Supervisor :=
  if s.bothAlive p then s.watch p w
  else if s.attempt ≥ maxRetries p then s.giveUp p
  else s.restart p r

inductive Action where
  | turn (w : Wake) (r : Restart)
  | engineDies
  | psiphonDies
  | cancel

def next (p : ConnectionProfile) (a : Action) (s : Supervisor) : Supervisor :=
  if s.ending != .running then s
  else
    match a with
    | .turn w r => s.turn p w r
    | .engineDies => {s with engine := false}
    | .psiphonDies => {s with psiphon := false}
    | .cancel => {s with ending := .cancelled}

/-- A turn in which every process can be started goes on or gives up. -/
theorem turn_ending {p : ConnectionProfile} {s : Supervisor} (hs : s.ending = .running) (w : Wake) {r : Restart}
    (hr : r.started = true) (hpsiphon : r.psiphonStarted = true) : (s.turn p w r).ending = .running ∨
      (s.turn p w r).ending = if locksDown p then .lockdown else .threw := by
  unfold turn
  split
  · left
    unfold watch
    dsimp only
    split
    · exact hs
    · split
      · exact hs
      · split <;> exact hs
  · split
    · exact .inr rfl
    · left
      have hverify (t : Supervisor) (ht : t.ending = .running) : (t.verify p r).ending = .running := by
        unfold verify
        split <;> exact ht
      unfold restart
      simp only [hr, hpsiphon, Bool.not_true, Bool.false_eq_true, if_false]
      split
      · exact hs
      · split
        · split
          · exact hs
          · exact hverify _ hs
        · exact hverify _ hs

/-! ### Counting -/

/-- The restarts that failed in a row are at most `maxRetries`, and after that many the
loop ends with its next turn. -/
structure Bounded (p : ConnectionProfile) (s : Supervisor) : Prop where
  bound : s.failed ≤ maxRetries p
  ends : s.failed = maxRetries p → s.ending = .running →
    ∀ w r, (next p (.turn w r) s).ending = if locksDown p then .lockdown else .threw

/-- No restart ends with the engine alive and its port not open, unless Psiphon is chained. -/
def Prompt (p : ConnectionProfile) : Action → Supervisor → Prop
  | .turn _ r, s => s.bothAlive p = false → s.attempt < maxRetries p → r.started = true → r.opened = false →
    r.engine = true → p.isChainedPsiphon = true
  | _, _ => True

instance Prompt.decidable (p : ConnectionProfile) : (a : Action) → (s : Supervisor) → Decidable (Prompt p a s)
  | .turn _ r, s => inferInstanceAs (Decidable (s.bothAlive p = false → s.attempt < maxRetries p →
      r.started = true → r.opened = false → r.engine = true → p.isChainedPsiphon = true))
  | .engineDies, _ | .psiphonDies, _ | .cancel, _ => inferInstanceAs (Decidable True)

/-- The loop starts after a self-test that passed. -/
def start (engine psiphon : Bool) (probeFailures : Nat) : Supervisor := {engine, psiphon, probeFailures}

/-- While the processes are counted as alive only after a self-test, the counter counts the
restarts that failed. -/
structure Counted (p : ConnectionProfile) (s : Supervisor) : Prop where
  alive : s.bothAlive p = true → s.failed = 0
  count : s.ending = .running → s.attempt = s.failed
  bound : s.failed ≤ maxRetries p

theorem maxRetries_pos (p : ConnectionProfile) : 0 < maxRetries p := by
  unfold maxRetries
  split
  · unfold coerceIn
    split
    · decide
    · rename_i hlow
      split
      · decide
      · have hx : ¬ p.reconnectRetryLimit.toInt < 1 := fun h => hlow (Int32.lt_iff_toInt_lt.mpr h)
        omega
  · decide

theorem counted_watch {p : ConnectionProfile} {s : Supervisor} (h : Counted p s) (hs : s.bothAlive p = true)
    (w : Wake) : Counted p (s.watch p w) := by
  have hfailed : s.failed = 0 := h.alive hs
  have hzero (t : Supervisor) (ha : t.attempt = 0) (hf : t.failed = s.failed) : Counted p t := by
    rw [hfailed] at hf
    exact ⟨fun _ => hf, fun _ => ha.trans hf.symm, by omega⟩
  unfold watch
  dsimp only
  split
  · exact hzero _ rfl rfl
  · split
    · exact hzero _ rfl rfl
    · split <;> exact hzero _ rfl rfl

theorem counted_verify {p : ConnectionProfile} {s : Supervisor} (ha : s.attempt = s.failed + 1)
    (hb : s.failed < maxRetries p) (r : Restart) : Counted p (s.verify p r) := by
  unfold verify
  split
  · exact ⟨fun _ => rfl, fun _ => rfl, Nat.zero_le _⟩
  · exact ⟨nofun, fun _ => ha, hb⟩

theorem counted_restart {p : ConnectionProfile} {s : Supervisor} (h : Counted p s) (hr : s.ending = .running)
    (hb : s.attempt < maxRetries p) {w : Wake} {r : Restart} (hdead : s.bothAlive p = false)
    (hp : Prompt p (.turn w r) s) : Counted p (s.restart p r) := by
  have hcount := h.count hr
  have hfailed : s.failed < maxRetries p := by omega
  have hattempt : s.attempt + 1 = s.failed + 1 := by omega
  have hthrew (t : Supervisor) (ht : t.failed = s.failed + 1) (ha : t.bothAlive p = false)
      (he : t.ending = .threw) : Counted p t := by
    refine ⟨fun h => ?_, fun h => ?_, ht ▸ hfailed⟩
    · rw [ha] at h
      cases h
    · rw [he] at h
      cases h
  unfold restart
  dsimp only
  split
  · exact hthrew _ rfl rfl rfl
  · rename_i hstarted
    split
    · rename_i hopened
      refine ⟨fun ha => ?_, fun _ => hattempt, hfailed⟩
      -- Alive and not open: only Psiphon keeps the loop from taking it for healthy.
      have ha' : (r.engine && if p.isChainedPsiphon then false else true) = true := ha
      cases hc : p.isChainedPsiphon with
      | true => simp [hc] at ha'
      | false =>
        have hengine : r.engine = true := by simpa [hc] using ha'
        have hchained := hp hdead hb (by simpa using hstarted) (by simpa using hopened) hengine
        rw [hchained] at hc
        cases hc
    · split
      · split
        · exact hthrew _ rfl rfl rfl
        · split
          · exact ⟨nofun, fun _ => hattempt, hfailed⟩
          · exact counted_verify (s := {s with attempt := s.attempt + 1}.stopBoth) hattempt hfailed r
      · exact counted_verify (s := {s with attempt := s.attempt + 1}.stopBoth) hattempt hfailed r

theorem counted_next {p : ConnectionProfile} (a : Action) (s : Supervisor) (h : Counted p s)
    (hp : Prompt p a s) : Counted p (next p a s) := by
  unfold next
  split
  · exact h
  · rename_i hending
    have hr : s.ending = .running := by simpa using hending
    cases a with
    | turn w r =>
      show Counted p (s.turn p w r)
      unfold turn
      split
      · rename_i halive
        exact counted_watch h halive w
      · rename_i hdead
        have hdead' : s.bothAlive p = false := Bool.eq_false_iff.mpr hdead
        split
        · refine ⟨h.alive, fun hrunning => ?_, h.bound⟩
          unfold giveUp at hrunning
          dsimp only at hrunning
          split at hrunning <;> cases hrunning
        · rename_i hleft
          exact counted_restart h hr (Nat.not_le.mp hleft) hdead' hp
    | engineDies => exact ⟨nofun, h.count, h.bound⟩
    | psiphonDies =>
      refine ⟨fun ha => h.alive ?_, h.count, h.bound⟩
      unfold bothAlive at ha ⊢
      cases hc : p.isChainedPsiphon with
      | true => simp [hc] at ha
      | false => simpa [hc] using ha
    | cancel => exact ⟨h.alive, nofun, h.bound⟩

theorem Counted.bounded {p : ConnectionProfile} {s : Supervisor} (h : Counted p s) : Bounded p s := by
  refine ⟨h.bound, fun hmax hr w r => ?_⟩
  have hpos := maxRetries_pos p
  have hdead : s.bothAlive p = false := by
    by_contra halive
    have hzero := h.alive (by simpa using halive)
    omega
  have hattempt : maxRetries p ≤ s.attempt := by
    rw [h.count hr, hmax]
  simp [next, hr, turn, hdead, hattempt, giveUp]

/-- **The restarts are bounded when no engine stays alive without its port**: in a run from
a self-test that passed in which each restart opens its port, loses its engine, or is
chained with Psiphon, no state visited has more than `maxRetries` failed restarts in a
row, and after that many the loop enters lockdown or throws. -/
theorem bounded_of_prompt (p : ConnectionProfile) (engine psiphon : Bool) (probeFailures : Nat)
    (as : List Action) (h : Machine.Along (next p) (Prompt p) (start engine psiphon probeFailures) as) :
    ∀ s ∈ Machine.visited (next p) (start engine psiphon probeFailures) as, Bounded p s := by
  intro s hs
  have hstart : Counted p (start engine psiphon probeFailures) := ⟨fun _ => rfl, fun _ => rfl, Nat.zero_le _⟩
  have stepInv : ∀ (_ : Action) (_ : Supervisor), True → True := fun _ _ h => h
  have hcounted := Machine.visited_of_along stepInv (fun a s _ => counted_next a s) trivial hstart as h
  exact (hcounted s hs).bounded

/-- With the kill switch on, every restart loses its engine. -/
theorem bounded_of_prompt_dying : (Machine.run (next {killSwitch := true}) (start true true 0)
      (.engineDies :: List.replicate 5 (.turn ⟨true, true, true⟩ {opened := false, engine := false}))).failed = 5 ∧
    Bounded {killSwitch := true} (Machine.run (next {killSwitch := true}) (start true true 0)
      (.engineDies :: List.replicate 5 (.turn ⟨true, true, true⟩ {opened := false, engine := false}))) :=
  ⟨by decide, bounded_of_prompt _ _ _ _ _ (by decide) _ (Machine.run_visited ..)⟩

/-- The engine dies, and from then on each restart times out with the engine alive; the loop
takes it for healthy, and it dies while the loop waits. -/
def stuckScans (n : Nat) : List Action :=
  .engineDies :: (List.replicate n [.turn ⟨false, true, true⟩ {opened := false},
    .turn ⟨false, true, true⟩ {opened := false}]).flatten

theorem stuckScan_fails (psiphon : Bool) (n : Nat) : Machine.run (next {}) {engine := false, psiphon, failed := n}
    [.turn ⟨false, true, true⟩ {opened := false}, .turn ⟨false, true, true⟩ {opened := false}] =
      {engine := false, psiphon := false, failed := n + 1} := rfl

/-- No number of failed restarts ends the loop. -/
theorem stuckScans_failed (n : Nat) : Machine.run (next {}) (start true true 0) (stuckScans n) =
    {engine := false, psiphon := n == 0, failed := n} := by
  induction n with
  | zero => rfl
  | succ n ih =>
    have hsplit : stuckScans (n + 1) = stuckScans n ++ [.turn ⟨false, true, true⟩ {opened := false},
        .turn ⟨false, true, true⟩ {opened := false}] := by
      simp [stuckScans, List.replicate_succ']
    rw [hsplit, Machine.run_append, ih, stuckScan_fails]
    rfl

theorem restarts_unbounded :
    ¬ ∀ s ∈ Machine.visited (next {}) (start true true 0) (stuckScans 6), Bounded {} s := by
  intro h
  have hbound := (h _ (Machine.run_visited ..)).bound
  rw [stuckScans_failed] at hbound
  exact absurd hbound (by decide)

end Supervisor

end Aether.Vpn
