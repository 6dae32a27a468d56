import Aether.Vpn.Service

/-! What the kill switch keeps closed.

The kill switch is meant to keep a TUN up that swallows everything while the tunnel
is down. A session that is up keeps its TUN through every death and restart of its
engines, and when it gives up, or is disconnected in strict mode, a blackhole takes
the TUN's place (`closed_of_undisturbed`). A connect request lifts the switch: the
new session begins by closing the TUN (`reconnect_opens`). -/
namespace Aether.Vpn
open Machine Profile

namespace Service

/-- A TUN is established, in lockdown and else. -/
def Closed (s : Service) : Prop := s.tun = true ∧ (s.lockdownTunActive = true → s.tun = true)

/-- From the first TUN on, unless a disconnect has lifted the switch. -/
def Sealed (s : Service) : Prop := s.opened = true → s.lifted = false → s.Closed

end Service

/-! ### Coroutines that keep the TUN -/

/-- `ensureLockdownTun` has closed the TUN and not yet established the blackhole. -/
def Pc.replaces : Pc → Bool
  | .blackholing .. => true
  | _ => false

/-- A session that is up, with the kill switch on, or a lockdown. -/
def Pc.keeps : Pc → Bool
  | .supervising c sup => locksDown c && sup.ending == .running
  | .holding .. | .closing .. | .blackholing .. | .locking .. | .joining .. | .done => true
  | _ => false

namespace Service

def Replacing (s : Service) : Prop := ∃ j, (s.tasks j).replaces = true

/-- The session is up and nothing else is going on. -/
structure Settled (s : Service) : Prop where
  tun : s.tun = true
  session : ∃ j c sup, j < s.launched ∧ s.tasks j = .supervising c sup ∧ locksDown c = true ∧
    sup.ending = .running ∧ ∀ i, i ≠ j → s.tasks i = .done

/-- No connect request, no engine that cannot be started and no blackhole that cannot be
established. -/
def Undisturbed : Action → Service → Prop
  | .connect _, _ => False
  | .step j o, s => (∀ c sup, s.tasks j = .supervising c sup →
      o.restart.started = true ∧ o.restart.psiphonStarted = true) ∧
    ∀ p job, s.tasks j = .blackholing p job → o.ok = true
  | _, _ => True

structure Guarded (s : Service) : Prop where
  keeps : ∀ j, (s.tasks j).keeps = true
  tun : s.tun = true ∨ s.Replacing
  fresh : ∀ j, s.launched ≤ j → s.tasks j = .done

/-! ### Steps -/

theorem replacing_goto {s : Service} (h : s.Replacing) {j : Nat} (hj : (s.tasks j).replaces = false) (pc : Pc) :
    (s.goto j pc).Replacing := by
  obtain ⟨i, hi⟩ := h
  have hij : i ≠ j := by
    intro he
    rw [he, hj] at hi
    cases hi
  exact ⟨i, by rw [goto_of_ne hij]; exact hi⟩

theorem Guarded.keeps_goto {s : Service} (h : Guarded s) (j : Nat) {pc : Pc} (hpc : pc.keeps = true) (i : Nat) :
    ((s.goto j pc).tasks i).keeps = true := by
  by_cases hij : i = j
  · rw [hij, goto_self]
    exact hpc
  · rw [goto_of_ne hij]
    exact h.keeps i

theorem Guarded.fresh_goto {s : Service} (h : Guarded s) {j : Nat} (hj : j < s.launched) (pc : Pc) (i : Nat)
    (hi : s.launched ≤ i) : (s.goto j pc).tasks i = .done := by
  rw [goto_of_ne (Nat.ne_of_gt (Nat.lt_of_lt_of_le hj hi))]
  exact h.fresh i hi

/-- A coroutine other than one that replaces the TUN goes on to something that keeps it. -/
theorem Guarded.goto {s : Service} (h : Guarded s) {j : Nat} {pc : Pc} (hpc : pc.keeps = true)
    (hj : (s.tasks j).replaces = false) (hl : j < s.launched) : Guarded (s.goto j pc) :=
  ⟨h.keeps_goto j hpc, h.tun.imp id fun hr => replacing_goto hr hj pc, h.fresh_goto hl pc⟩

theorem Guarded.launch {s : Service} (h : Guarded s) {pc : Pc} (hpc : pc.keeps = true) : Guarded (s.launch pc) := by
  have hfresh := h.fresh s.launched (Nat.le_refl _)
  refine ⟨h.keeps_goto _ hpc, h.tun.imp id fun hr => replacing_goto hr (by rw [hfresh]; rfl) pc, fun i hi => ?_⟩
  have hi' : s.launched < i := hi
  show (s.goto s.launched pc).tasks i = .done
  rw [goto_of_ne (Nat.ne_of_gt hi')]
  exact h.fresh i (Nat.le_of_lt hi')

theorem Guarded.cancel {s : Service} (h : Guarded s) (job : Option Nat) : Guarded (s.cancel job) := by
  cases job with
  | none => exact h
  | some j => exact ⟨h.keeps, h.tun, h.fresh⟩

theorem Guarded.enterLockdown {s : Service} (h : Guarded s) (p : ConnectionProfile) :
    Guarded (s.enterLockdown p) := by
  have hlaunch : Guarded ((s.cancel s.runJob).launch (.holding p s.runJob)) := (h.cancel s.runJob).launch rfl
  exact ⟨hlaunch.keeps, hlaunch.tun, hlaunch.fresh⟩

/-- A session enters lockdown and ends. -/
theorem Guarded.giveUp {s : Service} (h : Guarded s) {j : Nat} (hj : (s.tasks j).replaces = false)
    (hl : j < s.launched) (p : ConnectionProfile) : Guarded ((s.enterLockdown p).goto j .done) := by
  have hsame : (s.enterLockdown p).tasks j = s.tasks j ∧ (s.enterLockdown p).launched = s.launched + 1 := by
    unfold Service.enterLockdown
    cases s.runJob <;> exact ⟨goto_of_ne (Nat.ne_of_lt hl) _ _, rfl⟩
  refine (h.enterLockdown p).goto rfl ?_ ?_
  · rw [hsame.1]
    exact hj
  · rw [hsame.2]
    exact Nat.lt_succ_of_lt hl

theorem stopEngine_keeps {pc : Pc} (h : pc.keeps = true) : (stopEngine pc).keeps = true := by
  cases pc <;> exact h

theorem stopEngine_replaces (pc : Pc) : (stopEngine pc).replaces = pc.replaces := by
  cases pc <;> rfl

theorem Guarded.cleanupForwardingOnly {s : Service} (h : Guarded s) : Guarded s.cleanupForwardingOnly := by
  refine ⟨fun j => stopEngine_keeps (h.keeps j), h.tun.imp id ?_, fun j hj => ?_⟩
  · rintro ⟨j, hj⟩
    exact ⟨j, (stopEngine_replaces _).trans hj⟩
  · show stopEngine (s.tasks j) = .done
    rw [h.fresh j hj]
    rfl

theorem Guarded.lt_launched {s : Service} (h : Guarded s) {j : Nat} (hj : s.tasks j ≠ .done) : j < s.launched := by
  by_contra hn
  exact hj (h.fresh j (Nat.not_lt.mp hn))

/-- A turn of the supervision loop, in which every process can be started. -/
theorem Guarded.supervise {s : Service} (h : Guarded s) {j : Nat} {c : ConnectionProfile} {sup : Supervisor}
    (hj : s.tasks j = .supervising c sup) {o : Outcome} (hstarted : o.restart.started = true)
    (hpsiphon : o.restart.psiphonStarted = true) : Guarded (s.supervise j c sup o) := by
  have hlt : j < s.launched := h.lt_launched (by rw [hj]; nofun)
  have hreplaces : (s.tasks j).replaces = false := by rw [hj]; rfl
  have hkeeps := h.keeps j
  rw [hj] at hkeeps
  obtain ⟨hlocks, hrunning⟩ := Bool.and_eq_true_iff.mp hkeeps
  have hprobe : Guarded {s with probeFailures := (sup.turn c o.wake o.restart).probeFailures} :=
    ⟨h.keeps, h.tun, h.fresh⟩
  unfold Service.supervise
  dsimp only
  rcases Supervisor.turn_ending (by simpa using hrunning) o.wake hstarted hpsiphon with hending | hending
  · rw [hending]
    refine hprobe.goto ?_ hreplaces hlt
    simp [Pc.keeps, hlocks, hending]
  · rw [hending, if_pos hlocks]
    exact hprobe.giveUp hreplaces hlt c

/-- A step of a coroutine that is not disturbed keeps the service guarded. -/
theorem guarded_step {s : Service} (h : Guarded s) {j : Nat} {o : Outcome} (hu : Undisturbed (.step j o) s) :
    Guarded (next (.step j o) s) := by
  show Guarded (s.resume j o (s.tasks j))
  have hkeeps := h.keeps j
  obtain ⟨hstart, hestablish⟩ := hu
  have hlt (hpc : s.tasks j ≠ .done) : j < s.launched := h.lt_launched hpc
  cases hpc : s.tasks j with
  | supervising c sup =>
    have hdone : Guarded (s.goto j .done) := h.goto rfl (by rw [hpc]; rfl) (hlt (by rw [hpc]; nofun))
    obtain ⟨hstarted, hpsiphon⟩ := hstart c sup hpc
    show Guarded (if _ then s.goto j .done else s.supervise j c sup o)
    split
    · exact hdone
    · exact h.supervise hpc hstarted hpsiphon
  | holding p job =>
    have hcleaned : (s.cleanupForwardingOnly.tasks j).replaces = false := by
      rw [Service.cleanupForwardingOnly, stopEngine_replaces, hpc]
      rfl
    exact h.cleanupForwardingOnly.goto rfl hcleaned (hlt (by rw [hpc]; nofun))
  | closing p job =>
    -- The TUN is closed, and this coroutine is now the one that replaces it.
    have hgoto : Guarded (s.goto j (.blackholing p job)) :=
      h.goto rfl (by rw [hpc]; rfl) (hlt (by rw [hpc]; nofun))
    refine ⟨hgoto.keeps, .inr ⟨j, ?_⟩, hgoto.fresh⟩
    show ((s.goto j (.blackholing p job)).tasks j).replaces = true
    rw [goto_self]
    rfl
  | blackholing p job =>
    have hl := hlt (by rw [hpc]; nofun)
    exact ⟨h.keeps_goto j rfl, .inl (hestablish p job hpc), h.fresh_goto hl _⟩
  | locking job =>
    have hgoto : Guarded (s.goto j (.joining job)) :=
      h.goto rfl (by rw [hpc]; rfl) (hlt (by rw [hpc]; nofun))
    exact ⟨hgoto.keeps, hgoto.tun, hgoto.fresh⟩
  | joining job =>
    show Guarded (if s.finished job then s.goto j .done else s)
    split
    · exact h.goto rfl (by rw [hpc]; rfl) (hlt (by rw [hpc]; nofun))
    · exact h
  | done => exact h
  | _ =>
    rw [hpc] at hkeeps
    cases hkeeps

theorem guarded_dies {s : Service} (h : Guarded s) (j : Nat) {f : Supervisor → Supervisor}
    (hf : ∀ sup, (f sup).ending = sup.ending) : Guarded (s.dies j f) := by
  unfold dies
  split
  · rename_i c sup hpc
    have hkeeps := h.keeps j
    rw [hpc] at hkeeps
    refine h.goto ?_ (by rw [hpc]; rfl) (h.lt_launched (by rw [hpc]; nofun))
    simpa [Pc.keeps, hf] using hkeeps
  · exact h

/-! ### Whole runs -/

/-- Nothing is promised once the switch is lifted. -/
def GuardedUnlessLifted (s : Service) : Prop := s.lifted = true ∨ Guarded s

@[simp] theorem cancel_lifted (job : Option Nat) (s : Service) : (s.cancel job).lifted = s.lifted := by
  cases job <;> rfl

@[simp] theorem goto_lifted (j : Nat) (pc : Pc) (s : Service) : (s.goto j pc).lifted = s.lifted := rfl

@[simp] theorem enterLockdown_lifted (p : ConnectionProfile) (s : Service) :
    (s.enterLockdown p).lifted = s.lifted := cancel_lifted s.runJob s

@[simp] theorem cleanupNativeOnly_lifted (s : Service) : s.cleanupNativeOnly.lifted = s.lifted := rfl

@[simp] theorem cleanupForwardingOnly_lifted (s : Service) : s.cleanupForwardingOnly.lifted = s.lifted := rfl

/-- No coroutine lifts the switch or puts it back. -/
theorem resume_lifted (j : Nat) (o : Outcome) (pc : Pc) (s : Service) : (s.resume j o pc).lifted = s.lifted := by
  have hsupervise (c : ConnectionProfile) (sup : Supervisor) : (s.supervise j c sup o).lifted = s.lifted := by
    unfold supervise
    dsimp only
    split <;> simp
  cases pc with
  | rung plan => cases plan <;> rfl
  | _ =>
    unfold resume
    dsimp only
    repeat' split
    all_goals first | exact hsupervise .. | simp

theorem lifted_next {a : Action} {s : Service} (hu : Undisturbed a s) (h : s.lifted = true) :
    (next a s).lifted = true := by
  cases a with
  | connect p => exact hu.elim
  | disconnect =>
    show s.disconnect.lifted = true
    unfold disconnect
    split
    · rfl
    · split
      · split
        · rw [enterLockdown_lifted]
          exact h
        · rfl
      · rfl
  | step j o => exact (resume_lifted j o _ s).trans h
  | engineDies j | psiphonDies j =>
    show (s.dies j _).lifted = true
    unfold dies
    split <;> exact h

theorem guarded_disconnect {s : Service} (h : Guarded s) : GuardedUnlessLifted s.disconnect := by
  unfold disconnect
  split
  · exact .inl rfl
  · split
    · split
      · exact .inr (h.enterLockdown _)
      · exact .inl rfl
    · exact .inl rfl

theorem guardedUnlessLifted_next (a : Action) (s : Service) (h : GuardedUnlessLifted s) (hu : Undisturbed a s) :
    GuardedUnlessLifted (next a s) := by
  rcases h with hl | h
  · exact .inl (lifted_next hu hl)
  · cases a with
    | connect p => exact hu.elim
    | disconnect => exact guarded_disconnect h
    | step j o => exact .inr (guarded_step h hu)
    | engineDies j => exact .inr (guarded_dies h j fun _ => rfl)
    | psiphonDies j => exact .inr (guarded_dies h j fun _ => rfl)

theorem Settled.guarded {s : Service} (h : Settled s) : Guarded s := by
  obtain ⟨j, c, sup, hj, hpc, hlocks, hrunning, hothers⟩ := h.session
  refine ⟨fun i => ?_, .inl h.tun, fun i hi => hothers i (Nat.ne_of_gt (Nat.lt_of_lt_of_le hj hi))⟩
  by_cases hij : i = j
  · rw [hij, hpc]
    simp [Pc.keeps, hlocks, hrunning]
  · rw [hothers i hij]
    rfl

/-- **A session that is up stays sealed until the user connects or disconnects**: through
deaths and restarts of its engines, when it gives up and when it is disconnected in
strict mode, a TUN is established in every state visited, but for the moment in which
the blackhole takes its place. -/
theorem closed_of_undisturbed {s : Service} (hs : Settled s) (as : List Action)
    (h : Along next Undisturbed s as) :
    ∀ t ∈ visited next s as, t.lifted = false → ¬ t.Replacing → t.Closed := by
  intro t ht hlifted hreplacing
  have stepInv : ∀ (_ : Action) (_ : Service), True → True := fun _ _ h => h
  have hguarded := visited_of_along stepInv (fun a s _ => guardedUnlessLifted_next a s) trivial (.inr hs.guarded) as h
  rcases hguarded t ht with hl | hg
  · rw [hlifted] at hl
    cases hl
  · have htun := hg.tun.resolve_right hreplacing
    exact ⟨htun, fun _ => htun⟩

/-! ### The first session -/

end Service

/-- The kill switch is on and the session has a TUN. -/
def Armed (p : ConnectionProfile) : Prop := locksDown p = true ∧ p.proxyMode = false

theorem armed_candidate {p : ConnectionProfile} (h : Armed p) (t : Strategy) : Armed (t.candidate p) := h

theorem armed_directPlan {p : ConnectionProfile} (h : Armed p) : ∀ c ∈ directPlan p, Armed c := by
  intro c hc
  unfold directPlan at hc
  split at hc
  · rw [List.mem_singleton.mp hc]
    exact h
  · rcases List.mem_cons.mp hc with rfl | hc
    · exact h
    · rw [List.mem_singleton.mp hc]
      exact h

/-- What a session with the kill switch on is at: from the establishment of the TUN to the
next rung, it has one. -/
def Pc.OfArmed (tun : Bool) : Pc → Prop
  | .cancelling p .. | .clearing p .. | .joiningRun p .. | .joiningStop p _ | .planning p => Armed p
  | .rung plan | .falling plan => ∀ c ∈ plan, Armed c
  | .leaving c rest | .launching c rest | .establishing c rest => Armed c ∧ ∀ d ∈ rest, Armed d
  | .forwarding c rest | .verifying c rest => tun = true ∧ Armed c ∧ ∀ d ∈ rest, Armed d
  | .supervising c sup => tun = true ∧ Armed c ∧ sup.ending = .running
  | .recovering | .done => True
  | _ => False

namespace Service

/-- The steps of the first coroutine and its engines. -/
def Action.ofFirst : Action → Bool
  | .step j _ | .engineDies j | .psiphonDies j => j == 0
  | _ => false

/-- The session is the only coroutine, or it has ended. -/
def First (s : Service) : Prop := s.tasks 0 = .done ∨
  (s.launched = 1 ∧ (∀ i, i ≠ 0 → s.tasks i = .done) ∧ (s.tasks 0).OfArmed s.tun)

/-- No coroutine but the first runs. -/
structure Alone (s : Service) : Prop where
  launched : s.launched = 1
  others : ∀ i, i ≠ 0 → s.tasks i = .done

theorem Alone.goto {s : Service} (h : Alone s) {pc : Pc} (hpc : pc.OfArmed s.tun) : First (s.goto 0 pc) := by
  refine .inr ⟨h.launched, fun i hi => by rw [goto_of_ne hi]; exact h.others i hi, ?_⟩
  rw [goto_self]
  exact hpc

/-- The processes of the rung before are ended. -/
theorem Alone.clean {s : Service} (h : Alone s) {pc : Pc} (hpc : pc.OfArmed false) :
    First (s.cleanupNativeOnly.goto 0 pc) := by
  have hcleaned : Alone s.cleanupNativeOnly := by
    refine ⟨h.launched, fun i hi => ?_⟩
    show stopEngine (s.tasks i) = .done
    rw [h.others i hi]
    rfl
  exact hcleaned.goto hpc

theorem first_done (s : Service) : First (s.goto 0 .done) := .inl (goto_self ..)

section Resume
variable {s : Service} {p c : ConnectionProfile} {rest : List ConnectionProfile}

/-- There is no session to wait for, or the one there was is cancelled. -/
theorem Alone.cancelling (h : Alone s) (hp : Armed p) (previousRun previousStop : Option Nat) (o : Outcome) :
    First (s.resume 0 o (.cancelling p previousRun previousStop)) := by
  unfold resume
  dsimp only
  split
  · exact first_done s
  · split
    · exact h.goto hp
    · have hcancelled : Alone (s.cancel previousRun) := by
        cases previousRun with
        | none => exact h
        | some j => exact ⟨h.launched, h.others⟩
      exact hcancelled.goto (show Armed p from hp)

theorem Alone.joiningRun (h : Alone s) (hstay : First s) (hp : Armed p) (previousRun previousStop : Option Nat)
    (o : Outcome) : First (s.resume 0 o (.joiningRun p previousRun previousStop)) := by
  unfold resume
  dsimp only
  split
  · exact first_done s
  · split
    · exact h.goto hp
    · exact hstay

theorem Alone.joiningStop (h : Alone s) (hstay : First s) (hp : Armed p) (previousStop : Option Nat) (o : Outcome) :
    First (s.resume 0 o (.joiningStop p previousStop)) := by
  unfold resume
  dsimp only
  split
  · exact first_done s
  · split
    · exact h.goto hp
    · exact hstay

/-- Every candidate of the plan has the kill switch of the profile. -/
theorem Alone.planning (h : Alone s) (hp : Armed p) (o : Outcome) : First (s.resume 0 o (.planning p)) := by
  unfold resume
  dsimp only
  split
  · split
    · exact first_done s
    · split
      · refine h.goto fun c hc => ?_
        obtain ⟨t, -, rfl⟩ := List.mem_map.mp hc
        exact armed_candidate hp t
      · exact h.goto trivial
  · exact h.goto (armed_directPlan hp)

theorem Alone.rung (h : Alone s) {plan : List ConnectionProfile} (hplan : ∀ c ∈ plan, Armed c) (o : Outcome) :
    First (s.resume 0 o (.rung plan)) := by
  cases plan with
  | nil => exact h.goto trivial
  | cons c rest =>
    have hreset : Alone {s with lockdownTunActive := false} := ⟨h.launched, h.others⟩
    exact hreset.goto (show Armed c ∧ ∀ d ∈ rest, Armed d from List.forall_mem_cons.mp hplan)

/-- An armed candidate is no proxy, so a TUN is established for it. -/
theorem Alone.launching (h : Alone s) (hc : Armed c ∧ ∀ d ∈ rest, Armed d) (o : Outcome) :
    First (s.resume 0 o (.launching c rest)) := by
  have hproxy : c.proxyMode = false := hc.1.2
  unfold resume
  dsimp only
  split
  · exact first_done s
  · split
    · exact h.goto hc.2
    · rw [hproxy]
      exact h.goto hc

theorem Alone.establishing (h : Alone s) (hc : Armed c ∧ ∀ d ∈ rest, Armed d) (o : Outcome) :
    First (s.resume 0 o (.establishing c rest)) := by
  unfold resume
  dsimp only
  split
  · have hopened : Alone {s with tun := true, opened := true} := ⟨h.launched, h.others⟩
    exact hopened.goto ⟨rfl, hc⟩
  · exact h.goto hc.2

theorem Alone.forwarding (h : Alone s) (hc : s.tun = true ∧ Armed c ∧ ∀ d ∈ rest, Armed d) (o : Outcome) :
    First (s.resume 0 o (.forwarding c rest)) := by
  unfold resume
  dsimp only
  split
  · exact h.goto hc
  · exact h.goto hc.2.2

theorem Alone.verifying (h : Alone s) (hc : s.tun = true ∧ Armed c ∧ ∀ d ∈ rest, Armed d) (o : Outcome) :
    First (s.resume 0 o (.verifying c rest)) := by
  unfold resume
  dsimp only
  split
  · exact h.goto ⟨hc.1, hc.2.1, rfl⟩
  · exact h.goto hc.2.2

/-- The supervision of an armed session ends it or recovers. -/
theorem Alone.supervising (h : Alone s) {sup : Supervisor} (hc : s.tun = true ∧ Armed c ∧ sup.ending = .running)
    (o : Outcome) : First (s.resume 0 o (.supervising c sup)) := by
  have hprobe : Alone {s with probeFailures := (sup.turn c o.wake o.restart).probeFailures} := ⟨h.launched, h.others⟩
  unfold resume
  dsimp only
  split
  · exact first_done s
  · unfold supervise
    dsimp only
    split
    · rename_i hrunning
      exact hprobe.goto ⟨hc.1, hc.2.1, hrunning⟩
    · exact first_done _
    · exact hprobe.goto trivial
    · exact first_done _

end Resume

/-- Each step of the first session leads on, or ends it. -/
theorem first_resume {s : Service} (halone : Alone s) (hpc : (s.tasks 0).OfArmed s.tun) (o : Outcome) :
    First (s.resume 0 o (s.tasks 0)) := by
  have hstay : First s := .inr ⟨halone.launched, halone.others, hpc⟩
  generalize s.tasks 0 = pc at hpc ⊢
  cases pc with
  | cancelling p previousRun previousStop => exact halone.cancelling hpc previousRun previousStop o
  | clearing p previousRun previousStop => exact halone.clean hpc
  | joiningRun p previousRun previousStop => exact halone.joiningRun hstay hpc previousRun previousStop o
  | joiningStop p previousStop => exact halone.joiningStop hstay hpc previousStop o
  | planning p => exact halone.planning hpc o
  | rung plan => exact halone.rung hpc o
  | leaving c rest => exact halone.clean hpc
  | launching c rest => exact halone.launching hpc o
  | establishing c rest => exact halone.establishing hpc o
  | forwarding c rest => exact halone.forwarding hpc o
  | verifying c rest => exact halone.verifying hpc o
  | falling rest => exact halone.clean hpc
  | supervising c sup => exact halone.supervising hpc o
  | recovering => exact first_done _
  | done => exact hstay
  | _ => exact hpc.elim

theorem first_dies {s : Service} (h : First s) {f : Supervisor → Supervisor}
    (hf : ∀ sup, (f sup).ending = sup.ending) : First (s.dies 0 f) := by
  unfold dies
  split
  · rename_i c sup hpc
    rcases h with hdone | ⟨hl, hothers, h⟩
    · rw [hpc] at hdone
      cases hdone
    · rw [hpc] at h
      exact Alone.goto ⟨hl, hothers⟩ ⟨h.1, h.2.1, (hf sup).trans h.2.2⟩
  · exact h

theorem first_next {a : Action} (ha : a.ofFirst = true) {s : Service} (h : First s) : First (next a s) := by
  cases a with
  | step j o =>
    obtain rfl : j = 0 := by simpa [Action.ofFirst] using ha
    rcases h with hdone | ⟨hl, hothers, h⟩
    · show First (s.resume 0 o (s.tasks 0))
      rw [hdone]
      exact .inl hdone
    · exact first_resume ⟨hl, hothers⟩ h o
  | engineDies j =>
    obtain rfl : j = 0 := by simpa [Action.ofFirst] using ha
    exact first_dies h fun _ => rfl
  | psiphonDies j =>
    obtain rfl : j = 0 := by simpa [Action.ofFirst] using ha
    exact first_dies h fun _ => rfl
  | _ => cases ha

theorem first_run {s : Service} (h : First s) (as : List Action) (ha : ∀ a ∈ as, a.ofFirst = true) :
    First (run next s as) := by
  induction as generalizing s with
  | nil => exact h
  | cons a rest ih =>
    obtain ⟨ha', hrest⟩ := List.forall_mem_cons.mp ha
    exact ih (first_next ha' h) hrest

/-- The first session with the kill switch on, whatever its plan and however many of its
rungs fail, is settled when it is up. -/
theorem settled_of_first {p : ConnectionProfile} (hp : Armed p) (as : List Action)
    (ha : ∀ a ∈ as, a.ofFirst = true) {c : ConnectionProfile} {sup : Supervisor}
    (hup : (run next {} (.connect p :: as)).tasks 0 = .supervising c sup) :
    Settled (run next {} (.connect p :: as)) := by
  have hstart : First (next (.connect p) {}) :=
    .inr ⟨rfl, fun i hi => goto_of_ne hi (.cancelling p none none) {}, hp⟩
  rcases first_run hstart as ha with hdone | ⟨hl, hothers, hpc⟩
  · exact absurd (hup.symm.trans hdone) nofun
  · have hl' : (run next {} (.connect p :: as)).launched = 1 := hl
    have hpc' : ((run next {} (.connect p :: as)).tasks 0).OfArmed (run next {} (.connect p :: as)).tun := hpc
    rw [hup] at hpc'
    exact ⟨hpc'.1, 0, c, sup, by rw [hl']; decide, hup, hpc'.2.1.1, hpc'.2.2, hothers⟩

/-- A session with the strict kill switch is up. -/
def strictSession : Service :=
  run next {} (.connect {protocol := .wireguard, strictKillSwitch := true} :: List.replicate 9 (.step 0 {}))

theorem strictSession_settled : Settled strictSession :=
  settled_of_first ⟨rfl, rfl⟩ _ (by simp [Action.ofFirst]) rfl

/-- The user disconnects, and the lockdown runs to its end. -/
def lockdown : List Action := .disconnect :: List.replicate 4 (.step 1 {})

theorem closed_of_undisturbed_lockdown : (run next strictSession lockdown).lockdownTunActive = true ∧
    (run next strictSession lockdown).Closed := by
  have hstep (s : Service) : Undisturbed (.step 1 {}) s := ⟨fun _ _ _ => ⟨rfl, rfl⟩, fun _ _ _ => rfl⟩
  have hundisturbed : Along next Undisturbed strictSession lockdown :=
    ⟨trivial, hstep _, hstep _, hstep _, hstep _, trivial⟩
  have hreplaced : ¬ (run next strictSession lockdown).Replacing := by
    rintro ⟨j, hj⟩
    match j with
    | 0 => cases hj
    | 1 => cases hj
    | j + 2 => cases hj
  exact ⟨rfl, closed_of_undisturbed strictSession_settled lockdown hundisturbed _ (run_visited ..) rfl hreplaced⟩

/-- The session is up and the user connects again: the new session closes the TUN. -/
def reconnect : List Action :=
  .connect {protocol := .wireguard, killSwitch := true} :: List.replicate 9 (.step 0 {}) ++
    [.connect {protocol := .wireguard, killSwitch := true}, .step 1 {}, .step 1 {}]

theorem reconnect_opens : ¬ ∀ s ∈ visited next {} reconnect, Sealed s := by
  intro h
  have hsealed := h _ (run_visited next _ reconnect)
  have hopen : (run next {} reconnect).tun = false := rfl
  have htun := (hsealed rfl rfl).1
  rw [hopen] at htun
  cases htun

end Service

end Aether.Vpn
