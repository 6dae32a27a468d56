import Aether.Masque.H2Run

/-! Who looks at the deadlines of `masque_h2::run`.

The deadlines are looked at where the loop begins, so a deadline is noticed only if
something wakes the run. `enabled` lists what can. An edge that has gone silent wakes
nothing but a timer, and both timers can be off while a deadline is set: the keepalive is
not ticking while its own pong is awaited, and inside `send_capsule` only capacity counts.

`watched_iff` says which runs never get there. -/
namespace Aether.Masque.H2
open Machine

/-! ### What can wake the run -/

inductive Wake where
  | keepalive
  | pong
  | probe
  | ctrl
  | outbound
  | body
  | capacity
  deriving DecidableEq

/-- The ticks of the two intervals. -/
def Wake.isTimer (w : Wake) : Bool := w == .keepalive || w == .probe

/-- What an event wakes the run as, if it is one the loop waits for. -/
def Event.wake : Event → Option Wake
  | .keepaliveTick _ => some .keepalive
  | .pong _ => some .pong
  | .probeTick => some .probe
  | .ctrl _ => some .ctrl
  | .outbound _ => some .outbound
  | .chunk _ _ => some .body
  | .bodyError => some .body
  | .bodyEnd => some .body
  | .capacity _ => some .capacity
  | _ => none

/-- The branches whose guards hold. -/
def enabled (cfg : Config) (s : State) : List Wake :=
  match s.phase with
  | .select =>
    (if s.readyFired && !s.awaitingPong then [.keepalive] else []) ++
      (if s.awaitingPong then [.pong] else []) ++
      (if cfg.dataCheck && !s.readyFired then [.probe] else []) ++ [.ctrl, .outbound, .body]
  | .sending _ _ => [.capacity]
  | _ => []

/-- The run waits, in `select!` or for capacity. -/
def waits (s : State) : Bool :=
  match s.phase with
  | .select => true
  | .sending _ _ => true
  | _ => false

/-- Nothing else can wake a run that waits. -/
theorem next_of_disabled {cfg : Config} {s : State} {event : Event} (hwaits : waits s = true)
    (hdisabled : ∀ w ∈ event.wake, w ∉ enabled cfg s) (io : Io) : s.next cfg (event, io) = s := by
  cases hphase : s.phase with
  | select =>
    simp only [State.next, hphase]
    cases event with
    | keepaliveTick pingOk =>
      have hoff := hdisabled .keepalive rfl
      simp only [enabled, hphase] at hoff
      rw [State.selected, if_neg]
      intro hguard
      rw [if_pos hguard] at hoff
      exact hoff (by simp)
    | pong ok =>
      have hoff := hdisabled .pong rfl
      simp only [enabled, hphase] at hoff
      rw [State.selected, if_neg]
      intro hguard
      rw [if_pos hguard] at hoff
      exact hoff (by simp)
    | probeTick =>
      have hoff := hdisabled .probe rfl
      simp only [enabled, hphase] at hoff
      rw [State.selected, if_neg]
      intro hguard
      rw [if_pos hguard] at hoff
      exact hoff (by simp)
    | ctrl message => exact absurd (by simp [enabled, hphase]) (hdisabled .ctrl rfl)
    | outbound packet => exact absurd (by simp [enabled, hphase]) (hdisabled .outbound rfl)
    | chunk bytes sinks => exact absurd (by simp [enabled, hphase]) (hdisabled .body rfl)
    | bodyError => exact absurd (by simp [enabled, hphase]) (hdisabled .body rfl)
    | bodyEnd => exact absurd (by simp [enabled, hphase]) (hdisabled .body rfl)
    | _ => rfl
  | sending what len =>
    cases event
    case capacity result => exact absurd (by simp [enabled, hphase]) (hdisabled .capacity rfl)
    all_goals simp only [State.next, hphase]
  | connecting => simp [waits, hphase] at hwaits
  | awaitingResponse => simp [waits, hphase] at hwaits
  | ended outcome => simp [waits, hphase] at hwaits

/-- A deadline is set. -/
def pending (s : State) : Bool := s.pongDeadline.isSome || s.validateDeadline.isSome

/-- A timer is among what can wake a run that waits with a deadline. -/
def Watched (cfg : Config) (s : State) : Prop :=
  waits s = true → pending s = true → ∃ w ∈ enabled cfg s, w.isTimer = true

instance (cfg : Config) (s : State) : Decidable (Watched cfg s) := inferInstanceAs (Decidable (_ → _ → _))

/-! ### Which deadlines are set -/

/-- Before the loop neither deadline is set. -/
structure Unset (s : State) : Prop where
  readyFired : s.readyFired = false
  validateDeadline : s.validateDeadline = none
  awaitingPong : s.awaitingPong = false
  pongDeadline : s.pongDeadline = none

/-- In the loop the validation deadline is set until the signal, and the pong's deadline
while it is awaited. -/
structure Clocks (cfg : Config) (s : State) : Prop where
  checked : s.readyFired = false → cfg.dataCheck = true
  validate : s.validateDeadline.isSome = !s.readyFired
  pong : s.pongDeadline.isSome = s.awaitingPong
  ready : s.awaitingPong = true → s.readyFired = true

def ClockInv (cfg : Config) (s : State) : Prop :=
  match s.phase with
  | .connecting => Unset s
  | .awaitingResponse => Unset s
  | .sending .initial _ => Unset s ∧ cfg.dataCheck = true
  | .ended _ => True
  | _ => Clocks cfg s

section ClockSteps

variable {cfg : Config} {s : State}

theorem Clocks.loopTop (h : Clocks cfg s) (now : Nat) : ClockInv cfg (s.loopTop cfg now) := by
  obtain htop | htop := loopTop_cases cfg now s
  · rw [htop]
    trivial
  · rw [htop]
    exact ⟨h.checked, h.validate, h.pong, h.ready⟩

theorem Clocks.sent (h : Clocks cfg s) {what : Sending} (hwhat : what ≠ .initial) (ok : Bool) (now : Nat) :
    ClockInv cfg (s.sent cfg what ok now) := by
  have hprobe : Clocks cfg (if ok then s.record .probe else s) := by
    split
    · exact ⟨h.checked, h.validate, h.pong, h.ready⟩
    · exact h
  cases what with
  | initial => exact absurd rfl hwhat
  | probe => exact hprobe.loopTop now
  | followUp => exact hprobe.loopTop now
  | outbound =>
    rw [State.sent]
    split
    · exact h.loopTop now
    · trivial

/-- The first probe is sent, or not, and its deadline set. -/
theorem Unset.sent (h : Unset s) (hcheck : cfg.dataCheck = true) (ok : Bool) (now : Nat) :
    ClockInv cfg (s.sent cfg .initial ok now) := by
  apply Clocks.loopTop
  split
  all_goals
    refine ⟨fun _ => hcheck, ?_, ?_, ?_⟩
    · simp [State.record, h.readyFired]
    · simp [State.record, h.pongDeadline, h.awaitingPong]
    · simp [State.record, h.awaitingPong]

theorem Clocks.sendCapsule (h : Clocks cfg s) {what : Sending} (hwhat : what ≠ .initial) (len : Nat) (io : Io) :
    ClockInv cfg (s.sendCapsule cfg what len io) := by
  obtain hsend | hsend := sendCapsule_cases cfg what len io s
  · have hclocks : Clocks cfg {s with phase := .sending what len} := ⟨h.checked, h.validate, h.pong, h.ready⟩
    rw [hsend]
    cases what with
    | initial => exact absurd rfl hwhat
    | _ => exact hclocks
  · rw [hsend]
    exact h.sent hwhat io.sendOk io.now

theorem Unset.sendCapsule (h : Unset s) (hcheck : cfg.dataCheck = true) (len : Nat) (io : Io) :
    ClockInv cfg (s.sendCapsule cfg .initial len io) := by
  obtain hsend | hsend := sendCapsule_cases cfg .initial len io s
  · rw [hsend]
    exact ⟨⟨h.readyFired, h.validateDeadline, h.awaitingPong, h.pongDeadline⟩, hcheck⟩
  · rw [hsend]
    exact h.sent hcheck io.sendOk io.now

theorem Unset.accepted (h : Unset s) (io : Io) : ClockInv cfg (s.accepted cfg io) := by
  rw [State.accepted]
  split
  case isTrue hcheck => exact h.sendCapsule hcheck _ io
  case isFalse =>
    apply Clocks.loopTop
    refine ⟨?_, ?_, ?_, ?_⟩
    · simp [State.record]
    · simp [State.record, h.validateDeadline]
    · simp [State.record, h.pongDeadline, h.awaitingPong]
    · simp [State.record]

theorem Clocks.received (h : Clocks cfg s) (bytes : List UInt8) (sinks : Sinks) (io : Io) :
    ClockInv cfg (s.received cfg bytes sinks io) := by
  obtain ⟨capsules, ⟨-, hrec⟩ | ⟨-, -, hrec⟩ | ⟨-, -, -, hrec⟩ | ⟨-, -, -, hrec⟩⟩ :=
    received_cases cfg bytes sinks io s
  · rw [hrec]
    apply Clocks.loopTop
    exact ⟨h.checked, h.validate, h.pong, h.ready⟩
  · rw [hrec]
    apply Clocks.loopTop
    exact ⟨h.checked, h.validate, h.pong, h.ready⟩
  · rw [hrec]
    apply Clocks.loopTop
    exact ⟨fun hfalse => absurd hfalse (by simp [State.record]), rfl, h.pong, fun _ => rfl⟩
  · rw [hrec]
    apply Clocks.sendCapsule
    · exact ⟨h.checked, h.validate, h.pong, h.ready⟩
    · simp

theorem Clocks.selected (h : Clocks cfg s) (hphase : s.phase = .select) (io : Io) (event : Event) :
    ClockInv cfg (s.selected cfg io event) := by
  have hstay : ClockInv cfg s := by
    rw [ClockInv, hphase]
    exact h
  cases event with
  | keepaliveTick pingOk =>
    dsimp only [State.selected]
    split
    case isTrue hguard =>
      apply Clocks.loopTop
      split
      · exact ⟨h.checked, h.validate, rfl, fun _ => (Bool.and_eq_true_iff.mp hguard).1⟩
      · exact h
    case isFalse => exact hstay
  | pong ok =>
    dsimp only [State.selected]
    split
    · split
      · apply Clocks.loopTop
        exact ⟨h.checked, h.validate, rfl, fun htrue => absurd htrue (by simp)⟩
      · trivial
    · exact hstay
  | probeTick =>
    dsimp only [State.selected]
    split
    · exact h.sendCapsule (by simp) _ io
    · exact hstay
  | ctrl message =>
    rcases message with _ | _ | _
    · trivial
    · trivial
    · exact h.loopTop io.now
  | outbound packet =>
    cases packet with
    | none => trivial
    | some packet => exact h.sendCapsule (by simp) _ io
  | chunk bytes sinks => exact h.received bytes sinks io
  | bodyError => trivial
  | bodyEnd => trivial
  | _ => exact hstay

theorem clocks_of_sending {what : Sending} {len : Nat} (h : ClockInv cfg s) (hphase : s.phase = .sending what len)
    (hwhat : what ≠ .initial) : Clocks cfg s := by
  rw [ClockInv, hphase] at h
  cases what with
  | initial => exact absurd rfl hwhat
  | _ => exact h

theorem clockInv_step (step : Event × Io) (s : State) (h : ClockInv cfg s) : ClockInv cfg (s.next cfg step) := by
  obtain ⟨event, io⟩ := step
  cases hphase : s.phase with
  | connecting =>
    have hunset : Unset s := by
      rw [ClockInv, hphase] at h
      exact h
    cases event
    case connected ok =>
      rw [State.next, hphase]
      dsimp only
      split
      · exact ⟨hunset.readyFired, hunset.validateDeadline, hunset.awaitingPong, hunset.pongDeadline⟩
      · trivial
    all_goals
      simp only [State.next, hphase]
      exact h
  | awaitingResponse =>
    have hunset : Unset s := by
      rw [ClockInv, hphase] at h
      exact h
    cases event
    case response status =>
      rw [State.next, hphase]
      cases status with
      | none => trivial
      | some code =>
        dsimp only
        split
        · apply Unset.accepted
          exact ⟨hunset.readyFired, hunset.validateDeadline, hunset.awaitingPong, hunset.pongDeadline⟩
        · trivial
    all_goals
      simp only [State.next, hphase]
      exact h
  | sending what len =>
    cases event
    case capacity result =>
      rw [State.next, hphase]
      by_cases hwhat : what = .initial
      · rw [ClockInv, hphase, hwhat] at h
        rw [hwhat]
        cases result with
        | more => exact h.1.sendCapsule h.2 len io
        | error => exact h.1.sent h.2 false io.now
        | closed => exact h.1.sent h.2 false io.now
      · have hclocks := clocks_of_sending h hphase hwhat
        cases result with
        | more => exact hclocks.sendCapsule hwhat len io
        | error => exact hclocks.sent hwhat false io.now
        | closed => exact hclocks.sent hwhat false io.now
    all_goals
      simp only [State.next, hphase]
      exact h
  | select =>
    have hclocks : Clocks cfg s := by
      rw [ClockInv, hphase] at h
      exact h
    rw [State.next, hphase]
    exact hclocks.selected hphase io event
  | ended outcome =>
    simp only [State.next, hphase]
    exact h

end ClockSteps

/-! ### When a deadline is watched -/

/-- No ping is sent, and no capsule waits for capacity while a deadline is set. -/
def Attended (cfg : Config) (step : Event × Io) (s : State) : Prop :=
  match s.phase, step.1 with
  | .select, .keepaliveTick true => (s.readyFired && !s.awaitingPong) = false
  | .select, .probeTick =>
    (cfg.dataCheck && !s.readyFired) = true → framedLength cfg.probePacket ≤ step.2.capacity
  | .select, .outbound (some packet) => pending s = true → framedLength packet ≤ step.2.capacity
  | .select, .chunk bytes sinks =>
    delivers cfg s bytes sinks = true → s.readyFired = false →
      s.validateSuccesses + 1 < dataProbeRequiredSuccesses → framedLength cfg.probePacket ≤ step.2.capacity
  | _, _ => True

section Watch

variable {cfg : Config} {s : State}

theorem watched_of_not_waits (h : waits s = false) : Watched cfg s := by
  intro hwaits
  rw [h] at hwaits
  cases hwaits

/-- In `select!` the probes watch the validation deadline, and nothing watches the pong's. -/
theorem watched_select_iff (h : Clocks cfg s) (hphase : s.phase = .select) :
    Watched cfg s ↔ s.pongDeadline = none := by
  have hwaits : waits s = true := by rw [waits, hphase]
  constructor
  · intro hwatched
    cases hpong : s.pongDeadline with
    | none => rfl
    | some deadline =>
      have hawaiting : s.awaitingPong = true := by rw [← h.pong, hpong]; rfl
      have hready := h.ready hawaiting
      obtain ⟨w, hmem, htimer⟩ := hwatched hwaits (by rw [pending, hpong]; rfl)
      simp only [enabled, hphase, hawaiting, hready] at hmem
      revert htimer
      cases w <;> simp_all [Wake.isTimer]
  · intro hpong _ hpending
    rw [pending, hpong, h.validate] at hpending
    have hready : s.readyFired = false := by simpa using hpending
    refine ⟨.probe, ?_, rfl⟩
    simp [enabled, hphase, h.checked hready, hready]

/-- Nothing but capacity is waited for in `send_capsule`. -/
theorem watched_sending_iff {what : Sending} {len : Nat} (hphase : s.phase = .sending what len) :
    Watched cfg s ↔ pending s = false := by
  have hwaits : waits s = true := by rw [waits, hphase]
  have henabled : enabled cfg s = [.capacity] := by rw [enabled, hphase]
  rw [Watched, henabled]
  constructor
  · intro hwatched
    cases hpending : pending s with
    | false => rfl
    | true =>
      obtain ⟨w, hmem, htimer⟩ := hwatched hwaits hpending
      rw [List.mem_singleton.mp hmem] at htimer
      cases htimer
  · intro hnone _ hpending
    rw [hnone] at hpending
    cases hpending

theorem pongDeadline_of_watched (h : Clocks cfg s) (hphase : s.phase = .select) (hwatched : Watched cfg s) :
    s.pongDeadline = none ∧ s.awaitingPong = false := by
  have hpong := (watched_select_iff h hphase).mp hwatched
  refine ⟨hpong, ?_⟩
  rw [← h.pong, hpong]
  rfl

theorem watched_loopTop (h : Clocks cfg s) (hpong : s.pongDeadline = none) (now : Nat) :
    Watched cfg (s.loopTop cfg now) := by
  obtain htop | htop := loopTop_cases cfg now s
  · rw [htop]
    exact watched_of_not_waits rfl
  · have hclocks : Clocks cfg {s with phase := .select} := ⟨h.checked, h.validate, h.pong, h.ready⟩
    rw [htop]
    exact (watched_select_iff hclocks rfl).mpr hpong

/-- A ping that is sent sets a deadline that nothing watches. -/
theorem not_watched_ping (h : Clocks cfg s) (hready : s.readyFired = true) (now : Nat) :
    ¬ Watched cfg
      ({s with awaitingPong := true, pongDeadline := some (now + cfg.keepaliveTimeout)}.loopTop cfg now) := by
  have hpos := cfg.keepalive_pos
  have htop : {s with awaitingPong := true, pongDeadline := some (now + cfg.keepaliveTimeout)}.loopTop cfg now =
      {s with awaitingPong := true, pongDeadline := some (now + cfg.keepaliveTimeout), phase := .select} := by
    rw [State.loopTop, if_neg (by simp [hready]), if_neg (by simp; omega)]
  have hclocks : Clocks cfg
      {s with awaitingPong := true, pongDeadline := some (now + cfg.keepaliveTimeout), phase := .select} :=
    ⟨h.checked, h.validate, rfl, fun _ => hready⟩
  rw [htop, watched_select_iff hclocks rfl]
  simp

theorem watched_sent (h : Clocks cfg s) (hpong : s.pongDeadline = none) {what : Sending} (hwhat : what ≠ .initial)
    (ok : Bool) (now : Nat) : Watched cfg (s.sent cfg what ok now) := by
  have hprobe : Watched cfg ((if ok then s.record .probe else s).loopTop cfg now) := by
    split
    · have hrecord : Clocks cfg (s.record .probe) := ⟨h.checked, h.validate, h.pong, h.ready⟩
      exact watched_loopTop hrecord hpong now
    · exact watched_loopTop h hpong now
  cases what with
  | initial => exact absurd rfl hwhat
  | probe => exact hprobe
  | followUp => exact hprobe
  | outbound =>
    rw [State.sent]
    split
    · exact watched_loopTop h hpong now
    · exact watched_of_not_waits rfl

theorem watched_sendCapsule_iff (h : Clocks cfg s) (hpong : s.pongDeadline = none) {what : Sending}
    (hwhat : what ≠ .initial) (len : Nat) (io : Io) :
    Watched cfg (s.sendCapsule cfg what len io) ↔ (pending s = true → len ≤ io.capacity) := by
  rw [State.sendCapsule]
  split
  case isTrue hless =>
    rw [watched_sending_iff rfl]
    constructor
    · intro hnone hpending
      exact absurd (hnone.symm.trans hpending) (by simp)
    · intro hfits
      cases hpending : pending s with
      | false => exact hpending
      | true => exact absurd (hfits hpending) (by omega)
  case isFalse hfits =>
    exact iff_of_true (watched_sent h hpong hwhat io.sendOk io.now) fun _ => by omega

/-- The first probe may wait: its deadline is set behind it. -/
theorem watched_initial_sent (h : Unset s) (hcheck : cfg.dataCheck = true) (ok : Bool) (now : Nat) :
    Watched cfg (s.sent cfg .initial ok now) := by
  have hclocks : ∀ s' : State, s'.readyFired = false → s'.awaitingPong = false → s'.pongDeadline = none →
      Watched cfg ({s' with validateDeadline := some (now + cfg.validationTimeout)}.loopTop cfg now) := by
    intro s' hready hawaiting hpong
    apply watched_loopTop
    · refine ⟨fun _ => hcheck, ?_, ?_, ?_⟩
      · simp [hready]
      · simp [hpong, hawaiting]
      · simp [hawaiting]
    · exact hpong
  dsimp only [State.sent]
  split
  · exact hclocks (s.record .probe) h.readyFired h.awaitingPong h.pongDeadline
  · exact hclocks s h.readyFired h.awaitingPong h.pongDeadline

theorem watched_initial (h : Unset s) (hcheck : cfg.dataCheck = true) (len : Nat) (io : Io) :
    Watched cfg (s.sendCapsule cfg .initial len io) := by
  obtain hsend | hsend := sendCapsule_cases cfg .initial len io s
  · rw [hsend, watched_sending_iff rfl]
    simp [pending, h.pongDeadline, h.validateDeadline]
  · rw [hsend]
    exact watched_initial_sent h hcheck io.sendOk io.now

theorem watched_accepted (h : Unset s) (io : Io) : Watched cfg (s.accepted cfg io) := by
  rw [State.accepted]
  split
  case isTrue hcheck => exact watched_initial h hcheck _ io
  case isFalse =>
    apply watched_loopTop
    · refine ⟨?_, ?_, ?_, ?_⟩
      · simp [State.record]
      · simp [State.record, h.validateDeadline]
      · simp [State.record, h.pongDeadline, h.awaitingPong]
      · simp [State.record]
    · exact h.pongDeadline

theorem watched_received_iff (h : Clocks cfg s) (hpong : s.pongDeadline = none) (bytes : List UInt8) (sinks : Sinks)
    (io : Io) :
    Watched cfg (s.received cfg bytes sinks io) ↔
      (delivers cfg s bytes sinks = true → s.readyFired = false →
        s.validateSuccesses + 1 < dataProbeRequiredSuccesses → framedLength cfg.probePacket ≤ io.capacity) := by
  obtain ⟨capsules, ⟨hd, hrec⟩ | ⟨-, hready, hrec⟩ | ⟨-, -, hlast, hrec⟩ | ⟨hd, hready, hless, hrec⟩⟩ :=
    received_cases cfg bytes sinks io s
  · have hwatched : Watched cfg (s.received cfg bytes sinks io) := by
      rw [hrec]
      apply watched_loopTop
      · exact ⟨h.checked, h.validate, h.pong, h.ready⟩
      · exact hpong
    exact iff_of_true hwatched fun htrue => absurd (hd.symm.trans htrue) (by simp)
  · have hwatched : Watched cfg (s.received cfg bytes sinks io) := by
      rw [hrec]
      apply watched_loopTop
      · exact ⟨h.checked, h.validate, h.pong, h.ready⟩
      · exact hpong
    exact iff_of_true hwatched fun _ hfalse => absurd (hready.symm.trans hfalse) (by simp)
  · have hwatched : Watched cfg (s.received cfg bytes sinks io) := by
      rw [hrec]
      apply watched_loopTop
      · exact ⟨fun hfalse => absurd hfalse (by simp [State.record]), rfl, h.pong, fun _ => rfl⟩
      · exact hpong
    exact iff_of_true hwatched fun _ _ hless => absurd hlast (by omega)
  · have hpending : pending
        {{s with capsules}.record .reception with validateSuccesses := s.validateSuccesses + 1} = true := by
      show (s.pongDeadline.isSome || s.validateDeadline.isSome) = true
      rw [h.validate, hready]
      simp
    rw [hrec]
    refine (watched_sendCapsule_iff ?_ ?_ (by simp) _ _).trans ?_
    · exact ⟨h.checked, h.validate, h.pong, h.ready⟩
    · exact hpong
    · exact ⟨fun hfits _ _ _ => hfits hpending, fun hfits _ => hfits hd hready hless⟩

/-- What one branch of `select!` asks. -/
theorem watched_selected_iff (h : Clocks cfg s) (hphase : s.phase = .select) (hwatched : Watched cfg s) (io : Io)
    (event : Event) : Watched cfg (s.selected cfg io event) ↔ Attended cfg (event, io) s := by
  obtain ⟨hpong, hawaiting⟩ := pongDeadline_of_watched h hphase hwatched
  simp only [Attended, hphase]
  cases event with
  | keepaliveTick pingOk =>
    dsimp only [State.selected]
    split
    case isTrue hguard =>
      cases pingOk with
      | false => exact iff_of_true (watched_loopTop h hpong io.now) trivial
      | true =>
        have hready := (Bool.and_eq_true_iff.mp hguard).1
        exact iff_of_false (not_watched_ping h hready io.now) (by simp [hguard])
    case isFalse hguard =>
      rw [Bool.not_eq_true] at hguard
      cases pingOk with
      | false => exact iff_of_true hwatched trivial
      | true => exact iff_of_true hwatched hguard
  | pong ok =>
    dsimp only [State.selected]
    rw [if_neg (by simp [hawaiting])]
    exact iff_of_true hwatched trivial
  | probeTick =>
    dsimp only [State.selected]
    split
    case isTrue hguard =>
      have hready : s.readyFired = false := by
        rw [Bool.and_eq_true_iff] at hguard
        simpa using hguard.2
      have hpending : pending s = true := by
        rw [pending, h.validate, hready]
        simp
      rw [watched_sendCapsule_iff h hpong (by simp)]
      exact ⟨fun hfits _ => hfits hpending, fun hfits _ => hfits hguard⟩
    case isFalse hguard => exact iff_of_true hwatched fun htrue => absurd htrue hguard
  | ctrl message =>
    rcases message with _ | _ | _
    · exact iff_of_true (watched_of_not_waits rfl) trivial
    · exact iff_of_true (watched_of_not_waits rfl) trivial
    · exact iff_of_true (watched_loopTop h hpong io.now) trivial
  | outbound packet =>
    cases packet with
    | none => exact iff_of_true (watched_of_not_waits rfl) trivial
    | some packet => exact watched_sendCapsule_iff h hpong (by simp) _ io
  | chunk bytes sinks => exact watched_received_iff h hpong bytes sinks io
  | bodyError => exact iff_of_true (watched_of_not_waits rfl) trivial
  | bodyEnd => exact iff_of_true (watched_of_not_waits rfl) trivial
  | _ => exact iff_of_true hwatched trivial

theorem watched_step (step : Event × Io) (s : State) (hinv : ClockInv cfg s) (h : Watched cfg s) :
    Watched cfg (s.next cfg step) ↔ Attended cfg step s := by
  obtain ⟨event, io⟩ := step
  cases hphase : s.phase with
  | connecting =>
    simp only [Attended, hphase, iff_true]
    cases event
    case connected ok =>
      rw [State.next, hphase]
      dsimp only
      split
      · exact watched_of_not_waits rfl
      · exact watched_of_not_waits rfl
    all_goals
      simp only [State.next, hphase]
      exact h
  | awaitingResponse =>
    simp only [Attended, hphase, iff_true]
    cases event
    case response status =>
      rw [ClockInv, hphase] at hinv
      rw [State.next, hphase]
      cases status with
      | none => exact watched_of_not_waits rfl
      | some code =>
        dsimp only
        split
        · apply watched_accepted
          exact ⟨hinv.readyFired, hinv.validateDeadline, hinv.awaitingPong, hinv.pongDeadline⟩
        · exact watched_of_not_waits rfl
    all_goals
      simp only [State.next, hphase]
      exact h
  | sending what len =>
    simp only [Attended, hphase, iff_true]
    cases event
    case capacity result =>
      have hpending := (watched_sending_iff hphase).mp h
      rw [State.next, hphase]
      by_cases hwhat : what = .initial
      · rw [ClockInv, hphase, hwhat] at hinv
        rw [hwhat]
        cases result with
        | more => exact watched_initial hinv.1 hinv.2 len io
        | error => exact watched_initial_sent hinv.1 hinv.2 false io.now
        | closed => exact watched_initial_sent hinv.1 hinv.2 false io.now
      · have hclocks := clocks_of_sending hinv hphase hwhat
        have hpong : s.pongDeadline = none := by
          rw [pending, Bool.or_eq_false_iff] at hpending
          exact Option.isNone_iff_eq_none.mp (by simpa using hpending.1)
        cases result with
        | more =>
          apply (watched_sendCapsule_iff hclocks hpong hwhat len io).mpr
          exact fun htrue => absurd (hpending.symm.trans htrue) (by simp)
        | error => exact watched_sent hclocks hpong hwhat false io.now
        | closed => exact watched_sent hclocks hpong hwhat false io.now
    all_goals
      simp only [State.next, hphase]
      exact h
  | select =>
    rw [ClockInv, hphase] at hinv
    rw [State.next, hphase]
    exact watched_selected_iff hinv hphase h io event
  | ended outcome =>
    simp only [State.next, Attended, hphase, iff_true]
    exact h

/-- **When every pending deadline is watched**: exactly in the runs that send no ping and
never wait for capacity while a deadline is set. -/
theorem watched_iff (cfg : Config) (events : List (Event × Io)) :
    (∀ s ∈ visited (State.next cfg) {} events, Watched cfg s) ↔
      Along (State.next cfg) (Attended cfg) {} events := by
  have hinv : ClockInv cfg {} := ⟨rfl, rfl, rfl, rfl⟩
  exact visited_iff_along clockInv_step watched_step hinv (watched_of_not_waits rfl) events

/-- The tunnel is up without the data check and the first ping goes out: the run waits
with the deadline of its pong, and no timer is enabled. -/
theorem pong_deadline_unwatched :
    ¬ Watched ⟨.aarch64, false, 10, by decide, 20, by decide, []⟩
      (run (State.next ⟨.aarch64, false, 10, by decide, 20, by decide, []⟩) {}
        [(.connected true, ⟨0, 0, true⟩), (.response (some 200), ⟨1, 0, true⟩),
          (.keepaliveTick true, ⟨2, 0, true⟩)]) := by
  decide

end Watch

end Aether.Masque.H2
